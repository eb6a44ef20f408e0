import FormWeaver.Proofs.Form.Extraction
import FormWeaver.Proofs.Instrumenter.References
import FormWeaver.Proofs.Nested.Remembered
import FormWeaver.Proofs.Run.Effects
import FormWeaver.Proofs.Run.Single

/-!
# What was processed before makes no difference

All descriptors of a run share one resolver, which remembers what it has resolved for the earlier ones.
A step keeps the resolver faithful (`Step.isFaithful_after`), so as long as searches find the same, every
step of a run starts from a faithful one (`isFaithful_of_mem_trace`). What a descriptor comes to is
therefore what it would come to if it were the first (`resolves_as_first`): its references are found, or
not, in the same way, and its process is given the same arguments.
-/

namespace FormWeaver

open Nested (Resolver closure closure_of_isFaithful isFaithful_closure)

/-! ## One class -/

namespace Instrumenter

variable {d : Disk} {r r' : Resolver}

theorem arguments_congr (i : Instrumenter) (d : Disk) (q : Request) (h : r'.forget = r.forget)
    (nested : List (String × Form)) : i.arguments r' d q nested = i.arguments r d q nested := by
  unfold arguments nestedArguments Resolver.bindingOf
  rw [Resolver.context_eq h, Resolver.classRoot_eq h]

theorem concluded_eq (i : Instrumenter) (d : Disk) (r r' : Resolver) (args : List String) :
    i.concluded d r' args = { i.concluded d r args with resolver := r' } := by
  unfold concluded
  split <;> rfl

theorem resolver_transform (i : Instrumenter) (d : Disk) (r : Resolver) (q : Request) :
    (i.transform d r q).resolver = (closure d r q.form).2 := by
  cases hanswer : (closure d r q.form).1 with
  | error e => rw [i.transform_of_closure_error (Prod.ext hanswer rfl)]
  | ok forms =>
    rw [i.transform_of_closure (Prod.ext hanswer rfl)]
    unfold concluded
    split <;> rfl

/-- Instrumenting a class comes to the same whatever a faithful resolver remembers. -/
theorem transform_of_isFaithful (i : Instrumenter) (h : r.IsFaithful d) (h' : r'.IsFaithful d)
    (hforget : r'.forget = r.forget) (q : Request) :
    i.transform d r' q = { i.transform d r q with resolver := (closure d r' q.form).2 } := by
  have hsame := closure_of_isFaithful h h' hforget q.form
  cases hanswer : (closure d r q.form).1 with
  | error e =>
    rw [i.transform_of_closure_error (Prod.ext hanswer rfl),
      i.transform_of_closure_error (Prod.ext (hsame.trans hanswer) rfl)]
  | ok forms =>
    have hargs : i.arguments (closure d r' q.form).2 d q forms =
        i.arguments (closure d r q.form).2 d q forms := by
      apply arguments_congr
      rw [(isFaithful_closure h' q.form).2, (isFaithful_closure h q.form).2, hforget]
    rw [i.transform_of_closure (Prod.ext hanswer rfl),
      i.transform_of_closure (Prod.ext (hsame.trans hanswer) rfl), hargs]
    exact i.concluded_eq d _ _ _

end Instrumenter

namespace Run

/-! ## One step -/

namespace Step

variable {x : Step}

/-- The step with another resolver. -/
def withResolver (x : Step) (r : Resolver) : Step := { x with before := { x.before with resolver := r } }

/-- **A step keeps the resolver faithful**, and leaves what it works on as it was. -/
theorem isFaithful_after (h : x.before.resolver.IsFaithful x.before.disk) :
    x.after.resolver.IsFaithful x.before.disk ∧
      x.after.resolver.forget = x.before.resolver.forget := by
  cases hatt : x.isAttempt with
  | false =>
    rw [after_of_not_isAttempt hatt]
    exact ⟨h, rfl⟩
  | true =>
    obtain ⟨form, classFile, ha, hc⟩ := isAttempt_iff.mp hatt
    obtain ⟨-, -, hresolver, -⟩ := attempt_cases ha hc
    rw [hresolver, outcome, Instrumenter.resolver_transform]
    exact isFaithful_closure h form

/-- The arguments of the process do not depend on what a faithful resolver remembers, except through what
is found. -/
theorem invocation?_eq (h : x.before.resolver.IsFaithful x.before.disk) (form : Form)
    (classFile : Path) :
    x.invocation? form classFile =
      (closure x.before.disk x.before.resolver form).1.toOption.map fun nested =>
        ⟨x.setup.instrumenter.program, x.setup.instrumenter.arguments x.before.resolver x.before.disk
          ⟨x.descriptor, form, classFile, x.setup.scaling⟩ nested⟩ := by
  have hforget := (isFaithful_closure h form).2
  unfold invocation?
  split
  · next e r hclosure =>
    rw [hclosure]
    rfl
  · next nested r hclosure =>
    rw [hclosure] at hforget ⊢
    rw [Instrumenter.arguments_congr _ _ _ hforget]
    rfl

theorem invocation?_withResolver {r : Resolver} (h : x.before.resolver.IsFaithful x.before.disk)
    (hr : r.IsFaithful x.before.disk) (hforget : x.before.resolver.forget = r.forget) (form : Form)
    (classFile : Path) :
    x.invocation? form classFile = (x.withResolver r).invocation? form classFile := by
  have hr' : (x.withResolver r).before.resolver.IsFaithful (x.withResolver r).before.disk := hr
  rw [invocation?_eq h, invocation?_eq hr', closure_of_isFaithful hr h hforget]
  refine Option.map_congr fun nested _ => ?_
  rw [Instrumenter.arguments_congr _ _ _ hforget]
  rfl

end Step

/-! ## All steps -/

/-- **Every step of a run starts from a faithful resolver** as long as searches find the same. -/
theorem isFaithful_of_mem_trace {d : Disk} {s : Setup} {st : State} {ds : List Path}
    (h : st.resolver.IsFaithful d)
    (hsearch : ∀ x ∈ trace s st ds, ∀ name,
      st.resolver.search x.before.disk name = st.resolver.search d name) :
    ∀ x ∈ trace s st ds, x.before.resolver.IsFaithful x.before.disk ∧
      x.before.resolver.forget = st.resolver.forget := by
  induction ds generalizing st with
  | nil => simp [trace_nil]
  | cons descriptor rest ih =>
    rw [trace_cons, List.forall_mem_cons] at hsearch ⊢
    obtain ⟨hfirst, hrest⟩ := hsearch
    have hbefore : st.resolver.IsFaithful st.disk := h.congr hfirst
    refine ⟨⟨hbefore, rfl⟩, ?_⟩
    obtain ⟨hafter, hforget⟩ := Step.isFaithful_after (x := ⟨s, st, descriptor⟩) hbefore
    have hagain : (Step.after ⟨s, st, descriptor⟩).resolver.search =
        st.resolver.search := funext fun d => funext (Resolver.search_congr hforget d)
    -- What is remembered by now is faithful to the disk from which the run started.
    have hstart : (Step.after ⟨s, st, descriptor⟩).resolver.IsFaithful d := by
      apply hafter.congr
      intro name
      rw [hagain]
      exact (hfirst name).symm
    rw [← hforget]
    apply ih hstart
    rw [hagain]
    exact hrest

/-- **What is remembered makes no difference.** Names that are resolved one after the other are answered
as a new resolver answers each of them. And whatever has been processed before, as long as searches find
the same, a descriptor comes to what it would come to with a new resolver: its process is given the same
arguments, or the same is found wrong. -/
theorem resolves_as_first (d : Disk) (files : List Path) (context : Classpath.Context) (root : Path) :
    (∀ names, ((Resolver.new d files context root).resolveAll d names).1 =
      names.map fun name => ((Resolver.new d files context root).resolve d name).1) ∧
    ∀ (s : Setup) (cache : Cache) (ds : List Path),
      (∀ x ∈ trace s ⟨d, .new d files context root, cache⟩ ds, ∀ name,
        (Resolver.new d files context root).search x.before.disk name =
          (Resolver.new d files context root).search d name) →
      ∀ x ∈ trace s ⟨d, .new d files context root, cache⟩ ds, ∀ form classFile,
        x.invocation? form classFile =
          (x.withResolver (.new d files context root)).invocation? form classFile ∧
        ∃ r, x.outcome form classFile =
          { (x.withResolver (.new d files context root)).outcome form classFile with resolver := r } := by
  have hnew := fun d' => Resolver.isFaithful_new d d' files context root
  constructor
  · intro names
    rw [Resolver.answers_resolveAll (hnew d)]
    refine List.map_congr_left fun name _ => ?_
    rw [Resolver.fst_resolve, Resolver.lookup_of_isFaithful (hnew d)]
  · intro s cache ds hsearch x hx form classFile
    obtain ⟨hfaithful, hforget⟩ := isFaithful_of_mem_trace (hnew d) hsearch x hx
    exact ⟨x.invocation?_withResolver hfaithful (hnew _) hforget form classFile,
      _, Instrumenter.transform_of_isFaithful _ (hnew _) hfaithful hforget _⟩

namespace Sample

open Form.Sample (sharing parseFile_sharing)

/-- The small world with two documents that refer to its form. -/
def shared : Disk where
  nodes := (["s", "a.form"], .file sharing.text.toUTF8 5) ::
    (["s", "b.form"], .file sharing.text.toUTF8 5) :: nodes
  workingDirectory := .present []
  clock := 10

def sharedSetup : Setup := ⟨instrumenter, ⟨"/s"⟩, ⟨"/s"⟩, false⟩

def sharedStart : State := ⟨shared, .new shared [⟨"/s/z.form"⟩] ⟨[], none⟩ ⟨"/s"⟩, .empty⟩

def sharedStep : Step := ⟨sharedSetup, sharedStart, ⟨"/s/a.form"⟩⟩

def sharedNext : Step := ⟨sharedSetup, sharedStep.after, ⟨"/s/b.form"⟩⟩

theorem trace_shared :
    trace sharedSetup sharedStart [⟨"/s/a.form"⟩, ⟨"/s/b.form"⟩] = [sharedStep, sharedNext] := rfl

theorem disk_after_sharedStep : sharedStep.after.disk = shared := by
  have hsame : samePlace shared ⟨"/s/a.form"⟩ (target ⟨"/s"⟩ ⟨"/s"⟩ ⟨"/s/a.form"⟩) = true := by
    decide
  have hlaunched : sharedStep.launchedDisk = shared := Step.launchedDisk_of_tool fun _ _ => rfl
  cases hatt : sharedStep.isAttempt with
  | false => rw [Step.after_of_not_isAttempt hatt]; rfl
  | true =>
    rcases Step.disk_after hatt with ⟨-, hdisk⟩ | ⟨-, -, hdisk⟩
    · rw [hdisk, hlaunched]
    · rw [hdisk, hlaunched]
      exact congrArg Prod.fst (publish_of_samePlace hsame)

theorem asked_sharedStep : sharedStep.asked =
    .ok (some (⟨some "C", ["z.form"], .file ⟨"/s/a.form"⟩⟩, ⟨"/s/C.class"⟩)) := by
  have hwalk : shared.walk true ⟨"/s/a.form"⟩ =
      .ok (.node ["s", "a.form"] (.file sharing.text.toUTF8 5)) := rfl
  have hform : Form.parseFile sharedStep.before.disk sharedStep.descriptor =
      .ok ⟨some "C", ["z.form"], .file ⟨"/s/a.form"⟩⟩ := parseFile_sharing (Disk.contents_of_walk hwalk)
  have hclass : Classes.fileOf? sharedStep.before.disk sharedStep.setup.output "C" =
      some ⟨"/s/C.class"⟩ := by decide
  exact bound?_of_fileOf? hform rfl hclass

theorem lookup_shared : sharedStart.resolver.lookup shared "z.form" =
    .ok ⟨some "C", [], .file ⟨"/s/z.form"⟩⟩ := by
  have hwalk : shared.walk true ⟨"/s/z.form"⟩ = .ok (.node ["s", "z.form"] (.file text.toUTF8 5)) := rfl
  have hform : Form.parseFile shared ⟨"/s/z.form"⟩ = .ok ⟨some "C", [], .file ⟨"/s/z.form"⟩⟩ :=
    parseFile_eq (Disk.contents_of_walk hwalk)
  have hknown : sharedStart.resolver.knownFile? "z.form" = some ⟨"/s/z.form"⟩ := by decide +kernel
  have hfaithful : sharedStart.resolver.IsFaithful shared := Resolver.isFaithful_new _ _ _ _ _
  rw [Resolver.lookup_of_isFaithful hfaithful, Resolver.search, hknown]
  simp only [hform]
  rfl

/-- The second of two forms that refer to the same one finds it remembered. -/
theorem resolves_as_first_shared :
    (∀ x ∈ [sharedStep, sharedNext], ∀ name,
      sharedStart.resolver.search x.before.disk name = sharedStart.resolver.search shared name) ∧
    sharedNext.before.resolver.resolved = [("z.form", ⟨some "C", [], .file ⟨"/s/z.form"⟩⟩)] ∧
    ∀ form classFile, sharedNext.invocation? form classFile =
      (sharedNext.withResolver sharedStart.resolver).invocation? form classFile := by
  have hsearch : ∀ x ∈ [sharedStep, sharedNext], ∀ name,
      sharedStart.resolver.search x.before.disk name = sharedStart.resolver.search shared name := by
    rw [List.forall_mem_cons, List.forall_mem_cons]
    refine ⟨fun _ => rfl, fun name => ?_, nofun⟩
    show sharedStart.resolver.search sharedStep.after.disk name = _
    rw [disk_after_sharedStep]
  refine ⟨hsearch, ?_, fun form classFile => ?_⟩
  · obtain ⟨-, -, hresolver, -⟩ := Step.attempt_cases asked_sharedStep rfl
    show sharedStep.after.resolver.resolved = _
    rw [hresolver, Step.outcome, Instrumenter.resolver_transform]
    have hnested : (⟨some "C", ["z.form"], .file ⟨"/s/a.form"⟩⟩ : Form).nested = ["z.form"] := rfl
    exact congrArg (·.2.resolved) (Nested.closure_of_single hnested lookup_shared rfl)
  · rw [← trace_shared] at hsearch
    exact ((resolves_as_first shared [⟨"/s/z.form"⟩] ⟨[], none⟩ ⟨"/s"⟩).2 sharedSetup .empty _ hsearch
      sharedNext (trace_shared ▸ List.mem_cons_of_mem _ List.mem_cons_self) form classFile).1

end Sample

end Run
end FormWeaver
