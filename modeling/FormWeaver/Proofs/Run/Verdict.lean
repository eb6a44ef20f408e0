import FormWeaver.Proofs.Nested.Search
import FormWeaver.Proofs.Run.Runs

/-!
# What comes of an attempt

An attempt starts a process if all forms that are referred to are found, and nothing is found wrong
exactly when that process ends well and reports no error (`Step.outcome_eq`). An attempt that is not
published has failed with something, and the report of the run tells it.
-/

namespace FormWeaver

/-! ## The process -/

namespace Instrumenter

/-- Whether a line of an output reports an error. -/
def IsErrorLine (line : List Char) : Prop := "ERROR:".toList <+: Text.trim line

/-- Whether a process ended well and reported no error. -/
def Succeeded (c : Completion) : Prop :=
  c.status = .code 0 ∧ ∀ line ∈ Text.lines (Text.lenient c.stdout).toList, ¬ IsErrorLine line

theorem ofLine?_eq_error_iff (line : List Char) :
    (∃ said, Diagnostic.ofLine? line = some (.error, said)) ↔ IsErrorLine line := by
  unfold Diagnostic.ofLine? IsErrorLine
  rw [← List.isPrefixOf_iff_prefix]
  constructor
  · rintro ⟨said, h⟩
    simp only at h
    split at h
    · next hp => exact hp
    · split at h <;> simp at h
  · intro h
    exact ⟨_, if_pos h⟩

theorem errors_ofOutput_eq_nil_iff (output : String) :
    (Finding.ofOutput output).errors = [] ↔
      ∀ line ∈ Text.lines output.toList, ¬ IsErrorLine line := by
  unfold Finding.ofOutput
  simp only [List.filterMap_eq_nil_iff, List.mem_filterMap, ← ofLine?_eq_error_iff]
  constructor
  · rintro h line hline ⟨said, hsaid⟩
    simpa using h (.error, said) ⟨line, hline, hsaid⟩
  · rintro h ⟨severity, said⟩ ⟨line, hline, hsaid⟩
    cases severity with
    | error => exact absurd ⟨said, hsaid⟩ (h line hline)
    | warning => rfl

/-- Nothing is found wrong exactly when the process ended well and reported no error. -/
theorem errors_findingOf_eq_nil_iff (c : Completion) : (findingOf c).errors = [] ↔ Succeeded c := by
  unfold findingOf Succeeded
  rw [← errors_ofOutput_eq_nil_iff]
  have hsuccess : c.status.isSuccess = true ↔ c.status = .code 0 := by
    unfold ExitStatus.isSuccess
    exact beq_iff_eq
  rw [← hsuccess]
  simp only
  cases hs : c.status.isSuccess with
  | true => simp
  | false =>
    split
    · simp
    · next h => simpa using h

end Instrumenter

namespace Run

open Instrumenter (Succeeded)
open Nested (RefersTo)

variable {d : Disk} {i : Instrumenter} {env : Environment} {o : Options}

/-! ## The copy -/

theorem publish_of_samePlace {d : Disk} {source output descriptor : Path}
    (h : samePlace d descriptor (target source output descriptor) = true) :
    publish d source output descriptor = (d, .ok ()) := by
  unfold publish
  simp only [h, if_true]

/-! ## The verdict -/

namespace Step

/-- The process that instruments the class, when all forms that are referred to are found. -/
def invocation? (x : Step) (form : Form) (classFile : Path) : Option Invocation :=
  match Nested.closure x.before.disk x.before.resolver form with
  | (.error _, _) => none
  | (.ok nested, r) =>
    some ⟨x.setup.instrumenter.program, x.setup.instrumenter.arguments r x.before.disk
      ⟨x.descriptor, form, classFile, x.setup.scaling⟩ nested⟩

/-- What comes of starting the process. -/
def launch? (x : Step) (form : Form) (classFile : Path) :
    Option (Disk × Except SystemError Completion) :=
  (x.invocation? form classFile).map (x.setup.instrumenter.tool.launch x.before.disk)

/-- Whether all forms that are referred to, directly or through others, are found. -/
def Resolves (x : Step) (form : Form) : Prop :=
  ∀ name, RefersTo x.before.resolver x.before.disk form name →
    ∃ f, x.before.resolver.lookup x.before.disk name = .ok f

theorem invocation?_eq_none_iff (x : Step) (form : Form) (classFile : Path) :
    x.invocation? form classFile = none ↔ ¬ x.Resolves form := by
  unfold Resolves
  rw [← Nested.closure_ok_iff, invocation?]
  split
  · next e r h => simp [h]
  · next nested r h => simp [h]

/-- What is found wrong and what the disk is then, by what comes of starting the process. -/
theorem outcome_eq (x : Step) (form : Form) (classFile : Path) :
    (x.outcome form classFile).disk = ((x.launch? form classFile).map (·.1)).getD x.before.disk ∧
    ((x.outcome form classFile).finding.errors = [] ↔
      ∃ d c, x.launch? form classFile = some (d, .ok c) ∧ Succeeded c) := by
  unfold outcome Instrumenter.transform launch? invocation?
  cases hclosure : Nested.closure x.before.disk x.before.resolver form with
  | mk answer r =>
    cases answer with
    | error e => simp [Instrumenter.failed]
    | ok nested =>
      simp only [Option.map_some, Option.getD_some, Option.some.injEq]
      split
      · next d e hl => simp [hl, Instrumenter.failed]
      · next d c hl => simp [hl, Instrumenter.errors_findingOf_eq_nil_iff]

theorem failures_ne_nil {x : Step} (h : x.isAttempt = true) (hp : x.verdict.isPublished = false) :
    x.verdict.failures ≠ [] := by
  obtain ⟨form, c, ha, hc⟩ := isAttempt_iff.mp h
  obtain ⟨-, -, -, ⟨he, hv, -⟩ | ⟨-, -, ⟨e, -, hv, -⟩ | ⟨-, hv, -⟩⟩⟩ := attempt_cases ha hc
  · rw [hv]
    simpa [Verdict.failures] using he
  · rw [hv]
    simp [Verdict.failures]
  · rw [hv] at hp
    simp [Verdict.isPublished] at hp

end Step

theorem mem_failures {all : List Processed} {p : Processed} {message : String} (written : Bool)
    (hp : p ∈ all) (hm : message ∈ p.verdict.failures) :
    ⟨p.descriptor, message⟩ ∈ (Report.of all written).failures :=
  List.mem_flatMap.mpr ⟨p, hp, List.mem_map_of_mem hm⟩

theorem report_of_mem_steps {x : Step} (hx : x ∈ steps d i env o) :
    ∃ written, (run d i env o).report = .ok (.of ((steps d i env o).map Step.processed) written) := by
  rcases run_cases d i env o with ⟨-, -, hnone, -⟩ |
      ⟨s, -, -, ⟨-, -, hreport⟩ | ⟨-, written, -, hreport⟩⟩
  · rw [hnone] at hx
    simp at hx
  · exact ⟨false, hreport⟩
  · exact ⟨written, hreport⟩

end Run
end FormWeaver
