import FormWeaver.Proofs.Cache.Entries
import FormWeaver.Run.Basic

/-!
# The steps of a run

A run is a list of steps, one for each discovered descriptor, and each step starts from the state that
the one before it left (`trace`). What a step can do is said once, in `Step.cases`: it leaves the state
as it was, or it attempts to instrument the class that its descriptor is bound to. What the cache knows
of a pair after a run is what the latest attempt for the pair left (`find?_finish`).
-/

namespace FormWeaver.Run

/-! ## One step -/

/-- What a descriptor asks for: the form and the class file to be instrumented for it, if it is bound
to a class. -/
def bound? (d : Disk) (output descriptor : Path) : Except DescriptorError (Option (Form × Path)) :=
  match Form.parseFile d descriptor with
  | .error e => .error e
  | .ok form =>
    match form.binding with
    | none => .ok none
    | some className =>
      match Classes.fileOf? d output className with
      | none => .error (.classMissing className)
      | some classFile => .ok (some (form, classFile))

theorem bound?_of_unbound {d : Disk} {output descriptor : Path} {form : Form}
    (hform : Form.parseFile d descriptor = .ok form) (hbinding : form.binding = none) :
    bound? d output descriptor = .ok none := by
  unfold bound?
  simp only [hform, hbinding]

theorem bound?_of_fileOf? {d : Disk} {output descriptor classFile : Path} {form : Form}
    {className : String} (hform : Form.parseFile d descriptor = .ok form)
    (hbinding : form.binding = some className)
    (hclass : Classes.fileOf? d output className = some classFile) :
    bound? d output descriptor = .ok (some (form, classFile)) := by
  unfold bound?
  simp only [hform, hbinding, hclass]

/-- The class file that a descriptor is bound to. -/
def boundClass? (d : Disk) (output descriptor : Path) : Option Path :=
  match bound? d output descriptor with
  | .ok (some (_, classFile)) => some classFile
  | _ => none

theorem boundClass?_of_bound? {d : Disk} {output descriptor classFile : Path} {form : Form}
    (h : bound? d output descriptor = .ok (some (form, classFile))) :
    boundClass? d output descriptor = some classFile := by
  unfold boundClass?
  rw [h]

/-- A descriptor that is processed in a state. -/
structure Step where
  /-- What stays the same during the run. -/
  setup : Setup
  before : State
  descriptor : Path

namespace Step

def after (x : Step) : State := (process x.setup x.before x.descriptor).1

def processed (x : Step) : Processed := (process x.setup x.before x.descriptor).2

def verdict (x : Step) : Verdict := x.processed.verdict

def asked (x : Step) : Except DescriptorError (Option (Form × Path)) :=
  bound? x.before.disk x.setup.output x.descriptor

def classFile? (x : Step) : Option Path :=
  boundClass? x.before.disk x.setup.output x.descriptor

def isAttempt (x : Step) : Bool := x.verdict.isTransformed

def isAttemptFor (x : Step) (descriptor classFile : Path) : Bool :=
  x.isAttempt && x.descriptor.same descriptor && x.classFile?.any (·.same classFile)

/-- The entry that the step put into the cache: the times that both files had right after the
descriptor was published. -/
def record? (x : Step) : Option CacheEntry :=
  if x.verdict.isPublished then x.classFile?.map (.capture x.after.disk x.descriptor) else none

end Step

theorem process_eq (s : Setup) (st : State) (descriptor : Path) :
    process s st descriptor =
      match bound? st.disk s.output descriptor with
      | .error e => (st, ⟨descriptor, .unusable e, none⟩)
      | .ok none => (st, ⟨descriptor, .unbound, none⟩)
      | .ok (some (form, classFile)) =>
        if st.cache.isUpToDate st.disk descriptor classFile then (st, ⟨descriptor, .upToDate, none⟩)
        else instrument s st descriptor form classFile := by
  unfold process bound?
  cases Form.parseFile st.disk descriptor with
  | error e => rfl
  | ok form =>
    simp only
    cases form.binding with
    | none => rfl
    | some className =>
      simp only
      cases Classes.fileOf? st.disk s.output className <;> rfl

namespace Step

/-- Whether the cache finds the descriptor up to date with a class file. -/
def isCurrent (x : Step) (classFile : Path) : Bool :=
  x.before.cache.isUpToDate x.before.disk x.descriptor classFile

theorem isCurrent_of_find? {x : Step} {classFile : Path} {e : CacheEntry}
    (h : x.before.cache.find? x.descriptor classFile = some e) :
    x.isCurrent classFile = e.isCurrent x.before.disk x.descriptor classFile := by
  unfold isCurrent Cache.isUpToDate
  rw [h]

/-- What comes of instrumenting a class for the descriptor. -/
def outcome (x : Step) (form : Form) (classFile : Path) : Instrumenter.Outcome :=
  x.setup.instrumenter.transform x.before.disk x.before.resolver
    ⟨x.descriptor, form, classFile, x.setup.scaling⟩

/-- What comes of publishing the descriptor after that. -/
def publication (x : Step) (form : Form) (classFile : Path) : Disk × Except DescriptorError Unit :=
  publish (x.outcome form classFile).disk x.setup.source x.setup.output x.descriptor

/-- **What a step can do.** It leaves the state as it was and starts nothing, because its descriptor
is unusable, unbound or up to date; or it attempts to instrument the class. -/
theorem cases (x : Step) :
    (∃ e, x.asked = .error e ∧ x.after = x.before ∧ x.processed = ⟨x.descriptor, .unusable e, none⟩) ∨
    (x.asked = .ok none ∧ x.after = x.before ∧ x.processed = ⟨x.descriptor, .unbound, none⟩) ∨
    ∃ form classFile, x.asked = .ok (some (form, classFile)) ∧
      ((x.isCurrent classFile = true ∧ x.after = x.before ∧
          x.processed = ⟨x.descriptor, .upToDate, none⟩) ∨
        x.isCurrent classFile = false) := by
  have h := process_eq x.setup x.before x.descriptor
  unfold after processed asked isCurrent
  cases ha : bound? x.before.disk x.setup.output x.descriptor with
  | error e =>
    rw [ha] at h
    exact .inl ⟨e, rfl, by rw [h], by rw [h]⟩
  | ok wanted =>
    cases wanted with
    | none =>
      rw [ha] at h
      exact .inr (.inl ⟨rfl, by rw [h], by rw [h]⟩)
    | some pair =>
      obtain ⟨form, classFile⟩ := pair
      rw [ha] at h
      simp only at h
      refine .inr (.inr ⟨form, classFile, rfl, ?_⟩)
      cases hu : x.before.cache.isUpToDate x.before.disk x.descriptor classFile with
      | true =>
        rw [hu, if_pos rfl] at h
        exact .inl ⟨rfl, by rw [h], by rw [h]⟩
      | false => exact .inr rfl

/-- **What an attempt can do.** The instrumenter reports an error and the cache forgets the pair, or
the descriptor cannot be published and the cache forgets the pair, or it is published and the cache has
the entry of the pair as it then is. -/
theorem attempt_cases {x : Step} {form : Form} {classFile : Path}
    (ha : x.asked = .ok (some (form, classFile))) (hc : x.isCurrent classFile = false) :
    x.processed.descriptor = x.descriptor ∧
    x.processed.started = (x.outcome form classFile).started ∧
    x.after.resolver = (x.outcome form classFile).resolver ∧
    (((x.outcome form classFile).finding.errors ≠ [] ∧
        x.verdict = .rejected (x.outcome form classFile).finding ∧
        x.after.disk = (x.outcome form classFile).disk ∧
        x.after.cache = x.before.cache.erase x.descriptor classFile) ∨
      ((x.outcome form classFile).finding.errors = [] ∧
        x.after.disk = (x.publication form classFile).1 ∧
        ((∃ e, (x.publication form classFile).2 = .error e ∧
            x.verdict = .unpublished (x.outcome form classFile).finding e ∧
            x.after.cache = x.before.cache.erase x.descriptor classFile) ∨
          ((x.publication form classFile).2 = .ok () ∧
            x.verdict = .published (x.outcome form classFile).finding ∧
            x.after.cache = (x.before.cache.erase x.descriptor classFile).insert
              (.capture x.after.disk x.descriptor classFile))))) := by
  have h : process x.setup x.before x.descriptor =
      instrument x.setup x.before x.descriptor form classFile := by
    rw [process_eq, show bound? _ _ _ = _ from ha]
    simp only
    rw [show x.before.cache.isUpToDate _ _ _ = _ from hc, if_neg Bool.false_ne_true]
  unfold after verdict processed
  rw [h]
  unfold publication outcome instrument
  -- What is left to decide is whether something was found wrong, and then whether the copy was made.
  simp only
  split
  · next he => exact ⟨rfl, rfl, rfl, .inl ⟨by simpa using he, rfl, rfl, rfl⟩⟩
  · next he =>
    have herrors : (x.setup.instrumenter.transform x.before.disk x.before.resolver
        ⟨x.descriptor, form, classFile, x.setup.scaling⟩).finding.errors = [] := by simpa using he
    split
    · next d e hp =>
      rw [hp]
      exact ⟨rfl, rfl, rfl, .inr ⟨herrors, rfl, .inl ⟨e, rfl, rfl, rfl⟩⟩⟩
    · next d hp =>
      rw [hp]
      exact ⟨rfl, rfl, rfl, .inr ⟨herrors, rfl, .inr ⟨rfl, rfl, rfl⟩⟩⟩

theorem classFile?_of_asked {x : Step} {form : Form} {classFile : Path}
    (h : x.asked = .ok (some (form, classFile))) : x.classFile? = some classFile :=
  boundClass?_of_bound? h

theorem asked_of_classFile? {x : Step} {classFile : Path} (h : x.classFile? = some classFile) :
    ∃ form, x.asked = .ok (some (form, classFile)) := by
  unfold classFile? boundClass? at h
  split at h
  · next form c ha =>
    obtain rfl := Option.some.inj h
    exact ⟨form, ha⟩
  · simp at h

/-- An attempt is made for a descriptor that is bound to a class and not up to date. -/
theorem isAttempt_iff {x : Step} : x.isAttempt = true ↔
    ∃ form classFile, x.asked = .ok (some (form, classFile)) ∧ x.isCurrent classFile = false := by
  unfold isAttempt
  rcases x.cases with ⟨e, ha, -, hp⟩ | ⟨ha, -, hp⟩ | ⟨form, classFile, ha, ⟨hc, -, hp⟩ | hc⟩
  · simp [verdict, hp, ha, Verdict.isTransformed]
  · simp [verdict, hp, ha, Verdict.isTransformed]
  · simp [verdict, hp, ha, hc, Verdict.isTransformed]
  · refine ⟨fun _ => ⟨form, classFile, ha, hc⟩, fun _ => ?_⟩
    obtain ⟨-, -, -, hv⟩ := attempt_cases ha hc
    rcases hv with ⟨-, hv, -⟩ | ⟨-, -, ⟨e, -, hv, -⟩ | ⟨-, hv, -⟩⟩ <;> rw [hv] <;> rfl

/-- A bound descriptor is found up to date, and then nothing is started for it, or its class is
attempted. -/
theorem isUpToDate_iff {x : Step} {classFile : Path} (h : x.classFile? = some classFile) :
    (x.isCurrent classFile = true ↔ x.verdict.isUpToDate = true) ∧
      x.isAttempt = !x.verdict.isUpToDate ∧
      (x.verdict.isUpToDate = true → x.processed.started = none) := by
  obtain ⟨form, ha⟩ := asked_of_classFile? h
  rcases x.cases with ⟨e, ha', -⟩ | ⟨ha', -⟩ | ⟨form', c, ha', hcases⟩
  · rw [ha] at ha'
    simp at ha'
  · rw [ha] at ha'
    simp at ha'
  · rw [ha] at ha'
    simp only [Except.ok.injEq, Option.some.injEq, Prod.mk.injEq] at ha'
    obtain ⟨rfl, rfl⟩ := ha'
    rcases hcases with ⟨hc, -, hp⟩ | hc
    · simp [isAttempt, verdict, hp, hc, Verdict.isUpToDate, Verdict.isTransformed]
    · have hatt := isAttempt_iff.mpr ⟨form, classFile, ha, hc⟩
      have hv : x.verdict.isUpToDate = false := by
        unfold isAttempt at hatt
        cases hv : x.verdict with
        | upToDate => simp [hv, Verdict.isTransformed] at hatt
        | _ => rfl
      simp [hatt, hc, hv]

theorem after_of_not_isAttempt {x : Step} (h : x.isAttempt = false) : x.after = x.before := by
  rcases x.cases with ⟨e, -, hs, -⟩ | ⟨-, hs, -⟩ | ⟨form, classFile, ha, ⟨-, hs, -⟩ | hc⟩
  · exact hs
  · exact hs
  · exact hs
  · rw [isAttempt_iff.mpr ⟨form, classFile, ha, hc⟩] at h
    cases h

theorem isAttempt_of_isPublished {x : Step} (h : x.verdict.isPublished = true) : x.isAttempt = true := by
  unfold isAttempt
  cases hv : x.verdict with
  | published => rfl
  | _ => simp [hv, Verdict.isPublished] at h

theorem isAttemptFor_iff {x : Step} {descriptor classFile : Path} :
    x.isAttemptFor descriptor classFile = true ↔ x.isAttempt = true ∧
      ∃ k, x.classFile? = some k ∧ x.descriptor.same descriptor = true ∧ k.same classFile = true := by
  unfold isAttemptFor
  cases x.classFile? with
  | none => simp
  | some k => simp [and_assoc]

theorem record?_eq_some_iff {x : Step} {e : CacheEntry} :
    x.record? = some e ↔ x.verdict.isPublished = true ∧
      ∃ c, x.classFile? = some c ∧ e = .capture x.after.disk x.descriptor c := by
  unfold record?
  split
  · next hp =>
    rw [Option.map_eq_some_iff]
    simp only [hp, true_and, eq_comm]
  · next hp => simp [hp]

/-- What the cache knows of a pair after a step is what the step recorded, if it attempted the pair,
and what it knew before otherwise. -/
theorem find?_after (x : Step) (f k : Path) :
    x.after.cache.find? f k = if x.isAttemptFor f k then x.record? else x.before.cache.find? f k := by
  cases hatt : x.isAttempt with
  | false =>
    have hno : x.isAttemptFor f k = false := by simp [isAttemptFor, hatt]
    rw [after_of_not_isAttempt hatt, hno, if_neg Bool.false_ne_true]
  | true =>
    obtain ⟨form, c, ha, hc⟩ := isAttempt_iff.mp hatt
    have hclass := classFile?_of_asked ha
    have hfor : x.isAttemptFor f k = (x.descriptor.same f && c.same k) := by
      simp [isAttemptFor, hatt, hclass]
    -- An attempt that is not published ends with the pair forgotten, whatever it failed with.
    have forgotten : x.verdict.isPublished = false →
        x.after.cache = x.before.cache.erase x.descriptor c →
        x.after.cache.find? f k =
          if x.isAttemptFor f k then x.record? else x.before.cache.find? f k := by
      intro hv he
      have hrecord : x.record? = none := by rw [record?, hv, if_neg Bool.false_ne_true]
      rw [he, Cache.find?_erase, hfor, hrecord]
    obtain ⟨-, -, -, hcases⟩ := attempt_cases ha hc
    rcases hcases with ⟨-, hv, -, he⟩ | ⟨-, -, ⟨e, -, hv, he⟩ | ⟨-, hv, he⟩⟩
    · exact forgotten (by rw [hv]; rfl) he
    · exact forgotten (by rw [hv]; rfl) he
    · have hrecord : x.record? = some (.capture x.after.disk x.descriptor c) := by
        rw [record?, hv, hclass]
        rfl
      have hpair : (CacheEntry.capture x.after.disk x.descriptor c).isFor f k = x.isAttemptFor f k := by
        rw [hfor]
        rfl
      rw [he, Cache.find?_insert, hpair, hrecord]
      split
      · rfl
      · next h =>
        rw [hfor] at h
        rw [Cache.find?_erase, if_neg h]

theorem distinct_after {x : Step} (h : x.before.cache.Distinct) : x.after.cache.Distinct := by
  cases hatt : x.isAttempt with
  | false => rwa [after_of_not_isAttempt hatt]
  | true =>
    obtain ⟨form, c, ha, hc⟩ := isAttempt_iff.mp hatt
    obtain ⟨-, -, -, hcases⟩ := attempt_cases ha hc
    rcases hcases with ⟨-, -, -, he⟩ | ⟨-, -, ⟨_, -, -, he⟩ | ⟨-, -, he⟩⟩
    · rw [he]
      exact h.erase _ _
    · rw [he]
      exact h.erase _ _
    · rw [he]
      exact (h.erase _ _).insert _

end Step

/-! ## All steps -/

/-- The steps for descriptors that are processed one after the other. -/
def trace (s : Setup) (st : State) : List Path → List Step
  | [] => []
  | descriptor :: rest => ⟨s, st, descriptor⟩ :: trace s (Step.after ⟨s, st, descriptor⟩) rest

def finish (s : Setup) (st : State) : List Path → State
  | [] => st
  | descriptor :: rest => finish s (Step.after ⟨s, st, descriptor⟩) rest

theorem trace_nil (s : Setup) (st : State) : trace s st [] = [] := rfl

theorem trace_cons (s : Setup) (st : State) (descriptor : Path) (rest : List Path) :
    trace s st (descriptor :: rest) =
      ⟨s, st, descriptor⟩ :: trace s (Step.after ⟨s, st, descriptor⟩) rest := rfl

theorem finish_cons (s : Setup) (st : State) (descriptor : Path) (rest : List Path) :
    finish s st (descriptor :: rest) = finish s (Step.after ⟨s, st, descriptor⟩) rest := rfl

theorem processAll_eq (s : Setup) (st : State) (ds : List Path) :
    processAll s st ds = (finish s st ds, (trace s st ds).map Step.processed) := by
  induction ds generalizing st with
  | nil => rfl
  | cons descriptor rest ih =>
    have h := ih (Step.after ⟨s, st, descriptor⟩)
    unfold Step.after at h
    simp only [processAll, h]
    rfl

theorem finish_eq_of_trace {s : Setup} {st : State} {ds : List Path} {x : Step}
    (h : (trace s st ds).getLast? = some x) : finish s st ds = x.after := by
  induction ds generalizing st with
  | nil => simp [trace_nil] at h
  | cons descriptor rest ih =>
    rw [trace_cons, List.getLast?_cons] at h
    rw [finish_cons]
    cases hrest : (trace s (Step.after ⟨s, st, descriptor⟩) rest).getLast? with
    | some y =>
      rw [hrest] at h
      obtain rfl := Option.some.inj h
      exact ih hrest
    | none =>
      rw [hrest] at h
      obtain rfl := Option.some.inj h
      cases rest with
      | nil => rfl
      | cons => simp [trace_cons] at hrest

theorem map_descriptor_trace (s : Setup) (st : State) (ds : List Path) :
    (trace s st ds).map Step.descriptor = ds := by
  induction ds generalizing st with
  | nil => rfl
  | cons descriptor rest ih => simp only [trace_cons, List.map_cons, ih]

/-- A step starts from the state that the steps before it left. -/
theorem split_of_mem_trace {s : Setup} {st : State} {ds : List Path} {x : Step}
    (h : x ∈ trace s st ds) :
    ∃ before rest, ds = before ++ x.descriptor :: rest ∧ x = ⟨s, finish s st before, x.descriptor⟩ ∧
      trace s st ds = trace s st before ++ x :: trace s x.after rest := by
  induction ds generalizing st with
  | nil => simp [trace_nil] at h
  | cons descriptor rest ih =>
    rw [trace_cons, List.mem_cons] at h
    rcases h with rfl | h
    · exact ⟨[], rest, rfl, rfl, rfl⟩
    · obtain ⟨before, rest', hds, hx, htrace⟩ := ih h
      refine ⟨descriptor :: before, rest', by rw [hds]; rfl, hx, ?_⟩
      rw [trace_cons, htrace]
      rfl

/-- What each step keeps holds before and after every step, and in the end. -/
theorem trace_invariant {P : State → Prop} {s : Setup} {st : State} (ds : List Path)
    (hstep : ∀ x : Step, x.setup = s → P x.before → P x.after) (h : P st) :
    P (finish s st ds) ∧ ∀ x ∈ trace s st ds, P x.before ∧ P x.after := by
  -- The state is general: the first step hands the property on to the state that the rest start from.
  induction ds generalizing st with
  | nil => exact ⟨h, by simp [trace_nil]⟩
  | cons descriptor rest ih =>
    have hafter := hstep ⟨s, st, descriptor⟩ rfl h
    obtain ⟨hfinish, hrest⟩ := ih hafter
    refine ⟨hfinish, fun x hx => ?_⟩
    rw [trace_cons, List.mem_cons] at hx
    rcases hx with rfl | hx
    · exact ⟨h, hafter⟩
    · exact hrest x hx

theorem finish_of_no_attempt {s : Setup} {st : State} {ds : List Path}
    (h : ∀ x ∈ trace s st ds, x.isAttempt = false) : finish s st ds = st := by
  induction ds generalizing st with
  | nil => rfl
  | cons descriptor rest ih =>
    rw [trace_cons] at h
    have hafter := Step.after_of_not_isAttempt (h _ List.mem_cons_self)
    rw [finish_cons, ih fun x hx => h x (List.mem_cons_of_mem _ hx), hafter]

/-! ## What is known of a pair -/

/-- The latest step that attempted a pair. -/
def latest? (xs : List Step) (descriptor classFile : Path) : Option Step :=
  (xs.filter (·.isAttemptFor descriptor classFile)).getLast?

/-- What is known of a pair after some steps: what the latest attempt for it recorded, and what was
known before them when there was none. -/
def knownAfter (xs : List Step) (old : Option CacheEntry) (descriptor classFile : Path) :
    Option CacheEntry :=
  match latest? xs descriptor classFile with
  | some x => x.record?
  | none => old

theorem latest?_append (xs ys : List Step) (f k : Path) :
    latest? (xs ++ ys) f k = (latest? ys f k).or (latest? xs f k) := by
  unfold latest?
  rw [List.filter_append, List.getLast?_append]

theorem knownAfter_append (xs ys : List Step) (old : Option CacheEntry) (f k : Path) :
    knownAfter (xs ++ ys) old f k = knownAfter ys (knownAfter xs old f k) f k := by
  unfold knownAfter
  rw [latest?_append]
  cases latest? ys f k <;> rfl

theorem mem_of_latest? {xs : List Step} {f k : Path} {x : Step} (h : latest? xs f k = some x) :
    x ∈ xs ∧ x.isAttemptFor f k = true := by
  unfold latest? at h
  exact List.mem_filter.mp (List.mem_of_getLast? h)

theorem latest?_eq_none_iff {xs : List Step} {f k : Path} :
    latest? xs f k = none ↔ ∀ x ∈ xs, x.isAttemptFor f k = false := by
  unfold latest?
  simp

/-- **What the cache knows of a pair after all steps** is what the latest attempt for the pair
recorded, and what it knew at first when there was none. -/
theorem find?_finish (s : Setup) (st : State) (ds : List Path) (f k : Path) :
    (finish s st ds).cache.find? f k = knownAfter (trace s st ds) (st.cache.find? f k) f k := by
  induction ds generalizing st with
  | nil => rfl
  | cons descriptor rest ih =>
    -- The first step is what the others find.
    have hfirst : (Step.after ⟨s, st, descriptor⟩).cache.find? f k =
        knownAfter [⟨s, st, descriptor⟩] (st.cache.find? f k) f k := by
      rw [Step.find?_after]
      unfold knownAfter latest?
      cases hfor : Step.isAttemptFor ⟨s, st, descriptor⟩ f k <;> simp [hfor]
    rw [finish_cons, ih, hfirst, ← knownAfter_append]
    rfl

theorem distinct_finish {s : Setup} {st : State} (ds : List Path) (h : st.cache.Distinct) :
    (finish s st ds).cache.Distinct :=
  (trace_invariant (P := fun st => st.cache.Distinct) ds (fun _ _ h => Step.distinct_after h) h).1

end FormWeaver.Run
