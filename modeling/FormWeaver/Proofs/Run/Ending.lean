import FormWeaver.Proofs.Run.Verdict

/-!
# How a descriptor ends

A descriptor ends in one of seven ways. Each is said by what the step finds on the disk and what comes
of instrumenting and publishing (`Step.EndsIn`); the verdict of the step tells which it is, so that it
ends in exactly one (`Step.endsIn_iff`). What a step says of its descriptor is what the instrumenter
printed, in the order in which it printed it, or one message of the program's own when the instrumenter
printed no error (`Step.warnings_eq`, `Step.failures_cases`).
-/

namespace FormWeaver

/-! ## What the instrumenter prints -/

/-- The messages of one severity in an output, line by line. -/
def Diagnostic.printed (severity : Severity) (output : String) : List String :=
  (Text.lines output.toList).filterMap fun line =>
    match ofLine? line with
    | some (s, said) => if s = severity then some said.display else none
    | none => none

/-- What is picked from all that an output says, and shown, is what is printed of one severity. -/
theorem Diagnostic.map_display_filterMap (severity : Severity) (output : String) :
    (((Text.lines output.toList).filterMap ofLine?).filterMap fun (s, said) =>
      if s = severity then some said else none).map display = printed severity output := by
  unfold printed
  rw [List.filterMap_filterMap, List.map_filterMap]
  congr 1
  funext line
  cases ofLine? line with
  | none => rfl
  | some said =>
    obtain ⟨s, said⟩ := said
    by_cases hs : s = severity <;> simp [hs]

theorem Finding.map_display_errors (output : String) :
    (Finding.ofOutput output).errors.map Diagnostic.display = Diagnostic.printed .error output :=
  Diagnostic.map_display_filterMap .error output

theorem Finding.map_display_warnings (output : String) :
    (Finding.ofOutput output).warnings.map Diagnostic.display = Diagnostic.printed .warning output :=
  Diagnostic.map_display_filterMap .warning output

theorem Instrumenter.warnings_findingOf (c : Completion) :
    (findingOf c).warnings = (Finding.ofOutput (Text.lenient c.stdout)).warnings := by
  unfold findingOf
  simp only
  split <;> rfl

/-- What is found wrong is what was printed, or one error of the program's own when nothing was. -/
theorem Instrumenter.errors_findingOf_cases (c : Completion) :
    (findingOf c).errors = (Finding.ofOutput (Text.lenient c.stdout)).errors ∨
      ((Finding.ofOutput (Text.lenient c.stdout)).errors = [] ∧ ∃ e, (findingOf c).errors = [e]) := by
  unfold findingOf
  simp only
  split
  · next h =>
    rw [Bool.and_eq_true, List.isEmpty_iff] at h
    exact .inr ⟨h.2, _, rfl⟩
  · exact .inl rfl

namespace Run

/-! ## The seven ways -/

inductive Ending where
  | unparseable
  | unbound
  | classMissing
  | upToDate
  | transformFailed
  | publishFailed
  | published
  deriving DecidableEq, Repr

def Verdict.ending : Verdict → Ending
  | .unusable (.classMissing _) => .classMissing
  | .unusable _ => .unparseable
  | .unbound => .unbound
  | .upToDate => .upToDate
  | .rejected _ => .transformFailed
  | .unpublished _ _ => .publishFailed
  | .published _ => .published

def Ending.isAttempt : Ending → Bool
  | .transformFailed | .publishFailed | .published => true
  | _ => false

def Ending.isFailure : Ending → Bool
  | .unparseable | .classMissing | .transformFailed | .publishFailed => true
  | _ => false

namespace Step

/-- The way in which the descriptor of a step ends. -/
def ending (x : Step) : Ending := x.verdict.ending

/-- Whether a step attempts a class, so that this comes of instrumenting it and that of publishing. -/
def AttemptsWith (x : Step) (p : Finding → Except DescriptorError Unit → Prop) : Prop :=
  ∃ form classFile, x.asked = .ok (some (form, classFile)) ∧ x.isCurrent classFile = false ∧
    p (x.outcome form classFile).finding (x.publication form classFile).2

/-- What it is for the descriptor of a step to end in a way. -/
def EndsIn (x : Step) : Ending → Prop
  | .unparseable => ∃ e, Form.parseFile x.before.disk x.descriptor = .error e
  | .unbound => ∃ form, Form.parseFile x.before.disk x.descriptor = .ok form ∧ form.binding = none
  | .classMissing => ∃ form className, Form.parseFile x.before.disk x.descriptor = .ok form ∧
      form.binding = some className ∧
      Classes.fileOf? x.before.disk x.setup.output className = none
  | .upToDate => ∃ form classFile, x.asked = .ok (some (form, classFile)) ∧
      x.isCurrent classFile = true
  | .transformFailed => x.AttemptsWith fun finding _ => finding.errors ≠ []
  | .publishFailed => x.AttemptsWith fun finding publication =>
      finding.errors = [] ∧ ∃ e, publication = .error e
  | .published => x.AttemptsWith fun finding publication => finding.errors = [] ∧ publication = .ok ()

/-- A form that cannot be read is not one whose class is missing. -/
theorem ending_of_parseFile {d : Disk} {p : Path} {e : DescriptorError}
    (h : Form.parseFile d p = .error e) : (Verdict.unusable e).ending = .unparseable := by
  have hparse : ∀ bytes, Form.parse bytes (.file p) = .error e →
      ∃ fault, e = .malformed (.file p) fault := by
    intro bytes h
    unfold Form.parse at h
    split at h
    · exact ⟨_, (Except.error.inj h).symm⟩
    · split at h
      · exact ⟨_, (Except.error.inj h).symm⟩
      · simp at h
  unfold Form.parseFile at h
  split at h
  · obtain rfl := Except.error.inj h
    rfl
  · obtain ⟨fault, rfl⟩ := hparse _ h
    rfl

theorem asked_eq (x : Step) :
    x.asked = match Form.parseFile x.before.disk x.descriptor with
      | .error e => .error e
      | .ok form => match form.binding with
        | none => .ok none
        | some className =>
          match Classes.fileOf? x.before.disk x.setup.output className with
          | none => .error (.classMissing className)
          | some classFile => .ok (some (form, classFile)) := by
  unfold asked bound?
  cases Form.parseFile x.before.disk x.descriptor with
  | error e => rfl
  | ok form =>
    cases hbinding : form.binding with
    | none => simp only [hbinding]
    | some className =>
      cases hfile : Classes.fileOf? x.before.disk x.setup.output className with
      | none => simp only [hbinding, hfile]
      | some classFile => simp only [hbinding, hfile]

theorem processed_of_asked_error {x : Step} {e : DescriptorError} (h : x.asked = .error e) :
    x.processed = ⟨x.descriptor, .unusable e, none⟩ := by
  unfold processed
  rw [process_eq, show bound? _ _ _ = _ from h]

theorem processed_of_asked_none {x : Step} (h : x.asked = .ok none) :
    x.processed = ⟨x.descriptor, .unbound, none⟩ := by
  unfold processed
  rw [process_eq, show bound? _ _ _ = _ from h]

theorem processed_of_isCurrent {x : Step} {form : Form} {classFile : Path}
    (h : x.asked = .ok (some (form, classFile))) (hc : x.isCurrent classFile = true) :
    x.processed = ⟨x.descriptor, .upToDate, none⟩ := by
  unfold processed
  rw [process_eq, show bound? _ _ _ = _ from h]
  simp only
  rw [show x.before.cache.isUpToDate _ _ _ = _ from hc, if_pos rfl]

theorem descriptor_processed (x : Step) : x.processed.descriptor = x.descriptor := by
  rcases x.cases with ⟨e, -, -, hp⟩ | ⟨-, -, hp⟩ | ⟨form, classFile, ha, ⟨-, -, hp⟩ | hc⟩
  · rw [hp]
  · rw [hp]
  · rw [hp]
  · exact (attempt_cases ha hc).1

theorem ending_of_endsIn {x : Step} {e : Ending} (h : x.EndsIn e) : x.ending = e := by
  unfold ending verdict
  cases e with
  | unparseable =>
    obtain ⟨e, hparse⟩ := h
    have ha : x.asked = .error e := by rw [asked_eq, hparse]
    rw [processed_of_asked_error ha]
    exact ending_of_parseFile hparse
  | unbound =>
    obtain ⟨form, hparse, hbinding⟩ := h
    have ha : x.asked = .ok none := by
      rw [asked_eq, hparse]
      simp only [hbinding]
    rw [processed_of_asked_none ha]
    rfl
  | classMissing =>
    obtain ⟨form, className, hparse, hbinding, hfile⟩ := h
    have ha : x.asked = .error (.classMissing className) := by
      rw [asked_eq, hparse]
      simp only [hbinding, hfile]
    rw [processed_of_asked_error ha]
    rfl
  | upToDate =>
    obtain ⟨form, classFile, ha, hc⟩ := h
    rw [processed_of_isCurrent ha hc]
    rfl
  | transformFailed =>
    obtain ⟨form, classFile, ha, hc, herrors⟩ := h
    obtain ⟨-, -, -, ⟨-, hv, -⟩ | ⟨hnone, -⟩⟩ := attempt_cases ha hc
    · rw [show x.processed.verdict = _ from hv]
      rfl
    · exact absurd hnone herrors
  | publishFailed =>
    obtain ⟨form, classFile, ha, hc, hnone, e, he⟩ := h
    obtain ⟨-, -, -, ⟨herrors, -⟩ | ⟨-, -, ⟨e', -, hv, -⟩ | ⟨hok, -⟩⟩⟩ := attempt_cases ha hc
    · exact absurd hnone herrors
    · rw [show x.processed.verdict = _ from hv]
      rfl
    · rw [he] at hok
      cases hok
  | published =>
    obtain ⟨form, classFile, ha, hc, hnone, hok⟩ := h
    obtain ⟨-, -, -, ⟨herrors, -⟩ | ⟨-, -, ⟨e, he, -⟩ | ⟨-, hv, -⟩⟩⟩ := attempt_cases ha hc
    · exact absurd hnone herrors
    · rw [hok] at he
      cases he
    · rw [show x.processed.verdict = _ from hv]
      rfl

theorem exists_endsIn (x : Step) : ∃ e, x.EndsIn e := by
  have ha := x.asked_eq
  -- The questions are asked in the order in which the step asks them.
  cases hparse : Form.parseFile x.before.disk x.descriptor with
  | error e => exact ⟨.unparseable, e, hparse⟩
  | ok form =>
    rw [hparse] at ha
    simp only at ha
    cases hbinding : form.binding with
    | none => exact ⟨.unbound, form, hparse, hbinding⟩
    | some className =>
      rw [hbinding] at ha
      simp only at ha
      cases hfile : Classes.fileOf? x.before.disk x.setup.output className with
      | none => exact ⟨.classMissing, form, className, hparse, hbinding, hfile⟩
      | some classFile =>
        rw [hfile] at ha
        cases hc : x.isCurrent classFile with
        | true => exact ⟨.upToDate, form, classFile, ha, hc⟩
        | false =>
          by_cases herrors : (x.outcome form classFile).finding.errors = []
          · cases hp : (x.publication form classFile).2 with
            | error e => exact ⟨.publishFailed, form, classFile, ha, hc, herrors, e, hp⟩
            | ok u => exact ⟨.published, form, classFile, ha, hc, herrors, hp⟩
          · exact ⟨.transformFailed, form, classFile, ha, hc, herrors⟩

/-- **A descriptor ends in exactly one way**: the one that its verdict tells. -/
theorem endsIn_iff {x : Step} {e : Ending} : x.EndsIn e ↔ x.ending = e := by
  constructor
  · exact ending_of_endsIn
  · intro h
    obtain ⟨e', he'⟩ := x.exists_endsIn
    rwa [← h, ending_of_endsIn he']

/-! ## What is counted of a step -/

theorem counted (x : Step) :
    x.verdict.isUnbound = (x.ending == .unbound) ∧ x.verdict.isUpToDate = (x.ending == .upToDate) ∧
      x.verdict.isPublished = (x.ending == .published) ∧ x.isAttempt = x.ending.isAttempt := by
  unfold isAttempt ending
  cases x.verdict with
  | unusable e => cases e <;> exact ⟨rfl, rfl, rfl, rfl⟩
  | _ => exact ⟨rfl, rfl, rfl, rfl⟩

/-- A descriptor is named in a failure exactly when it ends in one. -/
theorem isEmpty_failures (x : Step) : x.verdict.failures.isEmpty = !x.ending.isFailure := by
  have hattempt : x.isAttempt = true → x.verdict.isPublished = false → x.verdict.failures ≠ [] :=
    failures_ne_nil
  unfold isAttempt at hattempt
  unfold ending
  cases hv : x.verdict with
  | unusable e => cases e <;> rfl
  | rejected finding =>
    rw [hv] at hattempt
    exact List.isEmpty_eq_false_iff.mpr (hattempt rfl rfl)
  | _ => rfl

/-! ## The one process -/

/-- The process that a step is to start, if it gets as far as that. -/
def call? (x : Step) : Option Invocation :=
  match x.asked with
  | .ok (some (form, classFile)) =>
    if x.isCurrent classFile then none else x.invocation? form classFile
  | _ => none

/-- What comes of starting it. -/
def launched? (x : Step) : Option (Disk × Except SystemError Completion) :=
  x.call?.map (x.setup.instrumenter.tool.launch x.before.disk)

/-- The arguments of the process, if it is started. -/
def started? (x : Step) : Option (List String) :=
  match x.launched? with
  | some (_, .ok _) => x.call?.map (·.arguments)
  | _ => none

/-- The disk that the process leaves, which is the one it found when it is not started. -/
def launchedDisk (x : Step) : Disk := (x.launched?.map (·.1)).getD x.before.disk

/-- What the process prints to its output. -/
def output (x : Step) : String :=
  match x.launched? with
  | some (_, .ok completion) => Text.lenient completion.stdout
  | _ => ""

theorem call?_of_attempt {x : Step} {form : Form} {classFile : Path}
    (ha : x.asked = .ok (some (form, classFile))) (hc : x.isCurrent classFile = false) :
    x.call? = x.invocation? form classFile := by
  unfold call?
  rw [ha]
  simp only [hc]
  rfl

theorem call?_of_not_isAttempt {x : Step} (h : x.isAttempt = false) : x.call? = none := by
  unfold call?
  split
  · next form classFile ha =>
    split
    · rfl
    · next hc =>
      rw [isAttempt_iff.mpr ⟨form, classFile, ha, by simpa using hc⟩] at h
      cases h
  · rfl

/-- What comes of instrumenting a class, by what comes of starting the process. A process that is not
started leaves one message of the program's own. -/
theorem outcome_cases {x : Step} {form : Form} {classFile : Path}
    (ha : x.asked = .ok (some (form, classFile))) (hc : x.isCurrent classFile = false) :
    (x.outcome form classFile).disk = x.launchedDisk ∧
    (x.outcome form classFile).started = x.started? ∧
    ((∃ d' c, x.launched? = some (d', .ok c) ∧
        (x.outcome form classFile).finding = Instrumenter.findingOf c) ∨
      (x.output = "" ∧ ∃ e, (x.outcome form classFile).finding = ⟨[e], []⟩)) := by
  have hcall := call?_of_attempt ha hc
  unfold launchedDisk started? output launched?
  rw [hcall]
  unfold outcome Instrumenter.transform invocation?
  cases hclosure : Nested.closure x.before.disk x.before.resolver form with
  | mk answer r =>
    cases answer with
    | error e => exact ⟨rfl, rfl, .inr ⟨rfl, _, rfl⟩⟩
    | ok nested =>
      simp only [Option.map_some, Option.getD_some]
      split
      · next d' e hl =>
        rw [hl]
        exact ⟨rfl, rfl, .inr ⟨rfl, _, rfl⟩⟩
      · next d' c hl =>
        rw [hl]
        exact ⟨rfl, rfl, .inl ⟨d', c, rfl, rfl⟩⟩

/-- **The process is started at most once**, on the disk that the step found, and only for an attempt. -/
theorem started_eq (x : Step) : x.processed.started = x.started? := by
  cases hatt : x.isAttempt with
  | true =>
    obtain ⟨form, classFile, ha, hc⟩ := isAttempt_iff.mp hatt
    rw [(attempt_cases ha hc).2.1, (outcome_cases ha hc).2.1]
  | false =>
    have hcall := call?_of_not_isAttempt hatt
    have hnone : x.started? = none := by
      unfold started? launched?
      rw [hcall]
      rfl
    rw [hnone]
    rcases x.cases with ⟨e, -, -, hp⟩ | ⟨-, -, hp⟩ | ⟨form, classFile, ha, ⟨-, -, hp⟩ | hc⟩
    · rw [hp]
    · rw [hp]
    · rw [hp]
    · rw [isAttempt_iff.mpr ⟨form, classFile, ha, hc⟩] at hatt
      cases hatt

/-- What an attempt leaves of the disk is what the process left, or what publishing made of that. -/
theorem disk_after {x : Step} (h : x.isAttempt = true) :
    (x.ending = .transformFailed ∧ x.after.disk = x.launchedDisk) ∨
    ((x.ending = .publishFailed ∨ x.ending = .published) ∧
      (x.ending = .published ↔
        (publish x.launchedDisk x.setup.source x.setup.output x.descriptor).2 = .ok ()) ∧
      x.after.disk = (publish x.launchedDisk x.setup.source x.setup.output x.descriptor).1) := by
  obtain ⟨form, classFile, ha, hc⟩ := isAttempt_iff.mp h
  have hdisk := (outcome_cases ha hc).1
  obtain ⟨-, -, -, hcases⟩ := attempt_cases ha hc
  unfold publication at hcases
  unfold ending
  rw [hdisk] at hcases
  rcases hcases with ⟨-, hv, hafter, -⟩ | ⟨-, hafter, ⟨e, he, hv, -⟩ | ⟨hok, hv, -⟩⟩
  · exact .inl ⟨by rw [hv]; rfl, hafter⟩
  · rw [hv, he]
    exact .inr ⟨.inl rfl, by simp [Verdict.ending], hafter⟩
  · rw [hv, hok]
    exact .inr ⟨.inr rfl, by simp [Verdict.ending], hafter⟩

/-! ## What it printed -/

theorem output_of_not_isAttempt {x : Step} (h : x.isAttempt = false) : x.output = "" := by
  unfold output launched?
  rw [call?_of_not_isAttempt h]
  rfl

/-- **The warnings of a descriptor** are those that the process printed. -/
theorem warnings_eq (x : Step) : x.verdict.warnings = Diagnostic.printed .warning x.output := by
  cases hatt : x.isAttempt with
  | false =>
    rw [output_of_not_isAttempt hatt]
    unfold isAttempt at hatt
    cases hv : x.verdict with
    | unusable => rfl
    | unbound => rfl
    | upToDate => rfl
    | _ => simp [hv, Verdict.isTransformed] at hatt
  | true =>
    obtain ⟨form, classFile, ha, hc⟩ := isAttempt_iff.mp hatt
    have hfinding : x.verdict.warnings =
        (x.outcome form classFile).finding.warnings.map Diagnostic.display := by
      obtain ⟨-, -, -, ⟨-, hv, -⟩ | ⟨-, -, ⟨e, -, hv, -⟩ | ⟨-, hv, -⟩⟩⟩ := attempt_cases ha hc <;>
        rw [hv] <;> rfl
    rw [hfinding]
    obtain ⟨-, -, ⟨d', c, hl, hf⟩ | ⟨houtput, e, hf⟩⟩ := outcome_cases ha hc
    · unfold output
      rw [hf, hl, Instrumenter.warnings_findingOf, Finding.map_display_warnings]
    · rw [hf, houtput]
      rfl

theorem printed_of_attempt {x : Step} {form : Form} {classFile : Path}
    (ha : x.asked = .ok (some (form, classFile))) (hc : x.isCurrent classFile = false) :
    Diagnostic.printed .error x.output =
        (x.outcome form classFile).finding.errors.map Diagnostic.display ∨
      (Diagnostic.printed .error x.output = [] ∧
        ∃ e, (x.outcome form classFile).finding.errors = [e]) := by
  obtain ⟨-, -, ⟨d', c, hl, hf⟩ | ⟨houtput, e, hf⟩⟩ := outcome_cases ha hc
  · have hout : x.output = Text.lenient c.stdout := by
      unfold output
      rw [hl]
    rw [hf, hout, ← Finding.map_display_errors]
    rcases Instrumenter.errors_findingOf_cases c with he | ⟨hnone, he⟩
    · rw [he]
      exact .inl rfl
    · rw [hnone]
      exact .inr ⟨rfl, he⟩
  · rw [hf, houtput]
    exact .inr ⟨rfl, e, rfl⟩

/-- **The failures of a descriptor** are the errors that the process printed, or one message of the
program's own when it printed none. -/
theorem failures_cases (x : Step) :
    x.verdict.failures = Diagnostic.printed .error x.output ∨
      (Diagnostic.printed .error x.output = [] ∧ ∃ message, x.verdict.failures = [message]) := by
  cases hatt : x.isAttempt with
  | false =>
    rw [output_of_not_isAttempt hatt]
    unfold isAttempt at hatt
    cases hv : x.verdict with
    | unusable => exact .inr ⟨rfl, _, rfl⟩
    | unbound => exact .inl rfl
    | upToDate => exact .inl rfl
    | _ => simp [hv, Verdict.isTransformed] at hatt
  | true =>
    obtain ⟨form, classFile, ha, hc⟩ := isAttempt_iff.mp hatt
    have hprinted := printed_of_attempt ha hc
    obtain ⟨-, -, -, ⟨-, hv, -⟩ | ⟨hnone, -, ⟨e, -, hv, -⟩ | ⟨-, hv, -⟩⟩⟩ := attempt_cases ha hc
    · -- What was found wrong is told.
      rw [hv]
      rcases hprinted with hp | ⟨hp, e, he⟩
      · exact .inl hp.symm
      · refine .inr ⟨hp, e.display, ?_⟩
        show List.map _ _ = _
        rw [he]
        rfl
    · -- Nothing was found wrong, so nothing of it was printed.
      rw [hnone] at hprinted
      rcases hprinted with hp | ⟨-, e, he⟩
      · exact .inr ⟨hp, _, by rw [hv]; rfl⟩
      · cases he
    · rw [hnone] at hprinted
      rcases hprinted with hp | ⟨-, e, he⟩
      · rw [hp, hv]
        exact .inl rfl
      · cases he

end Step
end Run
end FormWeaver
