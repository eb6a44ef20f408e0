import FormWeaver.CommandLine.Program
import FormWeaver.Proofs.Run.Ending
import FormWeaver.Proofs.Run.Single
import Mathlib.Data.Finset.Card

/-!
# The accounts of a run

No descriptor is lost and none is counted twice, whatever went wrong with the others: the counts of a
report balance with the descriptors that its failures name (`Accounts`). The balance is kept step by
step, because each step is counted once; that different steps name different descriptors is known from
the strict order in which they are discovered.
-/

namespace FormWeaver.Run

variable {d : Disk} {i : Instrumenter} {env : Environment} {o : Options}

/-! ## Who is named -/

/-- The descriptors that issues name, each once. -/
def named (issues : List Issue) : Finset (List Path.Component) :=
  (issues.map (·.descriptor.components)).toFinset

/-- Whether a step attempts a class for a descriptor. -/
def attempted (xs : List Step) (p : Path) : Bool := xs.any fun x => x.isAttempt && x.descriptor.same p

theorem issues_eq (messages : Verdict → List String) (xs : List Step) :
    issues messages (xs.map Step.processed) =
      xs.flatMap fun x => (messages x.verdict).map (⟨x.descriptor, ·⟩) := by
  unfold issues
  rw [List.flatMap_map]
  congr 1
  funext x
  rw [x.descriptor_processed]
  rfl

/-- As many descriptors are named as steps say something of them. -/
theorem card_named {xs : List Step}
    (hxs : xs.Pairwise fun x y => x.descriptor.components ≠ y.descriptor.components)
    (messages : Verdict → List String) (keep : Path → Bool) :
    (named ((issues messages (xs.map Step.processed)).filter (keep ·.descriptor))).card =
      xs.countP fun x => !(messages x.verdict).isEmpty && keep x.descriptor := by
  have hset : named ((issues messages (xs.map Step.processed)).filter (keep ·.descriptor)) =
      ((xs.filter fun x => !(messages x.verdict).isEmpty && keep x.descriptor).map
        (·.descriptor.components)).toFinset := by
    ext f
    unfold named
    rw [issues_eq]
    simp only [List.mem_toFinset, List.mem_map, List.mem_filter, List.mem_flatMap, Bool.and_eq_true,
      Bool.not_eq_true', List.isEmpty_eq_false_iff_exists_mem]
    constructor
    · rintro ⟨issue, ⟨⟨x, hx, m, hm, rfl⟩, hkeep⟩, rfl⟩
      exact ⟨x, ⟨hx, ⟨m, hm⟩, hkeep⟩, rfl⟩
    · rintro ⟨x, ⟨hx, ⟨m, hm⟩, hkeep⟩, rfl⟩
      exact ⟨⟨x.descriptor, m⟩, ⟨⟨x, hx, m, hm, rfl⟩, hkeep⟩, rfl⟩
  have hnodup : ((xs.filter fun x => !(messages x.verdict).isEmpty && keep x.descriptor).map
      (·.descriptor.components)).Nodup :=
    List.pairwise_map.mpr (hxs.filter _)
  rw [hset, List.toFinset_card_of_nodup hnodup, List.length_map, List.countP_eq_length_filter]

theorem attempted_eq {xs : List Step}
    (hxs : xs.Pairwise fun x y => x.descriptor.components ≠ y.descriptor.components) {x : Step}
    (hx : x ∈ xs) : attempted xs x.descriptor = x.isAttempt := by
  unfold attempted
  rw [Bool.eq_iff_iff, List.any_eq_true]
  constructor
  · rintro ⟨y, hy, hfor⟩
    rw [Bool.and_eq_true] at hfor
    obtain ⟨hatt, hsame⟩ := hfor
    -- No other step is for the same descriptor.
    by_cases hyx : y = x
    · rwa [← hyx]
    · have hsymm : Std.Symm fun x y : Step => x.descriptor.components ≠ y.descriptor.components :=
        ⟨fun _ _ => Ne.symm⟩
      exact absurd (Path.same_iff.mp hsame) (List.Pairwise.forall hxs hy hx hyx)
  · intro hatt
    exact ⟨x, hx, by rw [hatt, Path.same_iff.mpr rfl]; rfl⟩

section Counting

variable {xs : List Step}
  (hxs : xs.Pairwise fun x y => x.descriptor.components ≠ y.descriptor.components)

include hxs

theorem card_named_failures : (named (issues Verdict.failures (xs.map Step.processed))).card =
    xs.countP (·.ending.isFailure) := by
  have hall := card_named hxs Verdict.failures fun _ => true
  rw [List.filter_true] at hall
  rw [hall]
  congr 1
  funext x
  rw [x.isEmpty_failures, Bool.not_not, Bool.and_true]

theorem card_named_attempted :
    (named ((issues Verdict.failures (xs.map Step.processed)).filter
        (attempted xs ·.descriptor))).card =
      xs.countP fun x => x.ending.isFailure && x.ending.isAttempt := by
  rw [card_named hxs]
  apply List.countP_congr
  intro x hx
  rw [x.isEmpty_failures, Bool.not_not, attempted_eq hxs hx, x.counted.2.2.2]

end Counting

/-! ## The balance -/

/-- Each step is counted once. -/
theorem length_eq_counts (xs : List Step) :
    xs.length = xs.countP (·.ending == .unbound) + xs.countP (·.ending == .upToDate) +
      xs.countP (·.ending == .published) + xs.countP (·.ending.isFailure) := by
  induction xs with
  | nil => rfl
  | cons x xs ih =>
    simp only [List.length_cons, List.countP_cons, ih]
    cases x.ending <;> simp [Ending.isFailure] <;> omega

theorem countP_isAttempt (xs : List Step) :
    xs.countP (·.ending.isAttempt) = xs.countP (·.ending == .published) +
      xs.countP fun x => x.ending.isFailure && x.ending.isAttempt := by
  induction xs with
  | nil => rfl
  | cons x xs ih =>
    simp only [List.countP_cons, ih]
    cases x.ending <;> simp [Ending.isFailure, Ending.isAttempt] <;> omega

/-! ## The whole run -/

theorem countP_processed (p : Verdict → Bool) {q : Step → Bool} (h : ∀ x : Step, p x.verdict = q x)
    (xs : List Step) : (xs.map Step.processed).countP (p ·.verdict) = xs.countP q := by
  rw [List.countP_map]
  congr 1
  funext x
  exact h x

/-- A report is counted off the steps, also when there were none. -/
theorem report_eq {report : Report} (h : (run d i env o).report = .ok report) :
    ∃ outcome written,
      report = { Report.of ((steps d i env o).map Step.processed) written with outcome := outcome } ∧
      (outcome = .instrumented ↔ ∃ x ∈ steps d i env o, x.isAttempt = true) := by
  rcases run_cases d i env o with ⟨-, -, hnone, -, hidle⟩ |
      ⟨s, -, -, ⟨hno, -, hreport⟩ | ⟨hatt, written, -, hreport⟩⟩
  · obtain ⟨outcome, rfl, hne⟩ := hidle report h
    rw [hnone]
    exact ⟨outcome, false, rfl, by simp [hne]⟩
  · obtain rfl := Except.ok.inj (h.symm.trans hreport)
    have hany : (steps d i env o).any Step.isAttempt = false := by simpa using hno
    refine ⟨.upToDate, false, ?_, by simpa using hno⟩
    unfold Report.of
    rw [anyTransformed_map, hany]
    rfl
  · obtain rfl := Except.ok.inj (h.symm.trans hreport)
    have hany : (steps d i env o).any Step.isAttempt = true := by simpa using hatt
    refine ⟨.instrumented, written, ?_, by simpa using hatt⟩
    unfold Report.of
    rw [anyTransformed_map, hany]
    rfl

/-- A run that returns a report takes a step for each descriptor that is found. -/
theorem descriptor_steps {report : Report} (h : (run d i env o).report = .ok report) :
    ∃ source, d.absolute o.source = .ok source ∧
      (steps d i env o).map Step.descriptor = found d source := by
  unfold run at h
  cases hs : d.absolute o.source with
  | error e => simp [hs] at h
  | ok source =>
    cases ho : d.absolute o.output with
    | error e => simp [hs, ho] at h
    | ok output =>
      refine ⟨source, rfl, ?_⟩
      cases hc : Classpath.Context.build d env o.dependencies with
      | ok context => rw [steps_eq_trace hs ho hc, map_descriptor_trace]
      | error e =>
        -- Without a class path there is a report only if nothing is found.
        have hnone : steps d i env o = [] := by simp [steps, start?, hc]
        rw [hnone, found]
        simp only [hs, ho, runBetween, hc] at h
        split at h
        · next hd =>
          have hd : d.isDirectory source = false := by simpa using hd
          rw [hd]
          rfl
        · split at h
          · next hempty => simpa using fun _ => (List.isEmpty_iff.mp hempty).symm
          · cases h

theorem pairwise_lt_found (hd : d.IsProper) (source : Path) :
    (found d source).Pairwise fun p q => p.lt q = true := by
  unfold found
  split
  · exact Form.pairwise_lt_discover hd source
  · exact List.Pairwise.nil

theorem started_run (d : Disk) (i : Instrumenter) (env : Environment) (o : Options) :
    (run d i env o).started = (steps d i env o).filterMap Step.started? := by
  have hprocessed : (run d i env o).processed = (steps d i env o).map Step.processed := by
    rcases run_cases d i env o with ⟨-, -, hnone, hprocessed, -⟩ | ⟨s, -, hprocessed, -⟩
    · rw [hprocessed, hnone]
      rfl
    · exact hprocessed
  unfold Result.started
  rw [hprocessed, List.filterMap_map]
  congr 1
  funext x
  exact x.started_eq

/-! ## The exit code -/

/-- Whether a call of the program with these arguments gets as far as a run, and then as this one. -/
def IsCall (vars : CommandLine.Variables) (args : List String) (d : Disk) (i : Instrumenter)
    (env : Environment) (o : Options) : Prop :=
  ∃ a scaling jar dependencies archive, CommandLine.parse args = .ok a ∧
    a.command = .instrument scaling jar ∧ a.dependencies d = .ok dependencies ∧
    CommandLine.instrumenterJar jar vars d = .ok archive ∧
    i = ⟨i.tool, CommandLine.runtimeProgram vars, archive⟩ ∧
    env = (a.hostSettings vars).environment d ∧
    o = ⟨a.sourceDirectory, a.outputDirectory, a.buildDirectory, dependencies, scaling⟩

theorem execute_of_isCall {vars : CommandLine.Variables} {args : List String}
    (h : IsCall vars args d i env o) :
    CommandLine.execute d i.tool vars args = CommandLine.concluded (run d i env o) := by
  obtain ⟨a, scaling, jar, dependencies, archive, hparse, hcommand, hdependencies, harchive, hi, henv,
    ho⟩ := h
  unfold CommandLine.execute
  simp only [hparse, hcommand]
  unfold CommandLine.instrument
  simp only [hdependencies, harchive]
  rw [henv, ho, hi]

theorem code_concluded {r : Result} {report : Report} (h : r.report = .ok report) :
    (CommandLine.concluded r).code = if report.failures = [] then 0 else 1 := by
  unfold CommandLine.concluded
  simp only [h]
  by_cases hf : report.failures = []
  · have hnone : report.hasErrors = false := by simp [Report.hasErrors, hf]
    rw [hnone, if_pos hf]
    rfl
  · have hsome : report.hasErrors = true := by simp [Report.hasErrors, hf]
    rw [hsome, if_neg hf]
    rfl

/-! ## The accounts -/

/-- What holds of the report of a run and of the steps behind it. -/
structure Accounts (d : Disk) (i : Instrumenter) (env : Environment) (o : Options) (report : Report) :
    Prop where
  /-- There is a step for each descriptor that is discovered, in strict path order. -/
  found : ∃ source, d.absolute o.source = .ok source ∧
    (steps d i env o).map Step.descriptor = found d source
  discovered : report.discovered = (steps d i env o).length
  ordered : (steps d i env o).Pairwise fun x y => x.descriptor.lt y.descriptor = true
  /-- Each ends in exactly one way. -/
  ends : ∀ x ∈ steps d i env o, ∀ e, x.EndsIn e ↔ x.ending = e
  unbound : report.unbound = (steps d i env o).countP (·.ending == .unbound)
  upToDate : report.upToDate = (steps d i env o).countP (·.ending == .upToDate)
  published : report.published = (steps d i env o).countP (·.ending == .published)
  transformed : report.transformed = (steps d i env o).countP (·.ending.isAttempt)
  balance : report.discovered =
    report.unbound + report.upToDate + report.published + (named report.failures).card
  attempts : report.transformed = report.published +
    (named (report.failures.filter (attempted (steps d i env o) ·.descriptor))).card
  /-- The processes that were started are at most one for each attempt, run on the disk that the step
  found. -/
  started : (run d i env o).started = (steps d i env o).filterMap Step.started?
  idle : ∀ x ∈ steps d i env o, x.ending.isAttempt = false → x.call? = none ∧ x.after = x.before
  once : ∀ x ∈ steps d i env o, x.ending.isAttempt = true → x.after.disk = x.launchedDisk ∨
    x.after.disk = (publish x.launchedDisk x.setup.source x.setup.output x.descriptor).1
  /-- The issues are those of one descriptor after the other. -/
  failures : report.failures = (steps d i env o).flatMap fun x =>
    x.verdict.failures.map (⟨x.descriptor, ·⟩)
  warnings : report.warnings = (steps d i env o).flatMap fun x =>
    x.verdict.warnings.map (⟨x.descriptor, ·⟩)
  /-- The issues of a descriptor are as the process printed them, but for a failure of the program's
  own. -/
  printed : ∀ x ∈ steps d i env o, x.verdict.warnings = Diagnostic.printed .warning x.output ∧
    (x.verdict.failures = Diagnostic.printed .error x.output ∨
      (Diagnostic.printed .error x.output = [] ∧ ∃ message, x.verdict.failures = [message]))
  outcome : report.outcome = .instrumented ↔ 0 < report.transformed
  /-- A call of the program that gets the report tells by its exit code whether there are failures. -/
  code : ∀ vars args, IsCall vars args d i env o →
    (CommandLine.execute d i.tool vars args).code = if report.failures = [] then 0 else 1

/-- **The accounts of a run.** Whatever happens to other descriptors, each discovered descriptor ends
in one way, is counted once, and is named in the failures exactly when it failed. -/
theorem accounts_run (hd : d.IsProper) {report : Report} (h : (run d i env o).report = .ok report) :
    Accounts d i env o report := by
  have hxs : (steps d i env o).Pairwise fun x y => x.descriptor.components ≠ y.descriptor.components :=
    pairwise_steps hd
  obtain ⟨source, hs, hfound⟩ := descriptor_steps h
  obtain ⟨outcome, written, hreport, houtcome⟩ := report_eq h
  have hdiscovered : report.discovered = (steps d i env o).length := by
    rw [hreport]
    exact List.length_map _
  have hunbound : report.unbound = (steps d i env o).countP (·.ending == .unbound) := by
    rw [hreport]
    exact countP_processed Verdict.isUnbound (fun x => x.counted.1) _
  have hupToDate : report.upToDate = (steps d i env o).countP (·.ending == .upToDate) := by
    rw [hreport]
    exact countP_processed Verdict.isUpToDate (fun x => x.counted.2.1) _
  have hpublished : report.published = (steps d i env o).countP (·.ending == .published) := by
    rw [hreport]
    exact countP_processed Verdict.isPublished (fun x => x.counted.2.2.1) _
  have htransformed : report.transformed = (steps d i env o).countP (·.ending.isAttempt) := by
    rw [hreport]
    exact countP_processed Verdict.isTransformed (fun x => x.counted.2.2.2) _
  have hfailures : report.failures = issues Verdict.failures ((steps d i env o).map Step.processed) := by
    rw [hreport]
    rfl
  have hwarnings : report.warnings = issues Verdict.warnings ((steps d i env o).map Step.processed) := by
    rw [hreport]
    rfl
  have hnamed : (named report.failures).card = (steps d i env o).countP (·.ending.isFailure) := by
    rw [hfailures, card_named_failures hxs]
  have hattempts : (named (report.failures.filter (attempted (steps d i env o) ·.descriptor))).card =
      (steps d i env o).countP fun x => x.ending.isFailure && x.ending.isAttempt := by
    rw [hfailures, card_named_attempted hxs]
  exact {
    found := ⟨source, hs, hfound⟩
    discovered := hdiscovered
    ordered := by
      have hlt := pairwise_lt_found hd source
      rwa [← hfound, List.pairwise_map] at hlt
    ends := fun x _ e => Step.endsIn_iff
    unbound := hunbound
    upToDate := hupToDate
    published := hpublished
    transformed := htransformed
    balance := by rw [hdiscovered, hunbound, hupToDate, hpublished, hnamed, length_eq_counts]
    attempts := by rw [htransformed, hpublished, hattempts, countP_isAttempt]
    started := started_run d i env o
    idle := fun x _ hx => by
      rw [← x.counted.2.2.2] at hx
      exact ⟨Step.call?_of_not_isAttempt hx, Step.after_of_not_isAttempt hx⟩
    once := fun x _ hx => by
      rw [← x.counted.2.2.2] at hx
      exact (Step.disk_after hx).imp (·.2) (·.2.2)
    failures := by rw [hfailures, issues_eq]
    warnings := by rw [hwarnings, issues_eq]
    printed := fun x _ => ⟨x.warnings_eq, x.failures_cases⟩
    outcome := by
      rw [htransformed, List.countP_pos_iff]
      simp only [← Step.counted, hreport]
      exact houtcome
    code := fun vars args hcall => by
      rw [execute_of_isCall hcall, code_concluded h] }

open Sample in
/-- In the small world the accounts of the run hold. -/
theorem accounts_run_small : ∃ report,
    (run plain instrumenter environment (options "/s" "/b")).report = .ok report ∧
      report.discovered = 1 ∧ Accounts plain instrumenter environment (options "/s" "/b") report := by
  obtain ⟨-, -, -, hreport⟩ := first_run_plain
  exact ⟨_, hreport, rfl, accounts_run isProper_plain hreport⟩

end FormWeaver.Run
