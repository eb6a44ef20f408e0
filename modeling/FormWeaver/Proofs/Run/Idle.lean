import FormWeaver.Proofs.Cache.Cuts
import FormWeaver.Proofs.Run.Rerun
import FormWeaver.Proofs.Run.Sources

/-!
# Runs without work

Whether a run has work is told from the world before it: it has none if it cannot be set up, if there is
no source directory, or if each descriptor there is *quiet*, that is cannot be read as a form, is bound
to no class, is bound to a class that has not been compiled, or is up to date by the cache. These are
just the runs that attempt nothing (`endsIdle_iff_hasNoWork`), since a step that attempts nothing leaves
everything to the next one as it found it. They leave the disk as it was, clock and cache file included,
whatever that file holds.
-/

namespace FormWeaver.Run

variable {d : Disk} {i : Instrumenter} {env : Environment} {o : Options}

/-! ## What is no work -/

/-- Whether there is nothing to do for a descriptor. -/
inductive IsQuiet (d : Disk) (output : Path) (cache : Cache) (p : Path) : Prop
  | unparseable {e : DescriptorError} (h : Form.parseFile d p = .error e)
  | unbound {form : Form} (h : Form.parseFile d p = .ok form) (hbinding : form.binding = none)
  | classMissing {form : Form} {className : String} (h : Form.parseFile d p = .ok form)
      (hbinding : form.binding = some className) (hclass : Classes.fileOf? d output className = none)
  | upToDate {form : Form} {className : String} {classFile : Path} (h : Form.parseFile d p = .ok form)
      (hbinding : form.binding = some className)
      (hclass : Classes.fileOf? d output className = some classFile)
      (hcurrent : cache.isUpToDate d p classFile = true)

/-- Whether there is nothing to do for a run. -/
inductive HasNoWork (d : Disk) (env : Environment) (o : Options) : Prop
  | noSource {cause : SystemError} (h : d.absolute o.source = .error cause)
  | noOutput {cause : SystemError} (h : d.absolute o.output = .error cause)
  | noContext {e : SetupError} (h : Classpath.Context.build d env o.dependencies = .error e)
  | sourceMissing {source : Path} (hs : d.absolute o.source = .ok source)
      (h : d.isDirectory source = false)
  | noDescriptors {source : Path} (hs : d.absolute o.source = .ok source)
      (h : Form.discover d source = [])
  | allQuiet {source output : Path} (hs : d.absolute o.source = .ok source)
      (ho : d.absolute o.output = .ok output)
      (h : ∀ p ∈ Form.discover d source, IsQuiet d output (o.cacheFile.read d) p)

/-- Whether a run ended in a setup error, or attempted nothing. -/
def EndsIdle (r : Result) : Prop :=
  (∃ e, r.report = .error e) ∨ ∃ report, r.report = .ok report ∧ report.transformed = 0

/-! ## Steps that attempt nothing -/

/-- A step attempts nothing exactly for a quiet descriptor. -/
theorem Step.isAttempt_eq_false_iff_isQuiet {x : Step} :
    x.isAttempt = false ↔ IsQuiet x.before.disk x.setup.output x.before.cache x.descriptor := by
  rw [Step.isAttempt_eq_false_iff]
  unfold Step.classFile? boundClass? bound? Step.isCurrent
  constructor
  · intro h
    cases hform : Form.parseFile x.before.disk x.descriptor with
    | error e => exact .unparseable hform
    | ok form =>
      cases hbinding : form.binding with
      | none => exact .unbound hform hbinding
      | some className =>
        cases hclass : Classes.fileOf? x.before.disk x.setup.output className with
        | none => exact .classMissing hform hbinding hclass
        | some classFile =>
          simp only [hform, hbinding, hclass] at h
          exact .upToDate hform hbinding hclass (h classFile rfl)
  · intro h classFile hbound
    cases h with
    | unparseable hform => simp [hform] at hbound
    | unbound hform hbinding => simp [hform, hbinding] at hbound
    | classMissing hform hbinding hclass => simp [hform, hbinding, hclass] at hbound
    | upToDate hform hbinding hclass hcurrent =>
      simp only [hform, hbinding, hclass, Option.some.injEq] at hbound
      rw [← hbound]
      exact hcurrent

/-! ## Runs that attempt nothing -/

theorem no_attempt_of_hasNoWork (i : Instrumenter) (h : HasNoWork d env o) :
    ∀ x ∈ steps d i env o, x.isAttempt = false := by
  intro x hx
  obtain ⟨s, -, -, hstart, -⟩ := split_of_mem_steps hx
  -- What has started has got past everything that keeps a run from its descriptors.
  obtain ⟨source, output, context, hs, ho, hc, hdirectory, hne, -⟩ := start?_cases hstart
  cases h with
  | noSource h => rw [hs] at h; cases h
  | noOutput h => rw [ho] at h; cases h
  | noContext h => rw [hc] at h; cases h
  | sourceMissing hs' h =>
    obtain rfl := Except.ok.inj (hs.symm.trans hs')
    rw [hdirectory] at h
    cases h
  | noDescriptors hs' h =>
    obtain rfl := Except.ok.inj (hs.symm.trans hs')
    exact absurd h hne
  | allQuiet hs' ho' h =>
    obtain rfl := Except.ok.inj (hs.symm.trans hs')
    obtain rfl := Except.ok.inj (ho.symm.trans ho')
    rw [steps_eq_trace hs ho hc] at hx
    refine no_attempt_iff.mpr (fun p hp => ?_) x hx
    rw [found, if_pos hdirectory] at hp
    exact Step.isAttempt_eq_false_iff_isQuiet.mpr (h p hp)

theorem hasNoWork_of_no_attempt (h : ∀ x ∈ steps d i env o, x.isAttempt = false) :
    HasNoWork d env o := by
  cases hs : d.absolute o.source with
  | error cause => exact .noSource hs
  | ok source =>
    cases ho : d.absolute o.output with
    | error cause => exact .noOutput ho
    | ok output =>
      cases hc : Classpath.Context.build d env o.dependencies with
      | error e => exact .noContext hc
      | ok context =>
        cases hdirectory : d.isDirectory source with
        | false => exact .sourceMissing hs hdirectory
        | true =>
          rw [steps_eq_trace hs ho hc, no_attempt_iff] at h
          refine .allQuiet hs ho fun p hp => ?_
          refine Step.isAttempt_eq_false_iff_isQuiet.mp (h p ?_)
          rwa [found, if_pos hdirectory]

theorem endsIdle_iff_no_attempt :
    EndsIdle (run d i env o) ↔ ∀ x ∈ steps d i env o, x.isAttempt = false := by
  cases hreport : (run d i env o).report with
  | error e =>
    refine iff_of_true (.inl ⟨e, hreport⟩) ?_
    rcases run_cases d i env o with ⟨-, -, hnone, -⟩ | ⟨s, -, -, ⟨h, -⟩ | ⟨-, written, -, h⟩⟩
    · simp [hnone]
    · exact h
    · rw [hreport] at h
      cases h
  | ok report =>
    have hcount : report.transformed = 0 ↔ ∀ x ∈ steps d i env o, x.isAttempt = false := by
      rw [(report_counts hreport).2.1, List.countP_eq_zero]
      simp only [Bool.not_eq_true]
    rw [← hcount]
    unfold EndsIdle
    simp [hreport]

/-- **A run attempts nothing exactly when it has no work.** -/
theorem endsIdle_iff_hasNoWork : EndsIdle (run d i env o) ↔ HasNoWork d env o := by
  rw [endsIdle_iff_no_attempt]
  exact ⟨hasNoWork_of_no_attempt, no_attempt_of_hasNoWork i⟩

/-- What a run that attempts nothing reports, when it reports anything. -/
theorem report_of_no_attempt (h : ∀ x ∈ steps d i env o, x.isAttempt = false) {report : Report}
    (hreport : (run d i env o).report = .ok report) :
    report.published = 0 ∧ report.cacheWritten = false ∧ report.outcome ≠ .instrumented := by
  have hpublished : report.published = 0 := by
    rw [(report_counts hreport).2.2, List.countP_eq_zero]
    intro x hx
    simp [(Step.of_not_isAttempt (h x hx)).2.1]
  refine ⟨hpublished, ?_⟩
  rcases run_cases d i env o with ⟨-, -, -, -, hidle⟩ | ⟨s, -, -, ⟨-, -, h'⟩ | ⟨⟨x, hx, hatt⟩, -⟩⟩
  · obtain ⟨outcome, rfl, hne⟩ := hidle report hreport
    exact ⟨rfl, hne⟩
  · obtain rfl := Except.ok.inj (hreport.symm.trans h')
    have hany : anyTransformed ((steps d i env o).map Step.processed) = false := by
      rw [anyTransformed_map, List.any_eq_false]
      intro x hx
      simp [h x hx]
    simp [Report.of, hany]
  · rw [h x hx] at hatt
    cases hatt

/-- **No work, no writes.** Whatever the world, the environment and the options are: a run ends in a
setup error or attempts nothing exactly when it had no work, and such a run leaves the disk as it was,
starts no process and publishes nothing; and if it reports at all, it reports no written cache. -/
theorem run_without_work (d : Disk) (i : Instrumenter) (env : Environment) (o : Options) :
    (EndsIdle (run d i env o) ↔ HasNoWork d env o) ∧
    (EndsIdle (run d i env o) →
      (run d i env o).disk = d ∧ (run d i env o).started = [] ∧
        ∀ report, (run d i env o).report = .ok report →
          report.published = 0 ∧ report.cacheWritten = false ∧ report.outcome ≠ .instrumented) := by
  refine ⟨endsIdle_iff_hasNoWork, fun hidle => ?_⟩
  have hnone := endsIdle_iff_no_attempt.mp hidle
  obtain ⟨hstarted, hdisk⟩ := run_of_no_attempt hnone
  exact ⟨hdisk, hstarted, fun report hreport => report_of_no_attempt hnone hreport⟩

namespace Sample

/-- A world with a document that is no text, one that is bound to no class and one whose class has not
been compiled, and with a cache that is damaged. -/
def quiet : Disk :=
  ⟨[(["s"], .directory), (["s", "a.form"], .file ⟨#[0xFF]⟩ 5), (["s", "b.form"], .file otherText.toUTF8 5),
    (["s", "c.form"], .file text.toUTF8 5), (["b"], .directory),
    (["b", "gui-forms.cache"], .file "gui-forms-cache 1\n".toUTF8 5)], .present [], 10⟩

theorem discover_quiet :
    Form.discover quiet ⟨"/s"⟩ = [⟨"/s/a.form"⟩, ⟨"/s/b.form"⟩, ⟨"/s/c.form"⟩] := by
  have hfiles : (Form.filesUnder quiet ⟨"/s"⟩).filter
      (fun p => p.extension? == some Form.descriptorExtension) =
        [⟨"/s/a.form"⟩, ⟨"/s/b.form"⟩, ⟨"/s/c.form"⟩] := by decide
  unfold Form.discover
  rw [hfiles]
  apply List.mergeSort_of_pairwise
  decide +kernel

theorem hasNoWork_quiet : HasNoWork quiet environment (options "/o" "/b") := by
  obtain ⟨hs, ho⟩ := absolute_options quiet (show "/o" ∈ outputs by decide) "/b"
  refine .allQuiet hs ho fun p hp => ?_
  rw [discover_quiet] at hp
  simp only [List.mem_cons, List.not_mem_nil, or_false] at hp
  rcases hp with rfl | rfl | rfl
  · have hcontents : quiet.contents ⟨"/s/a.form"⟩ = .ok ⟨#[0xFF]⟩ := rfl
    have hnoText : String.fromUTF8? ⟨#[0xFF]⟩ = none := by decide +kernel
    apply IsQuiet.unparseable
    · unfold Form.parseFile Form.parse
      simp only [hcontents, hnoText]
      rfl
  · exact .unbound (parseFile_other rfl) rfl
  · exact .classMissing (parseFile_eq rfl) rfl (by decide)

end Sample

open Sample in
/-- The damaged cache stays as it is, although the run reads it as empty and finds three descriptors. -/
theorem run_without_work_quiet :
    EndsIdle (run quiet instrumenter environment (options "/o" "/b")) ∧
      (run quiet instrumenter environment (options "/o" "/b")).disk = quiet ∧
      (run quiet instrumenter environment (options "/o" "/b")).started = [] ∧
      (options "/o" "/b").cacheFile.read quiet = .empty ∧
      quiet.contents (options "/o" "/b").cacheFile.path = .ok "gui-forms-cache 1\n".toUTF8 := by
  obtain ⟨hiff, hkeeps⟩ := run_without_work quiet instrumenter environment (options "/o" "/b")
  have hidle := hiff.mpr hasNoWork_quiet
  obtain ⟨hdisk, hstarted, -⟩ := hkeeps hidle
  have hcontents : quiet.contents (options "/o" "/b").cacheFile.path =
      .ok "gui-forms-cache 1\n".toUTF8 := by
    rw [show (options "/o" "/b").cacheFile.path = ⟨"/b/gui-forms.cache"⟩ by decide]
    rfl
  have hdamaged : Cache.decodeWith Digest.Sha256.ofText "gui-forms-cache 1\n" = none := rfl
  have hread : (options "/o" "/b").cacheFile.read quiet = .empty := by
    rw [CacheFile.read_of_contents hcontents, Cache.readWith]
    simp only [Text.fromUTF8?_toUTF8, hdamaged, Option.getD_none]
  exact ⟨hidle, hdisk, hstarted, hread, hcontents⟩

end FormWeaver.Run
