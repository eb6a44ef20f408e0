import FormWeaver.Proofs.Run.Single

/-!
# Histories of runs

Runs that share a build directory follow one another, and anything may happen to the disk between them
that leaves what stands at the cache file alone (`IsHistory`). Then a run skips a descriptor exactly
when the latest attempt that an earlier run made for its pair ended in a publish, and both files still
have the times they had right after it (`upToDate_iff`). The disk must be clear for the cache file
whenever a run begins; to remove the cache does not see to that (`attempted_again_after_clean`).
-/

namespace FormWeaver.Run

/-- A run that takes place. -/
structure Visit where
  disk : Disk
  instrumenter : Instrumenter
  environment : Environment
  options : Options

namespace Visit

def result (v : Visit) : Result := run v.disk v.instrumenter v.environment v.options

def steps (v : Visit) : List Step := Run.steps v.disk v.instrumenter v.environment v.options

/-- Whether the run reported that it wrote its cache, if it attempted anything. -/
def Persists (v : Visit) : Prop :=
  ∀ report, v.result.report = .ok report → (∃ x ∈ v.steps, x.isAttempt = true) →
    report.cacheWritten = true

/-- Whether the run keeps its cache in the file, finds the disk clear for it, and persists. -/
structure IsSound (v : Visit) (build : Path) : Prop where
  shared : v.options.build = build
  proper : v.disk.IsProper
  clear : (CacheFile.ofBuildDirectory build).IsClear v.disk
  tool : KeepsClear v.instrumenter.tool (.ofBuildDirectory build)
  persists : v.Persists

end Visit

/-- Runs that took place one after the other, with the disk that the last one left. There is no cache
at first, and between two runs what can be read at the cache file stays the same. -/
inductive IsHistory (build : Path) : List Visit → Disk → Prop
  | start {d : Disk} (h : d.isFile (CacheFile.ofBuildDirectory build).path = false) :
      IsHistory build [] d
  | visit {past : List Visit} {d : Disk} (h : IsHistory build past d) (v : Visit)
      (hv : v.IsSound build)
      (huntouched : v.disk.contents (CacheFile.ofBuildDirectory build).path =
        d.contents (CacheFile.ofBuildDirectory build).path) :
      IsHistory build (past ++ [v]) v.result.disk

/-- A history can start right after the cache was removed. -/
theorem isHistory_delete (build : Path) (d : Disk) :
    IsHistory build [] ((CacheFile.ofBuildDirectory build).delete d).1 :=
  .start (CacheFile.isFile_delete (CacheFile.isNamed_ofBuildDirectory build) d)

/-- What the cache knows of a pair after some runs is what the latest attempt for it recorded. -/
theorem find?_of_isHistory {build : Path} {past : List Visit} {d : Disk} (h : IsHistory build past d)
    (f k : Path) :
    ((CacheFile.ofBuildDirectory build).read d).find? f k =
      knownAfter (past.flatMap Visit.steps) none f k := by
  induction h with
  | start h =>
    rw [CacheFile.read_of_not_isFile h]
    rfl
  | @visit past d _ v hv huntouched ih =>
    have hfile : v.options.cacheFile = CacheFile.ofBuildDirectory build := by
      unfold Options.cacheFile
      rw [hv.shared]
    have hrun := find?_read_run (hfile ▸ hv.clear) (hfile ▸ hv.tool) hv.persists f k
    rw [hfile, CacheFile.read_congr huntouched, ih, ← knownAfter_append] at hrun
    rw [List.flatMap_append, List.flatMap_singleton]
    exact hrun

/-- **When a descriptor is skipped.** In every run of a history, a descriptor that is bound to a class
is counted as up to date, and no process is started for it, exactly when an earlier run attempted the
pair, the latest such attempt ended in a publish, and both files have the times they had right after
that. In every other case the run attempts the pair. -/
theorem upToDate_iff {build : Path} {past : List Visit} {d : Disk} (h : IsHistory build past d)
    {v : Visit} (hv : v.IsSound build)
    (huntouched : v.disk.contents (CacheFile.ofBuildDirectory build).path =
      d.contents (CacheFile.ofBuildDirectory build).path)
    {x : Step} (hx : x ∈ v.steps) {classFile : Path} (hc : x.classFile? = some classFile) :
    ∃ report, v.result.report = .ok report ∧
      report.upToDate = v.steps.countP (·.verdict.isUpToDate) ∧
      x.isAttempt = !x.verdict.isUpToDate ∧
      ((x.verdict.isUpToDate = true ∧ x.processed.started = none) ↔
        ∃ y k, latest? (past.flatMap Visit.steps) x.descriptor classFile = some y ∧
          y.verdict.isPublished = true ∧ y.classFile? = some k ∧
          x.before.disk.modificationTime x.descriptor = y.after.disk.modificationTime y.descriptor ∧
          x.before.disk.modificationTime classFile = y.after.disk.modificationTime k) := by
  obtain ⟨written, hreport⟩ := report_of_mem_steps hx
  obtain ⟨hcurrent, hattempt, hstarted⟩ := Step.isUpToDate_iff hc
  refine ⟨_, hreport, (report_counts hreport).1, hattempt, ?_⟩
  have hfile : v.options.cacheFile = CacheFile.ofBuildDirectory build := by
    unfold Options.cacheFile
    rw [hv.shared]
  -- What the step finds in the cache is what the runs before have recorded.
  have hfound := find?_before hv.proper hx classFile
  rw [hfile, CacheFile.read_congr huntouched, find?_of_isHistory h] at hfound
  rw [and_iff_left_of_imp hstarted, ← hcurrent]
  unfold Step.isCurrent Cache.isUpToDate
  rw [hfound, knownAfter]
  cases hl : latest? (past.flatMap Visit.steps) x.descriptor classFile with
  | none => simp
  | some y =>
    simp only [Option.some.injEq]
    constructor
    · intro hcur
      cases hr : y.record? with
      | none => simp [hr] at hcur
      | some e =>
        obtain ⟨hp, k, hk, rfl⟩ := Step.record?_eq_some_iff.mp hr
        simp only [hr, CacheEntry.isCurrent, CacheEntry.capture, Bool.and_eq_true, beq_iff_eq] at hcur
        exact ⟨y, k, rfl, hp, hk, hcur.1.symm, hcur.2.symm⟩
    · rintro ⟨_, k, rfl, hp, hk, hf, ht⟩
      have hr := Step.record?_eq_some_iff.mpr ⟨hp, k, hk, rfl⟩
      simp only [hr, CacheEntry.isCurrent, CacheEntry.capture, Bool.and_eq_true, beq_iff_eq]
      exact ⟨hf.symm, ht.symm⟩

namespace Sample

def first (d : Disk) (build : String) : Visit := ⟨d, instrumenter, environment, options "/s" build⟩

def second (d : Disk) (build : String) : Visit :=
  ⟨(first d build).result.disk, instrumenter, environment, options "/s" build⟩

theorem isSound_first : (first plain "/b").IsSound ⟨"/b"⟩ := by
  refine ⟨rfl, isProper_plain, isClear_plain _, keepsClear _, fun report hreport _ => ?_⟩
  obtain ⟨-, -, -, hfirst⟩ := first_run_plain
  obtain rfl := Except.ok.inj (hfirst.symm.trans hreport)
  rfl

theorem isHistory_first : IsHistory ⟨"/b"⟩ [first plain "/b"] (first plain "/b").result.disk :=
  .visit (.start (d := plain) (by decide)) (first plain "/b") isSound_first rfl

theorem disk_second (d : Disk) (build : String) :
    (second d build).disk = (first d build).result.disk := rfl

theorem Finds.steps_second {d : Disk} {build : String} (h : Finds (second d build).disk "/s") :
    (second d build).steps = [step (second d build).disk "/s" build] := h.steps_eq build

theorem disk_second_plain : (second plain "/b").disk = afterFirst plain "/b" :=
  (disk_second plain "/b").trans first_run_plain.2.2.1

theorem finds_second : Finds (second plain "/b").disk "/s" := by
  rw [disk_second_plain]
  exact findsAgain_plain.finds

theorem isCurrent_second :
    (step (second plain "/b").disk "/s" "/b").isCurrent (classFile "/s") = true := by
  obtain ⟨hpublished, hafter, -, -⟩ := first_run_plain
  have hlatest : latest? (first plain "/b").steps descriptor (classFile "/s") =
      some (step plain "/s" "/b") := finds_plain.latest?_eq hpublished
  have hrecord : (step plain "/s" "/b").record? = some (.capture plain descriptor (classFile "/s")) :=
    Step.record?_eq_some_iff.mpr ⟨hpublished, _, Step.classFile?_of_asked (finds_plain.asked "/b"),
      by rw [hafter]; rfl⟩
  have hknown := find?_of_isHistory isHistory_first descriptor (classFile "/s")
  rw [List.flatMap_singleton, knownAfter, hlatest, ← disk_second] at hknown
  rw [isCurrent_step (hknown.trans hrecord), disk_second_plain]
  unfold CacheEntry.isCurrent CacheEntry.capture
  simp only [findsAgain_plain.descriptorTime, findsAgain_plain.classTime, beq_self_eq_true, Bool.and_self]

theorem isSound_second : (second plain "/b").IsSound ⟨"/b"⟩ := by
  refine ⟨rfl, ?_, ?_, keepsClear _, ?_⟩
  · rw [disk_second_plain]
    exact findsAgain_plain.proper
  · rw [disk_second_plain]
    exact CacheFile.isClear_of_no_links (by decide +kernel)
  · -- It attempts nothing.
    rintro report - ⟨x, hx, hatt⟩
    rw [finds_second.steps_second, List.mem_singleton] at hx
    obtain ⟨form, c, ha, hstale⟩ := Step.isAttempt_iff.mp hatt
    rw [hx, finds_second.asked] at ha
    simp only [Except.ok.injEq, Option.some.injEq, Prod.mk.injEq] at ha
    rw [hx, ← ha.2, isCurrent_second] at hstale
    cases hstale

/-- The second run in the small world skips the form. -/
theorem upToDate_iff_second :
    ∃ report, (second plain "/b").result.report = .ok report ∧
      report.upToDate = (second plain "/b").steps.countP (·.verdict.isUpToDate) ∧
      (step (second plain "/b").disk "/s" "/b").isAttempt =
        !(step (second plain "/b").disk "/s" "/b").verdict.isUpToDate ∧
      (((step (second plain "/b").disk "/s" "/b").verdict.isUpToDate = true ∧
          (step (second plain "/b").disk "/s" "/b").processed.started = none) ↔
        ∃ y k, latest? ([first plain "/b"].flatMap Visit.steps) descriptor (classFile "/s") = some y ∧
          y.verdict.isPublished = true ∧ y.classFile? = some k ∧
          (second plain "/b").disk.modificationTime descriptor =
            y.after.disk.modificationTime y.descriptor ∧
          (second plain "/b").disk.modificationTime (classFile "/s") =
            y.after.disk.modificationTime k) := by
  refine upToDate_iff isHistory_first isSound_second (by rw [disk_second])
    (x := step (second plain "/b").disk "/s" "/b") ?_ (Step.classFile?_of_asked (finds_second.asked "/b"))
  rw [finds_second.steps_second]
  exact List.mem_singleton_self _

/-- After a clean that leaves a link where the text of the cache is first put, the first run replaces
the cache file by that link: a second run attempts again what the first one published, though nothing
has changed. -/
theorem attempted_again_after_clean :
    ¬ ∀ (d : Disk) (v w : Visit) (x : Step) (c : Path),
      v.disk = ((CacheFile.ofBuildDirectory v.options.build).delete d).1 →
      w.disk = v.result.disk → w.options = v.options → v.disk.IsProper → w.disk.IsProper →
      (∀ d inv, (v.instrumenter.tool d inv).1 = d) → (∀ d inv, (w.instrumenter.tool d inv).1 = d) →
      v.Persists → w.Persists → x ∈ w.steps → x.classFile? = some c →
      ((x.verdict.isUpToDate = true ∧ x.processed.started = none) ↔
        ∃ y k, latest? v.steps x.descriptor c = some y ∧ y.verdict.isPublished = true ∧
          y.classFile? = some k ∧
          x.before.disk.modificationTime x.descriptor = y.after.disk.modificationTime y.descriptor ∧
          x.before.disk.modificationTime c = y.after.disk.modificationTime k) := by
  intro h
  have hcache : linked.isFile (options "/s" "/k").cacheFile.path = false := by decide
  obtain ⟨hpublished, hafter, hrun, hreport⟩ := finds_linked.first_run (by decide) hcache
    (by decide +kernel)
  have hdisk : (second linked "/k").disk = afterFirst linked "/k" := (disk_second linked "/k").trans hrun
  have hfinds := findsAgain_linked.finds
  -- The link that took the place of the cache leads to itself.
  have hlost : (afterFirst linked "/k").isFile (options "/s" "/k").cacheFile.path = false := by
    decide +kernel
  obtain ⟨hagain, -, -, hreport'⟩ := hfinds.first_run (by decide +kernel) hlost (by decide +kernel)
  rw [← hdisk] at hfinds hagain hreport'
  have hclean : linked = ((CacheFile.ofBuildDirectory ⟨"/k"⟩).delete linked).1 := by
    unfold CacheFile.delete
    rw [show linked.isFile (CacheFile.ofBuildDirectory ⟨"/k"⟩).path = false from hcache]
    rfl
  have hiff := h linked (first linked "/k") (second linked "/k")
    (step (second linked "/k").disk "/s" "/k") (classFile "/s") hclean (disk_second _ _) rfl
    isProper_linked
    (by rw [hdisk]; exact findsAgain_linked.proper) (fun _ _ => rfl) (fun _ _ => rfl)
    (fun report hr _ => by obtain rfl := Except.ok.inj (hreport.symm.trans hr); rfl)
    (fun report hr _ => by obtain rfl := Except.ok.inj (hreport'.symm.trans hr); rfl)
    (by
      rw [hfinds.steps_second]
      exact List.mem_singleton_self _)
    (Step.classFile?_of_asked (hfinds.asked "/k"))
  have hskipped := (hiff.mpr ⟨step linked "/s" "/k", classFile "/s", finds_linked.latest?_eq hpublished,
    hpublished, Step.classFile?_of_asked (finds_linked.asked "/k"), ?_, ?_⟩).1
  · cases hv : (step (second linked "/k").disk "/s" "/k").verdict with
    | upToDate => simp [hv, Verdict.isPublished] at hagain
    | _ => simp [hv, Verdict.isUpToDate] at hskipped
  · rw [hafter]
    show (second linked "/k").disk.modificationTime descriptor = _
    rw [hdisk]
    exact findsAgain_linked.descriptorTime
  · rw [hafter]
    show (second linked "/k").disk.modificationTime (classFile "/s") = _
    rw [hdisk]
    exact findsAgain_linked.classTime

end Sample

end FormWeaver.Run
