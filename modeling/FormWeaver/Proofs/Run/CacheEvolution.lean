import FormWeaver.Proofs.Run.Single

/-!
# How the cache evolves over a run

A run that wrote its cache took the entries of all pairs that it attempted out of the cache it had
read, and put one in for every descriptor that it published (`mem_read_run`). For this the disk must be
clear for the cache file: behind a link that the cache takes the place of, it is lost
(`entries_lost_behind_link`).
-/

namespace FormWeaver.Run

variable {d : Disk} {i : Instrumenter} {env : Environment} {o : Options}

/-- What a run knows of a pair is in the cache exactly when it was there before and the pair was not
attempted, or when the run recorded it. -/
theorem knownAfter_eq_some_iff (hd : d.IsProper) {old : Option CacheEntry} {e : CacheEntry} :
    knownAfter (steps d i env o) old e.descriptor e.classFile = some e ↔
      (old = some e ∧ ∀ x ∈ steps d i env o, x.isAttemptFor e.descriptor e.classFile = false) ∨
        ∃ x ∈ steps d i env o, x.record? = some e := by
  have attempted : ∀ x : Step, x.record? = some e → x.isAttemptFor e.descriptor e.classFile = true := by
    intro x hx
    obtain ⟨hp, k, hk, rfl⟩ := Step.record?_eq_some_iff.mp hx
    exact Step.isAttemptFor_iff.mpr ⟨Step.isAttempt_of_isPublished hp, k, hk,
      Path.same_iff.mpr rfl, Path.same_iff.mpr rfl⟩
  constructor
  · intro h
    unfold knownAfter at h
    cases hl : latest? (steps d i env o) e.descriptor e.classFile with
    | none =>
      rw [hl] at h
      exact .inl ⟨h, latest?_eq_none_iff.mp hl⟩
    | some y =>
      rw [hl] at h
      exact .inr ⟨y, (mem_of_latest? hl).1, h⟩
  · rintro (⟨h, hno⟩ | ⟨x, hx, hr⟩)
    · rw [knownAfter, latest?_eq_none_iff.mpr hno]
      exact h
    · rw [knownAfter, latest?_steps hd hx (attempted x hr)]
      exact hr

/-- **How the cache evolves over a run.** After a run that wrote its cache, the file holds one entry for
a pair, and just these: the entries it held before of all pairs that the run did not attempt, with the
times they had; and for each descriptor that the run published the entry of its pair, with the times
that both files had right after that. -/
theorem mem_read_run {report : Report} (hd : d.IsProper) (hclear : o.cacheFile.IsClear d)
    (htool : KeepsClear i.tool o.cacheFile) (hreport : (run d i env o).report = .ok report)
    (hwritten : report.cacheWritten = true) :
    (o.cacheFile.read (run d i env o).disk).Distinct ∧
    ∀ e, e ∈ (o.cacheFile.read (run d i env o).disk).entries ↔
      (e ∈ (o.cacheFile.read d).entries ∧
        ∀ x ∈ steps d i env o, x.isAttemptFor e.descriptor e.classFile = false) ∨
      ∃ x ∈ steps d i env o, x.verdict.isPublished = true ∧
        ∃ c, x.classFile? = some c ∧ e = .capture x.after.disk x.descriptor c := by
  have hdistinct := o.cacheFile.distinct_read (run d i env o).disk
  refine ⟨hdistinct, fun e => ?_⟩
  have hknown := find?_read_run hclear htool
    (fun report' h _ => written_of_report hreport hwritten report' h) e.descriptor e.classFile
  rw [Cache.mem_iff_find? hdistinct, hknown, knownAfter_eq_some_iff hd,
    ← Cache.mem_iff_find? (o.cacheFile.distinct_read d)]
  simp only [Step.record?_eq_some_iff]

open Sample in
/-- The form of the small world is in the cache after the first run. -/
theorem mem_read_run_small :
    ∃ report, (run plain instrumenter environment (options "/s" "/b")).report = .ok report ∧
      report.cacheWritten = true ∧
      ∀ e, e ∈ ((options "/s" "/b").cacheFile.read
          (run plain instrumenter environment (options "/s" "/b")).disk).entries ↔
        (e ∈ ((options "/s" "/b").cacheFile.read plain).entries ∧
          ∀ x ∈ steps plain instrumenter environment (options "/s" "/b"),
            x.isAttemptFor e.descriptor e.classFile = false) ∨
        ∃ x ∈ steps plain instrumenter environment (options "/s" "/b"), x.verdict.isPublished = true ∧
          ∃ c, x.classFile? = some c ∧ e = .capture x.after.disk x.descriptor c := by
  obtain ⟨-, -, -, hreport⟩ := first_run_plain
  exact ⟨_, hreport, rfl, (mem_read_run isProper_plain (isClear_plain _) (keepsClear _) hreport rfl).2⟩

open Sample in
/-- Where the cache takes the place of a link that the way to it leads through, it is lost, though no
link stands where its text is first put: a form was published, and no entry is read afterwards. -/
theorem entries_lost_behind_link :
    ¬ ∀ (d : Disk) (i : Instrumenter) (env : Environment) (o : Options) (report : Report),
      d.IsProper →
      (∀ place target, d.walk false o.cacheFile.temporary ≠ .ok (.node place (.link target))) →
      (∀ d inv, (i.tool d inv).1 = d) →
      (run d i env o).report = .ok report → report.cacheWritten = true →
      ∀ e, e ∈ (o.cacheFile.read (run d i env o).disk).entries ↔
        (e ∈ (o.cacheFile.read d).entries ∧
          ∀ x ∈ steps d i env o, x.isAttemptFor e.descriptor e.classFile = false) ∨
        ∃ x ∈ steps d i env o, x.verdict.isPublished = true ∧
          ∃ c, x.classFile? = some c ∧ e = .capture x.after.disk x.descriptor c := by
  intro h
  have hcache : linked.isFile (options "/s" "/t/gui-forms.cache/../t").cacheFile.path = false := by
    decide +kernel
  have hgap : linked.walk false (options "/s" "/t/gui-forms.cache/../t").cacheFile.temporary =
      .ok (.gap ["t"] "gui-forms.cache.tmp" false) := by decide +kernel
  obtain ⟨hpublished, hdisk, hrun, hreport⟩ := finds_linked.first_run (by decide)
    hcache (by decide +kernel)
  have hlost : (afterFirst linked "/t/gui-forms.cache/../t").isFile
      (options "/s" "/t/gui-forms.cache/../t").cacheFile.path = false := by decide +kernel
  rw [← hrun] at hlost
  have hall := h linked instrumenter environment _ _ isProper_linked
    (fun place target hw => by rw [hgap] at hw; simp at hw) (fun _ _ => rfl) hreport rfl
    (.capture linked descriptor (classFile "/s"))
  rw [CacheFile.read_of_not_isFile hlost] at hall
  have hrecorded : ∃ x ∈ steps linked instrumenter environment (options "/s" "/t/gui-forms.cache/../t"),
      x.verdict.isPublished = true ∧ ∃ c, x.classFile? = some c ∧
        CacheEntry.capture linked descriptor (classFile "/s") =
          .capture x.after.disk x.descriptor c := by
    refine ⟨step linked "/s" "/t/gui-forms.cache/../t", ?_, hpublished, classFile "/s",
      Step.classFile?_of_asked (finds_linked.asked _), ?_⟩
    · rw [finds_linked.steps_eq]
      exact List.mem_cons_self
    · rw [hdisk]
      rfl
  have hmem := hall.mpr (.inr hrecorded)
  simp [Cache.empty] at hmem

end FormWeaver.Run
