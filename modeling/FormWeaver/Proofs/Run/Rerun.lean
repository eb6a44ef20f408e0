import FormWeaver.Proofs.Run.Single

/-!
# Runs that do nothing

A run does nothing exactly when its cache knows every pair that it finds, with the times that both
files have (`doesNothing_iff`). A run that went well leaves such a cache for the pairs that are
*settled*: their files still have the times they had right after the step for them. So a second run
over what it left does nothing exactly when all pairs that are found then are settled
(`rerun_iff`). They need not be: a copy that lands where descriptors are looked for is a descriptor
that no step was for (`copy_attempted_again`).
-/

namespace FormWeaver.Run

variable {d : Disk} {i : Instrumenter} {env : Environment} {o : Options}

/-! ## When a run does nothing -/

/-- Whether a run does nothing: it starts no process, attempts and publishes nothing, counts all
descriptors that are bound to a class as up to date, and leaves the disk as it was. -/
structure DoesNothing (d : Disk) (i : Instrumenter) (env : Environment) (o : Options) : Prop where
  started : (run d i env o).started = []
  disk : (run d i env o).disk = d
  report : ∃ report, (run d i env o).report = .ok report ∧ report.transformed = 0 ∧
    report.published = 0 ∧ report.upToDate = (pairs d o).length

/-- Without an attempt nothing is started or published, and a descriptor that is bound to a class is
up to date. -/
theorem Step.of_not_isAttempt {x : Step} (h : x.isAttempt = false) :
    x.processed.started = none ∧ x.verdict.isPublished = false ∧
      x.verdict.isUpToDate = x.classFile?.isSome := by
  have unbound : (∀ form c, x.asked ≠ .ok (some (form, c))) → x.classFile? = none := by
    intro hno
    cases hk : x.classFile? with
    | none => rfl
    | some c =>
      obtain ⟨form, ha⟩ := asked_of_classFile? hk
      exact absurd ha (hno form c)
  unfold verdict
  rcases x.cases with ⟨e, ha, -, hp⟩ | ⟨ha, -, hp⟩ | ⟨form, c, ha, ⟨-, -, hp⟩ | hc⟩
  · rw [hp, unbound (by simp [ha])]
    exact ⟨rfl, rfl, rfl⟩
  · rw [hp, unbound (by simp [ha])]
    exact ⟨rfl, rfl, rfl⟩
  · rw [hp, classFile?_of_asked ha]
    exact ⟨rfl, rfl, rfl⟩
  · rw [isAttempt_iff.mpr ⟨form, c, ha, hc⟩] at h
    cases h

/-- An attempt is made exactly for a descriptor that is bound to a class with which the cache does not
find it up to date. -/
theorem Step.isAttempt_eq_false_iff {x : Step} :
    x.isAttempt = false ↔ ∀ c, x.classFile? = some c → x.isCurrent c = true := by
  constructor
  · intro h c hc
    obtain ⟨hcurrent, hattempt, -⟩ := isUpToDate_iff hc
    rw [h] at hattempt
    exact hcurrent.mpr (by simpa using hattempt.symm)
  · intro h
    rw [← Bool.not_eq_true, isAttempt_iff]
    rintro ⟨form, c, ha, hc⟩
    rw [h c (classFile?_of_asked ha)] at hc
    cases hc

theorem trace_of_no_attempt {s : Setup} {st : State} {ds : List Path}
    (h : ∀ p ∈ ds, Step.isAttempt ⟨s, st, p⟩ = false) : trace s st ds = ds.map (Step.mk s st) := by
  induction ds with
  | nil => rfl
  | cons p rest ih =>
    have hafter := Step.after_of_not_isAttempt (h p List.mem_cons_self)
    rw [trace_cons, hafter, ih fun q hq => h q (List.mem_cons_of_mem _ hq), List.map_cons]

theorem no_attempt_iff {s : Setup} {st : State} {ds : List Path} :
    (∀ x ∈ trace s st ds, x.isAttempt = false) ↔ ∀ p ∈ ds, Step.isAttempt ⟨s, st, p⟩ = false := by
  constructor
  · intro h
    induction ds with
    | nil => simp
    | cons p rest ih =>
      rw [trace_cons, List.forall_mem_cons] at h
      have hrest := h.2
      rw [Step.after_of_not_isAttempt h.1] at hrest
      exact List.forall_mem_cons.mpr ⟨h.1, ih hrest⟩
  · intro h x hx
    rw [trace_of_no_attempt h] at hx
    obtain ⟨p, hp, rfl⟩ := List.mem_map.mp hx
    exact h p hp

theorem exists_report (i : Instrumenter) (env : Environment) {source output : Path} {here : Place}
    (hs : d.absolute o.source = .ok source) (ho : d.absolute o.output = .ok output)
    (hw : d.workingDirectory = .present here) : ∃ report, (run d i env o).report = .ok report := by
  unfold run runBetween Classpath.Context.build
  simp only [hs, ho, hw]
  split
  · exact ⟨_, rfl⟩
  · split
    · exact ⟨_, rfl⟩
    · unfold conclude
      simp only
      split <;> exact ⟨_, rfl⟩

/-- A run that attempts nothing starts no process and leaves the disk as it was. -/
theorem run_of_no_attempt (h : ∀ x ∈ steps d i env o, x.isAttempt = false) :
    (run d i env o).started = [] ∧ (run d i env o).disk = d := by
  have started : (run d i env o).processed = (steps d i env o).map Step.processed →
      (run d i env o).started = [] := by
    intro hprocessed
    unfold Result.started
    rw [hprocessed, List.filterMap_eq_nil_iff]
    intro p hp
    obtain ⟨x, hx, rfl⟩ := List.mem_map.mp hp
    exact (Step.of_not_isAttempt (h x hx)).1
  rcases run_cases d i env o with ⟨-, hdisk, hnone, hprocessed, -⟩ |
      ⟨s, -, hprocessed, ⟨-, hdisk, -⟩ | ⟨⟨x, hx, hatt⟩, -⟩⟩
  · exact ⟨started (by rw [hprocessed, hnone]; rfl), hdisk⟩
  · exact ⟨started hprocessed, hdisk⟩
  · rw [h x hx] at hatt
    cases hatt

section Pairs

variable {source output : Path} {context : Classpath.Context}

theorem pairs_eq (hs : d.absolute o.source = .ok source) (ho : d.absolute o.output = .ok output) :
    pairs d o = (found d source).filterMap fun p => (boundClass? d output p).map (p, ·) := by
  unfold pairs
  rw [hs, ho]

theorem mem_pairs (hs : d.absolute o.source = .ok source) (ho : d.absolute o.output = .ok output)
    {p c : Path} (hp : p ∈ found d source) (hc : boundClass? d output p = some c) :
    (p, c) ∈ pairs d o := by
  rw [pairs_eq hs ho]
  exact List.mem_filterMap.mpr ⟨p, hp, by rw [hc, Option.map_some]⟩

/-- A run attempts nothing exactly if its cache knows every pair that it finds. -/
theorem no_attempt_iff_isUpToDate (hs : d.absolute o.source = .ok source)
    (ho : d.absolute o.output = .ok output)
    (hc : Classpath.Context.build d env o.dependencies = .ok context) :
    (∀ x ∈ steps d i env o, x.isAttempt = false) ↔
      ∀ p c, (p, c) ∈ pairs d o → (o.cacheFile.read d).isUpToDate d p c = true := by
  rw [steps_eq_trace hs ho hc, no_attempt_iff, pairs_eq hs ho]
  simp only [Step.isAttempt_eq_false_iff, List.mem_filterMap, Option.map_eq_some_iff, Prod.mk.injEq]
  constructor
  · rintro h p c ⟨q, hq, k, hk, rfl, rfl⟩
    exact h q hq k hk
  · intro h p hp c hk
    exact h p c ⟨p, hp, c, hk, rfl, rfl⟩

/-- A run that attempts nothing counts every pair that it finds as up to date. -/
theorem upToDate_of_no_attempt (hs : d.absolute o.source = .ok source)
    (ho : d.absolute o.output = .ok output)
    (hc : Classpath.Context.build d env o.dependencies = .ok context)
    (h : ∀ x ∈ steps d i env o, x.isAttempt = false) :
    (steps d i env o).countP (·.verdict.isUpToDate) = (pairs d o).length := by
  have hbound : (steps d i env o).countP (·.verdict.isUpToDate) =
      (steps d i env o).countP (·.classFile?.isSome) := by
    apply List.countP_congr
    intro x hx
    rw [(Step.of_not_isAttempt (h x hx)).2.2]
  rw [steps_eq_trace hs ho hc] at h
  rw [hbound, steps_eq_trace hs ho hc, trace_of_no_attempt (no_attempt_iff.mp h), List.countP_map,
    pairs_eq hs ho, List.length_filterMap_eq_countP]
  apply List.countP_congr
  intro p _
  simp [Step.classFile?]

end Pairs

/-- **When a run does nothing.** It does nothing exactly when its cache has an entry for every pair that
it finds, with the times that both files have. -/
theorem doesNothing_iff {source output : Path} {here : Place} (hs : d.absolute o.source = .ok source)
    (ho : d.absolute o.output = .ok output) (hw : d.workingDirectory = .present here) :
    DoesNothing d i env o ↔
      ∀ p c, (p, c) ∈ pairs d o → (o.cacheFile.read d).isUpToDate d p c = true := by
  obtain ⟨context, hc⟩ : ∃ context, Classpath.Context.build d env o.dependencies = .ok context := by
    unfold Classpath.Context.build
    rw [hw]
    exact ⟨_, rfl⟩
  rw [← no_attempt_iff_isUpToDate (i := i) hs ho hc]
  obtain ⟨report, hreport⟩ := exists_report i env hs ho hw
  obtain ⟨hupToDate, htransformed, hpublished⟩ := report_counts hreport
  constructor
  · rintro ⟨-, -, report', hreport', hnone, -⟩ x hx
    obtain rfl := Except.ok.inj (hreport.symm.trans hreport')
    rw [htransformed, List.countP_eq_zero] at hnone
    simpa using hnone x hx
  · intro h
    obtain ⟨hstarted, hdisk⟩ := run_of_no_attempt h
    refine ⟨hstarted, hdisk, report, hreport, ?_, ?_, ?_⟩
    · rw [htransformed, List.countP_eq_zero]
      intro x hx
      simp [h x hx]
    · rw [hpublished, List.countP_eq_zero]
      intro x hx
      simp [(Step.of_not_isAttempt (h x hx)).2.1]
    · rw [hupToDate, upToDate_of_no_attempt hs ho hc h]

/-! ## What a run leaves settled -/

/-- Whether a run left a pair settled: it took a step for the pair, and both files still have the times
that they had right after it; or it took none, and the entry of the pair that it found in its cache has
these times. -/
def IsSettled (d : Disk) (i : Instrumenter) (env : Environment) (o : Options) (p c : Path) : Prop :=
  (∃ x ∈ steps d i env o, ∃ k, x.classFile? = some k ∧ x.descriptor.same p = true ∧ k.same c = true ∧
      (run d i env o).disk.modificationTime p = x.after.disk.modificationTime x.descriptor ∧
      (run d i env o).disk.modificationTime c = x.after.disk.modificationTime k) ∨
    (¬ ∃ x ∈ steps d i env o, ∃ k, x.classFile? = some k ∧ x.descriptor.same p = true ∧
        k.same c = true) ∧
      ∃ e ∈ (o.cacheFile.read d).entries, e.isFor p c = true ∧
        (run d i env o).disk.modificationTime p = e.descriptorTime ∧
        (run d i env o).disk.modificationTime c = e.classTime

/-- What is known after a run of a pair that went well are the times that both files had right after
the step for it. -/
theorem known_of_step (hd : d.IsProper) {x : Step} (hx : x ∈ steps d i env o) {c : Path}
    (hc : x.classFile? = some c) (hfail : x.verdict.failures = []) :
    ∃ e, knownAfter (steps d i env o) ((o.cacheFile.read d).find? x.descriptor c) x.descriptor c =
        some e ∧
      e.descriptorTime = x.after.disk.modificationTime x.descriptor ∧
      e.classTime = x.after.disk.modificationTime c := by
  cases hatt : x.isAttempt with
  | true =>
    have hpublished : x.verdict.isPublished = true := by
      rw [← Bool.not_eq_false]
      intro hp
      exact Step.failures_ne_nil hatt hp hfail
    have hfor : x.isAttemptFor x.descriptor c = true :=
      Step.isAttemptFor_iff.mpr ⟨hatt, c, hc, Path.same_iff.mpr rfl, Path.same_iff.mpr rfl⟩
    refine ⟨.capture x.after.disk x.descriptor c, ?_, rfl, rfl⟩
    rw [knownAfter, latest?_steps hd hx hfor]
    exact Step.record?_eq_some_iff.mpr ⟨hpublished, c, hc, rfl⟩
  | false =>
    -- No other step is for this descriptor.
    have hnone : latest? (steps d i env o) x.descriptor c = none := by
      apply latest?_eq_none_iff.mpr
      intro y hy
      rw [← Bool.not_eq_true]
      intro hfor
      obtain ⟨hatt', -, -, hsame, -⟩ := Step.isAttemptFor_iff.mp hfor
      rw [eq_of_same hd hx hy (Path.same_iff.mpr rfl) hsame, hatt] at hatt'
      cases hatt'
    -- The step found the pair in the cache with the times that both files had.
    obtain ⟨e, he, htimes⟩ :=
      Cache.isUpToDate_iff_exists.mp (Step.isAttempt_eq_false_iff.mp hatt c hc)
    rw [find?_before hd hx c] at he
    rw [knownAfter, hnone, Step.after_of_not_isAttempt hatt]
    exact ⟨e, he, htimes⟩

/-- What is known after a run of a pair that it took no step for is what it found in its cache. -/
theorem knownAfter_of_no_step {old : Option CacheEntry} {p c : Path}
    (hno : ¬ ∃ x ∈ steps d i env o, ∃ k, x.classFile? = some k ∧ x.descriptor.same p = true ∧
      k.same c = true) : knownAfter (steps d i env o) old p c = old := by
  have hnone : latest? (steps d i env o) p c = none := by
    apply latest?_eq_none_iff.mpr
    intro y hy
    rw [← Bool.not_eq_true]
    intro hfor
    obtain ⟨-, k, hk, hp, hc⟩ := Step.isAttemptFor_iff.mp hfor
    exact hno ⟨y, hy, k, hk, hp, hc⟩
  rw [knownAfter, hnone]

/-- A run that reports no failure took no step that failed with something. -/
theorem failures_eq_nil_of_report {report : Report} (hreport : (run d i env o).report = .ok report)
    (hfail : report.failures = []) {x : Step} (hx : x ∈ steps d i env o) : x.verdict.failures = [] := by
  obtain ⟨written, hreport'⟩ := report_of_mem_steps hx
  obtain rfl := Except.ok.inj (hreport.symm.trans hreport')
  apply List.eq_nil_iff_forall_not_mem.mpr
  intro message hm
  have htold := mem_failures written (List.mem_map_of_mem hx) hm
  rw [hfail] at htold
  cases htold

/-- After a run that went well and wrote its cache, the pairs that are up to date are those that it
left settled. -/
theorem isUpToDate_iff_isSettled {report : Report} (hd : d.IsProper) (hclear : o.cacheFile.IsClear d)
    (htool : KeepsClear i.tool o.cacheFile) (hreport : (run d i env o).report = .ok report)
    (hfail : report.failures = []) (hwritten : report.cacheWritten = true) (p c : Path) :
    (o.cacheFile.read (run d i env o).disk).isUpToDate (run d i env o).disk p c = true ↔
      IsSettled d i env o p c := by
  have hknown := find?_read_run hclear htool
    fun report' h _ => written_of_report hreport hwritten report' h
  rw [Cache.isUpToDate_iff_exists, hknown, IsSettled]
  by_cases hstep : ∃ x ∈ steps d i env o, ∃ k, x.classFile? = some k ∧ x.descriptor.same p = true ∧
      k.same c = true
  · obtain ⟨x, hx, k, hk, hp, hc⟩ := hstep
    obtain ⟨e, he, hdescriptor, hclass⟩ :=
      known_of_step hd hx hk (failures_eq_nil_of_report hreport hfail hx)
    rw [← hknown, Cache.find?_congr _ hp hc, hknown] at he
    constructor
    · rintro ⟨e', he', hf, ht⟩
      obtain rfl := Option.some.inj (he.symm.trans he')
      exact .inl ⟨x, hx, k, hk, hp, hc, hf.symm.trans hdescriptor, ht.symm.trans hclass⟩
    · rintro (⟨y, hy, k', hk', hp', -, hf, ht⟩ | ⟨hno, -⟩)
      · obtain rfl := eq_of_same hd hx hy hp hp'
        obtain rfl := Option.some.inj (hk.symm.trans hk')
        exact ⟨e, he, hdescriptor.trans hf.symm, hclass.trans ht.symm⟩
      · exact absurd ⟨x, hx, k, hk, hp, hc⟩ hno
  · rw [knownAfter_of_no_step hstep]
    have hdistinct := o.cacheFile.distinct_read d
    constructor
    · rintro ⟨e, he, hf, ht⟩
      obtain ⟨he, hfor⟩ := (Cache.find?_eq_some_iff hdistinct).mp he
      exact .inr ⟨hstep, e, he, hfor, hf.symm, ht.symm⟩
    · rintro (⟨x, hx, k, hk, hp, hc, -⟩ | ⟨-, e, he, hfor, hf, ht⟩)
      · exact absurd ⟨x, hx, k, hk, hp, hc⟩ hstep
      · exact ⟨e, (Cache.find?_eq_some_iff hdistinct).mpr ⟨he, hfor⟩, hf.symm, ht.symm⟩

/-! ## A second run -/

/-- Whether a tool leaves the working directory where it is. -/
def KeepsWorkingDirectory (tool : Tool) : Prop :=
  ∀ d inv, (tool d inv).1.workingDirectory = d.workingDirectory

theorem absolute_congr {d d' : Disk} (h : d'.workingDirectory = d.workingDirectory) (p : Path) :
    d'.absolute p = d.absolute p := by
  unfold Disk.absolute
  rw [h]

theorem workingDirectory_run (hstay : KeepsWorkingDirectory i.tool) :
    (run d i env o).disk.workingDirectory = d.workingDirectory := by
  rcases run_cases d i env o with ⟨-, hdisk, -⟩ |
      ⟨s, hstart, -, ⟨-, hdisk, -⟩ | ⟨-, written, hwrite, -⟩⟩
  · rw [hdisk]
  · rw [hdisk]
  · have hfinish := finish_keeps (Q := fun d' => d'.workingDirectory = d.workingDirectory) hstart
      (fun _ _ hg h => hg.workingDirectory.trans h) (fun _ _ h => (hstay _ _).trans h) rfl
    have hkept := o.cacheFile.workingDirectory_write (finish s.setup s.state s.descriptors).disk
      (finish s.setup s.state s.descriptors).cache
    rw [hwrite] at hkept
    exact hkept.trans hfinish

/-- **When a second run does nothing.** After a run that reported no failure and that it wrote its
cache, a second run over what it left does nothing exactly when the first run left every pair settled
that the second one finds. -/
theorem rerun_iff {report : Report} (hd : d.IsProper) (hclear : o.cacheFile.IsClear d)
    (htool : KeepsClear i.tool o.cacheFile) (hstay : KeepsWorkingDirectory i.tool)
    (hreport : (run d i env o).report = .ok report) (hfail : report.failures = [])
    (hwritten : report.cacheWritten = true) :
    DoesNothing (run d i env o).disk i env o ↔
      ∀ p c, (p, c) ∈ pairs (run d i env o).disk o → IsSettled d i env o p c := by
  -- A run that wrote its cache could tell where it was, and a second one can tell it too.
  obtain ⟨source, output, here, hs, ho, hw⟩ : ∃ source output here, d.absolute o.source = .ok source ∧
      d.absolute o.output = .ok output ∧ d.workingDirectory = .present here := by
    rcases run_cases d i env o with ⟨-, -, -, -, hidle⟩ | ⟨s, hstart, -⟩
    · obtain ⟨outcome, rfl, -⟩ := hidle report hreport
      simp [Report.idle] at hwritten
    · obtain ⟨source, output, context, hs, ho, hc, -⟩ := start?_cases hstart
      unfold Classpath.Context.build at hc
      cases hw : d.workingDirectory with
      | removed => simp [hw] at hc
      | present here => exact ⟨source, output, here, hs, ho, rfl⟩
  have hkept : (run d i env o).disk.workingDirectory = d.workingDirectory := workingDirectory_run hstay
  rw [doesNothing_iff ((absolute_congr hkept _).trans hs) ((absolute_congr hkept _).trans ho)
    (hkept.trans hw)]
  simp only [isUpToDate_iff_isSettled hd hclear htool hreport hfail hwritten]

open Sample in
/-- In the small world a second run does nothing. -/
theorem rerun_iff_small :
    DoesNothing (run plain instrumenter environment (options "/s" "/b")).disk instrumenter environment
      (options "/s" "/b") := by
  obtain ⟨hpublished, hafter, hrun, hreport⟩ := first_run_plain
  refine (rerun_iff isProper_plain (isClear_plain _) (keepsClear _) (fun _ _ => rfl) hreport
    (failures_of_published hpublished) rfl).mpr fun p c hpair => ?_
  rw [hrun, findsAgain_plain.finds.pairs_eq, List.mem_singleton, Prod.mk.injEq] at hpair
  obtain ⟨rfl, rfl⟩ := hpair
  refine .inl ⟨step plain "/s" "/b", ?_, _, Step.classFile?_of_asked (finds_plain.asked "/b"),
    Path.same_iff.mpr rfl, Path.same_iff.mpr rfl, ?_, ?_⟩
  · rw [finds_plain.steps_eq]
    exact List.mem_cons_self
  · rw [hrun, hafter]
    exact findsAgain_plain.descriptorTime
  · rw [hrun, hafter]
    exact findsAgain_plain.classTime

namespace Sample

/-- What the first run leaves, when the form is published to a directory beneath that of its source,
and whether it wrote its cache. -/
def afterCopy : Disk × Bool :=
  let d := (publish plain ⟨"/s"⟩ ⟨"/s/o"⟩ descriptor).1
  (options "/s/o" "/b").cacheFile.write d ⟨[.capture d descriptor (classFile "/s/o")]⟩

def copy : Path := ⟨"/s/o/z.form"⟩

theorem mem_pairs_afterCopy : (copy, classFile "/s/o") ∈ pairs afterCopy.1 (options "/s/o" "/b") := by
  have hfacts : afterCopy.1.isDirectory ⟨"/s"⟩ = true ∧
      copy ∈ (Form.filesUnder afterCopy.1 ⟨"/s"⟩).filter
        (fun p => p.extension? == some Form.descriptorExtension) ∧
      afterCopy.1.contents copy = .ok text.toUTF8 ∧
      Classes.fileOf? afterCopy.1 ⟨"/s/o"⟩ "C" = some (classFile "/s/o") := by decide +kernel
  obtain ⟨hdirectory, hfile, hcontents, hclass⟩ := hfacts
  have hfound : copy ∈ found afterCopy.1 ⟨"/s"⟩ := by
    unfold found
    rw [if_pos hdirectory]
    exact (List.mergeSort_perm _ Path.le).mem_iff.mpr hfile
  have hbound : boundClass? afterCopy.1 ⟨"/s/o"⟩ copy = some (classFile "/s/o") :=
    boundClass?_of_bound? (bound?_of_fileOf? (parseFile_eq hcontents) rfl hclass)
  obtain ⟨hs, ho⟩ := absolute_options afterCopy.1 (show "/s/o" ∈ outputs by decide) "/b"
  exact mem_pairs hs ho hfound hbound

end Sample

open Sample in
/-- A copy that lands beneath the source directory is a descriptor of its own: a second run finds it
and attempts to instrument its class. -/
theorem copy_attempted_again :
    ¬ ∀ (d : Disk) (i : Instrumenter) (env : Environment) (o : Options) (report : Report),
      d.IsProper → o.cacheFile.IsClear d → (∀ d inv, (i.tool d inv).1 = d) →
      (run d i env o).report = .ok report → report.failures = [] → report.cacheWritten = true →
      DoesNothing (run d i env o).disk i env o := by
  intro h
  have hfinds : Finds plain "/s/o" := finds (by simp) (by simp)
  have hcache : plain.isFile (options "/s/o" "/b").cacheFile.path = false := by decide
  have hcopy : (publish plain ⟨"/s"⟩ ⟨"/s/o"⟩ descriptor).2 = .ok () := by decide +kernel
  obtain ⟨hpublished, -, -⟩ := hfinds.published hcache hcopy
  obtain ⟨written, hwrite, hreport⟩ := hfinds.run_eq hcache hcopy
  have hafter : afterCopy = ((run plain instrumenter environment (options "/s/o" "/b")).disk, written) :=
    hwrite
  have hfacts : afterCopy.2 = true ∧ afterCopy.1.workingDirectory = .present [] := by decide +kernel
  obtain ⟨hdone, hworking⟩ := hfacts
  have hfail : (Report.of [(step plain "/s/o" "/b").processed] written).failures = [] :=
    failures_of_published hpublished
  have hpair := mem_pairs_afterCopy
  rw [hafter] at hdone hworking hpair
  have hidle := h plain instrumenter environment _ _ isProper_plain (isClear_plain _) (fun _ _ => rfl)
    hreport hfail hdone
  obtain ⟨hs, ho⟩ := absolute_options (run plain instrumenter environment (options "/s/o" "/b")).disk
    hfinds.known "/b"
  rw [doesNothing_iff hs ho hworking] at hidle
  -- The first run took no step for the copy, and there was no cache before it.
  rcases (isUpToDate_iff_isSettled isProper_plain (isClear_plain _) (keepsClear _) hreport hfail hdone
    _ _).mp (hidle _ _ hpair) with ⟨x, hx, -, -, hsame, -⟩ | ⟨-, e, he, -⟩
  · rw [hfinds.steps_eq, List.mem_singleton] at hx
    rw [hx] at hsame
    exact absurd (show descriptor.same copy = true from hsame) (by decide)
  · rw [CacheFile.read_of_not_isFile hcache] at he
    simp [Cache.empty] at he

end FormWeaver.Run
