import FormWeaver.Proofs.Cache.Replacement
import FormWeaver.Proofs.Form.Discovery
import FormWeaver.Proofs.Run.Steps

/-!
# Whole runs

A run that has something to process starts from what it finds (`start?`), takes its steps (`steps`) and
writes the cache if a step attempted anything; any other run changes nothing (`run_cases`). From the
cache that it read, a run that wrote its cache leads to the one that is read from the disk it leaves:
what is known of each pair then is what the steps made of what was known before (`find?_read_run`).
-/

namespace FormWeaver.Run

variable {d : Disk} {i : Instrumenter} {env : Environment} {o : Options}

/-! ## From its start to its end -/

/-- The file that a run keeps its cache in. -/
def Options.cacheFile (o : Options) : CacheFile := .ofBuildDirectory o.build

structure Start where
  /-- What stays the same during the run. -/
  setup : Setup
  state : State
  descriptors : List Path

/-- What a run starts from, if it has something to process. -/
def start? (d : Disk) (i : Instrumenter) (env : Environment) (o : Options) : Option Start :=
  match d.absolute o.source, d.absolute o.output, Classpath.Context.build d env o.dependencies with
  | .ok source, .ok output, .ok context =>
    let descriptors := Form.discover d source
    if d.isDirectory source && !descriptors.isEmpty then
      some ⟨⟨i, source, output, o.scaling⟩,
        ⟨d, .new d descriptors context output, o.cacheFile.read d⟩, descriptors⟩
    else none
  | _, _, _ => none

def steps (d : Disk) (i : Instrumenter) (env : Environment) (o : Options) : List Step :=
  match start? d i env o with
  | some s => trace s.setup s.state s.descriptors
  | none => []

theorem start?_cases {s : Start} (h : start? d i env o = some s) :
    ∃ source output context, d.absolute o.source = .ok source ∧ d.absolute o.output = .ok output ∧
      Classpath.Context.build d env o.dependencies = .ok context ∧ d.isDirectory source = true ∧
      Form.discover d source ≠ [] ∧ s.setup = ⟨i, source, output, o.scaling⟩ ∧
      s.state = ⟨d, .new d (Form.discover d source) context output, o.cacheFile.read d⟩ ∧
      s.descriptors = Form.discover d source := by
  unfold start? at h
  split at h
  · next source output context hs ho hc =>
    simp only at h
    split at h
    · next hd =>
      rw [Bool.and_eq_true] at hd
      obtain rfl := Option.some.inj h
      exact ⟨source, output, context, hs, ho, hc, hd.1, by simpa using hd.2, rfl, rfl, rfl⟩
    · simp at h
  · simp at h

theorem steps_of_start {s : Start} (h : start? d i env o = some s) :
    steps d i env o = trace s.setup s.state s.descriptors := by
  unfold steps
  rw [h]

/-- The descriptors that are found when a run looks for them. -/
def found (d : Disk) (source : Path) : List Path :=
  if d.isDirectory source then Form.discover d source else []

/-- The pairs that a run finds: the descriptors, each with the class file that it is bound to. -/
def pairs (d : Disk) (o : Options) : List (Path × Path) :=
  match d.absolute o.source, d.absolute o.output with
  | .ok source, .ok output =>
    (found d source).filterMap fun p => (boundClass? d output p).map (p, ·)
  | _, _ => []

/-- A run that starts at all takes a step for each descriptor that is found. -/
theorem steps_eq_trace {source output : Path} {context : Classpath.Context}
    (hs : d.absolute o.source = .ok source) (ho : d.absolute o.output = .ok output)
    (hc : Classpath.Context.build d env o.dependencies = .ok context) :
    steps d i env o = trace ⟨i, source, output, o.scaling⟩
      ⟨d, .new d (Form.discover d source) context output, o.cacheFile.read d⟩ (found d source) := by
  unfold steps start? found
  simp only [hs, ho, hc]
  cases d.isDirectory source with
  | false => rfl
  | true =>
    cases hfound : Form.discover d source with
    | nil => rfl
    | cons p ps => rfl

theorem run_of_start {s : Start} (h : start? d i env o = some s) :
    run d i env o = conclude s.setup s.state o.cacheFile s.descriptors := by
  obtain ⟨source, output, context, hs, ho, hc, hd, hne, hsetup, hstate, hfound⟩ := start?_cases h
  have hne : (Form.discover d source).isEmpty = false := by simpa using hne
  rw [hsetup, hstate, hfound]
  unfold run runBetween
  simp only [hs, ho, hc, hd, hne]
  rfl

theorem run_of_no_start (h : start? d i env o = none) :
    (run d i env o).disk = d ∧ (run d i env o).processed = [] ∧
      ∀ report, (run d i env o).report = .ok report →
        ∃ outcome, report = .idle outcome ∧ outcome ≠ .instrumented := by
  unfold start? at h
  unfold run
  cases hs : d.absolute o.source with
  | error e => exact ⟨rfl, rfl, fun _ hr => by simp at hr⟩
  | ok source =>
    cases ho : d.absolute o.output with
    | error e => exact ⟨rfl, rfl, fun _ hr => by simp at hr⟩
    | ok output =>
      simp only
      unfold runBetween
      split
      · exact ⟨rfl, rfl, fun report hr => ⟨_, (Except.ok.inj hr).symm, by decide⟩⟩
      · next hd =>
        simp only
        split
        · exact ⟨rfl, rfl, fun report hr => ⟨_, (Except.ok.inj hr).symm, by decide⟩⟩
        · next hne =>
          cases hc : Classpath.Context.build d env o.dependencies with
          | error e => exact ⟨rfl, rfl, fun _ hr => by simp at hr⟩
          | ok context =>
            have hd : d.isDirectory source = true := by simpa using hd
            have hne : (Form.discover d source).isEmpty = false := by simpa using hne
            simp [hs, ho, hc, hd, hne] at h

theorem anyTransformed_map (xs : List Step) :
    anyTransformed (xs.map Step.processed) = xs.any Step.isAttempt := by
  unfold anyTransformed
  rw [List.any_map]
  rfl

/-- **How a run ends.** It has nothing to process, or it attempts nothing, and the disk is as it was;
or it attempts something, and it ends by writing the cache. -/
theorem run_cases (d : Disk) (i : Instrumenter) (env : Environment) (o : Options) :
    (start? d i env o = none ∧ (run d i env o).disk = d ∧ steps d i env o = [] ∧
      (run d i env o).processed = [] ∧
      ∀ report, (run d i env o).report = .ok report →
        ∃ outcome, report = .idle outcome ∧ outcome ≠ .instrumented) ∨
    ∃ s, start? d i env o = some s ∧ (run d i env o).processed = (steps d i env o).map Step.processed ∧
      (((∀ x ∈ steps d i env o, x.isAttempt = false) ∧ (run d i env o).disk = d ∧
          (run d i env o).report = .ok (.of ((steps d i env o).map Step.processed) false)) ∨
        ((∃ x ∈ steps d i env o, x.isAttempt = true) ∧ ∃ written,
          o.cacheFile.write (finish s.setup s.state s.descriptors).disk
            (finish s.setup s.state s.descriptors).cache = ((run d i env o).disk, written) ∧
          (run d i env o).report = .ok (.of ((steps d i env o).map Step.processed) written))) := by
  cases hstart : start? d i env o with
  | none =>
    obtain ⟨hdisk, hprocessed, hreport⟩ := run_of_no_start hstart
    have hsteps : steps d i env o = [] := by rw [steps, hstart]
    exact .inl ⟨rfl, hdisk, hsteps, hprocessed, hreport⟩
  | some s =>
    refine .inr ⟨s, rfl, ?_⟩
    rw [run_of_start hstart, steps_of_start hstart]
    unfold conclude
    simp only [processAll_eq, anyTransformed_map]
    split
    · next h =>
      refine ⟨rfl, .inr ⟨by simpa using h, ?_⟩⟩
      exact ⟨_, rfl, rfl⟩
    · next h =>
      have hno : ∀ x ∈ trace s.setup s.state s.descriptors, x.isAttempt = false := by simpa using h
      obtain ⟨_, _, _, -, -, -, -, -, -, hstate, -⟩ := start?_cases hstart
      exact ⟨rfl, .inl ⟨hno, by rw [finish_of_no_attempt hno, hstate], rfl⟩⟩

theorem report_counts {report : Report} (h : (run d i env o).report = .ok report) :
    report.upToDate = (steps d i env o).countP (·.verdict.isUpToDate) ∧
      report.transformed = (steps d i env o).countP (·.isAttempt) ∧
      report.published = (steps d i env o).countP (·.verdict.isPublished) := by
  -- Whether the cache was written makes no difference to the counts.
  have counted : ∀ written, report = .of ((steps d i env o).map Step.processed) written →
      report.upToDate = (steps d i env o).countP (·.verdict.isUpToDate) ∧
        report.transformed = (steps d i env o).countP (·.isAttempt) ∧
        report.published = (steps d i env o).countP (·.verdict.isPublished) := by
    rintro written rfl
    simp only [Report.of, List.countP_map]
    exact ⟨rfl, rfl, rfl⟩
  rcases run_cases d i env o with ⟨-, -, hnone, -, hidle⟩ |
      ⟨s, -, -, ⟨-, -, hreport⟩ | ⟨-, written, -, hreport⟩⟩
  · obtain ⟨outcome, rfl, -⟩ := hidle report h
    rw [hnone]
    exact ⟨rfl, rfl, rfl⟩
  · exact counted false (Except.ok.inj (h.symm.trans hreport))
  · exact counted written (Except.ok.inj (h.symm.trans hreport))

/-- A run that takes a step has started; the steps before led to where it is taken, and the others go on
from where it leads. -/
theorem split_of_mem_steps {x : Step} (hx : x ∈ steps d i env o) :
    ∃ s before rest, start? d i env o = some s ∧ s.descriptors = before ++ x.descriptor :: rest ∧
      x = ⟨s.setup, finish s.setup s.state before, x.descriptor⟩ ∧
      steps d i env o = trace s.setup s.state before ++ x :: trace s.setup x.after rest := by
  cases hstart : start? d i env o with
  | none => simp [steps, hstart] at hx
  | some s =>
    rw [steps_of_start hstart] at hx ⊢
    obtain ⟨before, rest, hsplit⟩ := split_of_mem_trace hx
    exact ⟨s, before, rest, rfl, hsplit⟩

/-- The steps of a run are those of one instrumenter, between the absolute directories of the run. -/
theorem setup_of_mem_steps {x : Step} (hx : x ∈ steps d i env o) :
    ∃ source output, d.absolute o.source = .ok source ∧ d.absolute o.output = .ok output ∧
      x.setup = ⟨i, source, output, o.scaling⟩ := by
  obtain ⟨s, before, rest, hstart, -, hx, -⟩ := split_of_mem_steps hx
  obtain ⟨source, output, _, hs, ho, -, -, -, hsetup, -, -⟩ := start?_cases hstart
  exact ⟨source, output, hs, ho, by rw [hx]; exact hsetup⟩

theorem instrumenter_of_mem_steps {x : Step} (hx : x ∈ steps d i env o) : x.setup.instrumenter = i := by
  obtain ⟨_, _, -, -, hsetup⟩ := setup_of_mem_steps hx
  rw [hsetup]

theorem pairwise_steps (hd : d.IsProper) :
    (steps d i env o).Pairwise fun x y => x.descriptor.components ≠ y.descriptor.components := by
  cases hstart : start? d i env o with
  | none => simp [steps, hstart]
  | some s =>
    obtain ⟨source, _, _, -, -, -, -, -, -, -, hfound⟩ := start?_cases hstart
    have h := Form.pairwise_discover hd source
    rw [← hfound, ← map_descriptor_trace s.setup s.state s.descriptors, List.pairwise_map] at h
    rwa [steps_of_start hstart]

theorem eq_of_same (hd : d.IsProper) {x y : Step} (hx : x ∈ steps d i env o) (hy : y ∈ steps d i env o)
    {f : Path} (hxf : x.descriptor.same f = true) (hyf : y.descriptor.same f = true) : y = x := by
  by_contra hne
  have hsymm : Std.Symm fun x y : Step => x.descriptor.components ≠ y.descriptor.components :=
    ⟨fun _ _ => Ne.symm⟩
  exact List.Pairwise.forall (pairwise_steps hd) hy hx hne
    ((Path.same_iff.mp hyf).trans (Path.same_iff.mp hxf).symm)

/-- A run attempts a pair once only. -/
theorem latest?_steps (hd : d.IsProper) {x : Step} (hx : x ∈ steps d i env o) {f k : Path}
    (hfor : x.isAttemptFor f k = true) : latest? (steps d i env o) f k = some x := by
  cases hl : latest? (steps d i env o) f k with
  | none =>
    rw [latest?_eq_none_iff.mp hl x hx] at hfor
    cases hfor
  | some y =>
    obtain ⟨hy, hyfor⟩ := mem_of_latest? hl
    obtain ⟨-, -, -, hsame, -⟩ := Step.isAttemptFor_iff.mp hfor
    obtain ⟨-, -, -, hsame', -⟩ := Step.isAttemptFor_iff.mp hyfor
    rw [eq_of_same hd hx hy hsame hsame']

/-- What the cache knows of a pair right before the step for its descriptor is what was read. -/
theorem find?_before (hd : d.IsProper) {x : Step} (hx : x ∈ steps d i env o) (k : Path) :
    x.before.cache.find? x.descriptor k = (o.cacheFile.read d).find? x.descriptor k := by
  obtain ⟨s, before, rest, hstart, -, hxeq, hsteps⟩ := split_of_mem_steps hx
  obtain ⟨_, _, _, -, -, -, -, -, -, hstate, -⟩ := start?_cases hstart
  have hpairwise : (steps d i env o).Pairwise fun x y =>
      x.descriptor.components ≠ y.descriptor.components := pairwise_steps hd
  rw [hsteps, List.pairwise_append] at hpairwise
  -- The steps before are for other descriptors.
  have hnone : latest? (trace s.setup s.state before) x.descriptor k = none := by
    apply latest?_eq_none_iff.mpr
    intro y hy
    rw [← Bool.not_eq_true]
    intro hfor
    obtain ⟨-, -, -, hsame, -⟩ := Step.isAttemptFor_iff.mp hfor
    exact hpairwise.2.2 y hy x List.mem_cons_self (Path.same_iff.mp hsame)
  have hbefore : x.before = finish s.setup s.state before := by rw [hxeq]
  rw [hbefore, find?_finish, knownAfter, hnone, hstate]

/-! ## What a run keeps of the disk -/

/-- **What publishing can do.** The descriptor is its own copy and nothing is done; or the directories
on the way are made, as far as that goes, and then the copy fails or is written. -/
theorem publish_cases (d : Disk) (source output descriptor : Path) :
    (samePlace d descriptor (target source output descriptor) = true ∧
      publish d source output descriptor = (d, .ok ())) ∨
    (∃ e, publish d source output descriptor =
      (d.prepare (target source output descriptor), .error e)) ∨
    ∃ bytes d', (d.prepare (target source output descriptor)).contents descriptor = .ok bytes ∧
      (d.prepare (target source output descriptor)).writeFile (target source output descriptor)
        (if (d.prepare (target source output descriptor)).identity? descriptor =
          (d.prepare (target source output descriptor)).identity? (target source output descriptor)
          then .empty else bytes) = .ok d' ∧
      publish d source output descriptor = (d', .ok ()) := by
  unfold publish Disk.prepare
  simp only
  split
  · next hsame => exact .inl ⟨hsame, rfl⟩
  right
  cases (target source output descriptor).parent? with
  | none =>
    simp only
    split
    · exact .inl ⟨_, rfl⟩
    · next d' hcopy =>
      obtain ⟨bytes, hb, hw⟩ := Disk.copyFile_cases hcopy
      exact .inr ⟨bytes, d', hb, hw, rfl⟩
  | some directory =>
    simp only
    split
    · exact .inl ⟨_, rfl⟩
    · split
      · exact .inl ⟨_, rfl⟩
      · next d' hcopy =>
        obtain ⟨bytes, hb, hw⟩ := Disk.copyFile_cases hcopy
        exact .inr ⟨bytes, d', hb, hw, rfl⟩

theorem grows_publish (d : Disk) (source output descriptor : Path) :
    d.Grows (publish d source output descriptor).1 := by
  have hmade := d.grows_prepare (target source output descriptor)
  rcases publish_cases d source output descriptor with ⟨-, h⟩ | ⟨e, h⟩ | ⟨bytes, d', -, hw, h⟩
  · rw [h]
    exact .refl d
  · rw [h]
    exact hmade
  · rw [h]
    exact hmade.trans (Disk.grows_writeFile hw)

section Keeping

variable {Q : Disk → Prop}

theorem launch_keeps {tool : Tool} (htool : ∀ d inv, Q d → Q (tool d inv).1) {d : Disk} (h : Q d)
    (inv : Invocation) : Q (tool.launch d inv).1 := by
  unfold Tool.launch
  split
  · exact h
  split
  · exact htool d inv h
  · split <;> exact h

theorem transform_keeps {i : Instrumenter} (htool : ∀ d inv, Q d → Q (i.tool d inv).1) {d : Disk}
    (h : Q d) (r : Nested.Resolver) (q : Request) : Q (i.transform d r q).disk := by
  unfold Instrumenter.transform
  split
  · exact h
  · next nested r' _ =>
    have hl := launch_keeps htool h ⟨i.program, i.arguments r' d q nested⟩
    simp only
    split
    · next hlaunch => rwa [hlaunch] at hl
    · next hlaunch => rwa [hlaunch] at hl

/-- A step keeps what the tool keeps and growth keeps. -/
theorem Step.keeps {x : Step} (hgrows : ∀ d d', d.Grows d' → Q d → Q d')
    (htool : ∀ d inv, Q d → Q (x.setup.instrumenter.tool d inv).1) (h : Q x.before.disk) :
    Q x.after.disk := by
  cases hatt : x.isAttempt with
  | false => rwa [after_of_not_isAttempt hatt]
  | true =>
    obtain ⟨form, c, ha, hc⟩ := isAttempt_iff.mp hatt
    have htransform : Q (x.outcome form c).disk := transform_keeps htool h _ _
    obtain ⟨-, -, -, ⟨-, -, hd, -⟩ | ⟨-, hd, -⟩⟩ := attempt_cases ha hc
    · rwa [hd]
    · rw [hd]
      exact hgrows _ _ (grows_publish _ _ _ _) htransform

theorem finish_keeps {s : Start} (hstart : start? d i env o = some s)
    (hgrows : ∀ d d', d.Grows d' → Q d → Q d') (htool : ∀ d inv, Q d → Q (i.tool d inv).1) (h : Q d) :
    Q (finish s.setup s.state s.descriptors).disk := by
  obtain ⟨_, _, _, -, -, -, -, -, hsetup, hstate, -⟩ := start?_cases hstart
  have hfirst : Q s.state.disk := by rwa [hstate]
  have hstep : ∀ x : Step, x.setup = s.setup → Q x.before.disk → Q x.after.disk := fun x hx =>
    Step.keeps hgrows (by rw [hx, hsetup]; exact htool)
  exact (trace_invariant (P := fun st => Q st.disk) s.descriptors hstep hfirst).1

end Keeping

/-- Whether a tool puts no link that comes between writing the cache and reading it back. -/
def KeepsClear (tool : Tool) (f : CacheFile) : Prop :=
  ∀ d inv, f.IsClear d → f.IsClear (tool d inv).1

/-! ## From one cache to the next -/

theorem written_of_report {report : Report} (hreport : (run d i env o).report = .ok report)
    (hwritten : report.cacheWritten = true) (report' : Report)
    (h : (run d i env o).report = .ok report') : report'.cacheWritten = true := by
  rw [hreport] at h
  rwa [← Except.ok.inj h]

/-- **What a run makes of the cache.** When it wrote the cache, or had no reason to, what the cache
knows of a pair afterwards is what its steps made of what it knew before. -/
theorem find?_read_run (hclear : o.cacheFile.IsClear d) (htool : KeepsClear i.tool o.cacheFile)
    (hwritten : ∀ report, (run d i env o).report = .ok report →
      (∃ x ∈ steps d i env o, x.isAttempt = true) → report.cacheWritten = true) (f k : Path) :
    (o.cacheFile.read (run d i env o).disk).find? f k =
      knownAfter (steps d i env o) ((o.cacheFile.read d).find? f k) f k := by
  have unchanged : (∀ x ∈ steps d i env o, x.isAttempt = false) →
      knownAfter (steps d i env o) ((o.cacheFile.read d).find? f k) f k =
        (o.cacheFile.read d).find? f k := by
    intro hno
    have hnone : latest? (steps d i env o) f k = none :=
      latest?_eq_none_iff.mpr fun x hx => by simp [Step.isAttemptFor, hno x hx]
    rw [knownAfter, hnone]
  rcases run_cases d i env o with ⟨-, hdisk, hsteps, -⟩ |
      ⟨s, hstart, -, ⟨hno, hdisk, -⟩ | ⟨hatt, written, hwrite, hreport⟩⟩
  · rw [hdisk, unchanged (by simp [hsteps])]
  · rw [hdisk, unchanged hno]
  · have hw : written = true := hwritten _ hreport hatt
    subst hw
    obtain ⟨_, _, _, -, -, -, -, -, -, hstate, -⟩ := start?_cases hstart
    have hcache : s.state.cache = o.cacheFile.read d := by rw [hstate]
    have hdistinct := distinct_finish (s := s.setup) s.descriptors
      (hcache ▸ CacheFile.distinct_read o.cacheFile d)
    have hfinish := finish_keeps hstart (fun _ _ hg h => h.grows hg) htool hclear
    have hperm := o.cacheFile.read_of_write (CacheFile.isNamed_ofBuildDirectory o.build) hfinish
      hdistinct hwrite
    -- The cache that was written is read back with its entries in some order.
    rw [Cache.find?_perm hdistinct hperm.symm, find?_finish, hcache, steps_of_start hstart]

end FormWeaver.Run
