import FormWeaver.Proofs.Run.Effects
import FormWeaver.Proofs.Run.Single

/-!
# What a run changes

On a disk without links, and with neither of the source and output directories within the other, a run
puts the copy of each published descriptor at the place that mirrors it, makes directories on the way
there, and writes its cache. Besides what the instrumenter does to the class files that it is given,
this is all that is different afterwards (`mirrored_and_framed`).
-/

namespace FormWeaver.Run

variable {d : Disk} {q : Place} {i : Instrumenter} {env : Environment} {o : Options}

/-! ## All steps -/

theorem finish_append (s : Setup) (st : State) (before : List Path) (p : Path) (rest : List Path) :
    finish s st (before ++ p :: rest) =
      finish s (Step.after ⟨s, finish s st before, p⟩) rest := by
  induction before generalizing st with
  | nil => rfl
  | cons first before ih =>
    rw [List.cons_append, finish_cons, finish_cons]
    exact ih _

/-- What each step keeps is kept by all of them. -/
theorem keepsAt_finish {way : Place → Prop} {s : Setup} {st : State} {ds : List Path}
    (h : ∀ x ∈ trace s st ds, Disk.KeepsAt way x.before.disk x.after.disk q) :
    Disk.KeepsAt way st.disk (finish s st ds).disk q := by
  induction ds generalizing st with
  | nil => exact .refl way st.disk q
  | cons descriptor rest ih =>
    rw [trace_cons] at h
    have hfirst := h _ List.mem_cons_self
    rw [finish_cons]
    exact hfirst.trans (ih fun x hx => h x (List.mem_cons_of_mem _ hx))

/-! ## Where things stand -/

/-- A class file does not stand where a form does. -/
theorem Step.identity?_ne_of_endsWith {x : Step} (hd : x.before.disk.LinkFree) {c : Path}
    (hc : x.classFile? = some c) (hq : Disk.EndsWith q ".form") :
    x.before.disk.identity? c ≠ some q := by
  intro h
  have hclass := Step.endsWith_of_classFile? hc (Disk.place?_of_identity? hd h)
  exact hclass.not_endsWith (by decide) (by decide) hq

/-- Nor does a cache. -/
theorem place?_cacheFile_ne_of_endsWith (o : Options) (hq : Disk.EndsWith q ".form") :
    d.place? o.cacheFile.path ≠ some q ∧ d.place? o.cacheFile.temporary ≠ some q := by
  have other : ∀ name : String, Path.IsLegal name → ¬ ".form".toList <:+ name.toList →
      ¬ name.toList <:+ ".form".toList → d.place? (o.build.child name) ≠ some q := by
    intro name hname h h' hplace
    have hend := Disk.endsWith_of_place?_child hname (List.suffix_refl name.toList) hplace
    exact hend.not_endsWith h' h hq
  refine ⟨other CacheFile.fileName (by decide) (by decide) (by decide), ?_⟩
  unfold Options.cacheFile
  rw [CacheFile.temporary_ofBuildDirectory]
  exact other (CacheFile.fileName ++ ".tmp") (by decide) (by decide) (by decide)

/-- Whether neither of the source and output directories is within the other. -/
def Apart (d : Disk) (o : Options) : Prop :=
  ∀ source output s t, d.absolute o.source = .ok source → d.absolute o.output = .ok output →
    d.place? source = some s → d.place? output = some t → ¬ s <+: t ∧ ¬ t <+: s

theorem target_foldl_child {names : List String} (h : ∀ name ∈ names, Path.IsLegal name)
    (hne : names ≠ []) (source output : Path) :
    target source output (names.foldl Path.child source) = names.foldl Path.child output := by
  unfold target
  rw [Path.relativeTo?_foldl_child h, Option.getD_some, Path.join_foldl_child h hne]

/-- A descriptor lies beneath the source directory, and its copy has the same names beneath the output
directory. -/
theorem exists_spelled (hd : d.IsProper) {x : Step} (hx : x ∈ steps d i env o) :
    ∃ s names, d.follow? x.setup.source = some (s, .directory) ∧
      (∀ name ∈ names, Path.IsLegal name) ∧ Disk.EndsWith names ".form" ∧
      x.descriptor = names.foldl Path.child x.setup.source ∧
      x.copy = names.foldl Path.child x.setup.output := by
  obtain ⟨s, before, rest, hstart, hds, hx, -⟩ := split_of_mem_steps hx
  obtain ⟨source, output, _, hs, ho, -, hdir, -, hsetup, -, hfound⟩ := start?_cases hstart
  have hmem : x.descriptor ∈ Form.discover d source := by
    rw [← hfound, hds]
    simp
  obtain ⟨place, names, _, _, hfollow, hlegal, hp, -, hend⟩ :=
    Form.exists_of_mem_discover hd hdir hmem
  have hne : names ≠ [] := by
    obtain ⟨above, name, rfl, -⟩ := hend
    simp
  have hsource : x.setup.source = source := by rw [hx, hsetup]
  have houtput : x.setup.output = output := by rw [hx, hsetup]
  refine ⟨place, names, by rw [hsource, hfollow], hlegal, hend, by rw [hsource, hp], ?_⟩
  unfold Step.copy
  rw [hsource, houtput, hp, target_foldl_child hlegal hne]

/-- The copy of a descriptor stands as deep in the output directory as the descriptor in the source
directory. -/
theorem exists_names (hd : d.IsProper) (hfree : d.LinkFree) {x : Step} (hx : x ∈ steps d i env o) :
    ∃ s names, d.place? x.setup.source = some s ∧ Disk.EndsWith names ".form" ∧
      x.descriptor = names.foldl Path.child x.setup.source ∧
      d.place? x.descriptor = some (s ++ names) ∧
      d.place? x.copy = (d.place? x.setup.output).map (· ++ names) := by
  obtain ⟨s, names, hfollow, hlegal, hend, hp, hcopy⟩ := exists_spelled hd hx
  have hplace := Disk.place?_of_follow? hfree hfollow
  refine ⟨s, names, hplace, hend, hp, ?_, ?_⟩
  · rw [hp, Disk.place?_foldl_child hlegal, hplace]
    rfl
  · rw [hcopy, Disk.place?_foldl_child hlegal]

/-- A run names all files by absolute paths. -/
theorem isAbsolute_of_mem_steps (hd : d.IsProper) {x : Step} (hx : x ∈ steps d i env o) :
    x.descriptor.isAbsolute = true ∧ x.copy.isAbsolute = true := by
  obtain ⟨-, names, -, hlegal, -, hp, hcopy⟩ := exists_spelled hd hx
  obtain ⟨source, output, hs, ho, hsetup⟩ := setup_of_mem_steps hx
  have hnames : ∀ name ∈ names, '/' ∉ name.toList := fun name hname => (hlegal name hname).2
  rw [hp, hcopy, Path.isAbsolute_foldl_child hnames, Path.isAbsolute_foldl_child hnames, hsetup]
  exact ⟨Disk.isAbsolute_of_absolute hs, Disk.isAbsolute_of_absolute ho⟩

/-! ## The whole run -/

theorem disk_of_start {s : Start} (h : start? d i env o = some s) : s.state.disk = d := by
  obtain ⟨_, _, _, -, -, -, -, -, -, hstate, -⟩ := start?_cases h
  rw [hstate]

/-- The places at which a run may leave something else than it found. -/
inductive Touched (d : Disk) (i : Instrumenter) (env : Environment) (o : Options) (q : Place) : Prop
  /-- The copy of a published descriptor. -/
  | copy (x : Step) (hx : x ∈ steps d i env o) (hp : x.ending = .published)
    (hq : d.place? x.copy = some q)
  /-- A directory that was made on the way to the copy of a descriptor that was to be published. -/
  | directory (x : Step) (hx : x ∈ steps d i env o)
    (hreached : x.ending = .publishFailed ∨ x.ending = .published) (hway : d.OnWay x.copy q)
    (hnone : d.node? q = none) (hmade : (run d i env o).disk.node? q = some .directory)
  /-- The cache file or its temporary sibling, if anything was attempted. -/
  | cache (x : Step) (hx : x ∈ steps d i env o) (hatt : x.isAttempt = true)
    (hq : d.place? o.cacheFile.path = some q ∨ d.place? o.cacheFile.temporary = some q)
  /-- A directory that was made on the way to the cache file. -/
  | cacheDirectory (x : Step) (hx : x ∈ steps d i env o) (hatt : x.isAttempt = true)
    (hway : d.OnWay o.cacheFile.path q) (hnone : d.node? q = none)
    (hmade : (run d i env o).disk.node? q = some .directory)
  /-- The class file that a process was given. -/
  | classFile (x : Step) (hx : x ∈ steps d i env o) (hatt : x.isAttempt = true) (c : Path)
    (hc : x.classFile? = some c) (hq : x.before.disk.identity? c = some q)

/-- Whether a place is on the way to a copy that was to be made, or to the cache. -/
def OnSomeWay (d : Disk) (i : Instrumenter) (env : Environment) (o : Options) (q : Place) : Prop :=
  (∃ x ∈ steps d i env o, (x.ending = .publishFailed ∨ x.ending = .published) ∧ d.OnWay x.copy q) ∨
    (∃ x ∈ steps d i env o, x.isAttempt = true) ∧ d.OnWay o.cacheFile.path q

/-- Whether a disk still has no links, and the working directory that a run began with. -/
def Steady (d d' : Disk) : Prop := d'.LinkFree ∧ d'.workingDirectory = d.workingDirectory

section Whole

variable (hd : d.IsProper) (hfree : d.LinkFree) (htool : i.tool.KeepsToClassFile) (hapart : Apart d o)

include hfree htool

/-- No step puts a link or leaves the working directory. -/
theorem steady_trace {s : Start} (hstart : start? d i env o = some s) :
    Steady d (finish s.setup s.state s.descriptors).disk ∧
      ∀ x ∈ trace s.setup s.state s.descriptors, Steady d x.before.disk := by
  obtain ⟨_, _, _, -, -, -, -, -, hsetup, hstate, -⟩ := start?_cases hstart
  have hstep : ∀ x : Step, x.setup = s.setup → Steady d x.before.disk → Steady d x.after.disk := by
    intro x hx
    apply Step.keeps
    · intro d₁ d₂ hg h
      exact ⟨h.1.grows hg, hg.workingDirectory.trans h.2⟩
    · intro d₁ inv h
      rw [hx, hsetup]
      refine ⟨fun q target hq => h.1 q target (htool.link _ _ q target hq), ?_⟩
      rw [htool.workingDirectory, h.2]
  have hfirst : Steady d s.state.disk := by
    rw [hstate]
    exact ⟨hfree, rfl⟩
  have hall := trace_invariant (P := fun st => Steady d st.disk) s.descriptors hstep hfirst
  exact ⟨hall.1, fun x hx => (hall.2 x hx).1⟩

theorem steady_before {x : Step} (hx : x ∈ steps d i env o) : Steady d x.before.disk := by
  obtain ⟨s, -, -, hstart, -⟩ := split_of_mem_steps hx
  rw [steps_of_start hstart] at hx
  exact (steady_trace hfree htool hstart).2 x hx

theorem keepsAt_of_mem_steps {x : Step} (hx : x ∈ steps d i env o)
    (hclass : x.isAttempt = true → ∀ c, x.classFile? = some c → x.before.disk.identity? c ≠ some q)
    (hcopy : x.ending = .published → d.place? x.copy ≠ some q) :
    Disk.KeepsAt (OnSomeWay d i env o) x.before.disk x.after.disk q := by
  have hxtool : x.setup.instrumenter.tool.KeepsToClassFile := by rwa [instrumenter_of_mem_steps hx]
  obtain ⟨hbefore, hwork⟩ := steady_before hfree htool hx
  rw [← Disk.place?_congr hwork] at hcopy
  refine (Step.keepsAt hxtool hbefore hclass hcopy).mono ?_
  rintro ⟨hreached, r, hr, hq⟩
  rw [Disk.place?_congr hwork] at hq
  exact .inl ⟨x, hx, hreached, r, hr, hq⟩

/-- What has the name of a form is kept by a step, but for the copy that it makes. -/
theorem keepsAt_of_endsWith {x : Step} (hx : x ∈ steps d i env o) (hq : Disk.EndsWith q ".form")
    (hcopy : d.place? x.copy ≠ some q) :
    Disk.KeepsAt (OnSomeWay d i env o) x.before.disk x.after.disk q := by
  obtain ⟨hbefore, -⟩ := steady_before hfree htool hx
  apply keepsAt_of_mem_steps hfree htool hx
  · exact fun _ c hc => Step.identity?_ne_of_endsWith hbefore hc hq
  · exact fun _ => hcopy

/-- What is left to do after all steps is to write the cache. -/
theorem keepsAt_cache {s : Start} (hstart : start? d i env o = some s)
    (hcache : ∀ x ∈ steps d i env o, x.isAttempt = true →
      d.place? o.cacheFile.path ≠ some q ∧ d.place? o.cacheFile.temporary ≠ some q) :
    Disk.KeepsAt (OnSomeWay d i env o) (finish s.setup s.state s.descriptors).disk
      (run d i env o).disk q := by
  obtain ⟨hfree', hwork⟩ := (steady_trace hfree htool hstart).1
  rcases run_cases d i env o with ⟨hnone, -⟩ |
      ⟨s', hstart', -, ⟨hno, hdisk, -⟩ | ⟨⟨x, hx, hatt⟩, written, hwrite, -⟩⟩
  · rw [hstart] at hnone
    cases hnone
  · rw [steps_of_start hstart] at hno
    rw [finish_of_no_attempt hno, hdisk, disk_of_start hstart]
    exact .refl _ d q
  · obtain rfl := Option.some.inj (hstart.symm.trans hstart')
    obtain ⟨hpath, htemporary⟩ := hcache x hx hatt
    rw [← Disk.place?_congr hwork] at hpath htemporary
    have hkept := CacheFile.keepsAt_write hfree'
      (finish s.setup s.state s.descriptors).cache hpath htemporary
    rw [hwrite] at hkept
    refine hkept.mono ?_
    rintro ⟨r, hr, hq⟩
    rw [Disk.place?_congr hwork] at hq
    exact .inr ⟨⟨x, hx, hatt⟩, r, hr, hq⟩

/-- What has the name of a form is kept by all steps before one, but for the copies that they make. -/
theorem keepsAt_before {x : Step} (hx : x ∈ steps d i env o) (hq : Disk.EndsWith q ".form")
    (hcopies : ∀ y ∈ steps d i env o, d.place? y.copy ≠ some q) :
    Disk.KeepsAt (OnSomeWay d i env o) d x.before.disk q := by
  obtain ⟨s, before, rest, hstart, -, hxeq, hsteps⟩ := split_of_mem_steps hx
  have hkept : Disk.KeepsAt (OnSomeWay d i env o) s.state.disk
      (finish s.setup s.state before).disk q := by
    apply keepsAt_finish
    intro y hy
    have hmem : y ∈ steps d i env o := by
      rw [hsteps]
      exact List.mem_append_left _ hy
    exact keepsAt_of_endsWith hfree htool hmem hq (hcopies y hmem)
  rw [disk_of_start hstart] at hkept
  rw [hxeq]
  exact hkept

/-- What has the name of a form is kept by all that comes after a step, but for the copies that other
steps make. -/
theorem keepsAt_after (hd : d.IsProper) {x : Step} (hx : x ∈ steps d i env o)
    (hq : Disk.EndsWith q ".form")
    (hcopies : ∀ y ∈ steps d i env o, x.descriptor.components ≠ y.descriptor.components →
      d.place? y.copy ≠ some q) :
    Disk.KeepsAt (OnSomeWay d i env o) x.after.disk (run d i env o).disk q := by
  obtain ⟨s, before, rest, hstart, hds, hxeq, hsteps⟩ := split_of_mem_steps hx
  have hpairwise : (steps d i env o).Pairwise fun x y =>
      x.descriptor.components ≠ y.descriptor.components := pairwise_steps hd
  rw [hsteps, List.pairwise_append, List.pairwise_cons] at hpairwise
  have hkept : Disk.KeepsAt (OnSomeWay d i env o) x.after.disk (finish s.setup x.after rest).disk q := by
    apply keepsAt_finish
    intro y hy
    have hmem : y ∈ steps d i env o := by
      rw [hsteps]
      exact List.mem_append_right _ (List.mem_cons_of_mem _ hy)
    exact keepsAt_of_endsWith hfree htool hmem hq (hcopies y hmem (hpairwise.2.1.1 y hy))
  have hfinish : finish s.setup s.state s.descriptors = finish s.setup x.after rest := by
    rw [hds, finish_append, ← hxeq]
  have hcache := keepsAt_cache (q := q) hfree htool hstart fun _ _ _ =>
    place?_cacheFile_ne_of_endsWith o hq
  rw [hfinish] at hcache
  exact hkept.trans hcache

/-- **The frame.** What is different after a run is at one of these places. -/
theorem touched_of_ne (hq : (run d i env o).disk.node? q ≠ d.node? q) : Touched d i env o q := by
  by_contra hnot
  have hkept : Disk.KeepsAt (OnSomeWay d i env o) d (run d i env o).disk q := by
    cases hstart : start? d i env o with
    | none =>
      rw [(run_of_no_start hstart).1]
      exact .refl _ d q
    | some s =>
      have hsteps : Disk.KeepsAt (OnSomeWay d i env o) s.state.disk
          (finish s.setup s.state s.descriptors).disk q := by
        apply keepsAt_finish
        intro x hx
        rw [← steps_of_start hstart] at hx
        apply keepsAt_of_mem_steps hfree htool hx
        · exact fun hatt c hc hcq => hnot (.classFile x hx hatt c hc hcq)
        · exact fun hp hpq => hnot (.copy x hx hp hpq)
      rw [disk_of_start hstart] at hsteps
      apply hsteps.trans
      apply keepsAt_cache hfree htool hstart
      intro x hx hatt
      exact ⟨fun h => hnot (.cache x hx hatt (.inl h)), fun h => hnot (.cache x hx hatt (.inr h))⟩
  rcases hkept with h | ⟨⟨x, hx, hreached, hway⟩ | ⟨⟨x, hx, hatt⟩, hway⟩, hnone, hmade⟩
  · exact hq h
  · exact hnot (.directory x hx hreached hway hnone hmade)
  · exact hnot (.cacheDirectory x hx hatt hway hnone hmade)

omit htool

include hd hapart

theorem place?_descriptor_ne_copy {x y : Step} (hx : x ∈ steps d i env o) (hy : y ∈ steps d i env o)
    (hq : d.place? x.descriptor = some q) : d.place? y.copy ≠ some q := by
  intro hcopy
  obtain ⟨s, names, hs, -, -, hplace, -⟩ := exists_names hd hfree hx
  obtain ⟨_, names', -, -, -, -, hmirror⟩ := exists_names hd hfree hy
  obtain ⟨source, output, hsource, houtput, hsetup⟩ := setup_of_mem_steps hx
  obtain ⟨_, output', -, houtput', hsetup'⟩ := setup_of_mem_steps hy
  obtain rfl := Except.ok.inj (houtput.symm.trans houtput')
  rw [hsetup] at hs
  rw [hmirror, hsetup'] at hcopy
  obtain ⟨t, ht, htq⟩ := Option.map_eq_some_iff.mp hcopy
  obtain ⟨hst, hts⟩ := hapart source output s t hsource houtput hs ht
  have hsq : s <+: q := by
    rw [← Option.some.inj (hplace.symm.trans hq)]
    exact List.prefix_append s names
  rcases List.prefix_or_prefix_of_prefix hsq ⟨names', htq⟩ with h | h
  · exact hst h
  · exact hts h

omit hapart

theorem place?_copy_ne_copy {x y : Step} (hx : x ∈ steps d i env o) (hy : y ∈ steps d i env o)
    (hne : x.descriptor.components ≠ y.descriptor.components) (hq : d.place? x.copy = some q) :
    d.place? y.copy ≠ some q := by
  intro hq'
  obtain ⟨_, names, -, -, hspelled, -, hcopy⟩ := exists_names hd hfree hx
  obtain ⟨_, names', -, -, hspelled', -, hcopy'⟩ := exists_names hd hfree hy
  obtain ⟨source, output, hsource, houtput, hsetup⟩ := setup_of_mem_steps hx
  obtain ⟨source', output', hsource', houtput', hsetup'⟩ := setup_of_mem_steps hy
  obtain rfl := Except.ok.inj (hsource.symm.trans hsource')
  obtain rfl := Except.ok.inj (houtput.symm.trans houtput')
  rw [hcopy, hsetup] at hq
  rw [hcopy', hsetup'] at hq'
  obtain ⟨t, ht, rfl⟩ := Option.map_eq_some_iff.mp hq
  obtain ⟨t', ht', hnames⟩ := Option.map_eq_some_iff.mp hq'
  obtain rfl := Option.some.inj (ht.symm.trans ht')
  -- The same names lead to both descriptors.
  apply hne
  rw [hspelled, hspelled', hsetup, hsetup', List.append_cancel_left hnames]

include hapart htool

/-- **The mirror.** A published descriptor has its bytes at the place that mirrors it. -/
theorem mirrored {x : Step} (hx : x ∈ steps d i env o) (hp : x.ending = .published) :
    ∃ s t names bytes time time', d.place? x.setup.source = some s ∧ d.place? x.setup.output = some t ∧
      d.place? x.descriptor = some (s ++ names) ∧ d.place? x.copy = some (t ++ names) ∧
      d.node? (s ++ names) = some (.file bytes time) ∧
      (run d i env o).disk.node? (t ++ names) = some (.file bytes time') := by
  obtain ⟨s, names, hs, hend, -, hplace, hcopy⟩ := exists_names hd hfree hx
  have hxtool : x.setup.instrumenter.tool.KeepsToClassFile := by rwa [instrumenter_of_mem_steps hx]
  obtain ⟨hbefore, hwork⟩ := steady_before hfree htool hx
  -- The step itself finds the bytes in its state and leaves them at the copy.
  have hne : x.before.disk.place? x.descriptor ≠ x.before.disk.place? x.copy := by
    rw [Disk.place?_congr hwork, Disk.place?_congr hwork, hplace]
    exact Ne.symm (place?_descriptor_ne_copy hd hfree hapart hx hx hplace)
  have hclass : ∀ c, x.classFile? = some c →
      x.before.disk.identity? c ≠ x.before.disk.place? x.descriptor := by
    intro c hc
    rw [Disk.place?_congr hwork, hplace]
    exact Step.identity?_ne_of_endsWith hbefore hc (hend.append s)
  obtain ⟨p, r, bytes, time, time', hp', hr, hfile, hcopied⟩ :=
    Step.copied hxtool hbefore hp hne hclass
  rw [Disk.place?_congr hwork] at hp' hr
  obtain rfl := Option.some.inj (hplace.symm.trans hp')
  have hmirror := hr
  rw [hcopy] at hmirror
  obtain ⟨t, ht, rfl⟩ := Option.map_eq_some_iff.mp hmirror
  refine ⟨s, t, names, bytes, time, time', hs, ht, hplace, hr, ?_, ?_⟩
  · -- No step before it changes the descriptor.
    have hkept := keepsAt_before hfree htool hx (hend.append s) fun y hy =>
      place?_descriptor_ne_copy hd hfree hapart hx hy hplace
    exact hkept.file hfile
  · -- No step after it changes the copy, and neither does the cache.
    have hkept := keepsAt_after hfree htool hd hx (hend.append t) fun y hy hdiff =>
      place?_copy_ne_copy hd hfree hx hy hdiff hr
    exact hkept.node?_eq hcopied

/-- **The output mirrors what was published, and nothing else is different.** On a disk without links,
with neither of the source and output directories within the other, and with a tool that changes
nothing but the class file that it is given: the copy of each published descriptor is a file with the
bytes of the descriptor, under the names in the output directory under which the descriptor stands in
the source directory; and whatever is different after the run is such a copy, a directory that was made
on the way to a copy that was to be made, the cache file or its temporary sibling or a directory on the
way there, if anything was attempted, or a class file that a process was given. -/
theorem mirrored_and_framed :
    (∀ x ∈ steps d i env o, x.ending = .published →
      ∃ s t names bytes time time', d.place? x.setup.source = some s ∧
        d.place? x.setup.output = some t ∧ d.place? x.descriptor = some (s ++ names) ∧
        d.place? x.copy = some (t ++ names) ∧ d.node? (s ++ names) = some (.file bytes time) ∧
        (run d i env o).disk.node? (t ++ names) = some (.file bytes time')) ∧
    ∀ q, (run d i env o).disk.node? q ≠ d.node? q → Touched d i env o q :=
  ⟨fun _ hx hp => mirrored hd hfree htool hapart hx hp, fun _ hq => touched_of_ne hfree htool hq⟩

end Whole

namespace Sample

/-- A world in which the class stands in a directory of its own. -/
def apart : Disk :=
  ⟨[(["s"], .directory), (["s", "z.form"], .file text.toUTF8 5), (["o"], .directory),
    (["o", "C.class"], .file .empty 6)], .present [], 10⟩

theorem finds_apart : Finds apart "/o" := by
  have hfacts : apart.isDirectory ⟨"/s"⟩ = true ∧ Form.discover apart ⟨"/s"⟩ = [descriptor] ∧
      Classes.fileOf? apart ⟨"/o"⟩ "C" = some (classFile "/o") := by decide +kernel
  have hwalk : apart.walk true descriptor = .ok (.node ["s", "z.form"] (.file text.toUTF8 5)) := rfl
  obtain ⟨hdirectory, hfound, hclass⟩ := hfacts
  exact ⟨by decide, rfl, hdirectory, hfound, Disk.contents_of_walk hwalk, hclass⟩

theorem apart_apart : Apart apart (options "/o" "/b") := by
  intro source output s t hsource houtput hs ht
  obtain ⟨hsource', houtput'⟩ := absolute_options apart finds_apart.known "/b"
  obtain rfl := Except.ok.inj (hsource'.symm.trans hsource)
  obtain rfl := Except.ok.inj (houtput'.symm.trans houtput)
  have hplaces : apart.place? ⟨"/s"⟩ = some ["s"] ∧ apart.place? ⟨"/o"⟩ = some ["o"] := by decide
  obtain rfl := Option.some.inj (hplaces.1.symm.trans hs)
  obtain rfl := Option.some.inj (hplaces.2.symm.trans ht)
  decide

theorem keepsToClassFile : instrumenter.tool.KeepsToClassFile :=
  ⟨fun _ _ => rfl, fun _ _ _ _ => rfl, fun _ _ _ _ h => h⟩

/-- In this world the text of the form stands in the output directory after the run. -/
theorem mirrored_and_framed_apart :
    (∃ time, (run apart instrumenter environment (options "/o" "/b")).disk.node? ["o", "z.form"] =
      some (.file text.toUTF8 time)) ∧
    ∀ q, (run apart instrumenter environment (options "/o" "/b")).disk.node? q ≠ apart.node? q →
      Touched apart instrumenter environment (options "/o" "/b") q := by
  have hproper : apart.IsProper := ⟨by decide, by decide⟩
  have hfree : apart.LinkFree := Disk.linkFree_of_nodes (by decide)
  obtain ⟨hcopied, hframed⟩ := @mirrored_and_framed apart instrumenter environment (options "/o" "/b")
    hproper hfree keepsToClassFile apart_apart
  refine ⟨?_, hframed⟩
  have hx : step apart "/o" "/b" ∈ steps apart instrumenter environment (options "/o" "/b") := by
    rw [finds_apart.steps_eq]
    exact List.mem_cons_self
  have hcache : apart.isFile (options "/o" "/b").cacheFile.path = false := by decide
  obtain ⟨hpublished, -⟩ := finds_apart.published hcache (by decide +kernel)
  rw [(step apart "/o" "/b").counted.2.2.1] at hpublished
  obtain ⟨s, t, names, bytes, time, time', hs, ht, hplace, -, hfile, hcopy⟩ :=
    hcopied _ hx (eq_of_beq hpublished)
  -- The places are spelled out by the paths.
  have hplaces : apart.place? ⟨"/s"⟩ = some ["s"] ∧ apart.place? ⟨"/o"⟩ = some ["o"] ∧
      apart.place? descriptor = some ["s", "z.form"] := by decide
  obtain rfl := Option.some.inj (hplaces.1.symm.trans hs)
  obtain rfl := Option.some.inj (hplaces.2.1.symm.trans ht)
  have hnames : ["s"] ++ ["z.form"] = ["s"] ++ names :=
    Option.some.inj (hplaces.2.2.symm.trans hplace)
  obtain rfl := List.append_cancel_left hnames
  have hbytes : apart.node? (["s"] ++ ["z.form"]) = some (.file text.toUTF8 5) := rfl
  obtain ⟨rfl, -⟩ := Node.file.inj (Option.some.inj (hbytes.symm.trans hfile))
  exact ⟨time', hcopy⟩

end Sample

end FormWeaver.Run
