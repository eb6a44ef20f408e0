import FormWeaver.Proofs.Cache.Atomicity
import FormWeaver.Proofs.Run.Frame

/-!
# What becomes of the sources

A run writes to its output directory, which may be its source directory or lie within it, so that the copy
of one form can be put over another one that was discovered. Nothing else changes the bytes of a form: what
stands at its place after a run is what the last copy put there, or what stood there before (`sources_kept`).
Directories that are the same, or apart, do not come into each other's way, and then all forms are kept.

A form is not to be copied onto itself, which would leave nothing of it. The two are told apart by their
canonical paths, and so two kinds of forms are set aside: one to which its copy leads only through
directories that are made for the copy, and one that is too deep for its path to be resolved.
-/

namespace FormWeaver

variable {d d' : Disk} {q : Place} {bytes : ByteArray}

/-! ## Files and their bytes -/

namespace Disk

/-- Whether a file with these bytes stands at a place. -/
def Holds (d : Disk) (q : Place) (bytes : ByteArray) : Prop := ∃ time, d.node? q = some (.file bytes time)

theorem Holds.congr (h : d.Holds q bytes) (hsame : d'.node? q = d.node? q) : d'.Holds q bytes := by
  obtain ⟨time, hn⟩ := h
  exact ⟨time, hsame.trans hn⟩

theorem Holds.keepsAt {way : Place → Prop} (h : d.Holds q bytes) (hkeeps : KeepsAt way d d' q) :
    d'.Holds q bytes := by
  obtain ⟨time, hn⟩ := h
  exact ⟨time, hkeeps.node?_eq hn⟩

theorem holds_store_self (d : Disk) (hne : q ≠ []) (bytes : ByteArray) :
    (d.store q bytes).Holds q bytes := by
  refine ⟨d.clock, ?_⟩
  rw [node?_store _ _ _ _ hne, if_pos rfl]

theorem Holds.store {place : Place} (h : d.Holds q bytes) (hne : place ≠ []) (hq : q ≠ place)
    (other : ByteArray) : (d.store place other).Holds q bytes := by
  obtain ⟨time, hn⟩ := h
  refine ⟨time, ?_⟩
  rw [node?_store _ _ _ _ hne, if_neg hq, hn]

theorem Holds.unique {old : ByteArray} (h : d.Holds q bytes) (hold : d.Holds q old) : bytes = old := by
  obtain ⟨time, hn⟩ := h
  obtain ⟨time', hold⟩ := hold
  rw [hn] at hold
  exact (Node.file.inj (Option.some.inj hold)).1

/-- A path that leads to the place of a file leads to the file. -/
theorem identity?_of_spot? {p : Path} (hp : d.spot? true p = some q) (h : d.Holds q bytes) :
    d.identity? p = some q := by
  obtain ⟨time, hn⟩ := h
  unfold spot? at hp
  split at hp
  · next found hw =>
    cases found with
    | node place n =>
      obtain rfl := Option.some.inj hp
      exact identity?_of_walk hw
    | gap there name slash =>
      obtain rfl := Option.some.inj hp
      rw [node?_of_walk_gap hw] at hn
      cases hn
    | removed => cases hp
  · cases hp

theorem exists_of_spot? {p : Path} {name : String} (hname : EndsIn p name)
    (h : d.spot? false p = some q) : ∃ above, q = above ++ [name] := by
  unfold spot? at h
  split at h
  · next found hw =>
    cases found with
    | node place n =>
      obtain rfl := Option.some.inj h
      obtain ⟨there, hplace, -⟩ := leads_of_walk_node hname hw
      exact ⟨there, hplace⟩
    | gap there free slash =>
      obtain rfl := Option.some.inj h
      exact ⟨there, by rw [(leads_of_walk_gap hname hw).1]⟩
    | removed => cases h
  · cases h

end Disk

/-! ## The cache -/

namespace CacheFile

variable {f : CacheFile}

/-- Whether no link stands at the temporary sibling, nor comes to stand there by growth of the disk. -/
def IsPlain (f : CacheFile) (d : Disk) : Prop := ∀ d', d.Grows d' → f.HasPlainSibling d'

theorem IsPlain.grows (h : f.IsPlain d) (hg : d.Grows d') : f.IsPlain d' :=
  fun d'' hg' => h d'' (hg.trans hg')

theorem IsClear.isPlain (h : f.IsClear d) : f.IsPlain d := fun d' hg => (h d' hg).1

theorem endsIn_temporary (build : Path) :
    Disk.EndsIn (ofBuildDirectory build).temporary (fileName ++ ".tmp") := by
  rw [temporary_ofBuildDirectory]
  exact endsIn_child (by decide) build

/-- Neither the file nor its sibling stands where a form does. -/
theorem spot?_ne_of_endsWith (hq : Disk.EndsWith q ".form") (d : Disk) (build : Path) :
    d.spot? false (ofBuildDirectory build).path ≠ some q ∧
      d.spot? false (ofBuildDirectory build).temporary ≠ some q := by
  have other : ∀ {p : Path} {name : String}, Disk.EndsIn p name → ¬ ".form".toList <:+ name.toList →
      ¬ name.toList <:+ ".form".toList → d.spot? false p ≠ some q := by
    intro p name hname hform hname' hspot
    obtain ⟨above, rfl⟩ := Disk.exists_of_spot? hname hspot
    have hend : Disk.EndsWith (above ++ [name]) name := ⟨above, name, rfl, List.suffix_refl _⟩
    exact hend.not_endsWith hname' hform hq
  exact ⟨other (endsIn_child (by decide) build) (by decide) (by decide),
    other (endsIn_temporary build) (by decide) (by decide)⟩

/-- Writing a cache keeps what has the name of a form. -/
theorem holds_write {build : Path} (hplain : (ofBuildDirectory build).IsPlain d)
    (hq : Disk.EndsWith q ".form") (h : d.Holds q bytes) (c : Cache) :
    ((ofBuildDirectory build).write d c).1.Holds q bytes := by
  have hmade := h.keepsAt (Disk.keepsAt_prepare_of_links d (ofBuildDirectory build).path q)
  rcases (ofBuildDirectory build).write_cases d c with hfail | hreplace
  · rw [hfail]
    exact hmade
  · obtain ⟨hpath, htemporary⟩ := spot?_ne_of_endsWith hq (d.prepare (ofBuildDirectory build).path) build
    rw [hreplace]
    exact hmade.congr (node?_replace_of_links (endsIn_temporary build) (hplain _ (d.grows_prepare _))
      htemporary fun _ => hpath)

theorem write_of_isDirectory {f : CacheFile}
    (h : ∀ q, f.path.parent? = some q → q.text.isEmpty = true ∨ d.isDirectory q = true) (c : Cache) :
    f.write d c = f.replace d (Cache.encode c) := by
  unfold write
  split
  · rfl
  · next directory hparent => rw [Disk.makeDirectories_of_isDirectory (h directory hparent)]

/-- Where a link leads to a form from the temporary sibling, the form gets the text of the cache. -/
theorem holds_replace_of_link {build : Path} {time : Int} (hq : Disk.EndsWith q ".form")
    (hw : d.walk true (ofBuildDirectory build).temporary = .ok (.node q (.file bytes time))) (text : String) :
    ((ofBuildDirectory build).replace d text).1.Holds q text.toUTF8 := by
  have hwrite : d.writeFile (ofBuildDirectory build).temporary text.toUTF8 =
      .ok (d.store q text.toUTF8) := by
    unfold Disk.writeFile
    rw [hw]
  have hput := Disk.holds_store_self d (Disk.ne_nil_of_walk hw (by simp)) text.toUTF8
  obtain ⟨hpath, htemporary⟩ := spot?_ne_of_endsWith hq (d.store q text.toUTF8) build
  unfold replace
  simp only [hwrite]
  -- The link takes the name of the file, or is taken away, or stays; the form is none of these.
  split
  · next hrename => exact hput.congr (Disk.node?_rename hrename htemporary hpath)
  · split
    · next hremove => exact hput.congr (Disk.node?_removeFile hremove htemporary)
    · exact hput

end CacheFile

/-- Whether a tool leaves the bytes of all forms as they are. -/
def Tool.KeepsForms (tool : Tool) : Prop :=
  ∀ d inv q bytes, Disk.EndsWith q ".form" → d.Holds q bytes → (tool d inv).1.Holds q bytes

namespace Run

variable {i : Instrumenter} {env : Environment} {o : Options} {x : Step}

/-! ## One step -/

namespace Step

/-- The disk on which the copy of a descriptor is made. -/
def preparedDisk (x : Step) : Disk := x.launchedDisk.prepare x.copy

/-- Whether the copy of a published descriptor is put where the descriptor itself stands, because the two
were not taken for one file. -/
def ReplacesItself (x : Step) (q : Place) : Prop :=
  x.ending = .published ∧ samePlace x.launchedDisk x.descriptor x.copy = false ∧
    x.preparedDisk.spot? true x.copy = some q ∧ x.preparedDisk.identity? x.descriptor = some q

/-- Whether a published descriptor and its copy lead to one place, but did not both lead there before the
directories were made on the way to the copy. -/
def IsDetourTo (x : Step) (q : Place) : Prop :=
  x.ending = .published ∧ x.preparedDisk.identity? x.descriptor = some q ∧
    x.preparedDisk.spot? true x.copy = some q ∧
    ¬ (x.launchedDisk.identity? x.descriptor = some q ∧ x.launchedDisk.identity? x.copy = some q)

/-- Whether a published descriptor and its copy lead to one place, but one of them cannot be resolved: the
canonical path, or another one on the way to it, would be too long. -/
def IsOutOfReach (x : Step) (q : Place) : Prop :=
  x.ending = .published ∧ x.launchedDisk.identity? x.descriptor = some q ∧
    x.launchedDisk.identity? x.copy = some q ∧
    (x.launchedDisk.canonical? x.descriptor = none ∨ x.launchedDisk.canonical? x.copy = none)

/-- What can be resolved and leads to one place is taken for one file. -/
theorem ReplacesItself.cases (h : x.ReplacesItself q) : x.IsDetourTo q ∨ x.IsOutOfReach q := by
  obtain ⟨hending, hother, hspot, hstands⟩ := h
  by_cases hone :
      x.launchedDisk.identity? x.descriptor = some q ∧ x.launchedDisk.identity? x.copy = some q
  · right
    refine ⟨hending, hone.1, hone.2, ?_⟩
    cases hdescriptor : x.launchedDisk.canonical? x.descriptor with
    | none => exact .inl rfl
    | some p =>
      cases hcopy : x.launchedDisk.canonical? x.copy with
      | none => exact .inr rfl
      | some r =>
        obtain rfl := Disk.eq_of_canonical? hone.1 hdescriptor
        obtain rfl := Disk.eq_of_canonical? hone.2 hcopy
        simp [samePlace, hdescriptor, hcopy] at hother
  · exact .inl ⟨hending, hstands, hspot, hone⟩

/-- The bytes that a step puts at a place: those of its descriptor, if that is published and its copy made
there. -/
def put? (x : Step) (q : Place) : Option ByteArray :=
  if x.ending = .published ∧ samePlace x.launchedDisk x.descriptor x.copy = false ∧
      x.preparedDisk.spot? true x.copy = some q then
    (x.preparedDisk.contents x.descriptor).toOption
  else none

theorem put?_of_ending (h : x.ending ≠ .published) (q : Place) : x.put? q = none := by
  unfold put?
  rw [if_neg]
  intro hput
  exact h hput.1

theorem put?_of_spot? (x : Step) (h : x.preparedDisk.spot? true x.copy ≠ some q) : x.put? q = none := by
  unfold put?
  rw [if_neg]
  intro hput
  exact h hput.2.2

theorem put?_of_not_isAttempt (h : x.isAttempt = false) (q : Place) : x.put? q = none := by
  apply put?_of_ending
  intro hending
  rw [x.counted.2.2.2, hending] at h
  cases h

/-- What a step puts at a place are the bytes of a published descriptor that stands elsewhere. -/
theorem exists_of_put? (hself : ¬ x.ReplacesItself q) (h : x.put? q = some bytes) :
    x.ending = .published ∧ ∃ q', q' ≠ q ∧ x.preparedDisk.identity? x.descriptor = some q' ∧
      x.launchedDisk.Holds q' bytes := by
  unfold put? at h
  split at h
  · next hput =>
    obtain ⟨hending, hother, hspot⟩ := hput
    cases hcontents : x.preparedDisk.contents x.descriptor with
    | error e =>
      rw [hcontents] at h
      cases h
    | ok b =>
      rw [hcontents] at h
      obtain rfl := Option.some.inj h
      obtain ⟨q', time, hw⟩ := Disk.walk_of_contents hcontents
      have hn := Disk.node?_of_walk hw (by simp)
      have hidentity := Disk.identity?_of_walk hw
      refine ⟨hending, q', ?_, hidentity, time, (Disk.keepsAt_prepare_of_links _ _ q').file hn⟩
      rintro rfl
      exact hself ⟨hending, hother, hspot, hidentity⟩
  · cases h

/-- A copy that replaces a form has the bytes of its descriptor. -/
theorem holds_of_writeFile {b : ByteArray} {d' : Disk} (hself : ¬ x.ReplacesItself q)
    (hending : x.ending = .published) (hother : samePlace x.launchedDisk x.descriptor x.copy = false)
    (h : x.preparedDisk.Holds q bytes) (hb : x.preparedDisk.contents x.descriptor = .ok b)
    (hw : x.preparedDisk.writeFile x.copy
      (if x.preparedDisk.identity? x.descriptor = x.preparedDisk.identity? x.copy then .empty else b) =
        .ok d') :
    d'.Holds q ((x.put? q).getD bytes) := by
  obtain ⟨place, found, hfound, hplace, hnil, rfl, -⟩ := Disk.writeFile_cases hw
  have hspot : x.preparedDisk.spot? true x.copy = some place := (Disk.spot?_of_walk hfound).trans hplace
  by_cases hq : place = q
  · subst hq
    have hne : x.preparedDisk.identity? x.descriptor ≠ x.preparedDisk.identity? x.copy := by
      intro heq
      rw [Disk.identity?_of_spot? hspot h] at heq
      exact hself ⟨hending, hother, hspot, heq⟩
    have hput : x.put? place = some b := by
      unfold put?
      rw [if_pos ⟨hending, hother, hspot⟩, hb]
      rfl
    rw [if_neg hne, hput]
    exact Disk.holds_store_self _ hnil b
  · rw [x.put?_of_spot? (by simpa [hspot] using hq)]
    exact h.store hnil (Ne.symm hq) _

/-- **What a step leaves of a form** is what it puts there, or what it found. -/
theorem holds_after (htool : x.setup.instrumenter.tool.KeepsForms) (hself : ¬ x.ReplacesItself q)
    (hq : Disk.EndsWith q ".form") (h : x.before.disk.Holds q bytes) :
    x.after.disk.Holds q ((x.put? q).getD bytes) := by
  have hlaunched : x.launchedDisk.Holds q bytes := by
    rcases x.launchedDisk_cases with hsame | ⟨inv, -, hmade⟩
    · rwa [hsame]
    · rw [hmade]
      exact htool _ _ _ _ hq h
  have hprepared : x.preparedDisk.Holds q bytes :=
    hlaunched.keepsAt (Disk.keepsAt_prepare_of_links _ _ q)
  cases hatt : x.isAttempt with
  | false =>
    rw [after_of_not_isAttempt hatt, put?_of_not_isAttempt hatt]
    exact h
  | true =>
    rcases disk_after hatt with ⟨hending, hafter⟩ | ⟨-, hok, hafter⟩
    · rw [hafter, put?_of_ending (by simp [hending])]
      exact hlaunched
    rw [hafter]
    cases hsame : samePlace x.launchedDisk x.descriptor x.copy with
    | true =>
      -- The descriptor is its own copy, and nothing is done.
      rw [publish_of_samePlace hsame]
      unfold put?
      rw [if_neg (by simp [hsame])]
      exact hlaunched
    | false =>
      rcases publish_cases x.launchedDisk x.setup.source x.setup.output x.descriptor with
        ⟨htrue, -⟩ | ⟨e, hfail⟩ | ⟨b, d', hb, hw, hdone⟩
      · exact absurd (hsame.symm.trans htrue) Bool.false_ne_true
      · rw [hfail] at hok ⊢
        rw [put?_of_ending]
        · exact hprepared
        · intro hending
          cases hok.mp hending
      · have hending : x.ending = .published := hok.mpr (by rw [hdone])
        rw [hdone]
        exact holds_of_writeFile hself hending hsame hprepared hb hw

end Step

/-! ## All steps -/

/-- What is left of the bytes at a place after some steps: those that were put there last, and the old ones
if none were. -/
def bytesAfter (xs : List Step) (q : Place) (old : ByteArray) : ByteArray :=
  ((xs.filterMap (·.put? q)).getLast?).getD old

theorem bytesAfter_cons (x : Step) (xs : List Step) (q : Place) (old : ByteArray) :
    bytesAfter (x :: xs) q old = bytesAfter xs q ((x.put? q).getD old) := by
  unfold bytesAfter
  rw [List.filterMap_cons]
  cases x.put? q with
  | none => rfl
  | some b =>
    simp only [List.getLast?_cons]
    rfl

theorem bytesAfter_of_none {xs : List Step} (h : ∀ x ∈ xs, x.put? q = none) (old : ByteArray) :
    bytesAfter xs q old = old := by
  unfold bytesAfter
  rw [List.filterMap_eq_nil_iff.mpr h]
  rfl

/-- **What all steps leave of a form** is what was put there last, or what they found. -/
theorem holds_finish {s : Setup} {st : State} {ds : List Path} (htool : s.instrumenter.tool.KeepsForms)
    (hself : ∀ x ∈ trace s st ds, ¬ x.ReplacesItself q) (hq : Disk.EndsWith q ".form")
    (h : st.disk.Holds q bytes) :
    (finish s st ds).disk.Holds q (bytesAfter (trace s st ds) q bytes) := by
  induction ds generalizing st bytes with
  | nil => exact h
  | cons descriptor rest ih =>
    rw [trace_cons] at hself ⊢
    have hfirst := Step.holds_after (x := ⟨s, st, descriptor⟩) htool (hself _ List.mem_cons_self) hq h
    rw [finish_cons, bytesAfter_cons]
    exact ih (fun x hx => hself x (List.mem_cons_of_mem _ hx)) hfirst

/-! ## The whole run -/

/-- Whether a tool puts no link at the temporary sibling of a cache file. -/
def KeepsPlain (tool : Tool) (f : CacheFile) : Prop := ∀ d inv, f.IsPlain d → f.IsPlain (tool d inv).1

/-- Whether no descriptor and its copy lead to a place only once the directories on the way are made. -/
def IsOffDetours (d : Disk) (i : Instrumenter) (env : Environment) (o : Options) (q : Place) : Prop :=
  ∀ x ∈ steps d i env o, ¬ x.IsDetourTo q

/-- Whether each descriptor that is its own copy at a place can be resolved, and its copy too. -/
def IsInReach (d : Disk) (i : Instrumenter) (env : Environment) (o : Options) (q : Place) : Prop :=
  ∀ x ∈ steps d i env o, ¬ x.IsOutOfReach q

theorem not_replacesItself (hdetours : IsOffDetours d i env o q) (hreach : IsInReach d i env o q) :
    ∀ x ∈ steps d i env o, ¬ x.ReplacesItself q :=
  fun x hx h => h.cases.elim (hdetours x hx) (hreach x hx)

/-- **What a run leaves of a form** is what its steps leave: the cache that it writes goes elsewhere. -/
theorem holds_run (htool : i.tool.KeepsForms) (hplain : o.cacheFile.IsPlain d)
    (hkeeps : KeepsPlain i.tool o.cacheFile) (hself : ∀ x ∈ steps d i env o, ¬ x.ReplacesItself q)
    (hq : Disk.EndsWith q ".form") (h : d.Holds q bytes) :
    (run d i env o).disk.Holds q (bytesAfter (steps d i env o) q bytes) := by
  rcases run_cases d i env o with ⟨-, hdisk, hsteps, -⟩ |
      ⟨s, hstart, -, ⟨hno, hdisk, -⟩ | ⟨-, written, hwrite, -⟩⟩
  · rw [hdisk, hsteps]
    exact h
  · rw [hdisk, bytesAfter_of_none]
    · exact h
    · exact fun x hx => Step.put?_of_not_isAttempt (hno x hx) q
  · obtain ⟨_, _, _, -, -, -, -, -, hsetup, hstate, -⟩ := start?_cases hstart
    have hstays := finish_keeps hstart (fun _ _ hg h => h.grows hg) hkeeps hplain
    rw [steps_of_start hstart] at hself ⊢
    have hsteps : (finish s.setup s.state s.descriptors).disk.Holds q
        (bytesAfter (trace s.setup s.state s.descriptors) q bytes) := by
      apply holds_finish
      · rwa [hsetup]
      · exact hself
      · exact hq
      · rwa [disk_of_start hstart]
    have hcache : (o.cacheFile.write _ _).1.Holds q _ :=
      CacheFile.holds_write hstays hq hsteps (finish s.setup s.state s.descriptors).cache
    rwa [hwrite] at hcache

/-! ## The forms that are discovered -/

/-- Whether a descriptor that a run discovers stands at a place, with these bytes. -/
def Discovers (d : Disk) (o : Options) (p : Path) (q : Place) (bytes : ByteArray) : Prop :=
  ∃ source s names, d.absolute o.source = .ok source ∧ p ∈ found d source ∧
    d.follow? source = some (s, .directory) ∧ (∀ name ∈ names, Path.IsLegal name) ∧
    p = names.foldl Path.child source ∧ q = s ++ names ∧ d.Holds q bytes

/-- Whether all descriptors that a run discovers have their bytes after it. -/
def KeepsSources (d : Disk) (i : Instrumenter) (env : Environment) (o : Options) : Prop :=
  ∀ p q bytes, Discovers d o p q bytes → (run d i env o).disk.Holds q bytes

theorem mem_discover_of_found {source p : Path} (h : p ∈ found d source) :
    d.isDirectory source = true ∧ p ∈ Form.discover d source := by
  unfold found at h
  split at h
  · next hdirectory => exact ⟨hdirectory, h⟩
  · cases h

theorem exists_discovers (hd : d.IsProper) {source p : Path} (hs : d.absolute o.source = .ok source)
    (hp : p ∈ found d source) : ∃ q bytes, Discovers d o p q bytes := by
  obtain ⟨hdirectory, hmem⟩ := mem_discover_of_found hp
  obtain ⟨s, names, bytes, time, hfollow, hlegal, hspelled, hn, -⟩ :=
    Form.exists_of_mem_discover hd hdirectory hmem
  exact ⟨s ++ names, bytes, source, s, names, hs, hp, hfollow, hlegal, hspelled, rfl, time, hn⟩

theorem Discovers.holds {p : Path} (h : Discovers d o p q bytes) : d.Holds q bytes := by
  obtain ⟨_, _, _, -, -, -, -, -, -, hholds⟩ := h
  exact hholds

theorem Discovers.endsWith {p : Path} (hd : d.IsProper) (h : Discovers d o p q bytes) :
    Disk.EndsWith q ".form" := by
  obtain ⟨source, s, names, -, hp, -, hlegal, rfl, rfl, -⟩ := h
  obtain ⟨hdirectory, hmem⟩ := mem_discover_of_found hp
  obtain ⟨_, names', _, _, -, hlegal', hspelled, -, hend⟩ := Form.exists_of_mem_discover hd hdirectory hmem
  -- A path is spelled by one list of names only.
  have hnames : names = names' := by
    have hcomponents := congrArg Path.components hspelled
    rw [Path.components_foldl_child hlegal, Path.components_foldl_child hlegal'] at hcomponents
    exact (List.map_inj_right fun _ _ h => Path.Component.name.inj h).mp
      (List.append_cancel_left hcomponents)
  rw [hnames]
  exact hend.append s

/-- A run that takes a step takes one for each descriptor that it discovers. -/
theorem Discovers.exists_step {p : Path} (h : Discovers d o p q bytes) (hx : x ∈ steps d i env o) :
    ∃ y ∈ steps d i env o, y.descriptor = p := by
  obtain ⟨source, _, _, hs, hp, -⟩ := h
  obtain ⟨-, hmem⟩ := mem_discover_of_found hp
  obtain ⟨start, -, -, hstart, -⟩ := split_of_mem_steps hx
  obtain ⟨source', _, _, hs', -, -, -, -, -, -, hfound⟩ := start?_cases hstart
  obtain rfl := Except.ok.inj (hs.symm.trans hs')
  rw [← hfound, ← map_descriptor_trace start.setup start.state start.descriptors, List.mem_map] at hmem
  rwa [steps_of_start hstart]

/-- What is out of reach is so because something stands too deep. -/
theorem exists_deep_of_isOutOfReach (hd : d.IsProper) (hx : x ∈ steps d i env o) (h : x.IsOutOfReach q) :
    ∃ place n, x.launchedDisk.node? place = some n ∧ Disk.maxPath ≤ Disk.pathSize place + 1 := by
  obtain ⟨-, hdescriptor, hcopy, hlong⟩ := h
  obtain ⟨habs, habs'⟩ := isAbsolute_of_mem_steps hd hx
  rcases hlong with hnone | hnone
  · exact Disk.exists_deep_of_canonical?_eq_none habs hdescriptor hnone
  · exact Disk.exists_deep_of_canonical?_eq_none habs' hcopy hnone

/-! ## Directories that do not come into each other's way -/

theorem Discovers.place?_eq {p : Path} (hfree : d.LinkFree) (h : Discovers d o p q bytes) :
    d.place? p = some q := by
  obtain ⟨source, s, names, -, -, hfollow, hlegal, rfl, rfl, -⟩ := h
  rw [Disk.place?_foldl_child hlegal, Disk.place?_of_follow? hfree hfollow]
  rfl

/-- Whether the source and output directories of a run are one place. -/
def AtOnePlace (d : Disk) (o : Options) : Prop :=
  ∀ source output, d.absolute o.source = .ok source → d.absolute o.output = .ok output →
    d.place? source = d.place? output

section Directories

variable (hd : d.IsProper) (hfree : d.LinkFree) (htool : i.tool.KeepsToClassFile)

include hfree htool

theorem steady_launchedDisk (hx : x ∈ steps d i env o) : Steady d x.launchedDisk := by
  have hxtool : x.setup.instrumenter.tool.KeepsToClassFile := by rwa [instrumenter_of_mem_steps hx]
  obtain ⟨hbefore, hwork⟩ := steady_before hfree htool hx
  exact ⟨Step.linkFree_launchedDisk hxtool hbefore,
    (Step.workingDirectory_launchedDisk hxtool).trans hwork⟩

/-- On a disk without links a copy is put where its path says, and its descriptor is read from there. -/
theorem place?_of_mem_steps (hx : x ∈ steps d i env o) {p : Path} :
    (x.preparedDisk.spot? true p = some q → d.place? p = some q) ∧
      (x.preparedDisk.identity? p = some q → d.place? p = some q) := by
  obtain ⟨hlaunched, hwork⟩ := steady_launchedDisk hfree htool hx
  have hg := x.launchedDisk.grows_prepare x.copy
  have hprepared : x.preparedDisk.LinkFree := hlaunched.grows hg
  rw [← Disk.place?_congr (hg.workingDirectory.trans hwork)]
  exact ⟨Disk.place?_of_spot? hprepared, Disk.place?_of_identity? hprepared⟩

include hd

/-- On a disk without links all descriptors and copies that lead somewhere can be resolved. -/
theorem isInReach (q : Place) : IsInReach d i env o q := by
  rintro x hx ⟨-, hdescriptor, hcopy, hlong⟩
  obtain ⟨hlaunched, -⟩ := steady_launchedDisk hfree htool hx
  obtain ⟨habs, habs'⟩ := isAbsolute_of_mem_steps hd hx
  rw [Disk.canonical?_of_linkFree hlaunched habs hdescriptor,
    Disk.canonical?_of_linkFree hlaunched habs' hcopy] at hlong
  rcases hlong with h | h <;> cases h

/-- No copy leads to a descriptor where the directories are apart. -/
theorem spot?_copy_ne (hapart : Apart d o) {p : Path} (h : Discovers d o p q bytes)
    (hx : x ∈ steps d i env o) : x.preparedDisk.spot? true x.copy ≠ some q := by
  intro hspot
  obtain ⟨y, hy, rfl⟩ := h.exists_step hx
  exact place?_descriptor_ne_copy hd hfree hapart hy hx (h.place?_eq hfree)
    ((place?_of_mem_steps hfree htool hx).1 hspot)

/-- No other copy leads to a descriptor where the directories are one place. -/
theorem put?_eq_none (hone : AtOnePlace d o) (hx : x ∈ steps d i env o) (hself : ¬ x.ReplacesItself q) :
    x.put? q = none := by
  cases hput : x.put? q with
  | none => rfl
  | some b =>
    exfalso
    obtain ⟨-, q', hne, hidentity, -⟩ := Step.exists_of_put? hself hput
    unfold Step.put? at hput
    split at hput
    · next hreached =>
      have hcopy := (place?_of_mem_steps hfree htool hx).1 hreached.2.2
      have hdescriptor := (place?_of_mem_steps hfree htool hx).2 hidentity
      -- The copy mirrors its own descriptor, which then stands there too.
      obtain ⟨source, output, hs, ho, hsetup⟩ := setup_of_mem_steps hx
      obtain ⟨s, names, hplace, -, -, hstands, hmirror⟩ := exists_names hd hfree hx
      rw [hsetup] at hplace hmirror
      rw [← hone source output hs ho, hplace, Option.map_some, hcopy] at hmirror
      exact hne (Option.some.inj ((hdescriptor.symm.trans hstands).trans hmirror.symm))
    · cases hput

end Directories

/-- **What becomes of the sources.** With a tool that leaves the bytes of forms as they are, and with no
link at the temporary sibling of the cache: each descriptor that a run discovers is a file with some bytes,
and after the run the bytes there are those that a copy put there last, or else those from before; what is
put there are the bytes of a published descriptor that stands elsewhere. This is said of descriptors that are
not copied onto themselves: to which no copy of their own leads once directories are made on the way, and
which are in reach, as all are unless something stands too deep. Without links, besides, and when the tool
changes nothing but the class file that it is given, all descriptors are in reach; they have the bytes that
they had if the source and output directories are one place, and also, whatever leads where, if neither is
within the other. -/
theorem sources_kept (hd : d.IsProper) (htool : i.tool.KeepsForms) (hplain : o.cacheFile.IsPlain d)
    (hkeeps : KeepsPlain i.tool o.cacheFile) :
    (∀ source, d.absolute o.source = .ok source → ∀ p ∈ found d source,
      ∃ q bytes, Discovers d o p q bytes) ∧
    (∀ p q bytes, Discovers d o p q bytes → IsOffDetours d i env o q → IsInReach d i env o q →
      (run d i env o).disk.Holds q (bytesAfter (steps d i env o) q bytes) ∧
      ∀ x ∈ steps d i env o, ∀ put, x.put? q = some put →
        x.ending = .published ∧ ∃ q', q' ≠ q ∧ x.preparedDisk.identity? x.descriptor = some q' ∧
          x.launchedDisk.Holds q' put) ∧
    (∀ q, ∀ x ∈ steps d i env o, x.IsOutOfReach q →
      ∃ place n, x.launchedDisk.node? place = some n ∧ Disk.maxPath ≤ Disk.pathSize place + 1) ∧
    (d.LinkFree → i.tool.KeepsToClassFile →
      (∀ q, IsInReach d i env o q) ∧
      (AtOnePlace d o → ∀ p q bytes, Discovers d o p q bytes → IsOffDetours d i env o q →
        (run d i env o).disk.Holds q bytes) ∧
      (Apart d o → KeepsSources d i env o)) := by
  have hleft : ∀ p q bytes, Discovers d o p q bytes → (∀ x ∈ steps d i env o, ¬ x.ReplacesItself q) →
      (run d i env o).disk.Holds q (bytesAfter (steps d i env o) q bytes) := by
    intro p q bytes h hself
    exact holds_run htool hplain hkeeps hself (h.endsWith hd) h.holds
  refine ⟨fun source hs p hp => exists_discovers hd hs hp, fun p q bytes h hdetours hreach => ?_,
    fun q x hx h => exists_deep_of_isOutOfReach hd hx h, fun hfree hclass =>
      ⟨isInReach hd hfree hclass, fun hone p q bytes h hdetours => ?_, fun hapart p q bytes h => ?_⟩⟩
  · have hself := not_replacesItself hdetours hreach
    exact ⟨hleft p q bytes h hself, fun x hx put hput => Step.exists_of_put? (hself x hx) hput⟩
  · have hself := not_replacesItself hdetours (isInReach hd hfree hclass q)
    have hholds := hleft p q bytes h hself
    rwa [bytesAfter_of_none fun x hx => put?_eq_none hd hfree hclass hone hx (hself x hx)] at hholds
  · have hspot : ∀ x ∈ steps d i env o, x.preparedDisk.spot? true x.copy ≠ some q :=
      fun x hx => spot?_copy_ne hd hfree hclass hapart h hx
    have hholds := hleft p q bytes h fun x hx hself => hspot x hx hself.2.2.1
    rwa [bytesAfter_of_none fun x hx => x.put?_of_spot? (hspot x hx)] at hholds

namespace Sample

/-- A form that is bound to no class. -/
def otherText : String := "<form/>"

def other : Path := ⟨"/s/o/z.form"⟩

/-- A world in which that form stands in the directory of the classes, which lies within that of the
forms. -/
def crossing : Disk :=
  ⟨[(["s"], .directory), (["s", "o"], .directory), (["s", "o", "z.form"], .file otherText.toUTF8 5),
    (["s", "o", "C.class"], .file .empty 6), (["s", "z.form"], .file text.toUTF8 7)], .present [], 10⟩

def crossingStep (descriptor : Path) : Step :=
  ⟨⟨instrumenter, ⟨"/s"⟩, ⟨"/s/o"⟩, false⟩,
    ⟨crossing, .new crossing [other, Sample.descriptor] ⟨[], none⟩ ⟨"/s/o"⟩,
      (options "/s/o" "/b").cacheFile.read crossing⟩, descriptor⟩

theorem parseFile_other {d : Disk} {p : Path} (h : d.contents p = .ok otherText.toUTF8) :
    Form.parseFile d p = .ok ⟨none, [], .file p⟩ := by
  have htags : Form.tags otherText.toList = [⟨"form".toList, []⟩] := by
    have ho : Text.dropPast? ['<'] otherText.toList = some (otherText.toList.drop 1) := by decide
    have hc : Form.construct? (otherText.toList.drop 1) = some (some "form/".toList, []) := by
      decide
    have hname : Text.trim ("form/".toList.reverse.dropWhile (· == '/')).reverse = "form".toList ∧
        ("form".toList.takeWhile fun c => !Text.isBlank c) = "form".toList ∧
        ("form".toList.dropWhile fun c => !Text.isBlank c) = [] := by decide
    rw [Form.tags, Form.tagContents_of_construct ho hc, Form.tagContents_of_none (by decide)]
    simp only [Option.toList_some, List.append_nil, List.map_cons, List.map_nil, Form.Tag.ofContents, hname,
      Form.attributes_of_none (show Text.cut? ['='] (Text.trimStart []) = none from rfl)]
  have hread : Form.readDocument otherText = .ok (none, []) := by
    unfold Form.readDocument
    rw [htags]
    decide
  exact Form.parseFile_of_readDocument h hread

theorem discover_crossing : Form.discover crossing ⟨"/s"⟩ = [other, descriptor] := by
  have hfiles : (Form.filesUnder crossing ⟨"/s"⟩).filter
      (fun p => p.extension? == some Form.descriptorExtension) = [other, descriptor] := by decide
  have hsorted : [other, descriptor].Pairwise fun p q => p.le q = true := by decide
  unfold Form.discover
  rw [hfiles]
  exact List.mergeSort_of_pairwise hsorted

theorem found_crossing : found crossing ⟨"/s"⟩ = [other, descriptor] := by
  have hdirectory : crossing.isDirectory ⟨"/s"⟩ = true := by decide
  rw [found, if_pos hdirectory, discover_crossing]

theorem contents_crossing : crossing.contents other = .ok otherText.toUTF8 ∧
    crossing.contents descriptor = .ok text.toUTF8 := by
  have hother : crossing.walk true other = .ok (.node ["s", "o", "z.form"] (.file otherText.toUTF8 5)) := rfl
  have hdescriptor : crossing.walk true descriptor = .ok (.node ["s", "z.form"] (.file text.toUTF8 7)) := rfl
  exact ⟨Disk.contents_of_walk hother, Disk.contents_of_walk hdescriptor⟩

/-- The other form asks for nothing. -/
theorem isAttempt_other : (crossingStep other).isAttempt = false := by
  have hform : Form.parseFile (crossingStep other).before.disk other = .ok ⟨none, [], .file other⟩ :=
    parseFile_other contents_crossing.1
  have ha : (crossingStep other).asked = .ok none := bound?_of_unbound hform rfl
  unfold Step.isAttempt Step.verdict
  rw [Step.processed_of_asked_none ha]
  rfl

theorem steps_crossing : steps crossing instrumenter environment (options "/s/o" "/b") =
    [crossingStep other, crossingStep descriptor] := by
  obtain ⟨hs, ho⟩ := absolute_options crossing (show "/s/o" ∈ outputs by decide) "/b"
  have hc : Classpath.Context.build crossing environment (options "/s/o" "/b").dependencies =
      .ok ⟨[], none⟩ := rfl
  rw [steps_eq_trace hs ho hc, found_crossing, discover_crossing]
  -- The second step starts from where the first one did.
  have hafter := Step.after_of_not_isAttempt isAttempt_other
  show [crossingStep other, ⟨_, (crossingStep other).after, descriptor⟩] = _
  rw [hafter]
  rfl

theorem launchedDisk_eq {x : Step} (h : x.setup.instrumenter = instrumenter) :
    x.launchedDisk = x.before.disk := by
  apply Step.launchedDisk_of_tool
  intro d inv
  rw [h]
  rfl

/-- The directory of the copy is there. -/
theorem preparedDisk_crossing : (crossingStep descriptor).preparedDisk = crossing := by
  unfold Step.preparedDisk
  rw [launchedDisk_eq (by rfl)]
  apply Disk.prepare_of_isDirectory
  intro q hq
  have hparent : Path.parent? (crossingStep descriptor).copy = some ⟨"/s/o"⟩ := by decide
  obtain rfl := Option.some.inj (hparent.symm.trans hq)
  exact .inr (by decide)

theorem spot?_crossing :
    crossing.spot? true (crossingStep descriptor).copy = some ["s", "o", "z.form"] := by decide

/-- The form is published over the other one. -/
theorem put?_crossing : (crossingStep descriptor).put? ["s", "o", "z.form"] = some text.toUTF8 ∧
    ∀ q, ¬ (crossingStep descriptor).IsDetourTo q := by
  have hform : Form.parseFile (crossingStep descriptor).before.disk descriptor = .ok form :=
    parseFile_eq contents_crossing.2
  have hclass : Classes.fileOf? (crossingStep descriptor).before.disk
      (crossingStep descriptor).setup.output "C" = some (classFile "/s/o") := by decide
  have ha : (crossingStep descriptor).asked = .ok (some (form, classFile "/s/o")) :=
    bound?_of_fileOf? hform rfl hclass
  have hcache : crossing.isFile (options "/s/o" "/b").cacheFile.path = false := by decide
  have hstale : (crossingStep descriptor).isCurrent (classFile "/s/o") = false := by
    show Cache.isUpToDate ((options "/s/o" "/b").cacheFile.read crossing) _ _ _ = false
    rw [CacheFile.read_of_not_isFile hcache]
    rfl
  have hother : samePlace crossing descriptor (crossingStep descriptor).copy = false := by decide
  have hcopy : (publish crossing ⟨"/s"⟩ ⟨"/s/o"⟩ descriptor).2 = .ok () := by decide +kernel
  obtain ⟨hpublished, -⟩ := Step.published_of_succeeded ha hstale rfl
    (launch_eq crossing [other, descriptor] (by decide)) succeeded hcopy
  rw [(crossingStep descriptor).counted.2.2.1] at hpublished
  constructor
  · unfold Step.put?
    rw [preparedDisk_crossing, launchedDisk_eq (by rfl),
      if_pos ⟨eq_of_beq hpublished, hother, spot?_crossing⟩]
    rw [show crossing.contents (crossingStep descriptor).descriptor = _ from contents_crossing.2]
    rfl
  · rintro q ⟨-, hstands, hcopied, -⟩
    rw [preparedDisk_crossing] at hcopied hstands
    have hstands' : crossing.identity? (crossingStep descriptor).descriptor = some ["s", "z.form"] := by
      decide
    rw [hstands] at hstands'
    rw [spot?_crossing, hstands'] at hcopied
    exact absurd hcopied (by decide)

/-- The copy of a form leads to the form itself in neither step. -/
theorem isOffDetours_crossing (q : Place) :
    IsOffDetours crossing instrumenter environment (options "/s/o" "/b") q := by
  intro x hx
  rw [steps_crossing, List.mem_cons, List.mem_singleton] at hx
  rcases hx with rfl | rfl
  · rintro ⟨hending, -⟩
    have hatt := (crossingStep other).counted.2.2.2
    rw [isAttempt_other, hending] at hatt
    cases hatt
  · exact put?_crossing.2 q

theorem bytesAfter_crossing (old : ByteArray) :
    bytesAfter (steps crossing instrumenter environment (options "/s/o" "/b")) ["s", "o", "z.form"] old =
      text.toUTF8 := by
  rw [steps_crossing, bytesAfter_cons, bytesAfter_cons, put?_crossing.1]
  rfl

theorem isProper_crossing : crossing.IsProper := ⟨by decide, by decide⟩

theorem linkFree_crossing : crossing.LinkFree := Disk.linkFree_of_nodes (by decide)

theorem isPlain_crossing (f : CacheFile) : f.IsPlain crossing :=
  (CacheFile.isClear_of_no_links (by decide)).isPlain

theorem isInReach_crossing (q : Place) :
    IsInReach crossing instrumenter environment (options "/s/o" "/b") q :=
  isInReach isProper_crossing linkFree_crossing keepsToClassFile q

theorem keepsForms : instrumenter.tool.KeepsForms := fun _ _ _ _ _ h => h

theorem keepsPlain (f : CacheFile) : KeepsPlain instrumenter.tool f := fun _ _ h => h

/-- Both forms are discovered where they stand. -/
theorem discovers_crossing :
    Discovers crossing (options "/s/o" "/b") other ["s", "o", "z.form"] otherText.toUTF8 ∧
      Discovers crossing (options "/s/o" "/b") descriptor ["s", "z.form"] text.toUTF8 := by
  have hlegal : (∀ name ∈ ["o", "z.form"], Path.IsLegal name) ∧ ∀ name ∈ ["z.form"], Path.IsLegal name := by
    decide
  have hspelled : other = ["o", "z.form"].foldl Path.child ⟨"/s"⟩ ∧
      descriptor = ["z.form"].foldl Path.child ⟨"/s"⟩ := by decide
  have hsource := absolute_eq crossing (show "/s" ∈ outputs by decide)
  refine ⟨⟨⟨"/s"⟩, ["s"], ["o", "z.form"], hsource, ?_, rfl, hlegal.1, hspelled.1, rfl, 5, rfl⟩,
    ⟨⟨"/s"⟩, ["s"], ["z.form"], hsource, ?_, rfl, hlegal.2, hspelled.2, rfl, 7, rfl⟩⟩
  · rw [found_crossing]
    exact List.mem_cons_self
  · rw [found_crossing]
    exact List.mem_cons_of_mem _ List.mem_cons_self

theorem holds_crossing :
    (run crossing instrumenter environment (options "/s/o" "/b")).disk.Holds ["s", "o", "z.form"]
      text.toUTF8 := by
  have hform := discovers_crossing.1.endsWith isProper_crossing
  have hfound : crossing.Holds ["s", "o", "z.form"] otherText.toUTF8 := ⟨5, rfl⟩
  have hholds := holds_run keepsForms (isPlain_crossing _) (keepsPlain _)
    (not_replacesItself (isOffDetours_crossing _) (isInReach_crossing _)) hform hfound
  rwa [bytesAfter_crossing] at hholds

/-- In this world the form has its bytes after the run, and the other form those of the form. -/
theorem sources_kept_crossing :
    (run crossing instrumenter environment (options "/s/o" "/b")).disk.Holds ["s", "z.form"]
        text.toUTF8 ∧
      (run crossing instrumenter environment (options "/s/o" "/b")).disk.Holds ["s", "o", "z.form"]
        text.toUTF8 := by
  obtain ⟨-, hleft, -⟩ := @sources_kept crossing instrumenter environment (options "/s/o" "/b")
    isProper_crossing keepsForms (isPlain_crossing _) (keepsPlain _)
  obtain ⟨hform, -⟩ := hleft _ _ _ discovers_crossing.2 (isOffDetours_crossing _) (isInReach_crossing _)
  obtain ⟨hother, -⟩ := hleft _ _ _ discovers_crossing.1 (isOffDetours_crossing _) (isInReach_crossing _)
  rw [bytesAfter_crossing] at hother
  rw [bytesAfter_of_none] at hform
  · exact ⟨hform, hother⟩
  · -- The form's own place is that of no copy.
    intro x hx
    rw [steps_crossing, List.mem_cons, List.mem_singleton] at hx
    rcases hx with rfl | rfl
    · exact Step.put?_of_not_isAttempt isAttempt_other _
    · apply Step.put?_of_spot?
      rw [preparedDisk_crossing, spot?_crossing]
      decide

/-- A world in which a link leads to the form from where the text of the cache is first put. -/
def hijacked : Disk :=
  ⟨nodes ++ [(["k"], .directory), (["k", "gui-forms.cache.tmp"], .link "/s/z.form")], .present [], 10⟩

theorem finds_hijacked : Finds hijacked "/s" := by
  have hfacts : hijacked.isDirectory ⟨"/s"⟩ = true ∧ Form.discover hijacked ⟨"/s"⟩ = [descriptor] ∧
      Classes.fileOf? hijacked ⟨"/s"⟩ "C" = some (classFile "/s") := by decide +kernel
  have hwalk : hijacked.walk true descriptor = .ok (.node ["s", "z.form"] (.file text.toUTF8 5)) := rfl
  obtain ⟨hdirectory, hfound, hclass⟩ := hfacts
  exact ⟨by decide, rfl, hdirectory, hfound, Disk.contents_of_walk hwalk, hclass⟩

theorem isProper_hijacked : hijacked.IsProper := ⟨by decide, by decide⟩

theorem discovers_hijacked : Discovers hijacked (options "/s" "/k") descriptor ["s", "z.form"]
    text.toUTF8 := by
  have hlegal : ∀ name ∈ ["z.form"], Path.IsLegal name := by decide
  have hspelled : descriptor = ["z.form"].foldl Path.child ⟨"/s"⟩ := by decide
  refine ⟨⟨"/s"⟩, ["s"], ["z.form"], absolute_eq hijacked (by decide), ?_, rfl, hlegal, hspelled, rfl, 5, rfl⟩
  rw [found, if_pos finds_hijacked.directory, finds_hijacked.found]
  exact List.mem_cons_self

/-- The form is its own copy, but the text of the cache goes where it stands. -/
theorem holds_hijacked :
    (run hijacked instrumenter environment (options "/s" "/k")).disk.Holds ["s", "z.form"]
      (Cache.encode ⟨[.capture hijacked descriptor (classFile "/s")]⟩).toUTF8 := by
  have hsame : samePlace hijacked descriptor (target ⟨"/s"⟩ ⟨"/s"⟩ descriptor) = true := by decide
  have hcache : hijacked.isFile (options "/s" "/k").cacheFile.path = false := by decide
  have hcopy := publish_of_samePlace hsame
  obtain ⟨written, hwrite, -⟩ := finds_hijacked.run_eq hcache (by rw [hcopy])
  rw [hcopy] at hwrite
  dsimp only at hwrite
  have hfacts : hijacked.isDirectory ⟨"/k"⟩ = true ∧
      (options "/s" "/k").cacheFile.path.parent? = some ⟨"/k"⟩ := by decide
  have hlink : hijacked.walk true (options "/s" "/k").cacheFile.temporary =
      .ok (.node ["s", "z.form"] (.file text.toUTF8 5)) := rfl
  have hform := discovers_hijacked.endsWith isProper_hijacked
  have hput : ((options "/s" "/k").cacheFile.replace hijacked _).1.Holds ["s", "z.form"] _ :=
    CacheFile.holds_replace_of_link hform hlink
      (Cache.encode ⟨[.capture hijacked descriptor (classFile "/s")]⟩)
  rw [CacheFile.write_of_isDirectory fun q hq => ?_] at hwrite
  · rwa [hwrite] at hput
  · obtain rfl := Option.some.inj (hfacts.2.symm.trans hq)
    exact .inr hfacts.1

/-- A form that is published over another one that was discovered replaces it; and where a link leads there,
the text of a cache replaces a form. -/
theorem sources_replaced :
    (¬ ∀ (d : Disk) (i : Instrumenter) (env : Environment) (o : Options), d.IsProper → d.LinkFree →
      (∀ d inv, (i.tool d inv).1 = d) → KeepsSources d i env o) ∧
    ¬ ∀ (d : Disk) (i : Instrumenter) (env : Environment) (o : Options), d.IsProper → AtOnePlace d o →
      (∀ d inv, (i.tool d inv).1 = d) → KeepsSources d i env o := by
  constructor
  · intro h
    have hkept := h crossing instrumenter environment (options "/s/o" "/b") isProper_crossing
      linkFree_crossing (fun _ _ => rfl) _ _ _ discovers_crossing.1
    have hsize := congrArg ByteArray.size (hkept.unique holds_crossing)
    exact absurd hsize (by decide)
  · intro h
    have hone : AtOnePlace hijacked (options "/s" "/k") := by
      intro source output hs ho
      rw [Except.ok.inj (hs.symm.trans ho)]
    have hkept := h hijacked instrumenter environment (options "/s" "/k") isProper_hijacked hone
      (fun _ _ => rfl) _ _ _ discovers_hijacked
    -- The form would be the text of a cache.
    have hdistinct : Cache.Distinct ⟨[.capture hijacked descriptor (classFile "/s")]⟩ :=
      List.pairwise_singleton _ _
    obtain ⟨c, hdecode, -⟩ := Cache.decode_encode hdistinct
    have htext := congrArg String.fromUTF8? (hkept.unique holds_hijacked)
    rw [Text.fromUTF8?_toUTF8, Text.fromUTF8?_toUTF8] at htext
    rw [← Option.some.inj htext] at hdecode
    have hnone : Cache.decode text = none := by decide
    rw [hnone] at hdecode
    cases hdecode

end Sample

end Run
end FormWeaver
