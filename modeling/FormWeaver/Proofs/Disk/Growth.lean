import FormWeaver.Proofs.Disk.Places

/-!
# Disks that grow

What a run itself does to a disk, apart from replacing its cache, is to make directories and to write
files where nothing or a file stands: the disk *grows* (`Disk.Grows`). A path leads to the same place
on the grown disk (`Leads.grows`).
-/

namespace FormWeaver.Disk

/-! ## Growth -/

/-- Whether a disk has all of another, but for what the files hold, and no further links. -/
structure Grows (d d' : Disk) : Prop where
  workingDirectory : d'.workingDirectory = d.workingDirectory
  directory : ∀ q, d.node? q = some .directory → d'.node? q = some .directory
  file : ∀ q bytes time, d.node? q = some (.file bytes time) →
    ∃ bytes' time', d'.node? q = some (.file bytes' time')
  link : ∀ q target, d'.node? q = some (.link target) ↔ d.node? q = some (.link target)

variable {d d' d'' : Disk}

theorem Grows.refl (d : Disk) : d.Grows d :=
  ⟨rfl, fun _ h => h, fun _ b t h => ⟨b, t, h⟩, fun _ _ => Iff.rfl⟩

theorem Grows.trans (h : d.Grows d') (h' : d'.Grows d'') : d.Grows d'' where
  workingDirectory := h'.workingDirectory.trans h.workingDirectory
  directory q hq := h'.directory q (h.directory q hq)
  file q b t hq := by
    obtain ⟨b', t', hq'⟩ := h.file q b t hq
    exact h'.file q b' t' hq'
  link q t := (h'.link q t).trans (h.link q t)

theorem Leads.grows {p : Path} {there : Place} {name : String} (h : d.Leads p there name)
    (hg : d.Grows d') : d'.Leads p there name :=
  h.mono hg.workingDirectory hg.directory fun q t => (hg.link q t).mpr

/-- What is put where nothing or a file stands makes the disk grow, unless it is a link. -/
theorem grows_insert {p : Place} {n : Node} (hp : p ≠ [])
    (hn : n = .directory ∧ d.node? p = none ∨
      (∃ bytes time, n = .file bytes time) ∧
        (d.node? p = none ∨ ∃ bytes time, d.node? p = some (.file bytes time))) :
    d.Grows (d.insert p n) := by
  have hold : d.node? p = none ∨ ∃ bytes time, d.node? p = some (.file bytes time) := by
    rcases hn with ⟨-, h⟩ | ⟨-, h⟩
    · exact .inl h
    · exact h
  refine ⟨rfl, ?_, ?_, ?_⟩
  · intro q hq
    rw [node?_insert _ _ _ _ hp]
    split
    · next e =>
      subst e
      rcases hold with h | ⟨b, t, h⟩ <;> rw [h] at hq <;> simp at hq
    · exact hq
  · intro q b t hq
    rw [node?_insert _ _ _ _ hp]
    split
    · next e =>
      subst e
      rcases hn with ⟨-, h⟩ | ⟨⟨b', t', rfl⟩, -⟩
      · rw [h] at hq
        simp at hq
      · exact ⟨b', t', rfl⟩
    · exact ⟨b, t, hq⟩
  · intro q t
    rw [node?_insert _ _ _ _ hp]
    split
    · next e =>
      subst e
      constructor
      · intro h
        rcases hn with ⟨rfl, -⟩ | ⟨⟨b', t', rfl⟩, -⟩ <;> simp at h
      · intro h
        rcases hold with h' | ⟨b, t, h'⟩ <;> rw [h'] at h <;> simp at h
    · rfl

theorem node?_store (d : Disk) (p q : Place) (bytes : ByteArray) (hp : p ≠ []) :
    (d.store p bytes).node? q = if q = p then some (.file bytes d.clock) else d.node? q :=
  node?_insert d p q _ hp

theorem grows_store {p : Place} {bytes : ByteArray} (hp : p ≠ [])
    (hn : d.node? p = none ∨ ∃ bytes time, d.node? p = some (.file bytes time)) :
    d.Grows (d.store p bytes) := by
  have h := grows_insert (n := .file bytes d.clock) hp (.inr ⟨⟨_, _, rfl⟩, hn⟩)
  exact ⟨h.workingDirectory, h.directory, h.file, h.link⟩

/-! ## The operations -/

theorem node?_of_walkFrom_gap {follow : Bool} {there : Place} {name : String} {slash : Bool}
    (links : Nat) (here : Place) (ps : List String)
    (h : walkFrom d follow links here ps = .ok (.gap there name slash)) :
    d.node? (there ++ [name]) = none := by
  induction links, here, ps using pieces_induction with
  | nil links here =>
    rw [walkFrom_nil] at h
    cases h
  | stay links here piece rest hs ih =>
    rw [walkFrom_stay hs] at h
    exact ih h
  | up links here rest ih =>
    rw [walkFrom_up] at h
    exact ih h
  | step links here piece rest hstep ih outer =>
    cases (atName_of_walkFrom hstep h).2 with
    | gap hn _ hgap =>
      cases hgap
      exact hn
    | enter _ hw => exact ih hw
    | file _ _ _ _ hfile => cases hfile
    | stop _ _ _ _ hlink => cases hlink
    | link left target _ _ hlinks hw => exact outer left target (by omega) hw

theorem node?_of_walk_gap {follow : Bool} {p : Path} {there : Place} {name : String} {slash : Bool}
    (h : d.walk follow p = .ok (.gap there name slash)) : d.node? (there ++ [name]) = none := by
  rcases exists_walkFrom_of_walk h with hremoved | ⟨here, ps, hw⟩
  · cases hremoved
  · exact node?_of_walkFrom_gap _ _ _ hw

theorem ne_nil_of_file {p : Place} {bytes : ByteArray} {time : Int}
    (h : d.node? p = some (.file bytes time)) : p ≠ [] := by
  rintro rfl
  simp [node?] at h

/-- What is written stands where the path led to: at a file or at a free name. -/
theorem writeFile_cases {p : Path} {bytes : ByteArray} (h : d.writeFile p bytes = .ok d') :
    ∃ place found, d.walk true p = .ok found ∧ found.place? = some place ∧ place ≠ [] ∧
      d' = d.store place bytes ∧
      (d.node? place = none ∨ ∃ bytes time, d.node? place = some (.file bytes time)) := by
  unfold writeFile at h
  split at h
  · simp at h
  · next place b t hw =>
    have hn := node?_of_walk hw (by simp)
    exact ⟨place, _, hw, rfl, ne_nil_of_file hn, (Except.ok.inj h).symm, .inr ⟨b, t, hn⟩⟩
  · simp at h
  · simp at h
  · simp at h
  · next there name slash hw =>
    split at h
    · simp at h
    · exact ⟨there ++ [name], _, hw, rfl, by simp, (Except.ok.inj h).symm, .inl (node?_of_walk_gap hw)⟩

theorem grows_writeFile {p : Path} {bytes : ByteArray} (h : d.writeFile p bytes = .ok d') :
    d.Grows d' := by
  obtain ⟨place, found, -, -, hp, rfl, hn⟩ := writeFile_cases h
  exact grows_store hp hn

/-- What is read stands at the file that the path leads to. -/
theorem walk_of_contents {p : Path} {bytes : ByteArray} (h : d.contents p = .ok bytes) :
    ∃ place time, d.walk true p = .ok (.node place (.file bytes time)) := by
  unfold contents at h
  split at h
  · cases h
  · next place b t hw =>
    obtain rfl := Except.ok.inj h
    exact ⟨place, t, hw⟩
  all_goals cases h

/-- A copy holds the bytes of its source, or none if it is the source itself. -/
theorem copyFile_cases {source target : Path} (h : d.copyFile source target = .ok d') :
    ∃ bytes, d.contents source = .ok bytes ∧ d.writeFile target
      (if d.identity? source = d.identity? target then .empty else bytes) = .ok d' := by
  unfold copyFile at h
  split at h
  · simp at h
  · simp at h
  · next bytes hb => exact ⟨bytes, hb, h⟩

/-- A directory is made where the path led to, at a free name. -/
theorem makeDirectory_cases {p : Path} (h : d.makeDirectory p = .ok d') :
    ∃ there name slash, d.walk false p = .ok (.gap there name slash) ∧
      d.node? (there ++ [name]) = none ∧ d' = d.insert (there ++ [name]) .directory := by
  unfold makeDirectory at h
  split at h
  · simp at h
  · simp at h
  · simp at h
  · next there name slash hw =>
    exact ⟨there, name, slash, hw, node?_of_walk_gap hw, (Except.ok.inj h).symm⟩

theorem grows_makeDirectory {p : Path} (h : d.makeDirectory p = .ok d') : d.Grows d' := by
  obtain ⟨there, name, slash, -, hn, rfl⟩ := makeDirectory_cases h
  exact grows_insert (by simp) (.inl ⟨rfl, hn⟩)

/-- What holds of every single directory that is made holds of all that are made for a lineage. -/
theorem makeLineage_induction {R : Disk → Disk → Prop} (hrefl : ∀ d, R d d)
    (htrans : ∀ {d d' d''}, R d d' → R d' d'' → R d d'')
    (hmake : ∀ {d d'} {p : Path}, d.makeDirectory p = .ok d' → R d d') (ps : List Path) (d : Disk) :
    R d (d.makeLineage ps).1 := by
  induction ps generalizing d with
  | nil => exact hrefl d
  | cons p above ih =>
    have hup := ih d
    unfold makeLineage
    split
    · next h => exact hmake h
    · split
      · exact hrefl d
      split
      · next h => rwa [h] at hup
      · next h =>
        rw [h] at hup
        split
        · next h' => exact htrans hup (hmake h')
        · split <;> exact hup
    · split <;> exact hrefl d

theorem grows_makeLineage (ps : List Path) (d : Disk) : d.Grows (d.makeLineage ps).1 :=
  makeLineage_induction .refl .trans grows_makeDirectory ps d

/-- Making directories makes the disk grow, also when it gets stuck. -/
theorem grows_makeDirectories (d : Disk) (p : Path) : d.Grows (d.makeDirectories p).1 :=
  grows_makeLineage _ d

/-- The disk with the directories on the way to a path, as far as they can be made. -/
@[irreducible]
def prepare (d : Disk) (p : Path) : Disk :=
  match p.parent? with
  | none => d
  | some directory => (d.makeDirectories directory).1

theorem grows_prepare (d : Disk) (p : Path) : d.Grows (d.prepare p) := by
  unfold prepare
  split
  · exact .refl d
  · exact grows_makeDirectories d _

end FormWeaver.Disk
