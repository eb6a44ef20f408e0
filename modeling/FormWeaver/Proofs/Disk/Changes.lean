import FormWeaver.Cache.Store
import FormWeaver.Proofs.Disk.Growth

/-!
# What an operation changes

On a disk without links each operation changes the places that its paths spell, and no others. Making
directories, in particular, leaves everything as it was but for directories where nothing stood, and
these lie on the way to what was asked for (`KeepsAt`).
-/

namespace FormWeaver

/-! ## The way to a path -/

/-- Whether a path is another one without some of its last components. -/
inductive Path.Above : Path → Path → Prop
  | parent {p r : Path} (h : p.parent? = some r) : Above p r
  | up {p q r : Path} (h : p.parent? = some q) (hr : Above q r) : Above p r

namespace Disk

variable {d d' d'' : Disk} {way : Place → Prop} {q : Place}

/-- Whether a place is on the way to what a path spells. -/
def OnWay (d : Disk) (p : Path) (q : Place) : Prop := ∃ r, Path.Above p r ∧ d.place? r = some q

theorem above_of_mem_lineage {r : Path} (fuel : Nat) (p : Path) (h : r ∈ lineage fuel p) :
    r = p ∨ Path.Above p r := by
  induction fuel generalizing p with
  | zero => simp [lineage] at h
  | succ fuel ih =>
    unfold lineage at h
    split at h
    · simp at h
    · rw [List.mem_cons] at h
      rcases h with h | h
      · exact .inl h
      · right
        split at h
        · simp at h
        · next parent hparent =>
          rcases ih parent h with rfl | habove
          · exact .parent hparent
          · exact .up hparent habove

/-! ## Keeping all but free places -/

/-- Whether a place is as it was, but for a directory on the way where nothing stood. -/
def KeepsAt (way : Place → Prop) (d d' : Disk) (q : Place) : Prop :=
  d'.node? q = d.node? q ∨ (way q ∧ d.node? q = none ∧ d'.node? q = some .directory)

theorem KeepsAt.refl (way : Place → Prop) (d : Disk) (q : Place) : KeepsAt way d d q := .inl rfl

theorem KeepsAt.trans (h : KeepsAt way d d' q) (h' : KeepsAt way d' d'' q) : KeepsAt way d d'' q := by
  rcases h with h | ⟨hway, hnone, hmade⟩
  · rcases h' with h' | ⟨hway, hnone, hmade⟩
    · exact .inl (h'.trans h)
    · exact .inr ⟨hway, h ▸ hnone, hmade⟩
  · rcases h' with h' | ⟨-, hnone', -⟩
    · exact .inr ⟨hway, hnone, h' ▸ hmade⟩
    · rw [hmade] at hnone'
      cases hnone'

theorem KeepsAt.mono {way' : Place → Prop} (hway : way q → way' q) (h : KeepsAt way d d' q) :
    KeepsAt way' d d' q :=
  h.imp_right fun ⟨hq, hnone, hmade⟩ => ⟨hway hq, hnone, hmade⟩

/-- What is no free place is kept. -/
theorem KeepsAt.node?_eq {n : Node} (h : KeepsAt way d d' q) (hn : d.node? q = some n) :
    d'.node? q = some n := by
  rcases h with h | ⟨-, hnone, -⟩
  · rw [h, hn]
  · rw [hn] at hnone
    cases hnone

/-- A file was there before. -/
theorem KeepsAt.file {bytes : ByteArray} {time : Int} (h : KeepsAt way d d' q)
    (hn : d'.node? q = some (.file bytes time)) : d.node? q = some (.file bytes time) := by
  rcases h with h | ⟨-, -, hmade⟩
  · rw [← h, hn]
  · rw [hn] at hmade
    cases hmade

theorem LinkFree.grows (h : d.LinkFree) (hg : d.Grows d') : d'.LinkFree :=
  fun q target hq => h q target ((hg.link q target).mp hq)

/-! ## The operations -/

theorem keepsAt_makeDirectory {p : Path} (hd : d.LinkFree) (h : d.makeDirectory p = .ok d') (q : Place) :
    KeepsAt (fun q => d.place? p = some q) d d' q := by
  obtain ⟨there, name, slash, hw, hn, rfl⟩ := makeDirectory_cases h
  unfold KeepsAt
  rw [node?_insert _ _ _ _ (by simp)]
  split
  · next hq =>
    subst hq
    exact .inr ⟨place?_of_walk hd hw, hn, rfl⟩
  · exact .inl rfl

theorem keepsAt_makeLineage (ps : List Path) (hd : d.LinkFree) (q : Place) :
    KeepsAt (fun q => ∃ r ∈ ps, d.place? r = some q) d (d.makeLineage ps).1 q := by
  induction ps generalizing d with
  | nil => exact .refl _ d q
  | cons p above ih =>
    have here : ∀ {d' d'' : Disk}, d.Grows d' → d'.makeDirectory p = .ok d'' →
        KeepsAt (fun q => ∃ r ∈ p :: above, d.place? r = some q) d' d'' q := by
      intro d' d'' hg h
      refine (keepsAt_makeDirectory (hd.grows hg) h q).mono fun hq => ?_
      rw [place?_congr hg.workingDirectory] at hq
      exact ⟨p, List.mem_cons_self, hq⟩
    have hup : KeepsAt (fun q => ∃ r ∈ p :: above, d.place? r = some q) d (d.makeLineage above).1 q :=
      (ih hd).mono fun ⟨r, hr, hq⟩ => ⟨r, List.mem_cons_of_mem _ hr, hq⟩
    have hg := grows_makeLineage above d
    unfold makeLineage
    split
    · next h => exact here (.refl d) h
    · split
      · exact .refl _ d q
      split
      · next h => rwa [h] at hup
      · next h =>
        rw [h] at hup hg
        split
        · next h' => exact hup.trans (here hg h')
        · split <;> exact hup
    · split <;> exact .refl _ d q

/-- **Making the directories on the way to a path** leaves all else as it was. -/
theorem keepsAt_prepare (hd : d.LinkFree) (p : Path) (q : Place) :
    KeepsAt (d.OnWay p) d (d.prepare p) q := by
  unfold prepare
  split
  · exact .refl _ d q
  · next directory hp =>
    refine (keepsAt_makeLineage _ hd q).mono ?_
    rintro ⟨r, hr, hq⟩
    refine ⟨r, ?_, hq⟩
    rcases above_of_mem_lineage _ _ hr with rfl | habove
    · exact .parent hp
    · exact .up hp habove

theorem writeFile_place? {p : Path} {bytes : ByteArray} (hd : d.LinkFree)
    (h : d.writeFile p bytes = .ok d') :
    ∃ place, d.place? p = some place ∧ place ≠ [] ∧ d' = d.store place bytes := by
  obtain ⟨place, found, hw, hplace, hne, rfl, -⟩ := writeFile_cases h
  exact ⟨place, by rw [place?_of_walk hd hw, hplace], hne, rfl⟩

theorem node?_writeFile {p : Path} {bytes : ByteArray} (h : d.writeFile p bytes = .ok d')
    (hq : d.spot? true p ≠ some q) : d'.node? q = d.node? q := by
  obtain ⟨place, found, hw, hplace, hne, rfl, -⟩ := writeFile_cases h
  rw [node?_store _ _ _ _ hne, if_neg]
  rintro rfl
  exact hq ((spot?_of_walk hw).trans hplace)

theorem contents_place? {p : Path} {bytes : ByteArray} (hd : d.LinkFree)
    (h : d.contents p = .ok bytes) :
    ∃ place time, d.place? p = some place ∧ d.node? place = some (.file bytes time) := by
  obtain ⟨place, time, hw⟩ := walk_of_contents h
  exact ⟨place, time, place?_of_walk hd hw, node?_of_walk hw (by simp)⟩

theorem identity?_of_walk {p : Path} {n : Node} (h : d.walk true p = .ok (.node q n)) :
    d.identity? p = some q := by
  unfold identity? follow?
  rw [h]
  rfl

/-- A file that can be read is not what another place holds. -/
theorem identity?_ne_of_contents {p p' : Path} {bytes : ByteArray} (hd : d.LinkFree)
    (h : d.contents p = .ok bytes) (hne : d.place? p ≠ d.place? p') :
    d.identity? p ≠ d.identity? p' := by
  obtain ⟨place, time, hw⟩ := walk_of_contents h
  have hp := identity?_of_walk hw
  intro heq
  rw [hp] at heq
  exact hne ((place?_of_identity? hd hp).trans (place?_of_identity? hd heq.symm).symm)

theorem ne_nil_of_walk {follow : Bool} {p : Path} {place : Place} {n : Node}
    (hw : d.walk follow p = .ok (.node place n)) (hdir : n ≠ .directory) : place ≠ [] := by
  rintro rfl
  have hn := node?_of_walk hw hdir
  exact hdir (Option.some.inj hn).symm

theorem node?_removeFile {p : Path} (h : d.removeFile p = .ok d') (hq : d.spot? false p ≠ some q) :
    d'.node? q = d.node? q := by
  unfold removeFile at h
  split at h
  · cases h
  · cases h
  · next place n hdir hw =>
    obtain rfl := Except.ok.inj h
    rw [node?_erase _ _ _ (ne_nil_of_walk hw hdir), if_neg]
    rintro rfl
    exact hq (spot?_of_walk hw)
  all_goals cases h

theorem node?_rename {p p' : Path} (h : d.rename p p' = .ok d') (hq : d.spot? false p ≠ some q)
    (hq' : d.spot? false p' ≠ some q) : d'.node? q = d.node? q := by
  -- What has moved stood where the one path leads to and stands where the other does.
  have moved : ∀ {place place' : Place} {n : Node}, d.spot? false p = some place →
      d.spot? false p' = some place' → place ≠ [] → place' ≠ [] →
      ((d.erase place).insert place' n).node? q = d.node? q := by
    intro place place' n hp hp' hne hne'
    rw [node?_insert _ _ _ _ hne', node?_erase _ _ _ hne, if_neg, if_neg]
    · rintro rfl
      exact hq hp
    · rintro rfl
      exact hq' hp'
  unfold rename at h
  split at h
  · cases h
  · cases h
  · cases h
  · cases h
  · cases h
  · cases h
  · cases h
  · next place n place' n' hdir hdir' hw hw' =>
    split at h
    · rw [← Except.ok.inj h]
    · rw [← Except.ok.inj h]
      exact moved (spot?_of_walk hw) (spot?_of_walk hw') (ne_nil_of_walk hw hdir)
        (ne_nil_of_walk hw' hdir')
  · next place n there name slash hdir hw hw' =>
    split at h
    · cases h
    · rw [← Except.ok.inj h]
      exact moved (spot?_of_walk hw) (spot?_of_walk hw') (ne_nil_of_walk hw hdir) (by simp)

end Disk

/-! ## Writing a cache -/

namespace CacheFile

variable {f : CacheFile} {d : Disk} {q : Place}

theorem node?_replace (hd : d.LinkFree) (text : String) (hq : d.place? f.path ≠ some q)
    (hq' : d.place? f.temporary ≠ some q) : (f.replace d text).1.node? q = d.node? q := by
  unfold replace
  split
  · rfl
  · next d' hwrite =>
    have hg := Disk.grows_writeFile hwrite
    have hwritten := Disk.node?_writeFile hwrite (Disk.spot?_ne hd hq')
    rw [← Disk.place?_congr hg.workingDirectory] at hq hq'
    have hpath : d'.spot? false f.path ≠ some q := Disk.spot?_ne (hd.grows hg) hq
    have htemporary : d'.spot? false f.temporary ≠ some q := Disk.spot?_ne (hd.grows hg) hq'
    split
    · next h => rw [Disk.node?_rename h htemporary hpath, hwritten]
    · split
      · next h => rw [Disk.node?_removeFile h htemporary, hwritten]
      · exact hwritten

theorem write_cases (f : CacheFile) (d : Disk) (c : Cache) :
    f.write d c = (d.prepare f.path, false) ∨
      f.write d c = f.replace (d.prepare f.path) (Cache.encode c) := by
  unfold write Disk.prepare
  cases f.path.parent? with
  | none => exact .inr rfl
  | some directory =>
    simp only
    split
    · next h => exact .inl (by rw [h])
    · next h => exact .inr (by rw [h])

/-- **Writing a cache** changes the file, its temporary sibling and free places on the way. -/
theorem keepsAt_write (hd : d.LinkFree) (c : Cache) (hq : d.place? f.path ≠ some q)
    (hq' : d.place? f.temporary ≠ some q) :
    Disk.KeepsAt (d.OnWay f.path) d (f.write d c).1 q := by
  have hmade := Disk.keepsAt_prepare hd f.path q
  have hg := d.grows_prepare f.path
  rcases f.write_cases d c with h | h
  · rw [h]
    exact hmade
  · rw [h]
    rw [← Disk.place?_congr hg.workingDirectory] at hq hq'
    exact hmade.trans (.inl (node?_replace (hd.grows hg) _ hq hq'))

end CacheFile
end FormWeaver
