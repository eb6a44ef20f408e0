import FormWeaver.Proofs.Disk.Changes

/-!
# Paths that ask for a directory

A path whose last piece is no name, because it ends in a slash or in dots, asks for a directory: it never
leads to a file or to a link, and it makes no difference whether its last link is followed
(`walk_of_unnamed`). Directories that are there are not made again
(`prepare_of_isDirectory`), and making the others leaves all else as it was, whatever links there are
(`keepsAt_prepare_of_links`).
-/

namespace FormWeaver.Disk

variable {d d' : Disk} {follow : Bool} {p : Path}

/-! ## Paths without a last name -/

/-- Whether the last of some pieces is no name. -/
def IsUnnamed (ps : List String) : Prop := ∀ name, ps.getLast? = some name → ¬ IsStep name

/-- Whether a walk ended at a directory, or where one could be made. -/
def Found.AsksDirectory : Found → Prop
  | .node _ n => n = .directory
  | .gap _ _ slash => slash = true
  | .removed => True

theorem IsUnnamed.of_cons {piece : String} {rest : List String} (h : IsUnnamed (piece :: rest)) :
    IsUnnamed rest := by
  intro name hname
  apply h name
  rw [List.getLast?_cons, hname]
  rfl

theorem IsUnnamed.append {ps rest : List String} (h : IsUnnamed rest) (hne : rest ≠ []) :
    IsUnnamed (ps ++ rest) := by
  intro name hname
  rw [List.getLast?_append_of_ne_nil _ hne] at hname
  exact h name hname

theorem walkFrom_of_unnamed (links : Nat) (here : Place) (ps : List String) (hps : IsUnnamed ps) :
    walkFrom d follow links here ps = walkFrom d false links here ps ∧
      ∀ found, walkFrom d follow links here ps = .ok found → found.AsksDirectory := by
  induction links, here, ps using pieces_induction with
  | nil links here =>
    simp only [walkFrom_nil]
    exact ⟨trivial, by rintro _ ⟨⟩; rfl⟩
  | stay links here piece rest hs ih =>
    simp only [walkFrom_stay hs]
    exact ih hps.of_cons
  | up links here rest ih =>
    simp only [walkFrom_up]
    exact ih hps.of_cons
  | step links here piece rest hstep ih outer =>
    -- A name is not the last piece.
    have hne : rest ≠ [] := by
      rintro rfl
      exact hps piece rfl hstep
    have hempty : rest.isEmpty = false := by simpa using hne
    simp only [walkFrom_step hstep, hempty, Bool.false_and, Bool.not_false, Bool.false_eq_true, if_false]
    split
    · exact ⟨rfl, nofun⟩
    split
    · split
      · exact ⟨rfl, by rintro _ ⟨⟩; rfl⟩
      · exact ⟨rfl, nofun⟩
    · exact ih hps.of_cons
    · exact ⟨rfl, nofun⟩
    · next target _ =>
      split
      · exact ⟨rfl, nofun⟩
      cases links with
      | zero => exact ⟨rfl, nofun⟩
      | succ left => exact outer left target (Nat.lt_succ_self _) (hps.of_cons.append hne)

theorem walkRemoved_of_unnamed {parent : Place} {ps : List String} (h : IsUnnamed ps) :
    walkRemoved d follow parent ps = walkRemoved d false parent ps ∧
      ∀ found, walkRemoved d follow parent ps = .ok found → found.AsksDirectory := by
  induction ps with
  | nil => exact ⟨rfl, by rintro _ ⟨⟩; trivial⟩
  | cons piece rest ih =>
    simp only [walkRemoved]
    split
    · exact ih h.of_cons
    split
    · exact walkFrom_of_unnamed _ _ _ h.of_cons
    · exact ⟨rfl, fun found hw => by cases hw⟩

theorem walk_of_unnamed (h : ∀ name, ¬ EndsIn p name) (d : Disk) (follow : Bool) :
    d.walk follow p = d.walk false p ∧ ∀ found, d.walk follow p = .ok found → found.AsksDirectory := by
  have hps : IsUnnamed (piecesOf p.text) := by
    intro name hname hstep
    obtain ⟨before, hbefore⟩ := List.getLast?_eq_some_iff.mp hname
    exact h name ⟨hstep, before, hbefore⟩
  unfold walk
  split
  · exact ⟨rfl, nofun⟩
  split
  · exact ⟨rfl, nofun⟩
  split
  · exact ⟨rfl, nofun⟩
  split
  · exact walkFrom_of_unnamed _ _ _ hps
  split
  · exact walkFrom_of_unnamed _ _ _ hps
  · exact walkRemoved_of_unnamed hps

/-- A path without a last name leads to no file. -/
theorem isFile_of_unnamed (h : ∀ name, ¬ EndsIn p name) (d : Disk) : d.isFile p = false := by
  unfold isFile follow?
  cases hw : d.walk true p with
  | error e => rfl
  | ok found =>
    have hasks := (walk_of_unnamed h d true).2 found hw
    cases found with
    | node place n =>
      obtain rfl : n = .directory := hasks
      rfl
    | gap => rfl
    | removed => rfl

/-- Nothing can be given a name that is none. -/
theorem rename_of_unnamed (h : ∀ name, ¬ EndsIn p name) (d : Disk) (source : Path) :
    ∃ e, d.rename source p = .error e := by
  have hasks := (walk_of_unnamed h d false).2
  unfold rename
  split
  all_goals try exact ⟨_, rfl⟩
  · next hdir _ hw => exact absurd (hasks _ hw) hdir
  · next slash _ _ hw =>
    have hslash : slash = true := hasks _ hw
    exact ⟨.notADirectory, if_pos hslash⟩

/-! ## Making directories -/

theorem exists_of_isDirectory (h : d.isDirectory p = true) :
    ∃ found, d.walk true p = .ok found ∧ (found = .removed ∨ ∃ q, found = .node q .directory) := by
  unfold isDirectory at h
  split at h
  · next q hw => exact ⟨_, hw, .inr ⟨q, rfl⟩⟩
  · next hw => exact ⟨_, hw, .inl rfl⟩
  · cases h

/-- An absolute path to a directory is spelled so that it can be looked up, and its pieces lead there. -/
theorem walk_of_isDirectory (habs : p.isAbsolute = true) (h : d.isDirectory p = true) :
    '\x00' ∉ p.text.toList ∧ p.text.isEmpty = false ∧ p.text.utf8ByteSize < maxPath ∧
      ∃ there left, Descent d maxLinks [] p.pieces there left := by
  obtain ⟨found, hw, hfound⟩ := exists_of_isDirectory h
  unfold walk at hw
  split at hw
  · cases hw
  next hnul =>
  split at hw
  · cases hw
  next hempty =>
  split at hw
  · cases hw
  next hlong =>
  obtain ⟨there, left, -, hdescent⟩ := descent_of_directory hfound _ _ _ hw
  exact ⟨by simpa using hnul, by simpa using hempty, Nat.lt_of_not_le hlong, there, left, hdescent⟩

/-- An absolute path to a directory leads there also with a slash behind it, unless this makes the path
too long. -/
theorem isDirectory_child_empty (habs : p.isAbsolute = true) (hslash : p.hasTrailingSlash = false)
    (h : d.isDirectory p = true) :
    d.isDirectory (p.child "") = decide (p.text.utf8ByteSize + 1 < maxPath) := by
  obtain ⟨hnul, hempty, -, there, left, hdescent⟩ := walk_of_isDirectory habs h
  have htext := Path.child_empty_text hempty hslash
  have hpieces : piecesOf (p.child "").text = p.pieces ++ [""] := Path.pieces_child_empty hempty hslash
  have hsize : (p.child "").text.utf8ByteSize = p.text.utf8ByteSize + 1 := by
    rw [htext, String.utf8ByteSize_append]
    rfl
  have hnul' : (p.child "").text.toList.contains '\x00' = false := by
    rw [htext]
    simpa using hnul
  have hempty' : (p.child "").text.isEmpty = false := by
    rw [htext]
    simp
  have habs' : (p.child "").isAbsolute = true := by rw [Path.isAbsolute_child (by decide), habs]
  have hwalk : walkFrom d true maxLinks [] (p.pieces ++ [""]) = .ok (.node there .directory) := by
    rw [hdescent.walkFrom_append (List.cons_ne_nil _ _), walkFrom_stay (.inl rfl), walkFrom_nil]
  unfold isDirectory walk
  rw [hnul', hempty', hsize, habs', hpieces, hwalk]
  by_cases hlong : maxPath ≤ p.text.utf8ByteSize + 1
  · simp [hlong]
  · simp [hlong, Nat.lt_of_not_le hlong]

/-- No file is written where a directory stands. -/
theorem writeFile_of_isDirectory (h : d.isDirectory p = true) (bytes : ByteArray) :
    d.writeFile p bytes = .error .isADirectory := by
  obtain ⟨found, hw, hfound⟩ := exists_of_isDirectory h
  unfold writeFile
  rw [hw]
  rcases hfound with rfl | ⟨q, rfl⟩ <;> rfl

/-- A directory that is there is not made again. -/
theorem makeDirectory_of_isDirectory (h : d.isDirectory p = true) :
    d.makeDirectory p = .error .alreadyExists := by
  obtain ⟨found, hw, hfound⟩ := exists_of_isDirectory h
  unfold makeDirectory
  by_cases hname : ∃ name, EndsIn p name
  · -- The last name is that of the directory, or of a link that leads to it.
    obtain ⟨name, hname⟩ := hname
    obtain ⟨there, hleads, hsize, hend⟩ := walk_cases hname hw
    rcases hend with ⟨-, hgap⟩ | ⟨n, hn, -⟩
    · rcases hfound with rfl | ⟨q, rfl⟩ <;> cases hgap
    · rw [hleads.walk_node false hname.1 hsize hn (.inl rfl)]
  · rw [← (walk_of_unnamed (not_exists.mp hname) d true).1, hw]
    rcases hfound with rfl | ⟨q, rfl⟩ <;> rfl

theorem makeDirectories_of_isDirectory (h : p.text.isEmpty = true ∨ d.isDirectory p = true) :
    d.makeDirectories p = (d, .ok ()) := by
  unfold makeDirectories lineage
  split
  · rfl
  · next hempty =>
    have hdir := h.resolve_left hempty
    unfold makeLineage
    rw [makeDirectory_of_isDirectory hdir]
    simp only [hdir, if_true]

/-- Nothing is made where the directory of a path is there. -/
theorem prepare_of_isDirectory
    (h : ∀ q, p.parent? = some q → q.text.isEmpty = true ∨ d.isDirectory q = true) :
    d.prepare p = d := by
  unfold prepare
  split
  · rfl
  · next q hq => rw [makeDirectories_of_isDirectory (h q hq)]

theorem keepsAt_makeDirectory_of_links (h : d.makeDirectory p = .ok d') (q : Place) :
    KeepsAt (fun _ => True) d d' q := by
  obtain ⟨there, name, slash, -, hn, rfl⟩ := makeDirectory_cases h
  unfold KeepsAt
  rw [node?_insert _ _ _ _ (by simp)]
  split
  · next hq => exact .inr ⟨trivial, hq ▸ hn, rfl⟩
  · exact .inl rfl

/-- Making directories on the way to a path changes nothing that was there, also where links lead to
other places. -/
theorem keepsAt_prepare_of_links (d : Disk) (p : Path) (q : Place) :
    KeepsAt (fun _ => True) d (d.prepare p) q := by
  have hmade : ∀ ps, KeepsAt (fun _ => True) d (d.makeLineage ps).1 q := fun ps =>
    makeLineage_induction (R := fun d d' => KeepsAt (fun _ => True) d d' q) (fun d => .refl _ d q)
      (fun h h' => h.trans h') (fun h => keepsAt_makeDirectory_of_links h q) ps d
  unfold prepare
  split
  · exact .refl _ d q
  · exact hmade _

end FormWeaver.Disk
