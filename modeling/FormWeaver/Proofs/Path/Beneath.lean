import FormWeaver.Proofs.Path.Absolute

/-!
# Beneath a path

A path lies beneath another when names lead from that one to it. A relative path without `.` and `..`,
set behind any path, leads beneath it; an absolute one leads anywhere. A path is inside another when it
goes on from there at all, be it upwards; nothing absolute is inside a relative path.
-/

namespace FormWeaver.Path

variable {p q base : Path}

/-- Whether one or more names lead from the base to the path. -/
def LiesBeneath (p base : Path) : Prop :=
  ∃ names : List String, names ≠ [] ∧ p.components = base.components ++ names.map .name

theorem LiesBeneath.isBeneath (h : p.LiesBeneath base) : p.isBeneath base = true := by
  obtain ⟨names, -, hcomponents⟩ := h
  unfold Path.isBeneath
  rw [hcomponents, List.isPrefixOf_iff_prefix]
  exact List.prefix_append _ _

/-- A path leads upwards somewhere when its text has two dots between slashes. -/
theorem up_mem_pieces_iff {text : String} :
    ".." ∈ (mk text).pieces ↔ (text.toList.splitOn '/').contains ['.', '.'] = true := by
  rw [List.contains_iff_mem, pieces, List.mem_map]
  constructor
  · rintro ⟨piece, hmem, hpiece⟩
    rwa [← String.toList_ofList (l := piece), hpiece] at hmem
  · intro hmem
    exact ⟨_, hmem, rfl⟩

/-- Of pieces that do not lead upwards those stand for their names that are neither empty nor a `.`. -/
theorem filterMap_ofPiece? {ps : List String} (h : ".." ∉ ps) :
    ps.filterMap Component.ofPiece? = (ps.filter fun piece => piece ≠ "" ∧ piece ≠ ".").map .name := by
  induction ps with
  | nil => rfl
  | cons piece ps ih =>
    obtain ⟨hup, hrest⟩ := not_or.mp (mt List.mem_cons.mpr h)
    by_cases hidle : piece = "" ∨ piece = "."
    · have hnone : Component.ofPiece? piece = none := by
        rcases hidle with rfl | rfl <;> rfl
      rw [List.filterMap_cons_none hnone, ih hrest, List.filter_cons_of_neg]
      simpa [or_iff_not_imp_left] using hidle
    · have hname : Component.ofPiece? piece = some (.name piece) := by
        rw [Component.ofPiece?, if_neg fun h => hidle (.inl h), if_neg fun h => hidle (.inr h),
          if_neg fun h => hup h.symm]
      rw [List.filterMap_cons_some hname, ih hrest, List.filter_cons_of_pos (by simpa using hidle),
        List.map_cons]

/-- **What is set behind a path lies beneath it** when it is relative, no piece of it leads upwards and one is
a name. Only behind the empty path a `.` at its beginning would count. -/
theorem liesBeneath_join_iff (hrel : q.isAbsolute = false)
    (hstart : p.text = "" → q.pieces.head? ≠ some ".") :
    (p.join q).LiesBeneath p ↔ ".." ∉ q.pieces ∧ ∃ piece ∈ q.pieces, piece ≠ "" ∧ piece ≠ "." := by
  unfold LiesBeneath
  rw [components_join hrel hstart]
  constructor
  · rintro ⟨names, hne, hnames⟩
    rw [List.append_cancel_left_eq] at hnames
    have hup : ".." ∉ q.pieces := by
      intro hmem
      have hparent : Component.parent ∈ q.pieces.filterMap Component.ofPiece? :=
        List.mem_filterMap.mpr ⟨"..", hmem, by decide⟩
      rw [hnames] at hparent
      simp at hparent
    rw [filterMap_ofPiece? hup] at hnames
    obtain ⟨name, rest, rfl⟩ := List.exists_cons_of_ne_nil hne
    obtain ⟨piece, hpiece, -⟩ := List.mem_map.mp (hnames ▸ List.mem_map_of_mem List.mem_cons_self)
    exact ⟨hup, piece, by simpa using List.mem_filter.mp hpiece⟩
  · rintro ⟨hup, piece, hpiece, hname⟩
    refine ⟨q.pieces.filter fun piece => piece ≠ "" ∧ piece ≠ ".", ?_, ?_⟩
    · exact List.ne_nil_of_mem (List.mem_filter.mpr ⟨hpiece, by simpa using hname⟩)
    · rw [filterMap_ofPiece? hup]

/-! ## Inside a path -/

/-- Whether one or more components, whichever they are, lead from the base to the path. -/
def IsInside (p base : Path) : Prop := ∃ steps, steps ≠ [] ∧ p.components = base.components ++ steps

theorem isInside_iff : p.IsInside base ↔ p.same base = false ∧ p.isBeneath base = true := by
  unfold IsInside same isBeneath
  rw [beq_eq_false_iff_ne, List.isPrefixOf_iff_prefix]
  constructor
  · rintro ⟨steps, hne, hsteps⟩
    exact ⟨fun he => hne (List.append_right_eq_self.mp (hsteps.symm.trans he)), steps, hsteps.symm⟩
  · rintro ⟨hne, steps, hsteps⟩
    refine ⟨steps, ?_, hsteps.symm⟩
    rintro rfl
    exact hne ((List.append_nil _).symm.trans hsteps).symm

theorem IsInside.congr (h : base.components = q.components) : p.IsInside base ↔ p.IsInside q := by
  unfold IsInside
  rw [h]

/-- An absolute path begins with the root, and no other does. -/
theorem head?_components_iff : p.components.head? = some .root ↔ p.isAbsolute = true := by
  obtain ⟨cs, hinner, ⟨habs, hcs⟩ | ⟨hrel, hcs | hcs⟩⟩ := components_cases p
  · simp [habs, hcs]
  · simp [hrel, hcs]
  · rw [hrel, hcs]
    refine iff_of_false (fun hhead => ?_) Bool.false_ne_true
    exact (hinner _ (List.mem_of_head? hhead)).1 (by decide)

theorem Component.ofFirstPiece?_eq_none_iff {piece : String} : ofFirstPiece? piece = none ↔ piece = "" := by
  unfold ofFirstPiece? ofPiece?
  grind

/-- A path that is spelled at all has a component. -/
theorem components_ne_nil (h : p.text ≠ "") : p.components ≠ [] := by
  intro hnil
  obtain ⟨c, cs, htext⟩ := List.exists_cons_of_ne_nil (mt String.toList_eq_nil_iff.mp h)
  have hrel : p.isAbsolute = false := by
    rw [Bool.eq_false_iff, Ne, ← head?_components_iff, hnil]
    simp
  have hc : c ≠ '/' := by
    rintro rfl
    simp [isAbsolute, htext] at hrel
  obtain ⟨first, rest, hsplit⟩ := List.exists_cons_of_ne_nil (List.splitOn_ne_nil '/' cs)
  have hpieces : p.pieces = String.ofList (c :: first) :: rest.map String.ofList := by
    rw [pieces, htext, List.splitOn_cons_eq_if_modifyHead, if_neg (by simpa using hc), hsplit]
    rfl
  have hfirst : Component.ofFirstPiece? (String.ofList (c :: first)) = none := by
    unfold components at hnil
    simp only [hpieces, hrel, Bool.false_eq_true, if_false, List.append_eq_nil_iff,
      Option.toList_eq_nil_iff] at hnil
    exact hnil.1
  simpa using Component.ofFirstPiece?_eq_none_iff.mp hfirst

/-- Nothing absolute is inside a relative path, unless that is empty. -/
theorem not_isInside_of_relative (hbase : base.isAbsolute = false) (hne : base.text ≠ "")
    (hp : p.isAbsolute = true) : ¬ p.IsInside base := by
  rintro ⟨steps, -, hsteps⟩
  have hhead := head?_components_iff.mpr hp
  rw [hsteps, List.head?_append_of_ne_nil _ (components_ne_nil hne), head?_components_iff, hbase] at hhead
  cases hhead

/-- The absolute form of an absolute path has the same components. -/
theorem components_anchoredAt (habs : p.isAbsolute = true) (base : Path) :
    (anchoredAt base p).components = p.components := by
  have hclosed : ∀ q : Path, (q.closedAs p).components = q.components := by
    intro q
    unfold closedAs
    split
    · exact components_child_empty q
    · rfl
  have hstart : p.start.components = [.root] := by
    unfold start
    split <;> decide
  obtain ⟨cs, hinner, ⟨-, hcs⟩ | ⟨hrel, -⟩⟩ := components_cases p
  · rw [anchoredAt_of_isAbsolute habs hcs, hclosed, components_along hinner, hstart, hcs]
    rfl
  · rw [habs] at hrel
    cases hrel

end FormWeaver.Path
