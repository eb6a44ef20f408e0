import FormWeaver.Proofs.Path.Absolute
import FormWeaver.Proofs.Text.Cut

/-!
# The characters of a path

Besides its slashes a path has the characters of its pieces. Making it absolute takes its components apart
and spells them again, one behind the other. This may cost it slashes and dots, and a relative path gets
the characters of the working directory; every other character is in the absolute path exactly when it was
there before (`mem_anchoredAt_iff`).
-/

namespace FormWeaver.Path

variable {p base : Path} {c : Char} {cs : List Component}

/-! ## Pieces and components -/

theorem text_eq_joinWith (p : Path) : p.text = Text.joinWith "/" p.pieces := by
  have hslash : "/".toList = ['/'] := rfl
  have hpieces : p.pieces.map String.toList = p.text.toList.splitOn '/' := by simp [pieces]
  rw [← String.toList_inj, Text.joinWith, String.toList_intercalate, hslash, hpieces,
    List.intercalate_splitOn]

theorem mem_text_iff (hslash : c ≠ '/') : c ∈ p.text.toList ↔ ∃ piece ∈ p.pieces, c ∈ piece.toList := by
  rw [text_eq_joinWith]
  exact Text.mem_joinWith_iff (by simpa using hslash)

/-- The pieces that stand for no component, or for a step, have dots only. -/
theorem mem_ofPiece?_iff (hdot : c ≠ '.') {piece : String} :
    (∃ x, Component.ofPiece? piece = some x ∧ c ∈ x.text.toList) ↔ c ∈ piece.toList := by
  constructor
  · rintro ⟨x, hx, hc⟩
    rwa [Component.text_of_ofPiece? hx] at hc
  · intro hc
    refine ⟨.name piece, ?_, hc⟩
    have hother : ∀ dots : String, (∀ x ∈ dots.toList, x = '.') → piece ≠ dots := by
      rintro dots hdots rfl
      exact hdot (hdots c hc)
    rw [Component.ofPiece?, if_neg (hother "" (by simp)), if_neg (hother "." (by simp)),
      if_neg (hother ".." (by simp))]

theorem mem_ofFirstPiece?_iff (hdot : c ≠ '.') {piece : String} :
    (∃ x, Component.ofFirstPiece? piece = some x ∧ c ∈ x.text.toList) ↔ c ∈ piece.toList := by
  unfold Component.ofFirstPiece?
  split
  · next hpiece =>
    subst hpiece
    have hcurrent : Component.current.text.toList = ".".toList := rfl
    simp [hcurrent, hdot]
  · exact mem_ofPiece?_iff hdot

theorem mem_components_iff (hslash : c ≠ '/') (hdot : c ≠ '.') :
    (∃ x ∈ p.components, c ∈ x.text.toList) ↔ c ∈ p.text.toList := by
  obtain ⟨first, rest, hp⟩ := List.exists_cons_of_ne_nil (pieces_ne_nil p)
  have hrest : (∃ x ∈ rest.filterMap Component.ofPiece?, c ∈ x.text.toList) ↔
      ∃ piece ∈ rest, c ∈ piece.toList := by
    simp only [List.mem_filterMap]
    constructor
    · rintro ⟨x, ⟨piece, hpiece, hx⟩, hc⟩
      exact ⟨piece, hpiece, (mem_ofPiece?_iff hdot).mp ⟨x, hx, hc⟩⟩
    · rintro ⟨piece, hpiece, hc⟩
      obtain ⟨x, hx, hc⟩ := (mem_ofPiece?_iff hdot).mpr hc
      exact ⟨x, ⟨piece, hpiece, hx⟩, hc⟩
  rw [mem_text_iff hslash, hp, List.exists_mem_cons_iff, ← hrest]
  cases habs : p.isAbsolute with
  | true =>
    -- An absolute path has nothing before its first slash.
    have hfirst : first = "" := by
      unfold isAbsolute at habs
      obtain ⟨cs, hcs⟩ := List.head?_eq_some_iff.mp (eq_of_beq habs)
      rw [pieces, hcs, List.splitOn_cons_eq_if_modifyHead, if_pos (beq_self_eq_true '/')] at hp
      exact (List.cons.inj hp).1.symm
    have hroot : c ∉ Component.root.text.toList := by simpa [Component.text] using hslash
    rw [components, hp]
    simp only [habs, if_true, List.exists_mem_cons_iff, hroot, false_or]
    simp [hfirst]
  | false =>
    rw [components, hp, ← mem_ofFirstPiece?_iff hdot]
    simp only [habs, Bool.false_eq_true, if_false, List.mem_append, Option.mem_toList, or_and_right,
      exists_or]

/-! ## Absolute forms -/

theorem mem_child_iff {piece : String} (h : '/' ∉ piece.toList) (hslash : c ≠ '/') :
    c ∈ (p.child piece).text.toList ↔ c ∈ p.text.toList ∨ c ∈ piece.toList := by
  have hslash' : c ∉ "/".toList := by simpa using hslash
  rw [child_text (isAbsolute_of_not_mem h)]
  split
  · rw [String.toList_append, List.mem_append]
  · simp [hslash]

theorem mem_along_iff (h : ∀ x ∈ cs, x.IsInner) (hslash : c ≠ '/') :
    c ∈ (p.along cs).text.toList ↔ c ∈ p.text.toList ∨ ∃ x ∈ cs, c ∈ x.text.toList := by
  induction cs using List.reverseRecOn with
  | nil => simp [along]
  | append_singleton cs x ih =>
    rw [along_concat, mem_child_iff (h x (by simp)).1 hslash, ih fun y hy => h y (by simp [hy]), or_assoc]
    simp [or_and_right, exists_or]

theorem mem_closedAs_iff {q : Path} (hslash : c ≠ '/') :
    c ∈ (q.closedAs p).text.toList ↔ c ∈ q.text.toList := by
  unfold closedAs
  split
  · rw [mem_child_iff (by decide) hslash]
    simp
  · rfl

/-- **The characters of an absolute path.** Besides slashes and dots these are the characters of the path
and, if it was relative, those of what it was relative to. -/
theorem mem_anchoredAt_iff (hslash : c ≠ '/') (hdot : c ≠ '.') :
    c ∈ (anchoredAt base p).text.toList ↔
      c ∈ p.text.toList ∨ p.isAbsolute = false ∧ c ∈ base.text.toList := by
  have hroot : c ∉ Component.root.text.toList := by simpa [Component.text] using hslash
  have hcurrent : c ∉ Component.current.text.toList := by simpa [Component.text] using hdot
  rw [← mem_components_iff (p := p) hslash hdot]
  obtain ⟨cs, hinner, ⟨habs, hcs⟩ | ⟨hrel, hcs⟩⟩ := components_cases p
  · have hstart : c ∉ p.start.text.toList := by
      unfold start
      split <;> simpa using hslash
    rw [anchoredAt_of_isAbsolute habs hcs, mem_closedAs_iff hslash, mem_along_iff hinner hslash, hcs,
      List.exists_mem_cons_iff]
    simp [hstart, hroot, habs]
  · have hchars : (∃ x ∈ p.components, c ∈ x.text.toList) ↔ ∃ x ∈ cs, c ∈ x.text.toList := by
      rcases hcs with hcs | hcs
      · rw [hcs, List.exists_mem_cons_iff]
        simp [hcurrent]
      · rw [hcs]
    rw [anchoredAt_of_relative hrel hinner hcs, mem_closedAs_iff hslash, mem_along_iff hinner hslash,
      hchars, or_comm]
    simp [hrel]

end FormWeaver.Path
