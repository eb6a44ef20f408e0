import FormWeaver.Path.Basic
import FormWeaver.Proofs.Text.Cut
import Mathlib.Data.List.Basic
import Mathlib.Data.List.Induction

/-!
# Names set behind a path

A relative path set behind another puts its pieces behind the pieces of that one. So a name becomes the
last piece and the last component, whether or not the path ends with a slash; an empty name puts a slash at
its end, which is no component. Two files of one directory tree, spelled from its root, are the same path
only when they stand at the same place.
-/

namespace FormWeaver.Path

/-- Whether a name is one that a directory can hold. -/
def IsLegal (name : String) : Prop := (name ≠ "" ∧ name ≠ "." ∧ name ≠ "..") ∧ '/' ∉ name.toList

instance (name : String) : Decidable (IsLegal name) := inferInstanceAs (Decidable (_ ∧ _))

theorem isAbsolute_of_not_mem {name : String} (h : '/' ∉ name.toList) : (mk name).isAbsolute = false := by
  unfold isAbsolute
  rw [beq_eq_false_iff_ne]
  intro hh
  exact h (List.mem_of_head? hh)

theorem isEmpty_text_of_isAbsolute {p : Path} (h : p.isAbsolute = true) : p.text.isEmpty = false := by
  cases he : p.text.isEmpty with
  | false => rfl
  | true =>
    rw [isAbsolute, String.isEmpty_iff.mp he] at h
    cases h

/-- What stands in front of a relative path that is set behind another. -/
def lead (p : Path) : String := if p.text.isEmpty || p.hasTrailingSlash then p.text else p.text ++ "/"

theorem join_text {q : Path} (h : q.isAbsolute = false) (p : Path) : p.join q = ⟨p.lead ++ q.text⟩ := by
  unfold join lead
  rw [if_neg (by simp [h])]
  split <;> rfl

theorem child_text {name : String} (h : (mk name).isAbsolute = false) (p : Path) :
    p.child name =
      ⟨(if p.text.isEmpty || p.hasTrailingSlash then p.text else p.text ++ "/") ++ name⟩ :=
  join_text h p

theorem pieces_append_slash (a b : String) :
    (mk (a ++ "/" ++ b)).pieces = (mk a).pieces ++ (mk b).pieces := by
  have hslash : "/".toList = ['/'] := rfl
  unfold pieces
  simp only [String.toList_append, hslash, List.append_assoc, List.singleton_append]
  rw [List.splitOn_append_cons_self, List.map_append]

theorem pieces_of_not_mem {name : String} (h : '/' ∉ name.toList) : (mk name).pieces = [name] := by
  unfold pieces
  rw [List.splitOn_eq_singleton h]
  simp

/-- A spelling that ends with a slash has an empty piece behind it. -/
theorem exists_of_hasTrailingSlash {p : Path} (h : p.hasTrailingSlash = true) :
    ∃ q : String, p.text = q ++ "/" ++ "" := by
  unfold hasTrailingSlash at h
  obtain ⟨cs, hcs⟩ := List.getLast?_eq_some_iff.mp (eq_of_beq h)
  refine ⟨String.ofList cs, ?_⟩
  rw [String.append_empty, ← String.toList_inj, hcs]
  simp

theorem pieces_ne_nil (p : Path) : p.pieces ≠ [] := by simp [pieces, List.splitOn_ne_nil]

/-- The pieces of a relative path come behind those of the path that it is set behind; an empty piece at the
end of that goes. -/
theorem pieces_join {q : Path} (h : q.isAbsolute = false) (p : Path) :
    ∃ before, (p.join q).pieces = before ++ q.pieces ∧ (before = [] → p.text = "") ∧
      (p.pieces = before ∨ p.pieces = before ++ [""]) := by
  have hempty : (mk "").pieces = [""] := pieces_of_not_mem (by decide)
  obtain ⟨text⟩ := p
  rw [join_text h]
  unfold lead
  split
  · next hs =>
    rw [Bool.or_eq_true] at hs
    rcases hs with hs | hs
    · have ht : text = "" := by simpa using hs
      subst ht
      refine ⟨[], ?_, fun _ => rfl, .inr hempty⟩
      rw [String.empty_append, List.nil_append]
    · obtain ⟨front, hfront⟩ := exists_of_hasTrailingSlash hs
      simp only at hfront
      subst hfront
      refine ⟨(mk front).pieces, ?_, fun hn => absurd hn (pieces_ne_nil _), .inr ?_⟩
      · rw [String.append_empty, pieces_append_slash]
      · rw [pieces_append_slash, hempty]
  · refine ⟨(mk text).pieces, ?_, fun hn => absurd hn (pieces_ne_nil _), .inl rfl⟩
    rw [pieces_append_slash]

/-- A name is the last piece; an empty piece at the end of the path goes. -/
theorem pieces_child {name : String} (h : '/' ∉ name.toList) (p : Path) :
    ∃ before, (p.child name).pieces = before ++ [name] ∧ (before = [] → p.text = "") ∧
      (p.pieces = before ∨ p.pieces = before ++ [""]) := by
  have hjoin := pieces_join (isAbsolute_of_not_mem h) p
  rwa [pieces_of_not_mem h] at hjoin

theorem not_mem_of_mem_pieces {p : Path} {piece : String} (h : piece ∈ p.pieces) :
    '/' ∉ piece.toList := by
  obtain ⟨part, hpart, rfl⟩ := List.mem_map.mp h
  rw [String.toList_ofList]
  exact Text.notMem_of_mem_splitOn hpart

/-- What is set behind a text without a slash is behind the last piece of it. -/
theorem exists_pieces_append {ending : String} (h : '/' ∉ ending.toList) (text : String) :
    ∃ before last, (mk text).pieces = before ++ [last] ∧
      (mk (text ++ ending)).pieces = before ++ [last ++ ending] := by
  by_cases hslash : '/' ∈ text.toList
  · obtain ⟨after, before, hcut, hno⟩ := List.eq_append_cons_of_mem (List.mem_reverse.mpr hslash)
    have htext : text = String.ofList before.reverse ++ "/" ++ String.ofList after.reverse := by
      have hcs := congrArg List.reverse hcut
      rw [List.reverse_reverse] at hcs
      rw [← String.toList_inj, hcs]
      simp
    refine ⟨(mk (String.ofList before.reverse)).pieces, String.ofList after.reverse, ?_, ?_⟩
    · have hno : '/' ∉ (String.ofList after.reverse).toList := by simpa using hno
      rw [htext, pieces_append_slash, pieces_of_not_mem hno]
    · have hno : '/' ∉ (String.ofList after.reverse ++ ending).toList := by simpa using ⟨hno, h⟩
      rw [htext, String.append_assoc, pieces_append_slash, pieces_of_not_mem hno]
  · refine ⟨[], text, pieces_of_not_mem hslash, ?_⟩
    rw [pieces_of_not_mem (by simpa using ⟨hslash, h⟩)]
    rfl

theorem isAbsolute_join {q : Path} (h : q.isAbsolute = false) (p : Path) :
    (p.join q).isAbsolute = p.isAbsolute := by
  obtain ⟨text⟩ := p
  rw [join_text h]
  by_cases ht : text = ""
  · subst ht
    have hn : (mk "").isAbsolute = false := by decide
    rw [hn]
    simpa [lead] using h
  · have hne : text.toList ≠ [] := by simpa using ht
    obtain ⟨c, cs, hc⟩ := List.exists_cons_of_ne_nil hne
    unfold isAbsolute lead
    split <;> simp [hc]

theorem isAbsolute_child {name : String} (h : '/' ∉ name.toList) (p : Path) :
    (p.child name).isAbsolute = p.isAbsolute :=
  isAbsolute_join (isAbsolute_of_not_mem h) p

theorem isAbsolute_foldl_child {names : List String} (h : ∀ name ∈ names, '/' ∉ name.toList) (p : Path) :
    (names.foldl child p).isAbsolute = p.isAbsolute := by
  induction names generalizing p with
  | nil => rfl
  | cons name names ih =>
    rw [List.foldl_cons, ih fun n hn => h n (List.mem_cons_of_mem _ hn),
      isAbsolute_child (h name List.mem_cons_self)]

/-- The components of a relative path come behind those of the path that it is set behind. A `.` would be a
component at its beginning, so it does not begin with one, or there is something to set it behind. -/
theorem components_join {p q : Path} (hrel : q.isAbsolute = false)
    (hstart : p.text = "" → q.pieces.head? ≠ some ".") :
    (p.join q).components = p.components ++ q.pieces.filterMap Component.ofPiece? := by
  obtain ⟨before, hjoin, htext, hp⟩ := pieces_join hrel p
  -- The first piece is read differently from the others, so an empty path is a case of its own.
  have habs := isAbsolute_join hrel p
  cases before with
  | nil =>
    obtain ⟨text⟩ := p
    have ht : text = "" := htext rfl
    have hdot := hstart ht
    subst ht
    have hempty : (mk "").components = [] := by decide
    obtain ⟨first, rest, hq⟩ := List.exists_cons_of_ne_nil (pieces_ne_nil q)
    have hfirst : Component.ofFirstPiece? first = Component.ofPiece? first := by
      rw [hq] at hdot
      exact if_neg fun h => hdot (congrArg some h)
    have hrel' : (mk "").isAbsolute = false := by decide
    rw [hempty]
    unfold components
    simp only [hjoin, habs, hrel', hq, List.nil_append, hfirst, List.filterMap_cons]
    cases Component.ofPiece? first <;> rfl
  | cons first rest =>
    have hnone : Component.ofPiece? "" = none := by decide
    unfold components
    rcases hp with hp | hp
    · simp only [hjoin, habs, hp, List.cons_append, List.filterMap_append]
      split <;> simp
    · simp only [hjoin, habs, hp, List.cons_append, List.filterMap_append]
      split <;> simp [hnone]

/-- A piece that stands for a component makes that the last one. -/
theorem components_child_of_piece {piece : String} {c : Component} (hslash : '/' ∉ piece.toList)
    (hpiece : Component.ofPiece? piece = some c) (p : Path) :
    (p.child piece).components = p.components ++ [c] := by
  have hdot : (mk piece).pieces.head? ≠ some "." := by
    rw [pieces_of_not_mem hslash, List.head?_cons]
    rintro ⟨⟩
    cases hpiece
  have hjoin := components_join (p := p) (isAbsolute_of_not_mem hslash) fun _ => hdot
  rwa [pieces_of_not_mem hslash, List.filterMap_cons_some hpiece, List.filterMap_nil] at hjoin

theorem ofPiece?_of_isLegal {name : String} (h : IsLegal name) :
    Component.ofPiece? name = some (.name name) := by
  rw [Component.ofPiece?, if_neg h.1.1, if_neg h.1.2.1, if_neg h.1.2.2]

/-- A name that a directory can hold becomes the last component. -/
theorem components_child {name : String} (h : IsLegal name) (p : Path) :
    (p.child name).components = p.components ++ [.name name] :=
  components_child_of_piece h.2 (ofPiece?_of_isLegal h) p

theorem components_foldl_child {names : List String} (h : ∀ name ∈ names, IsLegal name) (p : Path) :
    (names.foldl child p).components = p.components ++ names.map .name := by
  induction names generalizing p with
  | nil => simp
  | cons name names ih =>
    rw [List.foldl_cons, ih (fun n hn => h n (List.mem_cons_of_mem _ hn)),
      components_child (h name (by simp))]
    simp

/-! ## The end of a spelling -/

theorem hasTrailingSlash_append {b : String} (h : b ≠ "") (a : String) :
    (mk (a ++ b)).hasTrailingSlash = (mk b).hasTrailingSlash := by
  have hne : b.toList ≠ [] := by simpa using h
  unfold hasTrailingSlash
  rw [String.toList_append, List.getLast?_append, Option.or_of_isSome (by simpa using hne)]

theorem hasTrailingSlash_child_of_ne {piece : String} (h : '/' ∉ piece.toList) (hne : piece ≠ "")
    (p : Path) : (p.child piece).hasTrailingSlash = false := by
  rw [child_text (isAbsolute_of_not_mem h), hasTrailingSlash_append hne]
  unfold hasTrailingSlash
  rw [beq_eq_false_iff_ne]
  intro hlast
  exact h (List.mem_of_getLast? hlast)

theorem hasTrailingSlash_child {name : String} (h : IsLegal name) (p : Path) :
    (p.child name).hasTrailingSlash = false :=
  hasTrailingSlash_child_of_ne h.2 h.1.1 p

theorem text_child_ne {name : String} (h : IsLegal name) (p : Path) : (p.child name).text ≠ "" := by
  rw [child_text (isAbsolute_of_not_mem h.2)]
  intro ht
  exact h.1.1 (String.append_eq_empty_iff.mp ht).2

theorem child_empty_of_hasTrailingSlash {p : Path} (h : p.hasTrailingSlash = true) : p.child "" = p := by
  rw [child_text (by decide), h, Bool.or_true, if_pos rfl, String.append_empty]

theorem child_empty_text {p : Path} (hne : p.text.isEmpty = false) (h : p.hasTrailingSlash = false) :
    p.child "" = ⟨p.text ++ "/"⟩ := by
  rw [child_text (by decide), hne, h, Bool.or_false, if_neg Bool.false_ne_true, String.append_empty]

/-- A slash at the end is one more piece. -/
theorem pieces_child_empty {p : Path} (hne : p.text.isEmpty = false) (h : p.hasTrailingSlash = false) :
    (p.child "").pieces = p.pieces ++ [""] := by
  have hempty : (mk "").pieces = [""] := pieces_of_not_mem (by decide)
  rw [child_empty_text hne h, ← hempty, ← pieces_append_slash, String.append_empty]

theorem hasTrailingSlash_child_empty {p : Path} (hne : p.text.isEmpty = false) :
    (p.child "").hasTrailingSlash = true := by
  cases h : p.hasTrailingSlash with
  | true => rw [child_empty_of_hasTrailingSlash h, h]
  | false =>
    rw [child_empty_text hne h, hasTrailingSlash_append (by decide)]
    decide

/-- A slash at the end is no component. -/
theorem components_child_empty (p : Path) : (p.child "").components = p.components := by
  have habs : (p.child "").isAbsolute = p.isAbsolute := isAbsolute_child (by decide) p
  cases hne : p.text.isEmpty with
  | true => rw [child_text (by decide), hne, Bool.true_or, if_pos rfl, String.append_empty]
  | false =>
    cases h : p.hasTrailingSlash with
    | true => rw [child_empty_of_hasTrailingSlash h]
    | false =>
      have hnone : Component.ofPiece? "" = none := by decide
      obtain ⟨first, rest, hp⟩ := List.exists_cons_of_ne_nil (pieces_ne_nil p)
      unfold components
      simp [pieces_child_empty hne h, habs, hp, hnone]

/-! ## Relative paths -/

theorem join_child {name : String} (h : '/' ∉ name.toList) {q : Path} (hrel : q.isAbsolute = false)
    (hne : q.text ≠ "") (hslash : q.hasTrailingSlash = false) (p : Path) :
    p.join (q.child name) = (p.join q).child name := by
  have hname : (mk name).isAbsolute = false := isAbsolute_of_not_mem h
  -- Neither path is empty or ends with a slash, so both lead on with one.
  have hlead : q.lead = q.text ++ "/" := by
    unfold lead
    rw [if_neg]
    simpa [hslash] using hne
  have hlead' : (mk (p.lead ++ q.text)).lead = p.lead ++ q.text ++ "/" := by
    unfold lead
    rw [if_neg]
    rw [hasTrailingSlash_append hne, hslash]
    simpa using fun _ => hne
  have hchild : (q.child name).isAbsolute = false := by rw [isAbsolute_child h, hrel]
  rw [join_text hchild, join_text hrel]
  unfold child
  rw [join_text hname, join_text hname, hlead, hlead']
  simp only [String.append_assoc]

/-- Names that are set behind a path one by one lead from it to there. -/
theorem relativeTo?_foldl_child {names : List String} (h : ∀ name ∈ names, IsLegal name) (p : Path) :
    (names.foldl child p).relativeTo? p = some (names.foldl child ⟨""⟩) := by
  unfold relativeTo?
  rw [components_foldl_child h, List.isPrefixOf?_eq_some_iff_append_eq.mpr rfl, Option.map_some]
  unfold ofComponents
  rw [List.foldl_map]
  rfl

/-- What they spell is set behind another path as they are. -/
theorem join_foldl_child {names : List String} (h : ∀ name ∈ names, IsLegal name) (hne : names ≠ [])
    (p : Path) : p.join (names.foldl child ⟨""⟩) = names.foldl child p := by
  induction names using List.reverseRecOn with
  | nil => exact absurd rfl hne
  | append_singleton names name ih =>
    have hname := h name (by simp)
    have hnames : ∀ n ∈ names, IsLegal n := fun n hn => h n (List.mem_append_left _ hn)
    rw [List.foldl_append, List.foldl_append]
    show p.join (Path.child _ name) = Path.child _ name
    rcases List.eq_nil_or_concat' names with rfl | ⟨above, last, rfl⟩
    · rw [List.foldl_nil, List.foldl_nil, child_text (isAbsolute_of_not_mem hname.2)]
      rfl
    · have hlast := hnames last (by simp)
      rw [← ih hnames (by simp)]
      apply join_child hname.2
      · rw [isAbsolute_foldl_child fun n hn => (hnames n hn).2]
        rfl
      · rw [List.foldl_append]
        exact text_child_ne hlast _
      · rw [List.foldl_append]
        exact hasTrailingSlash_child hlast _

end FormWeaver.Path
