import FormWeaver.Proofs.Path.Child

/-!
# Absolute forms

The absolute form of a path is spelled from one slash or two by components, each set behind the one
before, and may end in one more slash. Whether a path has this form can be seen on the path alone
(`IsAnchored`). The absolute form of any path has it (`isAnchored_anchoredAt`), and a path that has it is
its own absolute form (`anchoredAt_of_isAnchored`), so making a path absolute twice makes it absolute
once.
-/

namespace FormWeaver.Path

/-! ## Components along a path -/

/-- Whether a component can stand behind the first one of a path, where its spelling stands for it. -/
def Component.IsInner (c : Component) : Prop := '/' ∉ c.text.toList ∧ ofPiece? c.text = some c

theorem Component.isInner_name {name : String} (h : IsLegal name) : (Component.name name).IsInner :=
  ⟨h.2, ofPiece?_of_isLegal h⟩

theorem Component.IsInner.text_ne {c : Component} (h : c.IsInner) : c.text ≠ "" := by
  intro he
  have hpiece := h.2
  rw [he] at hpiece
  cases hpiece

theorem Component.text_of_ofPiece? {piece : String} {c : Component} (h : ofPiece? piece = some c) :
    c.text = piece := by
  unfold ofPiece? at h
  split at h
  · cases h
  split at h
  · cases h
  split at h
  · next hup =>
    cases h
    exact hup.symm
  · cases h
    rfl

/-- The path that leads on from `p` by components. -/
def along (p : Path) (cs : List Component) : Path := cs.foldl (fun q c => q.child c.text) p

variable {p q : Path} {c : Component} {cs : List Component}

theorem along_append (p : Path) (cs more : List Component) :
    p.along (cs ++ more) = (p.along cs).along more :=
  List.foldl_append

theorem along_concat (p : Path) (cs : List Component) (c : Component) :
    p.along (cs ++ [c]) = (p.along cs).child c.text :=
  along_append p cs [c]

theorem isAbsolute_along (h : ∀ c ∈ cs, c.IsInner) (p : Path) : (p.along cs).isAbsolute = p.isAbsolute := by
  induction cs using List.reverseRecOn with
  | nil => rfl
  | append_singleton cs c ih =>
    rw [along_concat, isAbsolute_child (h c (by simp)).1, ih fun x hx => h x (by simp [hx])]

theorem components_along (h : ∀ c ∈ cs, c.IsInner) (p : Path) :
    (p.along cs).components = p.components ++ cs := by
  induction cs using List.reverseRecOn with
  | nil => exact (List.append_nil _).symm
  | append_singleton cs c ih =>
    have hc := h c (by simp)
    rw [along_concat, components_child_of_piece hc.1 hc.2, ih fun x hx => h x (by simp [hx]),
      List.append_assoc]

/-- What a path begins with stays, whatever it leads on by. -/
theorem exists_text_child {piece : String} (h : '/' ∉ piece.toList) (p : Path) :
    ∃ rest, (p.child piece).text = p.text ++ rest := by
  rw [child_text (isAbsolute_of_not_mem h)]
  split
  · exact ⟨piece, rfl⟩
  · exact ⟨"/" ++ piece, String.append_assoc⟩

theorem exists_text_along (h : ∀ c ∈ cs, c.IsInner) (p : Path) :
    ∃ rest, (p.along cs).text = p.text ++ rest := by
  induction cs using List.reverseRecOn with
  | nil => exact ⟨"", String.append_empty.symm⟩
  | append_singleton cs c ih =>
    obtain ⟨rest, hrest⟩ := ih fun x hx => h x (by simp [hx])
    obtain ⟨more, hmore⟩ := exists_text_child (h c (by simp)).1 (p.along cs)
    exact ⟨rest ++ more, by rw [along_concat, hmore, hrest, String.append_assoc]⟩

/-- Names along a path are spelled with a slash between neighbours. -/
theorem along_names {names : List String} (h : ∀ name ∈ names, IsLegal name) (hne : names ≠ []) (p : Path) :
    p.along (names.map .name) = ⟨p.lead ++ Text.joinWith "/" names⟩ := by
  induction names generalizing p with
  | nil => exact absurd rfl hne
  | cons name names ih =>
    have hname := h name List.mem_cons_self
    have hchild : p.child name = ⟨p.lead ++ name⟩ := join_text (isAbsolute_of_not_mem hname.2) p
    cases names with
    | nil => exact hchild
    | cons next names =>
      have hlead : (p.child name).lead = p.lead ++ name ++ "/" := by
        have hempty : (p.child name).text.isEmpty = false := by simpa using text_child_ne hname p
        rw [lead, hempty, hasTrailingSlash_child hname, Bool.or_false, if_neg Bool.false_ne_true, hchild]
      have hrest := ih (fun n hn => h n (List.mem_cons_of_mem _ hn)) (List.cons_ne_nil _ _) (p.child name)
      rw [hlead] at hrest
      refine hrest.trans ?_
      rw [Text.joinWith, Text.joinWith, String.intercalate_cons_cons]
      simp only [String.append_assoc]

/-! ## Taking a path apart -/

theorem isInner_of_mem_filterMap {p : Path} {rest : List String} (h : ∀ piece ∈ rest, piece ∈ p.pieces)
    (hc : c ∈ rest.filterMap Component.ofPiece?) : c.IsInner := by
  obtain ⟨piece, hpiece, hc⟩ := List.mem_filterMap.mp hc
  have htext := Component.text_of_ofPiece? hc
  exact ⟨htext ▸ not_mem_of_mem_pieces (h piece hpiece), htext ▸ hc⟩

/-- The root and a `.` stand only at the beginning of a path. -/
theorem components_cases (p : Path) : ∃ cs : List Component, (∀ c ∈ cs, c.IsInner) ∧
    ((p.isAbsolute = true ∧ p.components = .root :: cs) ∨
      (p.isAbsolute = false ∧ (p.components = .current :: cs ∨ p.components = cs))) := by
  obtain ⟨first, rest, hp⟩ := List.exists_cons_of_ne_nil (pieces_ne_nil p)
  have hrest : ∀ c ∈ rest.filterMap Component.ofPiece?, c.IsInner := fun c hc =>
    isInner_of_mem_filterMap (p := p) (fun piece h => hp ▸ List.mem_cons_of_mem _ h) hc
  cases habs : p.isAbsolute with
  | true =>
    refine ⟨_, hrest, .inl ⟨rfl, ?_⟩⟩
    rw [components, hp]
    exact if_pos habs
  | false =>
    have hcomponents : p.components =
        (Component.ofFirstPiece? first).toList ++ rest.filterMap Component.ofPiece? := by
      rw [components, hp]
      exact if_neg (by simp [habs])
    by_cases hdot : first = "."
    · refine ⟨_, hrest, .inr ⟨rfl, .inl ?_⟩⟩
      rw [hcomponents, Component.ofFirstPiece?, if_pos hdot]
      rfl
    · -- Any other first piece is read as the ones behind it are.
      refine ⟨(first :: rest).filterMap Component.ofPiece?, fun c hc => ?_, .inr ⟨rfl, .inr ?_⟩⟩
      · exact isInner_of_mem_filterMap (p := p) (fun piece h => hp ▸ h) hc
      · rw [hcomponents, Component.ofFirstPiece?, if_neg hdot, List.filterMap_cons]
        cases Component.ofPiece? first <;> rfl

/-- The slashes that a path begins with, where these are not the same as one. -/
def start (p : Path) : Path :=
  ⟨if (p.text.toList.takeWhile (· == '/')).length = 2 then "//" else "/"⟩

/-- The path with a slash at the end, when the path it comes from has one there. -/
def closedAs (q p : Path) : Path := if p.hasTrailingSlash then q.child "" else q

theorem anchoredAt_of_isAbsolute (habs : p.isAbsolute = true) (hcs : p.components = .root :: cs)
    (base : Path) : anchoredAt base p = (p.start.along cs).closedAs p := by
  have hroot : (⟨""⟩ : Path).child "/" = ⟨"/"⟩ := by decide
  unfold anchoredAt closedAs start
  rw [hcs, habs]
  by_cases htwo : (p.text.toList.takeWhile (· == '/')).length = 2
  · simp only [htwo, if_true, List.tail_cons]
    rfl
  · simp only [htwo, if_true, if_false, List.foldl_cons, Component.text, hroot]
    rfl

theorem anchoredAt_of_relative (habs : p.isAbsolute = false) (hinner : ∀ c ∈ cs, c.IsInner)
    (hcs : p.components = .current :: cs ∨ p.components = cs) (base : Path) :
    anchoredAt base p = (base.along cs).closedAs p := by
  unfold anchoredAt closedAs
  rcases hcs with hcs | hcs
  · rw [hcs, habs]
    rfl
  · rw [hcs, habs]
    cases cs with
    | nil => rfl
    | cons c cs =>
      cases c with
      | current => exact absurd (hinner _ List.mem_cons_self).2 (by decide)
      | _ => rfl

/-! ## Absolute forms -/

/-- Whether a path is spelled from one slash or two by components, each behind one slash, and perhaps
one more slash at the end. -/
def IsAnchored (p : Path) : Prop :=
  ∃ (s : String) (cs : List Component), (s = "/" ∨ s = "//") ∧ (∀ c ∈ cs, c.IsInner) ∧
    (p = (mk s).along cs ∨ p = ((mk s).along cs).child "")

theorem isAbsolute_of_along {s : String} (hs : s = "/" ∨ s = "//") (hcs : ∀ c ∈ cs, c.IsInner)
    (h : p = (mk s).along cs ∨ p = ((mk s).along cs).child "") : p.isAbsolute = true := by
  have hstart : (mk s).isAbsolute = true := by rcases hs with rfl | rfl <;> decide
  rcases h with rfl | rfl
  · rw [isAbsolute_along hcs, hstart]
  · rw [isAbsolute_child (by decide), isAbsolute_along hcs, hstart]

theorem IsAnchored.isAbsolute (h : p.IsAnchored) : p.isAbsolute = true := by
  obtain ⟨s, cs, hs, hcs, hp⟩ := h
  exact isAbsolute_of_along hs hcs hp

theorem IsAnchored.child_empty (h : p.IsAnchored) : (p.child "").IsAnchored := by
  obtain ⟨s, cs, hs, hcs, rfl | rfl⟩ := h
  · exact ⟨s, cs, hs, hcs, .inr rfl⟩
  · have habs : ((mk s).along cs).isAbsolute = true := isAbsolute_of_along hs hcs (.inl rfl)
    have hslash := hasTrailingSlash_child_empty (isEmpty_text_of_isAbsolute habs)
    exact ⟨s, cs, hs, hcs, .inr (child_empty_of_hasTrailingSlash hslash)⟩

theorem IsAnchored.closedAs (h : q.IsAnchored) (p : Path) : (q.closedAs p).IsAnchored := by
  unfold Path.closedAs
  split
  · exact h.child_empty
  · exact h

/-- The absolute form of an absolute path does not depend on a working directory. -/
theorem isAnchored_of_isAbsolute (h : p.isAbsolute = true) (base : Path) : (anchoredAt base p).IsAnchored := by
  obtain ⟨cs, hinner, ⟨habs, hcs⟩ | ⟨hrel, -⟩⟩ := components_cases p
  · rw [anchoredAt_of_isAbsolute habs hcs]
    refine IsAnchored.closedAs ⟨_, cs, ?_, hinner, .inl rfl⟩ p
    split
    · exact .inr rfl
    · exact .inl rfl
  · rw [h] at hrel
    cases hrel

/-- **Absolute forms.** The absolute form of a path, when the working directory is spelled by names, is
spelled by components from the root. -/
theorem isAnchored_anchoredAt {ds : List Component} (h : ∀ c ∈ ds, c.IsInner) (p : Path) :
    (anchoredAt ((mk "/").along ds) p).IsAnchored := by
  obtain ⟨cs, hinner, ⟨habs, -⟩ | ⟨hrel, hcs⟩⟩ := components_cases p
  · exact isAnchored_of_isAbsolute habs _
  · rw [anchoredAt_of_relative hrel hinner hcs, ← along_append]
    refine IsAnchored.closedAs ⟨"/", ds ++ cs, .inl rfl, fun c hc => ?_, .inl rfl⟩ p
    exact (List.mem_append.mp hc).elim (h c) (hinner c)

theorem isAbsolute_anchoredAt {base : Path} (h : base.isAbsolute = true) (p : Path) :
    (anchoredAt base p).isAbsolute = true := by
  have hclosed : ∀ q : Path, (q.closedAs p).isAbsolute = q.isAbsolute := by
    intro q
    unfold closedAs
    split
    · exact isAbsolute_child (by decide) q
    · rfl
  obtain ⟨cs, hinner, ⟨habs, hcs⟩ | ⟨hrel, hcs⟩⟩ := components_cases p
  · rw [anchoredAt_of_isAbsolute habs hcs, hclosed, isAbsolute_along hinner]
    unfold start
    split <;> rfl
  · rw [anchoredAt_of_relative hrel hinner hcs, hclosed, isAbsolute_along hinner, h]

/-- The slashes at the beginning end at the first character of a component. -/
theorem start_of_text {s rest : String} (hs : s = "/" ∨ s = "//") (hc : c.IsInner)
    (h : p.text = s ++ (c.text ++ rest)) : p.start = mk s := by
  have hne : c.text.toList ≠ [] := fun he => hc.text_ne (String.toList_eq_nil_iff.mp he)
  obtain ⟨a, tail, ha⟩ := List.exists_cons_of_ne_nil hne
  have hslash : (a == '/') = false := by
    rw [beq_eq_false_iff_ne]
    rintro rfl
    exact hc.1 (ha ▸ List.mem_cons_self)
  unfold start
  rw [h, String.toList_append, String.toList_append, ha]
  rcases hs with rfl | rfl <;> simp [hslash]

theorem start_of_along {s : String} (hs : s = "/" ∨ s = "//") (hcs : ∀ c ∈ cs, c.IsInner)
    (h : p = (mk s).along cs ∨ p = ((mk s).along cs).child "") : p.start = mk s := by
  have hslash : (mk s).hasTrailingSlash = true := by rcases hs with rfl | rfl <;> decide
  cases cs with
  | nil =>
    have hp : p = mk s := h.elim id fun h => h.trans (child_empty_of_hasTrailingSlash hslash)
    rw [hp]
    rcases hs with rfl | rfl <;> decide
  | cons c cs =>
    have hc := hcs c List.mem_cons_self
    have hchild : ((mk s).child c.text).text = s ++ c.text := by
      rw [child_text (isAbsolute_of_not_mem hc.1), hslash, Bool.or_true, if_pos rfl]
    obtain ⟨rest, hrest⟩ :=
      exists_text_along (fun x hx => hcs x (List.mem_cons_of_mem _ hx)) ((mk s).child c.text)
    have htext : ((mk s).along (c :: cs)).text = s ++ (c.text ++ rest) := by
      rw [← String.append_assoc, ← hchild]
      exact hrest
    rcases h with rfl | rfl
    · exact start_of_text hs hc htext
    · have hempty : '/' ∉ "".toList := by decide
      obtain ⟨more, hmore⟩ := exists_text_child hempty ((mk s).along (c :: cs))
      have htext' : (((mk s).along (c :: cs)).child "").text = s ++ (c.text ++ (rest ++ more)) := by
        rw [hmore, htext, String.append_assoc, String.append_assoc]
      exact start_of_text hs hc htext'

/-- **A path in absolute form is its own absolute form.** -/
theorem anchoredAt_of_isAnchored (h : p.IsAnchored) (base : Path) : anchoredAt base p = p := by
  obtain ⟨s, cs, hs, hcs, hp⟩ := h
  have hroot : (mk s).components = [.root] := by rcases hs with rfl | rfl <;> decide
  have hcomponents : p.components = .root :: cs := by
    rcases hp with rfl | rfl
    · rw [components_along hcs, hroot]
      rfl
    · rw [components_child_empty, components_along hcs, hroot]
      rfl
  rw [anchoredAt_of_isAbsolute (isAbsolute_of_along hs hcs hp) hcomponents, start_of_along hs hcs hp]
  unfold closedAs
  rcases hp with rfl | rfl
  · -- Only one slash or two can end in a slash here.
    split
    · next hslash => exact child_empty_of_hasTrailingSlash hslash
    · rfl
  · have habs : ((mk s).along cs).isAbsolute = true := isAbsolute_of_along hs hcs (.inl rfl)
    rw [if_pos (hasTrailingSlash_child_empty (isEmpty_text_of_isAbsolute habs))]

end FormWeaver.Path
