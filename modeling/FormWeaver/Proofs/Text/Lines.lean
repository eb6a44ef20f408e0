import FormWeaver.Proofs.Text.Cut

/-!
# Lines of a text that was put together from lines

Lines that hold no line break are found again when each is written with a line feed behind it, and so
are texts that are joined by line feeds when it is known how many they are.
-/

namespace FormWeaver.Text

/-- Whether a line can be written on one line: no character of it ends a line. -/
def IsLine (cs : List Char) : Prop := '\n' ∉ cs ∧ '\r' ∉ cs

instance (cs : List Char) : Decidable (IsLine cs) := inferInstanceAs (Decidable (_ ∧ _))

theorem IsLine.append {a b : List Char} (ha : IsLine a) (hb : IsLine b) : IsLine (a ++ b) :=
  ⟨by simp [ha.1, hb.1], by simp [ha.2, hb.2]⟩

theorem chunks_append_newline {l : List Char} (h : '\n' ∉ l) (rest : List Char) :
    chunks (l ++ '\n' :: rest) = (l ++ ['\n']) :: chunks rest := by
  induction l with
  | nil => simp [chunks]
  | cons c l ih =>
    simp only [List.mem_cons, not_or] at h
    rw [List.cons_append, chunks, if_neg (Ne.symm h.1), ih h.2]
    rfl

theorem lines_append_newline {l : List Char} (h : '\n' ∉ l) (rest : List Char) :
    lines (l ++ '\n' :: rest) = chopLine (l ++ ['\n']) :: lines rest := by
  unfold lines
  rw [chunks_append_newline h, List.map_cons]

/-- A line end takes a carriage return with it, and nothing else. -/
theorem chopLine_cases (l : List Char) :
    chopLine (l ++ ['\n']) = l ∨ ∃ l', l = l' ++ ['\r'] ∧ chopLine (l ++ ['\n']) = l' := by
  unfold chopLine
  rw [List.reverse_append]
  simp only [List.reverse_cons, List.reverse_nil, List.nil_append, List.singleton_append]
  split
  · next rest heq =>
    refine .inr ⟨rest.reverse, ?_, rfl⟩
    rw [← List.reverse_reverse l, (List.cons.inj heq).2, List.reverse_cons]
  · next heq =>
    left
    rw [← (List.cons.inj heq).2, List.reverse_reverse]
  · next hn => exact absurd rfl (hn l.reverse)

/-- What a text is cut into are pieces that hold a line feed at most as their end. -/
theorem notMem_dropLast_of_mem_chunks {cs l : List Char} (h : l ∈ chunks cs) : '\n' ∉ l.dropLast := by
  induction cs generalizing l with
  | nil => simp [chunks] at h
  | cons c cs ih =>
    unfold chunks at h
    split at h
    · rcases List.mem_cons.mp h with rfl | h
      · simp
      · exact ih h
    · next hc =>
      split at h
      · obtain rfl := List.mem_singleton.mp h
        simp
      · next line rest hchunks =>
        rcases List.mem_cons.mp h with rfl | h
        · have hline : '\n' ∉ line.dropLast := ih (by simp [hchunks])
          cases line with
          | nil => simp
          | cons c' line =>
            rw [List.dropLast_cons_of_ne_nil (by simp), List.mem_cons, not_or]
            exact ⟨Ne.symm hc, hline⟩
        · exact ih (by simp [hchunks, h])

/-- A line that does not end with a line feed is complete. -/
theorem chopLine_eq_self {l : List Char} (h : l.getLast? ≠ some '\n') : chopLine l = l := by
  have hhead : l.reverse.head? ≠ some '\n' := by rwa [List.head?_reverse]
  unfold chopLine
  split
  · next heq => exact absurd (by rw [heq]; rfl) hhead
  · next heq => exact absurd (by rw [heq]; rfl) hhead
  · rfl

theorem notMem_chopLine {l : List Char} (h : '\n' ∉ l.dropLast) : '\n' ∉ chopLine l := by
  by_cases hlast : l.getLast? = some '\n'
  · obtain ⟨front, rfl⟩ := List.getLast?_eq_some_iff.mp hlast
    rw [List.dropLast_concat] at h
    rcases chopLine_cases front with hfront | ⟨front', rfl, hfront⟩
    · rwa [hfront]
    · rw [hfront]
      exact fun hmem => h (List.mem_append_left _ hmem)
  · rw [chopLine_eq_self hlast]
    intro hmem
    rcases List.eq_nil_or_concat l with rfl | ⟨front, c, rfl⟩
    · exact absurd hmem List.not_mem_nil
    · rw [List.concat_eq_append] at h hlast hmem
      rw [List.dropLast_concat] at h
      rw [List.getLast?_concat] at hlast
      rcases List.mem_append.mp hmem with hmem | hmem
      · exact h hmem
      · exact hlast (congrArg some (List.mem_singleton.mp hmem).symm)

/-- A text without line feeds is one line, or none when it is empty. -/
theorem lines_of_notMem {l : List Char} (h : '\n' ∉ l) : lines l = if l = [] then [] else [l] := by
  have hchunks : chunks l = if l = [] then [] else [l] := by
    induction l with
    | nil => rfl
    | cons c l ih =>
      rw [List.mem_cons, not_or] at h
      rw [chunks, if_neg (Ne.symm h.1), ih h.2]
      cases l <;> rfl
  have hlast : l.getLast? ≠ some '\n' := fun hl => h (List.mem_of_getLast? hl)
  unfold lines
  rw [hchunks]
  split
  · rfl
  · rw [List.map_singleton, chopLine_eq_self hlast]

/-- No line holds a line feed. -/
theorem notMem_of_mem_lines {cs l : List Char} (h : l ∈ lines cs) : '\n' ∉ l := by
  obtain ⟨chunk, hchunk, rfl⟩ := List.mem_map.mp h
  exact notMem_chopLine (notMem_dropLast_of_mem_chunks hchunk)

/-- A line end leaves the beginning of a line as it was. -/
theorem exists_chopLine_cons {c : Char} {l : List Char} (hc : c ≠ '\r') (h : '\n' ∉ c :: l) :
    ∃ l', chopLine (c :: l ++ ['\n']) = c :: l' ∧ '\n' ∉ c :: l' := by
  rcases chopLine_cases (c :: l) with hl | ⟨l', hcr, hl⟩
  · exact ⟨l, hl, h⟩
  · cases l' with
    | nil => exact absurd (List.cons.inj hcr).1 hc
    | cons c' l' =>
      obtain rfl : c = c' := (List.cons.inj hcr).1
      rw [hcr, List.mem_append, not_or] at h
      exact ⟨l', hl, h.1⟩

theorem chopLine_append_newline {l : List Char} (h : '\r' ∉ l) : chopLine (l ++ ['\n']) = l := by
  rcases chopLine_cases l with hl | ⟨l', rfl, -⟩
  · exact hl
  · simp at h

/-- Lines that are written one behind the other, each with a line feed, are found again in front of
what follows them. -/
theorem lines_flatMap_append {ls : List (List Char)} (h : ∀ l ∈ ls, IsLine l) (rest : List Char) :
    lines (ls.flatMap (· ++ ['\n']) ++ rest) = ls ++ lines rest := by
  induction ls with
  | nil => rfl
  | cons l ls ih =>
    have hl := h l (by simp)
    have ih := ih fun m hm => h m (List.mem_cons_of_mem _ hm)
    rw [List.flatMap_cons, List.append_assoc, List.append_assoc, List.singleton_append,
      lines_append_newline hl.1, chopLine_append_newline hl.2, ih, List.cons_append]

theorem lines_flatMap {ls : List (List Char)} (h : ∀ l ∈ ls, IsLine l) :
    lines (ls.flatMap (· ++ ['\n'])) = ls := by
  have hl := lines_flatMap_append h []
  rwa [List.append_nil, show lines [] = [] from rfl, List.append_nil] at hl

/-- A carriage return in front of the line feed goes with it. -/
theorem lines_flatMap_crlf {ls : List (List Char)} (h : ∀ l ∈ ls, IsLine l) :
    lines ((ls.map (· ++ ['\r'])).flatMap (· ++ ['\n'])) = ls := by
  induction ls with
  | nil => rfl
  | cons l ls ih =>
    have hcr : '\n' ∉ l ++ ['\r'] := by simp [(h l List.mem_cons_self).1]
    have hchop : chopLine (l ++ ['\r'] ++ ['\n']) = l := by simp [chopLine]
    rw [List.map_cons, List.flatMap_cons, List.append_assoc, List.singleton_append,
      lines_append_newline hcr, hchop, ih fun m hm => h m (List.mem_cons_of_mem _ hm)]

/-- What a text of lines begins with, when it ends with a line feed: some of the first lines, or all
of them and then the beginning of what follows them. -/
theorem cases_of_prefix_flatMap {ls : List (List Char)} (h : ∀ l ∈ ls, IsLine l) {cs rest : List Char}
    (hcs : cs <+: ls.flatMap (· ++ ['\n']) ++ rest) (hlast : cs.getLast? = some '\n') :
    (∃ k, cs = (ls.take k).flatMap (· ++ ['\n'])) ∨
      ∃ more, cs = ls.flatMap (· ++ ['\n']) ++ more ∧ more.getLast? = some '\n' ∧ more <+: rest := by
  induction ls generalizing cs with
  | nil => exact .inr ⟨cs, rfl, hlast, hcs⟩
  | cons l ls ih =>
    have hfirst : l ++ ['\n'] <+: (l :: ls).flatMap (· ++ ['\n']) ++ rest := by
      rw [List.flatMap_cons, List.append_assoc]
      exact List.prefix_append _ _
    have hone : l ++ ['\n'] = ((l :: ls).take 1).flatMap (· ++ ['\n']) := by simp
    rcases List.prefix_or_prefix_of_prefix hcs hfirst with hshort | ⟨tail, rfl⟩
    · -- No line feed stands within the first line, so the text reaches to its end.
      rcases List.prefix_concat_iff.mp hshort with rfl | hshort
      · exact .inl ⟨1, hone⟩
      · have hmem := hshort.mem (List.mem_of_getLast? hlast)
        exact absurd hmem (h l List.mem_cons_self).1
    · rw [List.flatMap_cons, List.append_assoc (l ++ ['\n']), List.prefix_append_right_inj] at hcs
      rw [List.getLast?_append] at hlast
      cases htail : tail.getLast? with
      | none =>
        rw [List.getLast?_eq_none_iff.mp htail, List.append_nil]
        exact .inl ⟨1, hone⟩
      | some c =>
        rw [htail, Option.some_or] at hlast
        rcases ih (fun m hm => h m (List.mem_cons_of_mem _ hm)) hcs (htail.trans hlast) with
          ⟨k, hk⟩ | ⟨more, hmore, hlast', hrest⟩
        · exact .inl ⟨k + 1, by rw [hk, List.take_succ_cons, List.flatMap_cons]⟩
        · exact .inr ⟨more, by rw [hmore, List.flatMap_cons, List.append_assoc (l ++ ['\n'])], hlast', hrest⟩

/-- Texts that are joined by line feeds are those texts with a line feed behind each but the last. -/
theorem joinWith_newline {items : List String} (h : items ≠ []) :
    (joinWith "\n" items).toList ++ ['\n'] = (items.map String.toList).flatMap (· ++ ['\n']) := by
  unfold joinWith
  induction items with
  | nil => exact absurd rfl h
  | cons a items ih =>
    cases items with
    | nil => simp
    | cons b items =>
      rw [String.intercalate_cons_cons, String.toList_append, String.toList_append, List.append_assoc,
        ih (by simp)]
      simp

/-- As many texts without a line feed are found again in the text that they are joined to. Their number
has to be known, since no text and one that is empty are joined to the same. -/
theorem eq_of_joinWith_newline {items items' : List String} (h : ∀ s ∈ items, '\n' ∉ s.toList)
    (h' : ∀ s ∈ items', '\n' ∉ s.toList) (hlen : items.length = items'.length)
    (heq : joinWith "\n" items = joinWith "\n" items') : items = items' := by
  by_cases hnil : items = []
  · subst hnil
    exact (List.eq_nil_of_length_eq_zero hlen.symm).symm
  · have hnil' : items' ≠ [] := by
      rintro rfl
      exact hnil (List.eq_nil_of_length_eq_zero hlen)
    have hsplit : ∀ {texts : List String}, (∀ s ∈ texts, '\n' ∉ s.toList) → texts ≠ [] →
        (joinWith "\n" texts).toList.splitOn '\n' = texts.map String.toList := fun htexts hne =>
      (splitOn_joinWith_eq_iff (by decide) hne).mpr htexts
    have hmap : items.map String.toList = items'.map String.toList := by
      rw [← hsplit h hnil, heq, hsplit h' hnil']
    exact (List.map_inj_right fun _ _ => String.toList_inj.mp).mp hmap

end FormWeaver.Text
