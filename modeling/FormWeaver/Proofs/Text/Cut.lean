import FormWeaver.Text.Cut

/-!
# Where a text is cut, and what trimming, joining and splitting leave

A text is cut behind what comes before the separator when the separator does not come earlier, not even
in part overlapping itself. Trimming takes blanks off a text that begins and ends with no blank. Joining
adds no characters but those of the separator, and splitting gives the parts of a joined text back when
none of them has the separator in it.
-/

namespace FormWeaver.Text

/-- A separator cuts behind a text in which it does not stand, also with its own beginning behind it. -/
theorem cut?_append {sep cs : List Char} (hne : sep ≠ []) (h : ¬ sep <:+: cs ++ sep.dropLast)
    (rest : List Char) : cut? sep (cs ++ (sep ++ rest)) = some (cs, rest) := by
  induction cs with
  | nil =>
    obtain ⟨s, tail, rfl⟩ := List.exists_cons_of_ne_nil hne
    rw [List.nil_append, List.cons_append, cut?, if_pos (by simp)]
    simp
  | cons c cs ih =>
    have hlater : ¬ sep <:+: cs ++ sep.dropLast := fun hin =>
      h (hin.trans (List.infix_cons (List.infix_refl _)))
    have hnow : ¬ sep <+: c :: cs ++ (sep ++ rest) := by
      intro hbegin
      -- So far to the left it would end before the separator does.
      have hfront : c :: cs ++ sep.dropLast <+: c :: cs ++ (sep ++ rest) :=
        (List.prefix_append_right_inj _).mpr ((List.dropLast_prefix sep).trans (List.prefix_append _ _))
      refine h (List.prefix_of_prefix_length_le hbegin hfront ?_).isInfix
      simp only [List.length_append, List.length_cons, List.length_dropLast]
      omega
    rw [List.cons_append, cut?, if_neg (by simpa using hnow), ih hlater]
    rfl

/-- What comes behind a text changes nothing about a cut in it. -/
theorem cut?_append_right {sep cs before after : List Char} (h : cut? sep cs = some (before, after))
    (back : List Char) : cut? sep (cs ++ back) = some (before, after ++ back) := by
  induction cs generalizing before with
  | nil =>
    cases sep with
    | nil =>
      obtain ⟨rfl, rfl⟩ := Prod.mk.inj (Option.some.inj h)
      cases back <;> rfl
    | cons s sep => cases h
  | cons c cs ih =>
    unfold cut? at h
    split at h
    · next hbegin =>
      obtain ⟨rfl, rfl⟩ := Prod.mk.inj (Option.some.inj h)
      have hprefix : sep <+: c :: cs := List.isPrefixOf_iff_prefix.mp hbegin
      rw [List.cons_append, cut?, if_pos (by simpa using hprefix.trans (List.prefix_append _ back)),
        ← List.cons_append, List.drop_append_of_le_length hprefix.length_le]
    · next hbegin =>
      obtain ⟨⟨before', after'⟩, hcut, heq⟩ := Option.map_eq_some_iff.mp h
      obtain ⟨rfl, rfl⟩ := Prod.mk.inj heq
      -- The separator comes later in full, so here it would end before the text behind begins.
      have hlength : sep.length ≤ (c :: cs).length := by
        rw [eq_append_of_cut? hcut]
        simp only [List.length_cons, List.length_append]
        omega
      have hnow : ¬ sep <+: c :: cs ++ back := fun hlong => hbegin (List.isPrefixOf_iff_prefix.mpr
        (List.prefix_of_prefix_length_le hlong (List.prefix_append _ back) hlength))
      rw [List.cons_append, cut?, if_neg (by simpa using hnow), ih hcut]
      rfl

theorem dropPast?_append_right {sep cs rest : List Char} (h : dropPast? sep cs = some rest)
    (back : List Char) : dropPast? sep (cs ++ back) = some (rest ++ back) := by
  obtain ⟨⟨before, after⟩, hcut, rfl⟩ := Option.map_eq_some_iff.mp h
  rw [dropPast?, cut?_append_right hcut back, Option.map_some]

theorem mem_of_dropPast? {sep cs rest : List Char} (h : dropPast? sep cs = some rest) {c : Char}
    (hc : c ∈ sep) : c ∈ cs := by
  obtain ⟨⟨before, after⟩, hcut, -⟩ := Option.map_eq_some_iff.mp h
  rw [eq_append_of_cut? hcut]
  simp [hc]

/-- A text is not cut when a character of the separator is missing in it. -/
theorem cut?_eq_none_of_notMem {sep cs : List Char} {c : Char} (hc : c ∈ sep) (h : c ∉ cs) :
    cut? sep cs = none := by
  cases hcut : cut? sep cs with
  | none => rfl
  | some parts =>
    have hcs := eq_append_of_cut? hcut
    exact absurd (hcs ▸ List.mem_append_left _ (List.mem_append_right _ hc)) h

theorem cut?_append_of_notMem {c : Char} {cs : List Char} (h : c ∉ cs) (rest : List Char) :
    cut? [c] (cs ++ c :: rest) = some (cs, rest) :=
  cut?_append (by simp) (fun hin => h (by simpa using hin.mem List.mem_cons_self)) rest

theorem dropPast?_append {sep cs : List Char} (hne : sep ≠ []) (h : ¬ sep <:+: cs ++ sep.dropLast)
    (rest : List Char) : dropPast? sep (cs ++ (sep ++ rest)) = some rest := by
  rw [dropPast?, cut?_append hne h, Option.map_some]

theorem dropPast?_append_of_notMem {c : Char} {cs : List Char} (h : c ∉ cs) (rest : List Char) :
    dropPast? [c] (cs ++ c :: rest) = some rest := by
  rw [dropPast?, cut?_append_of_notMem h, Option.map_some]

/-- What stands in front and holds no first character of the separator changes nothing behind the cut. -/
theorem dropPast?_skip {c : Char} {cs : List Char} (h : c ∉ cs) (sep rest : List Char) :
    dropPast? (c :: sep) (cs ++ rest) = dropPast? (c :: sep) rest := by
  unfold dropPast?
  induction cs with
  | nil => rfl
  | cons a cs ih =>
    rw [List.mem_cons, not_or] at h
    rw [List.cons_append, cut?, if_neg (by simpa using fun e : c = a => absurd e h.1), Option.map_map]
    exact ih h.2

/-- A separator does not reach into what holds no last character of it. -/
theorem not_infix_append {sep cs tail : List Char} {last : Char} (hlast : last ∉ tail)
    (h : ¬ sep ++ [last] <:+: cs) : ¬ sep ++ [last] <:+: cs ++ tail := by
  induction tail generalizing cs with
  | nil => rwa [List.append_nil]
  | cons c tail ih =>
    rw [List.mem_cons, not_or] at hlast
    rw [List.append_cons cs c tail]
    refine ih hlast.2 fun hin => ?_
    rcases List.infix_concat_iff.mp hin with ⟨front, hend⟩ | hin
    · rw [← List.append_assoc] at hend
      exact hlast.1 (List.cons.inj (List.append_inj' hend rfl).2).1
    · exact h hin

/-! ## Blanks around a text -/

theorem trimStart_append_of_all {blanks : List Char} (h : ∀ c ∈ blanks, isBlank c = true)
    (cs : List Char) : trimStart (blanks ++ cs) = trimStart cs :=
  List.dropWhile_append_of_pos h

theorem trimStart_eq_self {cs : List Char} (h : ∀ c, cs.head? = some c → isBlank c = false) :
    trimStart cs = cs := by
  cases cs with
  | nil => rfl
  | cons c cs => rw [trimStart, List.dropWhile_cons_of_neg (by simp [h c rfl])]

theorem trimStart_append_cons {c : Char} (hc : isBlank c = false) (cs rest : List Char) :
    trimStart (cs ++ c :: rest) = trimStart cs ++ c :: rest := by
  have hstart : trimStart (c :: rest) = c :: rest := trimStart_eq_self fun a ha => by
    rwa [← Option.some.inj ha]
  unfold trimStart at hstart ⊢
  rw [List.dropWhile_append, hstart]
  split
  · next h => rw [List.isEmpty_iff.mp h, List.nil_append]
  · rfl

/-- What is dropped at the end of a text goes no further than to a character that is not dropped. -/
theorem reverse_dropWhile_reverse_append {p : Char → Bool} {cs tail : List Char}
    (htail : ∀ c ∈ tail, p c = true) (hlast : ∀ c, cs.getLast? = some c → p c = false) :
    ((cs ++ tail).reverse.dropWhile p).reverse = cs := by
  rw [List.reverse_append, List.dropWhile_append_of_pos (by simpa using htail)]
  rcases List.eq_nil_or_concat cs with rfl | ⟨front, c, rfl⟩
  · rfl
  · rw [List.concat_eq_append] at hlast ⊢
    rw [List.reverse_concat, List.dropWhile_cons_of_neg (by simp [hlast c (by simp)]),
      ← List.reverse_concat, List.reverse_reverse]

/-- Blanks behind a text that begins and ends with no blank are trimmed. -/
theorem trim_append {cs blanks : List Char} (hfirst : ∀ c, cs.head? = some c → isBlank c = false)
    (hlast : ∀ c, cs.getLast? = some c → isBlank c = false)
    (hblanks : ∀ c ∈ blanks, isBlank c = true) : trim (cs ++ blanks) = cs := by
  cases cs with
  | nil => exact trim_eq_nil_of_all hblanks
  | cons c cs =>
    have hstart : trimStart (c :: cs ++ blanks) = c :: cs ++ blanks := trimStart_eq_self hfirst
    unfold trim trimEnd
    rw [hstart]
    exact reverse_dropWhile_reverse_append hblanks hlast

/-- Blanks behind a text make no difference to what it is trimmed to. -/
theorem trim_append_of_all {blanks : List Char} (h : ∀ c ∈ blanks, isBlank c = true) (cs : List Char) :
    trim (cs ++ blanks) = trim cs := by
  have hblanks : (blanks ++ []).dropWhile isBlank = [] := trimStart_append_of_all h []
  rw [List.append_nil] at hblanks
  unfold trim trimStart trimEnd
  rw [List.dropWhile_append, hblanks]
  split
  · next hcs => rw [List.isEmpty_iff.mp hcs]
  · rw [List.reverse_append, List.dropWhile_append_of_pos (by simpa using h)]

/-- What is trimmed at the end of a text are blanks. -/
theorem exists_eq_trimEnd_append (cs : List Char) :
    ∃ blanks, (∀ c ∈ blanks, isBlank c = true) ∧ cs = trimEnd cs ++ blanks := by
  refine ⟨(cs.reverse.takeWhile isBlank).reverse, ?_, ?_⟩
  · intro c hc
    exact List.all_eq_true.mp List.all_takeWhile c (List.mem_reverse.mp hc)
  · unfold trimEnd
    rw [← List.reverse_append, List.takeWhile_append_dropWhile, List.reverse_reverse]

theorem trim_trimEnd (cs : List Char) : trim (trimEnd cs) = trim cs := by
  obtain ⟨blanks, hblanks, hcs⟩ := exists_eq_trimEnd_append cs
  conv => rhs; rw [hcs, trim_append_of_all hblanks]

/-- Nothing is trimmed in front of a character that is not blank. -/
theorem trimEnd_append_cons {c : Char} (hc : isBlank c = false) (cs rest : List Char) :
    trimEnd (cs ++ c :: rest) = cs ++ c :: trimEnd rest := by
  have hfront : (cs ++ [c]).reverse.dropWhile isBlank = (cs ++ [c]).reverse := by
    rw [List.reverse_concat, List.dropWhile_cons_of_neg (by simp [hc])]
  unfold trimEnd
  rw [List.append_cons, List.reverse_append, List.dropWhile_append, hfront]
  split
  · next h =>
    rw [List.isEmpty_iff.mp h, List.reverse_reverse]
    simp
  · rw [List.reverse_append, List.reverse_reverse]
    simp

/-- A trimmed text does not end with a blank. -/
theorem isBlank_of_getLast?_trim {cs : List Char} {c : Char} (h : (trim cs).getLast? = some c) :
    isBlank c = false := by
  unfold trim trimEnd at h
  rw [List.getLast?_reverse] at h
  have hhead := List.head?_dropWhile_not isBlank (trimStart cs).reverse
  rw [h] at hhead
  simpa using hhead

/-- Nothing is trimmed at the end of a text that ends with a trimmed one. -/
theorem trimEnd_append_of_trimmed {cs : List Char} (h : trim cs = cs) (hne : cs ≠ []) (front : List Char) :
    trimEnd (front ++ cs) = front ++ cs := by
  obtain ⟨inner, c, rfl⟩ := (List.eq_nil_or_concat cs).resolve_left hne
  rw [List.concat_eq_append] at h ⊢
  have hc : isBlank c = false := isBlank_of_getLast?_trim (h.symm ▸ List.getLast?_concat)
  rw [← List.append_assoc]
  exact trimEnd_append_cons hc (front ++ inner) []

/-- Trimming adds nothing. -/
theorem mem_of_mem_trim {cs : List Char} {c : Char} (h : c ∈ trim cs) : c ∈ cs := by
  have hstart : (trimStart cs).Sublist cs := List.dropWhile_sublist _
  have hend : (trim cs).Sublist (trimStart cs).reverse.reverse := (List.dropWhile_sublist _).reverse
  rw [List.reverse_reverse] at hend
  exact (hend.trans hstart).subset h

/-- A text without blanks is trimmed to itself. -/
theorem trim_eq_self {cs : List Char} (h : ∀ c ∈ cs, isBlank c = false) : trim cs = cs := by
  have := trim_append (fun c hc => h c (List.mem_of_head? hc))
    (fun c hc => h c (List.mem_of_getLast? hc)) (List.forall_mem_nil _)
  rwa [List.append_nil] at this

/-! ## Joined texts -/

/-- Besides separators a joined text has the characters of its parts. -/
theorem mem_intercalate_iff {sep : List Char} {c : Char} (hc : c ∉ sep) {parts : List (List Char)} :
    c ∈ sep.intercalate parts ↔ ∃ part ∈ parts, c ∈ part := by
  induction parts with
  | nil => simp [List.intercalate]
  | cons part parts ih =>
    cases parts with
    | nil => simp [List.intercalate]
    | cons next parts =>
      rw [List.intercalate_cons_cons, List.mem_append, List.mem_append, ih]
      simp [hc]

theorem mem_joinWith_iff {sep : String} {c : Char} (hc : c ∉ sep.toList) {parts : List String} :
    c ∈ (joinWith sep parts).toList ↔ ∃ part ∈ parts, c ∈ part.toList := by
  rw [joinWith, String.toList_intercalate, mem_intercalate_iff hc]
  constructor
  · rintro ⟨_, hmem, h⟩
    obtain ⟨part, hpart, rfl⟩ := List.mem_map.mp hmem
    exact ⟨part, hpart, h⟩
  · rintro ⟨part, hpart, h⟩
    exact ⟨_, List.mem_map_of_mem hpart, h⟩

/-! ## Split texts -/

/-- No piece of a split text has a separator in it. -/
theorem notMem_of_mem_splitOnP {p : Char → Bool} {cs piece : List Char} (h : piece ∈ cs.splitOnP p) {c : Char}
    (hc : p c = true) : c ∉ piece := by
  induction cs generalizing piece with
  | nil =>
    rw [List.splitOnP_nil, List.mem_singleton] at h
    rw [h]
    exact List.not_mem_nil
  | cons x cs ih =>
    rw [List.splitOnP_cons_eq_if_modifyHead] at h
    split at h
    · rcases List.mem_cons.mp h with rfl | h
      · exact List.not_mem_nil
      · exact ih h
    · next hx =>
      obtain ⟨first, rest, hcs⟩ := List.exists_cons_of_ne_nil (List.splitOnP_ne_nil p cs)
      rw [hcs] at h ih
      rcases List.mem_cons.mp h with rfl | h
      · apply List.not_mem_cons_of_ne_of_not_mem
        · rintro rfl
          exact hx hc
        · exact ih List.mem_cons_self
      · exact ih (List.mem_cons_of_mem _ h)

theorem notMem_of_mem_splitOn {c : Char} {cs piece : List Char} (h : piece ∈ cs.splitOn c) : c ∉ piece := by
  rw [List.splitOn_eq_splitOnP] at h
  exact notMem_of_mem_splitOnP h (beq_self_eq_true c)

section

variable {sep : String} {c : Char} {items : List String}

/-- A joined text falls into the pieces of its parts. -/
theorem splitOn_joinWith (hsep : sep.toList = [c]) (hne : items ≠ []) :
    (joinWith sep items).toList.splitOn c = items.flatMap fun item => item.toList.splitOn c := by
  rw [joinWith, String.toList_intercalate, hsep]
  induction items with
  | nil => exact absurd rfl hne
  | cons item items ih =>
    cases items with
    | nil => simp
    | cons next items =>
      rw [List.map_cons, List.map_cons, List.intercalate_cons_cons, List.append_assoc,
        List.singleton_append, List.splitOn_append_cons_self, ← List.map_cons,
        ih (List.cons_ne_nil next items)]
      rfl

/-- The parts of a joined text are got back exactly when no part has the separator in it. -/
theorem splitOn_joinWith_eq_iff (hsep : sep.toList = [c]) (hne : items ≠ []) :
    (joinWith sep items).toList.splitOn c = items.map String.toList ↔ ∀ item ∈ items, c ∉ item.toList := by
  constructor
  · intro h item hitem
    have hpiece : item.toList ∈ (joinWith sep items).toList.splitOn c := by
      rw [h]
      exact List.mem_map_of_mem hitem
    exact notMem_of_mem_splitOn hpiece
  · intro h
    rw [joinWith, String.toList_intercalate, hsep]
    exact List.splitOn_intercalate c (by simpa using h) (by simpa using hne)

end

end FormWeaver.Text
