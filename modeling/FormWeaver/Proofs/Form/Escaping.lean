import FormWeaver.Form.Entity

/-!
# Unescaping in one pass

Entities are substituted one after the other, each over the whole text. That comes to the same as one
pass from left to right over all of them (`unescape_eq_decode`): what one substitution writes is never
part of what a later one looks for, since every spelling begins with an ampersand and the ampersand's
own entity comes last. An order in which another entity follows the ampersand's does not have this
property (`substituteEach_eq_decodeFrom_iff`).

So an entity is read by itself, whatever stands on its two sides; a text is kept exactly if there is no
entity in it; and what `escape` writes is read back (`unescape_single_pass`).
-/

namespace FormWeaver.Text

variable {old new : List Char}

theorem replaceFrom_eq_drop (skip : Nat) (cs : List Char) :
    replaceFrom old new skip cs = replaceAll old new (cs.drop skip) := by
  induction skip generalizing cs with
  | zero => rfl
  | succ skip ih => cases cs with
    | nil => rfl
    | cons c cs => exact ih cs

theorem replaceAll_append {cs : List Char} (hold : old ≠ []) :
    replaceAll old new (old ++ cs) = new ++ replaceAll old new cs := by
  obtain ⟨c, tail, rfl⟩ := List.exists_cons_of_ne_nil hold
  unfold replaceAll
  rw [List.cons_append, replaceFrom, if_pos (by simp), replaceFrom_eq_drop]
  simp [replaceAll]

theorem replaceAll_cons {c : Char} {cs : List Char} (h : ¬ old <+: c :: cs) :
    replaceAll old new (c :: cs) = c :: replaceAll old new cs := by
  unfold replaceAll
  rw [replaceFrom, if_neg (by simpa using h)]

end FormWeaver.Text

namespace FormWeaver.Form

/-- Substitutes some entities for their characters in one pass from left to right; the number counts
the characters of a spelling that are still to be passed over. -/
def decodeFrom (es : List Entity) : Nat → List Char → List Char
  | _, [] => []
  | skip + 1, _ :: cs => decodeFrom es skip cs
  | 0, c :: cs =>
    match es.find? fun e => e.spelling.isPrefixOf (c :: cs) with
    | some e => e.char :: decodeFrom es (e.spelling.length - 1) cs
    | none => c :: decodeFrom es 0 cs

/-- Substitutes every entity for its character in one pass. -/
def decode (cs : List Char) : List Char := decodeFrom Entity.all 0 cs

namespace Entity

theorem mem_all (e : Entity) : e ∈ all := by
  cases e <;> decide

theorem char_inj {e e' : Entity} : e.char = e'.char ↔ e = e' := by
  cases e <;> cases e' <;> decide

theorem spelling_eq_cons (e : Entity) : ∃ tail, e.spelling = '&' :: tail ∧ '&' ∉ tail ∧
    ∀ e' : Entity, e' ≠ ampersand → e'.char ∉ tail := by
  cases e <;> exact ⟨_, rfl, by decide, by rintro (_ | _) <;> decide⟩

theorem one_lt_length_spelling (e : Entity) : 1 < e.spelling.length := by
  cases e <;> decide

theorem eq_of_prefix_append {e e' : Entity} {cs : List Char} (h : e.spelling <+: e'.spelling ++ cs) :
    e = e' := by
  cases e <;> cases e' <;> simp [spelling] at h ⊢

/-- A spelling does not reach over an ampersand. -/
theorem prefix_of_prefix_append {e : Entity} {c : Char} {cs rest : List Char}
    (h : e.spelling <+: c :: (cs ++ '&' :: rest)) : e.spelling <+: c :: cs := by
  obtain ⟨tail, htail, hamp, -⟩ := e.spelling_eq_cons
  rw [htail, List.cons_prefix_cons] at h ⊢
  refine ⟨h.1, ?_⟩
  rcases List.prefix_or_prefix_of_prefix h.2 (List.prefix_append cs ('&' :: rest)) with
    hshort | ⟨more, rfl⟩
  · exact hshort
  · rw [List.prefix_append_right_inj] at h
    cases more with
    | nil => simp
    | cons a more =>
      rw [List.cons_prefix_cons] at h
      exact absurd (by simp [h.2.1]) hamp

end Entity

variable {es : List Entity}

theorem decodeFrom_eq_drop (skip : Nat) (cs : List Char) :
    decodeFrom es skip cs = decodeFrom es 0 (cs.drop skip) := by
  induction skip generalizing cs with
  | zero => rfl
  | succ skip ih => cases cs with
    | nil => rfl
    | cons c cs => exact ih cs

theorem find?_eq_some_of_mem {e : Entity} (he : e ∈ es) (cs : List Char) :
    (es.find? fun e' => e'.spelling.isPrefixOf (e.spelling ++ cs)) = some e := by
  cases hf : es.find? fun e' => e'.spelling.isPrefixOf (e.spelling ++ cs) with
  | none => simpa using List.find?_eq_none.mp hf e he
  | some e' =>
    have hbegin := List.find?_some hf
    rw [Entity.eq_of_prefix_append (List.isPrefixOf_iff_prefix.mp hbegin)]

theorem decodeFrom_append_of_mem {e : Entity} (he : e ∈ es) (cs : List Char) :
    decodeFrom es 0 (e.spelling ++ cs) = e.char :: decodeFrom es 0 cs := by
  have hfind := find?_eq_some_of_mem he cs
  obtain ⟨tail, htail, -⟩ := e.spelling_eq_cons
  rw [htail, List.cons_append] at hfind ⊢
  rw [decodeFrom, hfind]
  simp only [htail, List.length_cons, Nat.add_sub_cancel]
  rw [decodeFrom_eq_drop, List.drop_left]

theorem decodeFrom_cons {c : Char} {cs : List Char} (h : ∀ e ∈ es, ¬ e.spelling <+: c :: cs) :
    decodeFrom es 0 (c :: cs) = c :: decodeFrom es 0 cs := by
  have hfind : (es.find? fun e => e.spelling.isPrefixOf (c :: cs)) = none :=
    List.find?_eq_none.mpr fun e he => by simpa using h e he
  rw [decodeFrom, hfind]

theorem decodeFrom_cons_of_ne {c : Char} (hc : c ≠ '&') (cs : List Char) :
    decodeFrom es 0 (c :: cs) = c :: decodeFrom es 0 cs := by
  apply decodeFrom_cons
  intro e _ hbegin
  obtain ⟨tail, htail, -⟩ := e.spelling_eq_cons
  rw [htail, List.cons_prefix_cons] at hbegin
  exact hc hbegin.1.symm

theorem decodeFrom_append {front : List Char} (h : '&' ∉ front) (cs : List Char) :
    decodeFrom es 0 (front ++ cs) = front ++ decodeFrom es 0 cs := by
  induction front with
  | nil => rfl
  | cons c front ih =>
    rw [List.mem_cons, not_or] at h
    rw [List.cons_append, decodeFrom_cons_of_ne (Ne.symm h.1), ih h.2]
    rfl

theorem decodeFrom_of_notMem {cs : List Char} (h : '&' ∉ cs) : decodeFrom es 0 cs = cs := by
  have hall : decodeFrom es 0 (cs ++ []) = cs ++ decodeFrom es 0 [] := decodeFrom_append h []
  rwa [List.append_nil, decodeFrom, List.append_nil] at hall

/-- The spelling of an entity that a pass does not look for is left as it is. -/
theorem decodeFrom_append_of_notMem {e : Entity} (he : e ∉ es) (cs : List Char) :
    decodeFrom es 0 (e.spelling ++ cs) = e.spelling ++ decodeFrom es 0 cs := by
  have hno : ∀ e' ∈ es, ¬ e'.spelling <+: e.spelling ++ cs := by
    intro e' he' hbegin
    exact he (Entity.eq_of_prefix_append hbegin ▸ he')
  obtain ⟨tail, htail, hamp, -⟩ := e.spelling_eq_cons
  rw [htail, List.cons_append] at hno ⊢
  rw [decodeFrom_cons hno, decodeFrom_append hamp, List.cons_append]

/-- Induction along a pass: an entity that it looks for is passed over at once, and every other
character by itself. -/
@[elab_as_elim]
theorem pass_induction (es : List Entity) {P : List Char → Prop} (nil : P [])
    (entity : ∀ e ∈ es, ∀ rest, P rest → P (e.spelling ++ rest))
    (kept : ∀ c cs, (∀ e ∈ es, ¬ e.spelling <+: c :: cs) → P cs → P (c :: cs))
    (cs : List Char) : P cs := by
  induction hn : cs.length using Nat.strongRecOn generalizing cs with
  | ind n ih =>
    subst hn
    by_cases hsome : ∃ e ∈ es, e.spelling <+: cs
    · obtain ⟨e, he, rest, rfl⟩ := hsome
      have hlength : rest.length < (e.spelling ++ rest).length := by
        have := e.one_lt_length_spelling
        rw [List.length_append]
        omega
      exact entity e he rest (ih _ hlength rest rfl)
    · cases cs with
      | nil => exact nil
      | cons c cs =>
        refine kept c cs (fun e he hbegin => hsome ⟨e, he, hbegin⟩) ?_
        exact ih cs.length (Nat.lt_succ_self _) cs rfl

/-- What a pass leaves at the front was there before, unless the pass may have written it. -/
theorem prefix_of_prefix_decodeFrom {front cs : List Char} (h : ∀ e ∈ es, e.char ∉ front)
    (hbegin : front <+: decodeFrom es 0 cs) : front <+: cs := by
  induction front generalizing cs with
  | nil => exact List.nil_prefix
  | cons a front ih =>
    cases cs with
    | nil => simp [decodeFrom] at hbegin
    | cons c cs =>
      rw [decodeFrom] at hbegin
      split at hbegin
      · next e he =>
        rw [List.cons_prefix_cons] at hbegin
        exact absurd (hbegin.1 ▸ List.mem_cons_self) (h e (List.mem_of_find?_eq_some he))
      · rw [List.cons_prefix_cons] at hbegin ⊢
        exact ⟨hbegin.1, ih (fun e he hmem => h e he (List.mem_cons_of_mem _ hmem)) hbegin.2⟩

theorem decodeFrom_eq_self {cs : List Char} (h : ∀ e ∈ es, ¬ e.spelling <:+: cs) :
    decodeFrom es 0 cs = cs := by
  induction cs with
  | nil => rfl
  | cons c cs ih =>
    have hrest : ∀ e ∈ es, ¬ e.spelling <:+: cs := fun e he hinfix => h e he (List.infix_cons hinfix)
    rw [decodeFrom_cons (fun e he hbegin => h e he hbegin.isInfix), ih hrest]

/-! ## One substitution after the other -/

/-- Substituting one more entity after a pass is a pass with one more entity. -/
theorem replaceAll_decodeFrom {e : Entity} (hes : Entity.ampersand ∉ es) (cs : List Char) :
    Text.replaceAll e.spelling [e.char] (decodeFrom es 0 cs) = decodeFrom (es ++ [e]) 0 cs := by
  obtain ⟨tail, htail, -, hchars⟩ := e.spelling_eq_cons
  induction cs using pass_induction (es ++ [e]) with
  | nil => rfl
  | entity e' he' rest ih =>
    rw [decodeFrom_append_of_mem he', ← ih]
    by_cases hmem : e' ∈ es
    · -- An entity of the pass before is found first, and what it writes is no ampersand.
      rw [decodeFrom_append_of_mem hmem, Text.replaceAll_cons]
      rw [htail, List.cons_prefix_cons]
      rintro ⟨hchar, -⟩
      have hwritten : Entity.ampersand = e' := Entity.char_inj.mp hchar
      exact hes (hwritten ▸ hmem)
    · -- The new entity is found, and the pass before has left its spelling as it was.
      obtain rfl : e' = e := by simpa [hmem] using he'
      rw [decodeFrom_append_of_notMem hmem, Text.replaceAll_append (by simp [htail])]
      rfl
  | kept c cs hno ih =>
    have hbefore : ∀ e' ∈ es, ¬ e'.spelling <+: c :: cs :=
      fun e' he' => hno e' (List.mem_append_left _ he')
    rw [decodeFrom_cons hbefore, decodeFrom_cons hno, Text.replaceAll_cons, ih]
    intro hbegin
    rw [htail, List.cons_prefix_cons] at hbegin
    have hread : tail <+: cs := by
      refine prefix_of_prefix_decodeFrom (fun e' he' => hchars e' ?_) hbegin.2
      rintro rfl
      exact hes he'
    apply hno e (List.mem_append_right _ List.mem_cons_self)
    rw [htail, List.cons_prefix_cons]
    exact ⟨hbegin.1, hread⟩

theorem decodeFrom_nil (cs : List Char) : decodeFrom [] 0 cs = cs :=
  decodeFrom_eq_self (by simp)

theorem replaceAll_eq_decodeFrom (e : Entity) (cs : List Char) :
    Text.replaceAll e.spelling [e.char] cs = decodeFrom [e] 0 cs := by
  have hpass : Text.replaceAll e.spelling [e.char] (decodeFrom [] 0 cs) = decodeFrom ([] ++ [e]) 0 cs :=
    replaceAll_decodeFrom List.not_mem_nil cs
  rwa [decodeFrom_nil, List.nil_append] at hpass

/-- Substitutes some entities for their characters, one entity after the other. -/
def substituteEach (es : List Entity) (cs : List Char) : List Char :=
  es.foldl (fun cs e => Text.replaceAll e.spelling [e.char] cs) cs

/-- After some of the substitutions the text is what one pass over their entities gives. -/
theorem substituteEach_decodeFrom {done : List Entity} (h : Entity.ampersand ∉ (done ++ es).dropLast)
    (cs : List Char) : substituteEach es (decodeFrom done 0 cs) = decodeFrom (done ++ es) 0 cs := by
  unfold substituteEach
  induction es generalizing done with
  | nil => rw [List.foldl_nil, List.append_nil]
  | cons e es ih =>
    have hdone : Entity.ampersand ∉ done := by
      rw [List.dropLast_append_of_ne_nil (by simp)] at h
      exact fun hmem => h (List.mem_append_left _ hmem)
    rw [List.append_cons] at h ⊢
    rw [List.foldl_cons, replaceAll_decodeFrom hdone, ih h]

theorem substituteEach_eq_decodeFrom (h : Entity.ampersand ∉ es.dropLast) (cs : List Char) :
    substituteEach es cs = decodeFrom es 0 cs := by
  have hall : substituteEach es (decodeFrom [] 0 cs) = decodeFrom ([] ++ es) 0 cs :=
    substituteEach_decodeFrom (by rwa [List.nil_append]) cs
  rwa [decodeFrom_nil, List.nil_append] at hall

theorem substituteEach_single (c : Char) : substituteEach es [c] = [c] := by
  unfold substituteEach
  induction es with
  | nil => rfl
  | cons e es ih =>
    rw [List.foldl_cons, Text.replaceAll_cons]
    · exact ih
    · intro hbegin
      have hlength : e.spelling.length ≤ 1 := hbegin.length_le
      exact absurd e.one_lt_length_spelling (Nat.not_lt.mpr hlength)

/-- An entity that follows the ampersand's can read what the ampersand's has written. -/
theorem exists_read_again {front : List Entity} (h : Entity.ampersand ∉ front) (e : Entity)
    (rest : List Entity) : ∃ cs, substituteEach (front ++ .ampersand :: e :: rest) cs = [e.char] ∧
      decodeFrom (front ++ .ampersand :: e :: rest) 0 cs = e.spelling := by
  obtain ⟨tail, htail, hamp, -⟩ := e.spelling_eq_cons
  have hfront : substituteEach front (Entity.ampersand.spelling ++ tail) =
      Entity.ampersand.spelling ++ tail := by
    rw [substituteEach_eq_decodeFrom fun hmem => h (List.dropLast_subset _ hmem),
      decodeFrom_append_of_notMem h, decodeFrom_of_notMem hamp]
  have hwritten : Text.replaceAll Entity.ampersand.spelling [Entity.ampersand.char]
      (Entity.ampersand.spelling ++ tail) = e.spelling := by
    rw [replaceAll_eq_decodeFrom, decodeFrom_append_of_mem List.mem_cons_self,
      decodeFrom_of_notMem hamp, htail]
    rfl
  have hread : Text.replaceAll e.spelling [e.char] e.spelling = [e.char] := by
    have hpass := decodeFrom_append_of_mem (List.mem_singleton_self e) []
    rwa [List.append_nil, decodeFrom, ← replaceAll_eq_decodeFrom] at hpass
  -- The text is the ampersand's entity with the rest of the other entity's spelling behind it.
  refine ⟨Entity.ampersand.spelling ++ tail, ?_, ?_⟩
  · calc substituteEach (front ++ .ampersand :: e :: rest) (Entity.ampersand.spelling ++ tail)
        = substituteEach rest (Text.replaceAll e.spelling [e.char]
            (Text.replaceAll Entity.ampersand.spelling [Entity.ampersand.char]
              (substituteEach front (Entity.ampersand.spelling ++ tail)))) := by
          unfold substituteEach
          rw [List.foldl_append, List.foldl_cons, List.foldl_cons]
      _ = [e.char] := by rw [hfront, hwritten, hread, substituteEach_single]
  · rw [decodeFrom_append_of_mem (by simp), decodeFrom_of_notMem hamp, htail]
    rfl

/-- **The order of the substitutions.** They come to one pass exactly if none follows the ampersand's. -/
theorem substituteEach_eq_decodeFrom_iff :
    (∀ cs, substituteEach es cs = decodeFrom es 0 cs) ↔ Entity.ampersand ∉ es.dropLast := by
  refine ⟨fun h hmem => ?_, fun h => substituteEach_eq_decodeFrom h⟩
  rcases List.eq_nil_or_concat es with rfl | ⟨before, last, rfl⟩
  · cases hmem
  · rw [List.concat_eq_append] at h hmem
    rw [List.dropLast_concat] at hmem
    obtain ⟨front, between, rfl, hfront⟩ := List.eq_append_cons_of_mem hmem
    obtain ⟨e, rest, hnext⟩ : ∃ e rest, between ++ [last] = e :: rest :=
      List.exists_cons_of_ne_nil (by simp)
    rw [List.append_assoc, List.cons_append, hnext] at h
    obtain ⟨cs, htwice, honce⟩ := exists_read_again hfront e rest
    have hlength := e.one_lt_length_spelling
    rw [← honce, ← h, htwice, List.length_singleton] at hlength
    exact Nat.lt_irrefl 1 hlength

/-- **Unescaping is one pass from left to right.** -/
theorem unescape_eq_decode (cs : List Char) : unescape cs = decode cs := by
  show substituteEach Entity.all cs = decodeFrom Entity.all 0 cs
  exact substituteEach_eq_decodeFrom (by decide) cs

theorem decode_append_entity (e : Entity) (cs : List Char) :
    decode (e.spelling ++ cs) = e.char :: decode cs :=
  decodeFrom_append_of_mem e.mem_all cs

theorem decode_cons {c : Char} (hc : c ≠ '&') (cs : List Char) : decode (c :: cs) = c :: decode cs :=
  decodeFrom_cons_of_ne hc cs

/-- A text is read piece by piece if each piece stands for one character whatever comes behind. -/
theorem decode_flatMap {α : Type} {spelled : α → List Char} {char : α → Char}
    (h : ∀ a cs, decode (spelled a ++ cs) = char a :: decode cs) (as : List α) :
    decode (as.flatMap spelled) = as.map char := by
  induction as with
  | nil => rfl
  | cons a as ih => rw [List.flatMap_cons, h, ih, List.map_cons]

/-! ## What stands on the two sides of an entity -/

/-- A pass may be begun anew at every ampersand. -/
theorem decodeFrom_append_ampersand (front cs : List Char) :
    decodeFrom es 0 (front ++ '&' :: cs) = decodeFrom es 0 front ++ decodeFrom es 0 ('&' :: cs) := by
  induction front using pass_induction es with
  | nil => rfl
  | entity e he rest ih =>
    rw [List.append_assoc, decodeFrom_append_of_mem he, decodeFrom_append_of_mem he, ih,
      List.cons_append]
  | kept c front hno ih =>
    have hstill : ∀ e ∈ es, ¬ e.spelling <+: c :: (front ++ '&' :: cs) :=
      fun e he hbegin => hno e he (Entity.prefix_of_prefix_append hbegin)
    rw [List.cons_append, decodeFrom_cons hstill, decodeFrom_cons hno, ih, List.cons_append]

theorem decode_append_entity_append (e : Entity) (front cs : List Char) :
    decode (front ++ (e.spelling ++ cs)) = decode front ++ e.char :: decode cs := by
  have hentity := decode_append_entity e cs
  obtain ⟨tail, htail, -⟩ := e.spelling_eq_cons
  rw [htail, List.cons_append] at hentity ⊢
  unfold decode at hentity ⊢
  rw [decodeFrom_append_ampersand, hentity]

/-! ## Texts without entities -/

theorem length_decodeFrom_le (cs : List Char) : (decodeFrom es 0 cs).length ≤ cs.length := by
  induction cs using pass_induction es with
  | nil => exact Nat.le_refl _
  | entity e he rest ih =>
    have := e.one_lt_length_spelling
    rw [decodeFrom_append_of_mem he, List.length_cons, List.length_append]
    omega
  | kept c cs hno ih =>
    rw [decodeFrom_cons hno, List.length_cons, List.length_cons]
    omega

theorem decode_eq_self_iff (cs : List Char) :
    decode cs = cs ↔ ∀ e : Entity, ¬ e.spelling <:+: cs := by
  refine ⟨fun h e hinfix => ?_, fun h => decodeFrom_eq_self fun e _ => h e⟩
  -- An entity is longer than its character, and no part of a text grows.
  obtain ⟨front, back, rfl⟩ := hinfix
  have hlength := congrArg List.length h
  rw [List.append_assoc, decode_append_entity_append] at hlength
  simp only [List.length_append, List.length_cons] at hlength
  have hfront : (decode front).length ≤ front.length := length_decodeFrom_le front
  have hback : (decode back).length ≤ back.length := length_decodeFrom_le back
  have := e.one_lt_length_spelling
  omega

/-! ## Escaping -/

/-- How a character is written when those of some entities are escaped, and the ampersand with them. -/
def escapeChar (es : List Entity) (c : Char) : List Char :=
  match (Entity.ampersand :: es).find? (·.char == c) with
  | some e => e.spelling
  | none => [c]

/-- Writes entities for the ampersand and the characters of some more entities. -/
def escape (es : List Entity) (cs : List Char) : List Char := cs.flatMap (escapeChar es)

theorem decode_escapeChar_append (es : List Entity) (c : Char) (cs : List Char) :
    decode (escapeChar es c ++ cs) = c :: decode cs := by
  unfold escapeChar
  split
  · next e he =>
    have hchar : e.char = c := by simpa using List.find?_some he
    rw [decode_append_entity, hchar]
  · next hnone =>
    have hne : c ≠ '&' := by
      rintro rfl
      simp [Entity.char] at hnone
    exact decode_cons hne cs

theorem decode_escape (es : List Entity) (cs : List Char) : decode (escape es cs) = cs := by
  have hchars : decode (escape es cs) = cs.map id := decode_flatMap (decode_escapeChar_append es) cs
  rwa [List.map_id] at hchars

/-- **Unescaping is a single-pass decode.** The substitutions, each over the whole text, come to one
pass from left to right. The character that is written for an entity stands between what the two sides
of the entity give, so it is never read again; a text is kept as it is exactly if there is no entity in
it; and whichever characters are escaped beside the ampersand, unescaping gives them back. -/
theorem unescape_single_pass (raw : List Char) :
    unescape raw = decode raw ∧
      (∀ (e : Entity) (after : List Char),
        unescape (raw ++ (e.spelling ++ after)) = unescape raw ++ e.char :: unescape after) ∧
      (unescape raw = raw ↔ ∀ e : Entity, ¬ e.spelling <:+: raw) ∧
      ∀ es : List Entity, unescape (escape es raw) = raw := by
  refine ⟨unescape_eq_decode raw, fun e after => ?_, ?_, fun es => ?_⟩
  · rw [unescape_eq_decode, unescape_eq_decode, unescape_eq_decode, decode_append_entity_append]
  · rw [unescape_eq_decode, decode_eq_self_iff]
  · rw [unescape_eq_decode, decode_escape]

example : unescape "&amp;lt; &l&gt;t;".toList = "&lt; &l>t;".toList := by decide

end FormWeaver.Form
