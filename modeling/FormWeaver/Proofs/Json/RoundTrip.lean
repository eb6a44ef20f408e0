import FormWeaver.Json.Parser
import FormWeaver.Json.Printer
import FormWeaver.Proofs.Text.Lines
import Mathlib.Data.List.TakeDrop

/-!
# Reading back what was written

A string that is quoted, a number that is written in decimal, and an object of such values are read
back as they were, whatever follows them in the text. The records of the cache are such objects.
-/

namespace FormWeaver.Json

open Text (IsLine)

/-! ## Strings -/

/-- Whether a piece of a string stands for a character. -/
def Piece.StandsFor (p : Piece) (c : Char) : Prop := p = .char c ∨ (p = .unit c.toNat ∧ c.toNat < 0x20)

theorem unit?_hexPair : ∀ n < 0x20,
    unit? '0' '0' (Nat.digitChar (n / 16)) (Nat.digitChar (n % 16)) = some n := by
  decide

/-- A character that is escaped is read as one piece that stands for it. -/
theorem pieces?_escapeChar (c : Char) (rest : List Char) :
    ∃ p : Piece, p.StandsFor c ∧
      pieces? (escapeChar c ++ rest) = (pieces? rest).map fun (ps, r) => (p :: ps, r) := by
  by_cases hs : c ∈ ['"', '\\', '\x08', '\t', '\n', '\x0c', '\r']
  · refine ⟨.char c, .inl rfl, ?_⟩
    simp only [List.mem_cons, List.not_mem_nil, or_false] at hs
    rcases hs with rfl | rfl | rfl | rfl | rfl | rfl | rfl <;> simp [escapeChar, pieces?]
  simp only [List.mem_cons, List.not_mem_nil, or_false, not_or] at hs
  obtain ⟨hq, hb, h8, ht, hn, hf, hr⟩ := hs
  by_cases hc : c.toNat < 0x20
  · refine ⟨.unit c.toNat, .inr ⟨rfl, hc⟩, ?_⟩
    have he : escapeChar c = ['\\', 'u', '0', '0'] ++ Text.hexPair c.toNat := by
      simp [escapeChar, hq, hb, h8, ht, hn, hf, hr, hc]
    have hu := unit?_hexPair c.toNat hc
    simp [he, Text.hexPair, pieces?, hu]
  · refine ⟨.char c, .inl rfl, ?_⟩
    have he : escapeChar c = [c] := by
      simp [escapeChar, hq, hb, h8, ht, hn, hf, hr, hc]
    have hnot : (c = '\\' || decide (c.toNat < 0x20)) = false := by simp [hb, hc]
    rw [he, List.singleton_append, pieces?.eq_def]
    split
    · contradiction
    · next h => exact absurd (List.cons.inj h).1 hq
    · next h => exact absurd (List.cons.inj h).1 hb
    · next h => exact absurd (List.cons.inj h).1 hb
    · next h =>
      obtain ⟨rfl, rfl⟩ := List.cons.inj h
      rw [if_neg (by simpa using ⟨hb, Nat.not_lt.mp hc⟩)]

theorem textOf?_cons {p : Piece} {c : Char} (h : p.StandsFor c) (ps : List Piece) :
    textOf? (p :: ps) = (textOf? ps).map (c :: ·) := by
  rcases h with rfl | ⟨rfl, hc⟩
  · rfl
  · have h1 : ¬ 0xD800 ≤ c.toNat := by omega
    have h2 : ¬ 0xDC00 ≤ c.toNat := by omega
    rw [textOf?.eq_def (.unit c.toNat :: ps)]
    simp [h1, h2, Char.ofNat_toNat]

theorem pieces?_quoted (s rest : List Char) :
    ∃ ps, pieces? (s.flatMap escapeChar ++ '"' :: rest) = some (ps, rest) ∧ textOf? ps = some s := by
  induction s with
  | nil => exact ⟨[], by simp [pieces?], rfl⟩
  | cons c s ih =>
    obtain ⟨ps, hps, hs⟩ := ih
    obtain ⟨p, hp, he⟩ := pieces?_escapeChar c (s.flatMap escapeChar ++ '"' :: rest)
    refine ⟨p :: ps, ?_, ?_⟩
    · rw [List.flatMap_cons, List.append_assoc, he, hps]
      rfl
    · rw [textOf?_cons hp, hs]
      rfl

theorem toList_quote (text : String) :
    (quote text).toList = '"' :: (text.toList.flatMap escapeChar ++ ['"']) := by
  simp [quote]

theorem value?_quote (fuel : Nat) (text : String) (rest : List Char) :
    value? (fuel + 1) ((quote text).toList ++ rest) = some (.string text, rest) := by
  obtain ⟨ps, hps, ht⟩ := pieces?_quoted text.toList rest
  rw [toList_quote]
  simp [value?, skipSpace, isSpace, hps, ht]

theorem name?_quote (text : String) (rest : List Char) :
    name? ((quote text).toList ++ ':' :: rest) = some (some text, rest) := by
  obtain ⟨ps, hps, ht⟩ := pieces?_quoted text.toList (':' :: rest)
  rw [toList_quote]
  simp [name?, skipSpace, isSpace, hps, ht]

theorem isLine_quote (text : String) : IsLine (quote text).toList := by
  have hex : ∀ n < 0x20, '\n' ∉ Text.hexPair n ∧ '\r' ∉ Text.hexPair n := by decide
  have one : ∀ x : Char, '\n' ∉ escapeChar x ∧ '\r' ∉ escapeChar x := by
    intro x
    unfold escapeChar
    repeat' split
    all_goals first
      | decide
      | (rename_i h; simpa using hex _ h)
      | (simp only [List.mem_singleton]; constructor <;> rintro rfl <;> contradiction)
  rw [toList_quote]
  constructor <;> simp [one]

/-! ## Numbers -/

/-- What a text may go on with behind a number: nothing that the number could take in. -/
def EndsNumber (rest : List Char) : Prop :=
  ∀ c ∈ rest.head?, c.isDigit = false ∧ c ≠ '.' ∧ c ≠ 'e' ∧ c ≠ 'E'

theorem digits_append {ds rest : List Char} (hd : ∀ c ∈ ds, c.isDigit = true) (hr : EndsNumber rest) :
    digits (ds ++ rest) = (ds, rest) := by
  unfold digits
  rw [List.span_eq_takeWhile_dropWhile]
  have hrest : rest.takeWhile Char.isDigit = [] ∧ rest.dropWhile Char.isDigit = rest := by
    cases rest with
    | nil => simp
    | cons c rest => simp [(hr c rfl).1]
  rw [List.takeWhile_append_of_pos hd, List.dropWhile_append_of_pos hd, hrest.1, hrest.2]
  simp

theorem toDigits_isDigit {n : Nat} {c : Char} (h : c ∈ Nat.toDigits 10 n) : c.isDigit = true :=
  Nat.isDigit_of_mem_toDigits (by decide) (by decide) h

/-- Decimal digits begin with a zero only when that is all. -/
theorem toDigits_eq_zero_cons {n : Nat} {ds : List Char} (h : Nat.toDigits 10 n = '0' :: ds) : ds = [] := by
  induction n using Nat.strongRecOn generalizing ds with
  | ind n ih =>
    by_cases hn : n < 10
    · rw [Nat.toDigits_of_lt_base hn] at h
      exact (List.cons.inj h).2.symm
    · rw [Nat.toDigits_of_base_le (by decide) (by omega)] at h
      cases hq : Nat.toDigits 10 (n / 10) with
      | nil => exact absurd hq Nat.toDigits_ne_nil
      | cons c cs =>
        rw [hq] at h
        obtain ⟨rfl, -⟩ := List.cons.inj h
        have hcs := ih (n / 10) (by omega) hq
        subst hcs
        -- a quotient with the single digit zero is zero, yet `n` is at least ten
        have hz := congrArg Text.decimalValue hq
        rw [Text.decimalValue_toDigits] at hz
        have : Text.decimalValue ['0'] = 0 := by decide
        omega

theorem number?_toDigits (n : Nat) {rest : List Char} (hr : EndsNumber rest) :
    number? (Nat.toDigits 10 n ++ rest) = some (Text.decimal n, rest) := by
  have hd := digits_append (fun _ => toDigits_isDigit (n := n)) hr
  have hw : wholePart? (Nat.toDigits 10 n ++ rest) = some (Nat.toDigits 10 n, rest) := by
    unfold wholePart?
    rw [hd]
    split
    · next h => exact absurd (Prod.mk.inj h).1 Nat.toDigits_ne_nil
    · next h =>
      have := toDigits_eq_zero_cons (Prod.mk.inj h).1
      simp at this
    · rfl
  have hf : fraction? rest = some ([], rest) := by
    unfold fraction?
    split
    · next c rest => exact absurd rfl (hr '.' rfl).2.1
    · rfl
  have he : exponent? rest = some ([], rest) := by
    unfold exponent?
    split
    · exact absurd rfl (hr 'e' rfl).2.2.1
    · exact absurd rfl (hr 'E' rfl).2.2.2
    · rfl
  have hm : ∀ r, Nat.toDigits 10 n ++ rest ≠ '-' :: r := by
    intro r h
    cases hc : Nat.toDigits 10 n with
    | nil => exact absurd hc Nat.toDigits_ne_nil
    | cons c cs =>
      rw [hc] at h
      have hd : c.isDigit = true := toDigits_isDigit (n := n) (by simp [hc])
      obtain ⟨rfl, -⟩ := List.cons.inj h
      exact absurd hd (by decide)
  unfold number?
  split
  next sign cs h =>
    split at h
    · next r hr => exact absurd hr (hm r)
    · obtain ⟨rfl, rfl⟩ := Prod.mk.inj h
      simp [hw, hf, he, Text.decimal]

theorem value?_decimal (fuel n : Nat) {rest : List Char} (hr : EndsNumber rest) :
    value? (fuel + 1) ((Text.decimal n).toList ++ rest) = some (.ofNat n, rest) := by
  have hn := number?_toDigits n hr
  have hl : (Text.decimal n).toList = Nat.toDigits 10 n := by simp [Text.decimal]
  rw [hl]
  cases hc : Nat.toDigits 10 n with
  | nil => exact absurd hc Nat.toDigits_ne_nil
  | cons c cs =>
    have hd : c.isDigit = true := toDigits_isDigit (n := n) (by simp [hc])
    have hs : isSpace c = false := by
      unfold isSpace
      have : c ≠ ' ' ∧ c ≠ '\t' ∧ c ≠ '\n' ∧ c ≠ '\r' := by
        refine ⟨?_, ?_, ?_, ?_⟩ <;> rintro rfl <;> revert hd <;> decide
      simp [this]
    rw [hc, List.cons_append] at hn
    rw [List.cons_append, value?.eq_def]
    simp only [skipSpace, List.dropWhile_cons, hs]
    split <;> simp_all [Char.isDigit, ofNat]

theorem isLine_decimal (n : Nat) : IsLine (Text.decimal n).toList := by
  have h : ∀ c : Char, c.isDigit = false → c ∉ Nat.toDigits 10 n := fun c hc hm => by
    rw [toDigits_isDigit hm] at hc
    exact absurd hc (by decide)
  constructor <;> simp only [Text.decimal, String.toList_ofList] <;> exact h _ (by decide)

theorem natural?_ofNat (n : Nat) : (ofNat n).natural? = some n := by
  have : (Nat.toDigits 10 n).all Char.isDigit = true := List.all_eq_true.mpr fun _ => toDigits_isDigit
  simp [ofNat, natural?, Text.decimal, this, Text.decimalValue_toDigits]

/-! ## Objects -/

inductive IsScalar : Json → Prop
  | string (text : String) : IsScalar (.string text)
  | ofNat (n : Nat) : IsScalar (.ofNat n)

theorem value?_compact {value : Json} (h : IsScalar value) (fuel : Nat) (rest : List Char)
    (hr : EndsNumber rest) : value? (fuel + 1) (value.compact.toList ++ rest) = some (value, rest) := by
  cases h with
  | string text => exact value?_quote fuel text rest
  | ofNat n => exact value?_decimal fuel n hr

/-- The members of an object of scalars are read back. -/
theorem members?_compactMembers {members : List (String × Json)} (hs : ∀ m ∈ members, IsScalar m.2)
    (hne : members ≠ []) (fuel : Nat) (hf : members.length < fuel) (rest : List Char) :
    members? fuel ((compactMembers members).toList ++ '\x7d' :: rest) =
      some (members.map fun m => (some m.1, m.2), rest) := by
  induction members generalizing fuel with
  | nil => exact absurd rfl hne
  | cons m members ih =>
    obtain ⟨name, value⟩ := m
    obtain ⟨fuel, rfl⟩ : ∃ k, fuel = k + 2 := ⟨fuel - 2, by simp at hf; omega⟩
    have hv : IsScalar value := hs (name, value) (by simp)
    cases members with
    | nil =>
      have h := value?_compact hv fuel ('\x7d' :: rest)
        (by intro c hc; simp at hc; subst hc; decide)
      simp [compactMembers, members?, name?_quote, h, skipSpace, isSpace]
    | cons m' members =>
      have h := value?_compact hv fuel
        (',' :: ((compactMembers (m' :: members)).toList ++ '\x7d' :: rest))
        (by intro c hc; simp at hc; subst hc; decide)
      have ih := ih (fun m hm => hs m (List.mem_cons_of_mem _ hm)) (by simp) (fuel + 1)
        (by simp at hf ⊢; omega)
      rw [members?]
      simp [compactMembers, name?_quote, h, skipSpace, isSpace, ih]

theorem isLine_compact {value : Json} (h : IsScalar value) : IsLine value.compact.toList := by
  cases h with
  | string text => exact isLine_quote text
  | ofNat n => exact isLine_decimal n

/-- An object of scalars is written on one line, whatever its texts are. -/
theorem isLine_compact_object {members : List (String × Json)} (hs : ∀ m ∈ members, IsScalar m.2) :
    IsLine (Json.object members).compact.toList := by
  have hm : IsLine (compactMembers members).toList := by
    induction members with
    | nil => exact ⟨by simp [compactMembers], by simp [compactMembers]⟩
    | cons m members ih =>
      obtain ⟨name, value⟩ := m
      have hq := isLine_quote name
      have hv := isLine_compact (hs (name, value) (by simp))
      have hcolon : IsLine ":".toList := by decide
      have hcomma : IsLine ",".toList := by decide
      cases members with
      | nil =>
        rw [compactMembers, String.toList_append, String.toList_append]
        exact (hq.append hcolon).append hv
      | cons m' members =>
        have ih := ih fun m hm => hs m (List.mem_cons_of_mem _ hm)
        simp only [compactMembers, String.toList_append] at ih ⊢
        exact (((hq.append hcolon).append hv).append hcomma).append ih
  have ho : IsLine "\x7b".toList := by decide
  have he : IsLine "\x7d".toList := by decide
  rw [compact, String.toList_append, String.toList_append]
  exact (ho.append hm).append he

theorem length_compactMembers (members : List (String × Json)) :
    members.length ≤ (compactMembers members).toList.length := by
  induction members with
  | nil => simp
  | cons m members ih =>
    obtain ⟨name, value⟩ := m
    cases members with
    | nil => simp [compactMembers, toList_quote]
    | cons m' members => simp [compactMembers, toList_quote] at ih ⊢; omega

theorem compactMembers_eq_cons {members : List (String × Json)} (hne : members ≠ []) :
    ∃ cs, (compactMembers members).toList = '"' :: cs := by
  cases members with
  | nil => exact absurd rfl hne
  | cons m members =>
    obtain ⟨name, value⟩ := m
    cases members <;> simp [compactMembers, toList_quote]

theorem objectOf_some (members : List (String × Json)) :
    objectOf (members.map fun m => (some m.1, m.2)) = .object members := by
  have h : (members.map fun m => (some m.1, m.2)).mapM
      (fun (x : Option String × Json) => x.1.map (·, x.2)) = some members := by
    induction members with
    | nil => rfl
    | cons m members ih => simp [List.mapM_cons, ih]
  unfold objectOf
  rw [h]

/-- **Reading back an object.** What is written of an object of scalars is read as that object. -/
theorem parse_compact_object {members : List (String × Json)} (hs : ∀ m ∈ members, IsScalar m.2)
    (hne : members ≠ []) : parse (Json.object members).compact.toList = some (.object members) := by
  have hl := length_compactMembers members
  obtain ⟨cs, hcs⟩ := compactMembers_eq_cons hne
  have ht : (Json.object members).compact.toList = '\x7b' :: ((compactMembers members).toList ++ ['\x7d']) := by
    simp [compact]
  have hm := members?_compactMembers hs hne
    (Json.object members).compact.toList.length (by rw [ht]; simp; omega) []
  have hv : value? ((Json.object members).compact.toList.length + 1) (Json.object members).compact.toList =
      some (.object members, []) := by
    generalize (Json.object members).compact.toList.length = fuel at hm
    rw [hcs] at hm
    rw [ht, hcs, value?]
    have hmembers : members? fuel ('"' :: (cs ++ ['\x7d'])) =
        some (members.map fun m => (some m.1, m.2), []) := by simpa using hm
    simp [skipSpace, isSpace, hmembers, objectOf_some]
  unfold parse
  rw [hv]
  simp [skipSpace]

end FormWeaver.Json
