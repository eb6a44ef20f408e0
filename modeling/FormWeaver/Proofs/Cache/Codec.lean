import FormWeaver.Cache.Codec
import FormWeaver.Proofs.Cache.Entries
import FormWeaver.Proofs.Json.RoundTrip
import FormWeaver.Proofs.Text.Lines

/-!
# Reading back a cache

The text of a cache is a list of lines, none of which holds a line break whatever the paths are: so
it is cut at the right places, its trailer counts the lines before it, and each of these gives its
entry back. Of the checksum all that matters here is that it is one word of one line.
-/

namespace FormWeaver.Cache

open Text (IsLine)

/-! ## One entry -/

theorem timeOf?_ofNat (t : UInt64) : timeOf? (.ofNat t.toNat) = some t := by
  have h : t.toNat < UInt64.size := t.toNat_lt_size
  simp [timeOf?, Json.natural?_ofNat, h]

theorem entryOfJson?_entryJson (e : CacheEntry) : entryOfJson? (entryJson e) = some e := by
  simp [entryJson, entryOfJson?, member?, entryOfValues?, pathOf?, timeOf?_ofNat]

theorem isScalar_entryJson (e : CacheEntry) : ∃ members : List (String × Json), members ≠ [] ∧
    (∀ m ∈ members, m.2.IsScalar) ∧ entryJson e = .object members := by
  refine ⟨_, ?_, ?_, rfl⟩
  · simp
  · simp only [List.mem_cons, List.not_mem_nil, or_false, forall_eq_or_imp, forall_eq]
    exact ⟨.string _, .ofNat _, .string _, .ofNat _⟩

/-- The line of an entry gives the entry back. -/
theorem entryOfLine?_entryLine (e : CacheEntry) : entryOfLine? (entryLine e).toList = some e := by
  obtain ⟨members, hne, hs, he⟩ := isScalar_entryJson e
  have hp : Json.parse (entryLine e).toList = some (entryJson e) := by
    rw [entryLine, he]
    exact Json.parse_compact_object hs hne
  rw [entryOfLine?, hp, Option.bind_some, entryOfJson?_entryJson]

theorem isLine_entryLine (e : CacheEntry) : IsLine (entryLine e).toList := by
  obtain ⟨members, -, hs, he⟩ := isScalar_entryJson e
  rw [entryLine, he]
  exact Json.isLine_compact_object hs

/-! ## The whole cache -/

/-- Whether a checksum is one word of one line. -/
def IsWord (checksum : String → String) : Prop :=
  ∀ text, ' ' ∉ (checksum text).toList ∧ IsLine (checksum text).toList

/-- The lines of a cache: header, records, trailer. -/
def linesWith (checksum : String → String) (c : Cache) : List (List Char) :=
  let records := c.sorted.map entryLine
  (headerWord ++ " " ++ Text.decimal formatVersion).toList :: records.map String.toList ++
    [(trailerWord ++ " " ++ Text.decimal records.length ++ " " ++
      checksum (Text.joinWith "\n" records)).toList]

theorem toList_encodeWith (checksum : String → String) (c : Cache) :
    (encodeWith checksum c).toList = (linesWith checksum c).flatMap (· ++ ['\n']) := by
  have hbody : ∀ records : List String,
      (if records.isEmpty then "" else Text.joinWith "\n" records ++ "\n").toList =
        (records.map String.toList).flatMap (· ++ ['\n']) := by
    intro records
    cases records with
    | nil => simp
    | cons r rs =>
      rw [if_neg (by simp), String.toList_append]
      exact Text.joinWith_newline (by simp)
  unfold encodeWith linesWith
  simp only [String.toList_append, hbody, List.flatMap_cons, List.flatMap_append, List.flatMap_nil,
    List.append_assoc, List.append_nil, List.cons_append]
  rfl

theorem isLine_linesWith {checksum : String → String} (hsum : IsWord checksum) (c : Cache) :
    ∀ l ∈ linesWith checksum c, IsLine l := by
  intro l hl
  unfold linesWith at hl
  simp only [List.cons_append, List.mem_cons, List.mem_append, List.mem_map, List.not_mem_nil,
    or_false] at hl
  rcases hl with rfl | ⟨_, ⟨e, _, rfl⟩, rfl⟩ | rfl
  · exact ⟨by decide, by decide⟩
  · exact isLine_entryLine e
  · have hspace : IsLine " ".toList := by decide
    have hword : IsLine trailerWord.toList := by decide
    simp only [String.toList_append]
    exact (((hword.append hspace).append (Json.isLine_decimal _)).append hspace).append (hsum _).2

theorem natOf?_decimal (n : Nat) : natOf? (Nat.toDigits 10 n) = some n := by
  have hall : (Nat.toDigits 10 n).all Char.isDigit = true :=
    List.all_eq_true.mpr fun _ => Json.toDigits_isDigit
  have hplus : ∀ rest, Nat.toDigits 10 n ≠ '+' :: rest := by
    intro rest h
    have hd : ('+' : Char).isDigit = true := Json.toDigits_isDigit (n := n) (by simp [h])
    exact absurd hd (by decide)
  unfold natOf?
  split
  · next rest h => exact absurd h (hplus rest)
  · simp [hall, Text.decimalValue_toDigits, Nat.toDigits_ne_nil]

/-- A trailer is one for its own records. -/
theorem isTrailer_trailer {checksum : String → String} (hsum : IsWord checksum) (records : List String) :
    isTrailer checksum (records.map String.toList)
      (trailerWord ++ " " ++ Text.decimal records.length ++ " " ++
        checksum (Text.joinWith "\n" records)).toList = true := by
  have hcount : (Text.decimal records.length).toList = Nat.toDigits 10 records.length := by
    simp [Text.decimal]
  have hspace : ' ' ∉ Nat.toDigits 10 records.length := fun h =>
    absurd (Json.toDigits_isDigit h) (by decide)
  have hsplit : (trailerWord ++ " " ++ Text.decimal records.length ++ " " ++
        checksum (Text.joinWith "\n" records)).toList.splitOn ' ' =
      [trailerWord.toList, Nat.toDigits 10 records.length, (checksum (Text.joinWith "\n" records)).toList] := by
    have hone : " ".toList = [' '] := rfl
    have hword : ' ' ∉ trailerWord.toList := by decide
    simp only [String.toList_append, hcount, hone, List.append_assoc, List.cons_append,
      List.nil_append]
    rw [List.splitOn_append_cons_self_of_not_mem hword,
      List.splitOn_append_cons_self_of_not_mem hspace,
      List.splitOn_eq_singleton (hsum _).1]
  unfold isTrailer
  rw [hsplit]
  simp [natOf?_decimal, Function.comp_def]

theorem isHeader_header : isHeader (headerWord ++ " " ++ Text.decimal formatVersion).toList = true := by
  decide

theorem decodeLinesWith_concat (checksum : String → String) (header trailer : List Char)
    (records : List (List Char)) :
    decodeLinesWith checksum (header :: (records ++ [trailer])) =
      if isHeader header && isTrailer checksum records trailer then records.mapM entryOfLine? else none := by
  obtain ⟨first, rest, h⟩ : ∃ first rest, records ++ [trailer] = first :: rest := by
    cases records <;> exact ⟨_, _, rfl⟩
  have hd : (first :: rest).dropLast = records := by rw [← h, List.dropLast_concat]
  have hl : (first :: rest).getLast (by simp) = trailer := by simp only [← h, List.getLast_concat]
  rw [h]
  simp only [decodeLinesWith, hd, hl]

/-- The lines of a cache are those of its entries. -/
theorem decodeLinesWith_linesWith {checksum : String → String} (hsum : IsWord checksum) (c : Cache) :
    decodeLinesWith checksum (linesWith checksum c) = some c.sorted := by
  have hrecords : ((c.sorted.map entryLine).map String.toList).mapM entryOfLine? = some c.sorted := by
    generalize c.sorted = es
    induction es with
    | nil => rfl
    | cons e es ih =>
      simp only [List.map_cons, List.mapM_cons, entryOfLine?_entryLine, ih]
      rfl
  have htrailer := isTrailer_trailer hsum (c.sorted.map entryLine)
  unfold linesWith
  rw [List.cons_append, decodeLinesWith_concat, isHeader_header, htrailer, hrecords]
  rfl

theorem getLast?_flatMap_newline (ls : List (List Char)) (h : ls ≠ []) :
    (ls.flatMap (· ++ ['\n'])).getLast? = some '\n' := by
  rw [← List.dropLast_concat_getLast h, List.flatMap_append]
  simp

/-- **Reading back a cache.** The text of a cache whose entries are for different pairs describes a
cache with just these entries, paths and times as they are spelled. -/
theorem decodeWith_encodeWith {checksum : String → String} (hsum : IsWord checksum) {c : Cache}
    (hc : c.Distinct) :
    ∃ c', decodeWith checksum (encodeWith checksum c) = some c' ∧ c'.entries.Perm c.entries := by
  have hsorted : c.sorted.Perm c.entries := List.mergeSort_perm _ _
  have hsymm : Std.Symm fun a b : CacheEntry => a.pair ≠ b.pair := ⟨fun _ _ => Ne.symm⟩
  have hdistinct := hsorted.symm.pairwise hc fun h => h.symm
  refine ⟨ofEntries c.sorted, ?_, (ofEntries_perm hdistinct).trans hsorted⟩
  have hlast := getLast?_flatMap_newline (linesWith checksum c) (by simp [linesWith])
  have hlines := Text.lines_flatMap (isLine_linesWith hsum c)
  unfold decodeWith
  simp only [toList_encodeWith, hlast, hlines, decodeLinesWith_linesWith hsum, beq_self_eq_true,
    if_true, Option.map_some]

theorem isWord_sha256 : IsWord Digest.Sha256.ofText := by
  have hdigit : ∀ d < 16, ' ' ≠ Nat.digitChar d ∧ '\n' ≠ Nat.digitChar d ∧ '\r' ≠ Nat.digitChar d := by
    decide
  have hex : ∀ bytes : List UInt8, ' ' ∉ (Digest.Sha256.hex bytes).toList ∧
      IsLine (Digest.Sha256.hex bytes).toList := by
    intro bytes
    have hdigits : ∀ c ∈ (Digest.Sha256.hex bytes).toList, ∃ d < 16, c = Nat.digitChar d := by
      intro c hc
      unfold Digest.Sha256.hex at hc
      rw [String.toList_ofList, List.mem_flatMap] at hc
      obtain ⟨b, -, hb⟩ := hc
      exact Text.exists_digit_of_mem_hexPair b.toNat_lt hb
    refine ⟨fun h => ?_, fun h => ?_, fun h => ?_⟩ <;> obtain ⟨d, hd, heq⟩ := hdigits _ h
    · exact (hdigit d hd).1 heq
    · exact (hdigit d hd).2.1 heq
    · exact (hdigit d hd).2.2 heq
  intro text
  exact hex _

theorem decode_encode {c : Cache} (hc : c.Distinct) :
    ∃ c', decode (encode c) = some c' ∧ c'.entries.Perm c.entries :=
  decodeWith_encodeWith isWord_sha256 hc

end FormWeaver.Cache
