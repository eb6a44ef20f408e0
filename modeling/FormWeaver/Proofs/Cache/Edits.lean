import FormWeaver.Proofs.Cache.Cuts

/-!
# Edited caches

A trailer names the number of its records and the digest of their lines. Under one trailer there are
as many records then, and no record holds a line feed, so the block that the digest is taken of tells
all of them in order. Two texts that are both read under one trailer have the same records unless their
two blocks are a collision of SHA-256. Their headers and their line ends may still be spelled in
different ways. That the digest is hard to collide is nowhere assumed: the two blocks are named.
-/

namespace FormWeaver

namespace Digest.Sha256

theorem hexPair_inj {a b : UInt8} (h : Text.hexPair a.toNat = Text.hexPair b.toNat) : a = b := by
  have hdigit : ∀ m < 16, ∀ n < 16, Nat.digitChar m = Nat.digitChar n → m = n := by decide
  obtain ⟨hhigh, hlow⟩ := List.cons.inj h
  have ha := a.toNat_lt
  have hb := b.toNat_lt
  have hquot := hdigit (a.toNat / 16) (by omega) (b.toNat / 16) (by omega) hhigh
  have hrem := hdigit (a.toNat % 16) (by omega) (b.toNat % 16) (by omega) (List.cons.inj hlow).1
  apply UInt8.toNat_inj.mp
  omega

/-- Digests that are written alike are the same. -/
theorem hex_injective : Function.Injective hex := by
  intro bytes bytes' h
  replace h := String.ofList_inj.mp h
  induction bytes generalizing bytes' with
  | nil =>
    cases bytes' with
    | nil => rfl
    | cons b' bytes' => exact absurd h.symm (by simp [Text.hexPair])
  | cons b bytes ih =>
    cases bytes' with
    | nil => exact absurd h (by simp [Text.hexPair])
    | cons b' bytes' =>
      rw [List.flatMap_cons, List.flatMap_cons] at h
      obtain ⟨hpair, hrest⟩ := List.append_inj h rfl
      rw [hexPair_inj hpair, ih hrest]

/-- A collision: two different messages with one digest. -/
def Collide (message message' : List UInt8) : Prop :=
  message ≠ message' ∧ digest message = digest message'

/-- Texts with one digest are the same text, or their bytes collide. -/
theorem eq_or_collide_of_ofText_eq {text text' : String} (h : ofText text = ofText text') :
    text = text' ∨ Collide text.toUTF8.data.toList text'.toUTF8.data.toList := by
  by_cases hbytes : text.toUTF8.data.toList = text'.toUTF8.data.toList
  · left
    apply String.toByteArray_inj.mp
    exact ByteArray.ext (Array.toList_inj.mp hbytes)
  · exact .inr ⟨hbytes, hex_injective h⟩

end Digest.Sha256

namespace Cache

variable {checksum : String → String}

/-- The last line of a text. -/
def lastLine? (text : String) : Option (List Char) := (Text.lines text.toList).getLast?

/-- The lines of a text between its first and its last one. -/
def recordLines (text : String) : List (List Char) := (Text.lines text.toList).tail.dropLast

/-- The text that the checksum of lines is one of. -/
def recordBlock (records : List (List Char)) : String :=
  Text.joinWith "\n" (records.map String.ofList)

/-- What is read as a cache is a header, the lines of its entries and their trailer. -/
theorem exists_lines_of_decodeWith {text : String} {c : Cache} (h : decodeWith checksum text = some c) :
    ∃ header trailer, Text.lines text.toList = header :: (recordLines text ++ [trailer]) ∧
      isTrailer checksum (recordLines text) trailer = true ∧
      ((recordLines text).mapM entryOfLine?).map ofEntries = some c := by
  unfold decodeWith at h
  simp only at h
  split at h
  · obtain ⟨es, hes, rfl⟩ := Option.map_eq_some_iff.mp h
    obtain ⟨header, first, rest, hlines⟩ : ∃ header first rest,
        Text.lines text.toList = header :: first :: rest := by
      unfold decodeLinesWith at hes
      split at hes
      · next header first rest hlines => exact ⟨header, first, rest, hlines⟩
      · simp at hes
    obtain ⟨records, trailer, hback⟩ : ∃ records trailer, first :: rest = records ++ [trailer] :=
      ⟨_, _, (List.dropLast_concat_getLast (List.cons_ne_nil first rest)).symm⟩
    rw [hback] at hlines
    have hrecords : recordLines text = records := by
      rw [recordLines, hlines, List.tail_cons, List.dropLast_concat]
    rw [hlines, decodeLinesWith_concat] at hes
    split at hes
    · next hboth =>
      rw [Bool.and_eq_true] at hboth
      rw [hrecords]
      exact ⟨header, trailer, hlines, hboth.2, by rw [hes, Option.map_some]⟩
    · simp at hes
  · simp at h

/-- A line is the trailer of one number of records only, and of one checksum. -/
theorem eq_of_isTrailer {records records' : List (List Char)} {line : List Char}
    (h : isTrailer checksum records line = true) (h' : isTrailer checksum records' line = true) :
    records.length = records'.length ∧
      checksum (recordBlock records) = checksum (recordBlock records') := by
  unfold isTrailer at h h'
  split at h
  · next word count digest hsplit =>
    rw [hsplit] at h'
    simp only [Bool.and_eq_true, beq_iff_eq] at h h'
    obtain ⟨⟨-, hcount⟩, hdigest⟩ := h
    obtain ⟨⟨-, hcount'⟩, hdigest'⟩ := h'
    exact ⟨Option.some.inj (hcount.symm.trans hcount'), hdigest.symm.trans hdigest'⟩
  · simp at h

theorem notMem_of_mem_recordLines {text : String} {l : List Char} (h : l ∈ recordLines text) :
    '\n' ∉ l :=
  Text.notMem_of_mem_lines (List.mem_of_mem_tail ((List.dropLast_sublist _).mem h))

/-- As many records that make one block are the same records. -/
theorem recordLines_eq_of_recordBlock {text text' : String}
    (hlen : (recordLines text).length = (recordLines text').length)
    (h : recordBlock (recordLines text) = recordBlock (recordLines text')) :
    recordLines text = recordLines text' := by
  have hlines : ∀ t : String, ∀ s ∈ (recordLines t).map String.ofList, '\n' ∉ s.toList := by
    intro t s hs
    obtain ⟨l, hl, rfl⟩ := List.mem_map.mp hs
    rw [String.toList_ofList]
    exact notMem_of_mem_recordLines hl
  have hmap := Text.eq_of_joinWith_newline (hlines text) (hlines text') (by simpa using hlen) h
  exact (List.map_inj_right fun _ _ => String.ofList_inj.mp).mp hmap

/-- Two texts that are read with one trailer have as many records and one checksum of them, and with
the same block of records they are read as the same cache. -/
theorem decodeWith_of_lastLine? {text text' : String} {c c' : Cache}
    (h : decodeWith checksum text = some c) (h' : decodeWith checksum text' = some c')
    (hlast : lastLine? text = lastLine? text') :
    (recordLines text).length = (recordLines text').length ∧
      checksum (recordBlock (recordLines text)) = checksum (recordBlock (recordLines text')) ∧
      (recordBlock (recordLines text) = recordBlock (recordLines text') →
        recordLines text = recordLines text' ∧ c = c') := by
  obtain ⟨header, trailer, hlines, htrailer, hc⟩ := exists_lines_of_decodeWith h
  obtain ⟨header', trailer', hlines', htrailer', hc'⟩ := exists_lines_of_decodeWith h'
  have hsame : trailer = trailer' := by
    unfold lastLine? at hlast
    rw [hlines, hlines', ← List.cons_append, ← List.cons_append, List.getLast?_concat,
      List.getLast?_concat] at hlast
    exact Option.some.inj hlast
  subst hsame
  obtain ⟨hlen, hsum⟩ := eq_of_isTrailer htrailer htrailer'
  refine ⟨hlen, hsum, fun hblock => ?_⟩
  have hrecords := recordLines_eq_of_recordBlock hlen hblock
  rw [hrecords, hc'] at hc
  exact ⟨hrecords, (Option.some.inj hc).symm⟩

/-- **Edited records are detected.** Two texts that are read as caches and end with one and the same
line have as many records, and either their records are the same lines in the same order and both are
read as one cache, or the two blocks of records are different messages with one SHA-256 digest. -/
theorem same_records_or_collide {text text' : String} {c c' : Cache} (h : decode text = some c)
    (h' : decode text' = some c') (hlast : lastLine? text = lastLine? text') :
    (recordLines text).length = (recordLines text').length ∧
      ((recordLines text = recordLines text' ∧ c = c') ∨
        Digest.Sha256.Collide (recordBlock (recordLines text)).toUTF8.data.toList
          (recordBlock (recordLines text')).toUTF8.data.toList) := by
  obtain ⟨hlen, hsum, hsame⟩ := decodeWith_of_lastLine? h h' hlast
  refine ⟨hlen, ?_⟩
  rcases Digest.Sha256.eq_or_collide_of_ofText_eq hsum with hblock | hcollide
  · exact .inl (hsame hblock)
  · exact .inr hcollide

/-! ## Another spelling of a cache -/

/-- A header counts for its version only. -/
theorem decodeLinesWith_congr {header header' : List Char} (h : isHeader header = isHeader header')
    (ls : List (List Char)) :
    decodeLinesWith checksum (header :: ls) = decodeLinesWith checksum (header' :: ls) := by
  cases ls with
  | nil => rfl
  | cons first rest => simp only [decodeLinesWith, h]

/-- The lines of a cache behind another header of its version. -/
def respelledLines (c : Cache) : List (List Char) :=
  "gui-forms-cache\t+1 ".toList :: (linesWith Digest.Sha256.ofText c).tail

/-- A cache with that header, and with carriage returns at its line ends. -/
def respelled (c : Cache) : String :=
  String.ofList (((respelledLines c).map (· ++ ['\r'])).flatMap (· ++ ['\n']))

theorem lines_encode (c : Cache) :
    Text.lines (encode c).toList = linesWith Digest.Sha256.ofText c := by
  rw [encode, toList_encodeWith]
  exact Text.lines_flatMap (isLine_linesWith isWord_sha256 c)

theorem lines_respelled (c : Cache) : Text.lines (respelled c).toList = respelledLines c := by
  rw [respelled, String.toList_ofList]
  apply Text.lines_flatMap_crlf
  intro l hl
  rcases List.mem_cons.mp hl with rfl | hl
  · exact ⟨by decide, by decide⟩
  · exact isLine_linesWith isWord_sha256 c l (List.mem_of_mem_tail hl)

theorem exists_decode_respelled (c : Cache) : ∃ c', decode (respelled c) = some c' := by
  have hlast : (respelled c).toList.getLast? = some '\n' := by
    rw [respelled, String.toList_ofList]
    exact getLast?_flatMap_newline _ (by simp [respelledLines])
  have hlines : decodeLinesWith Digest.Sha256.ofText (respelledLines c) = some c.sorted := by
    rw [← decodeLinesWith_linesWith isWord_sha256 c]
    exact decodeLinesWith_congr (by decide) _
  refine ⟨ofEntries c.sorted, ?_⟩
  unfold decode decodeWith
  simp only [hlast, lines_respelled, hlines, beq_self_eq_true, if_true, Option.map_some]

/-- The awkward cache is also read behind another header and with other line ends, and nothing else of
the two texts differs. -/
theorem same_records_respelled :
    ∃ c c', decode (encode awkward) = some c ∧ decode (respelled awkward) = some c' ∧
      lastLine? (encode awkward) = lastLine? (respelled awkward) ∧ encode awkward ≠ respelled awkward ∧
      (recordLines (encode awkward)).length = (recordLines (respelled awkward)).length ∧
      recordLines (encode awkward) = recordLines (respelled awkward) ∧ c = c' := by
  obtain ⟨c, hc, -⟩ := decode_encode distinct_awkward
  obtain ⟨c', hc'⟩ := exists_decode_respelled awkward
  have hlast : lastLine? (encode awkward) = lastLine? (respelled awkward) := by
    rw [lastLine?, lastLine?, lines_encode, lines_respelled]
    unfold respelledLines linesWith
    rw [List.cons_append, List.tail_cons, ← List.cons_append, ← List.cons_append, List.getLast?_concat,
      List.getLast?_concat]
  have hne : encode awkward ≠ respelled awkward := by
    intro heq
    have hlines := lines_encode awkward
    rw [heq, lines_respelled] at hlines
    exact absurd (List.cons.inj hlines).1 (by decide)
  have hblock : recordBlock (recordLines (encode awkward)) =
      recordBlock (recordLines (respelled awkward)) := by
    rw [recordLines, recordLines, lines_encode, lines_respelled]
    rfl
  obtain ⟨hlen, hsame | hcollide⟩ := same_records_or_collide hc hc' hlast
  · exact ⟨c, c', hc, hc', hlast, hne, hlen, hsame⟩
  · exact absurd (by rw [hblock]) hcollide.1

end Cache
end FormWeaver
