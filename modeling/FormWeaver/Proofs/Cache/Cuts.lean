import FormWeaver.Proofs.Cache.Order
import FormWeaver.Proofs.Cache.Replacement

/-!
# Cut and extended caches

A record begins with a brace and a trailer with a word, so neither passes for the other. The text of a
cache that is cut behind a line ends with the header or with a record in place of its trailer; one that
goes on behind its trailer has the trailer among its records. Either is no cache, whatever the paths
are and whatever the checksum is: a cut within a checksum of several lines leaves a digest without a
line feed, which is not that checksum. Bytes that are cut within a character are no text at all.
-/

namespace FormWeaver

namespace Cache

open Text (IsLine)

variable {checksum : String → String}

/-! ## Records and trailers -/

theorem mapM_eq_none_of_mem {α β : Type} {f : α → Option β} {a : α} {l : List α} (ha : a ∈ l)
    (hf : f a = none) : l.mapM f = none := by
  induction l with
  | nil => simp at ha
  | cons b l ih =>
    rw [List.mapM_cons]
    rcases List.mem_cons.mp ha with rfl | ha
    · rw [hf]
      rfl
    · rw [ih ha]
      cases f b <;> rfl

/-- No value begins like the word of a trailer. -/
theorem entryOfLine?_of_e (cs : List Char) : entryOfLine? ('e' :: cs) = none := by
  have hskip : Json.skipSpace ('e' :: cs) = 'e' :: cs := rfl
  have hnumber : Json.number? ('e' :: cs) = none := rfl
  have hvalue : ∀ fuel, Json.value? (fuel + 1) ('e' :: cs) = none := by
    intro fuel
    simp [Json.value?, hskip, hnumber]
  unfold entryOfLine? Json.parse
  rw [hvalue]
  rfl

/-- A trailer is its word, a count and the checksum. -/
theorem of_isTrailer {records : List (List Char)} {line : List Char}
    (h : isTrailer checksum records line = true) :
    ∃ count, line = trailerWord.toList ++ ' ' :: (count ++ ' ' ::
      (checksum (Text.joinWith "\n" (records.map String.ofList))).toList) := by
  unfold isTrailer at h
  split at h
  · next word count digest hsplit =>
    simp only [Bool.and_eq_true, beq_iff_eq] at h
    obtain ⟨⟨hword, -⟩, hdigest⟩ := h
    have hline : [' '].intercalate (line.splitOn ' ') = line := List.intercalate_splitOn ' '
    rw [hsplit] at hline
    refine ⟨count, ?_⟩
    rw [← hword, ← hdigest, ← hline, String.toList_ofList, String.toList_ofList]
    simp [List.intercalate]
  · simp at h

theorem exists_entryLine_eq_cons (e : CacheEntry) : ∃ cs, (entryLine e).toList = '\x7b' :: cs := by
  unfold entryLine entryJson
  rw [Json.compact, String.toList_append, String.toList_append]
  exact ⟨_, rfl⟩

/-! ## Lines that are no cache -/

/-- Records without a trailer behind them are no cache. -/
theorem decodeLinesWith_of_records (header : List Char) (es : List CacheEntry) :
    decodeLinesWith checksum (header :: es.map fun e => (entryLine e).toList) = none := by
  rcases List.eq_nil_or_concat es with rfl | ⟨es, e, rfl⟩
  · rfl
  · rw [List.concat_eq_append, List.map_append, List.map_singleton, decodeLinesWith_concat, if_neg]
    rw [Bool.and_eq_true]
    rintro ⟨-, htrailer⟩
    obtain ⟨count, hline⟩ := of_isTrailer htrailer
    obtain ⟨cs, hcs⟩ := exists_entryLine_eq_cons e
    rw [hcs] at hline
    exact absurd (List.cons.inj hline).1 (by decide)

/-- Lines among whose records one begins like a trailer are no cache. -/
theorem decodeLinesWith_of_early (header cs : List Char) (records : List (List Char))
    {more : List (List Char)} (hmore : more ≠ []) :
    decodeLinesWith checksum (header :: (records ++ ('e' :: cs) :: more)) = none := by
  rcases List.eq_nil_or_concat more with rfl | ⟨more, trailer, rfl⟩
  · exact absurd rfl hmore
  · have hnone : (records ++ ('e' :: cs) :: more).mapM entryOfLine? = none :=
      mapM_eq_none_of_mem (List.mem_append_right _ List.mem_cons_self) (entryOfLine?_of_e cs)
    have hassoc : records ++ ('e' :: cs) :: (more ++ [trailer]) =
        (records ++ ('e' :: cs) :: more) ++ [trailer] := by simp
    rw [List.concat_eq_append, hassoc, decodeLinesWith_concat, hnone]
    split <;> rfl

/-! ## Texts that are no cache -/

/-- The lines of a cache in front of its trailer: header and records. -/
def front (c : Cache) : List (List Char) :=
  (headerWord ++ " " ++ Text.decimal formatVersion).toList ::
    c.sorted.map fun e => (entryLine e).toList

/-- What a cache ends with, but for the last line feed. -/
def trailer (checksum : String → String) (c : Cache) : List Char :=
  (trailerWord ++ " " ++ Text.decimal c.sorted.length ++ " " ++
    checksum (Text.joinWith "\n" (c.sorted.map entryLine))).toList

theorem toList_encodeWith_eq_front (c : Cache) :
    (encodeWith checksum c).toList =
      (front c).flatMap (· ++ ['\n']) ++ (trailer checksum c ++ ['\n']) := by
  rw [toList_encodeWith]
  unfold linesWith front trailer
  simp [Function.comp_def]

theorem isLine_front (c : Cache) : ∀ l ∈ front c, IsLine l := by
  intro l hl
  unfold front at hl
  rcases List.mem_cons.mp hl with rfl | hl
  · exact ⟨by decide, by decide⟩
  · obtain ⟨e, -, rfl⟩ := List.mem_map.mp hl
    exact isLine_entryLine e

theorem trailer_eq_cons (c : Cache) : ∃ cs, trailer checksum c = 'e' :: cs := by
  unfold trailer
  simp only [String.toList_append]
  exact ⟨_, rfl⟩

/-- Only in its checksum can a trailer have a line feed. -/
theorem mem_checksum_of_mem_trailer {c : Cache} (h : '\n' ∈ trailer checksum c) :
    '\n' ∈ (checksum (Text.joinWith "\n" (c.sorted.map entryLine))).toList := by
  unfold trailer at h
  have hword : '\n' ∉ trailerWord.toList := by decide
  have hspace : '\n' ∉ " ".toList := by decide
  have hcount := (Json.isLine_decimal c.sorted.length).1
  simpa only [String.toList_append, List.mem_append, hword, hspace, hcount, false_or] using h

/-- A text that goes on behind the records like a trailer is no cache when it has a line feed before its
end, or when the checksum of the records has one. -/
theorem decodeLinesWith_front_append (c : Cache) {cs : List Char}
    (hlast : ('e' :: cs).getLast? = some '\n')
    (h : '\n' ∈ ('e' :: cs).dropLast ∨
      '\n' ∈ (checksum (Text.joinWith "\n" (c.sorted.map entryLine))).toList) :
    decodeLinesWith checksum (Text.lines ((front c).flatMap (· ++ ['\n']) ++ 'e' :: cs)) = none := by
  obtain ⟨line, rest, hsplit, hline⟩ := List.eq_append_cons_of_mem (List.mem_of_getLast? hlast)
  rw [Text.lines_flatMap_append (isLine_front c), hsplit, Text.lines_append_newline hline]
  -- A carriage return may go with the line end, yet the line begins as it did and gains no line feed.
  obtain ⟨chopped, hchopped, hmem⟩ : ∃ chopped, Text.chopLine (line ++ ['\n']) = 'e' :: chopped ∧
      '\n' ∉ 'e' :: chopped := by
    cases line with
    | nil => exact absurd (List.cons.inj hsplit).1 (by decide)
    | cons e line =>
      obtain rfl : 'e' = e := (List.cons.inj hsplit).1
      exact Text.exists_chopLine_cons (by decide) hline
  rw [hchopped]
  by_cases hrest : rest = []
  · subst hrest
    -- What follows the records is one line, and its digest has no line feed.
    have hchecksum := h.resolve_left (by rwa [hsplit, List.dropLast_concat])
    have hrecords : (c.sorted.map fun e => (entryLine e).toList).map String.ofList =
        c.sorted.map entryLine := by simp
    unfold front
    rw [show Text.lines [] = [] from rfl, List.cons_append, decodeLinesWith_concat, if_neg]
    rw [Bool.and_eq_true]
    rintro ⟨-, htrailer⟩
    obtain ⟨count, hdigest⟩ := of_isTrailer htrailer
    apply hmem
    rw [hdigest, hrecords]
    simp [hchecksum]
  · apply decodeLinesWith_of_early
    intro hnil
    have hflat := Text.flatten_chunks rest
    rw [List.map_eq_nil_iff.mp hnil, List.flatten_nil] at hflat
    exact hrest hflat.symm

/-- **A cut text is no cache.** -/
theorem decodeWith_of_cut (c : Cache) {text rest : String} (h : text ++ rest = encodeWith checksum c)
    (hrest : rest ≠ "") : decodeWith checksum text = none := by
  unfold decodeWith
  simp only [beq_iff_eq]
  split
  · next hlast =>
    have hcs : text.toList ++ rest.toList =
        (front c).flatMap (· ++ ['\n']) ++ (trailer checksum c ++ ['\n']) := by
      rw [← String.toList_append, h, toList_encodeWith_eq_front]
    rw [Option.map_eq_none_iff]
    rcases Text.cases_of_prefix_flatMap (isLine_front c) ⟨rest.toList, hcs⟩ hlast with
      ⟨k, hk⟩ | ⟨more, hmore, hlast', hprefix⟩
    · -- Only whole lines in front of the trailer are left.
      rw [hk, Text.lines_flatMap fun l hl => isLine_front c l (List.mem_of_mem_take hl)]
      cases k with
      | zero => rfl
      | succ k =>
        unfold front
        rw [List.take_succ_cons, ← List.map_take]
        exact decodeLinesWith_of_records _ _
    · -- The cut is within the trailer and behind a line feed, so the checksum has one.
      have hproper : more <+: trailer checksum c := by
        refine (List.prefix_concat_iff.mp hprefix).resolve_left ?_
        rintro rfl
        rw [hmore, List.append_right_eq_self] at hcs
        exact hrest (String.toList_eq_nil_iff.mp hcs)
      have hchecksum := mem_checksum_of_mem_trailer (hproper.mem (List.mem_of_getLast? hlast'))
      obtain ⟨cs, hcons⟩ : ∃ cs, trailer checksum c = 'e' :: cs := trailer_eq_cons c
      cases more with
      | nil => simp at hlast'
      | cons e more =>
        rw [hcons] at hproper
        obtain rfl : e = 'e' := (List.cons_prefix_cons.mp hproper).1
        rw [hmore]
        exact decodeLinesWith_front_append c hlast' (.inr hchecksum)
  · rfl

/-- **An extended text is no cache.** -/
theorem decodeWith_append (c : Cache) {more : String} (hmore : more ≠ "") :
    decodeWith checksum (encodeWith checksum c ++ more) = none := by
  have hne : more.toList ≠ [] := by simpa using hmore
  obtain ⟨cs, hcons⟩ : ∃ cs, trailer checksum c = 'e' :: cs := trailer_eq_cons c
  have hcs : (encodeWith checksum c ++ more).toList =
      (front c).flatMap (· ++ ['\n']) ++ 'e' :: (cs ++ '\n' :: more.toList) := by
    rw [String.toList_append, toList_encodeWith_eq_front, hcons]
    simp
  unfold decodeWith
  simp only [hcs, beq_iff_eq]
  split
  · next hlast =>
    rw [List.getLast?_append, List.getLast?_cons, Option.some_or, ← List.getLast?_cons] at hlast
    rw [Option.map_eq_none_iff]
    apply decodeLinesWith_front_append c hlast
    -- The line feed of the trailer is not the end of the text.
    left
    rw [List.dropLast_cons_of_ne_nil (by simp), List.dropLast_append_of_ne_nil (by simp),
      List.dropLast_cons_of_ne_nil hne]
    simp
  · rfl

/-! ## Bytes that are no cache -/

/-- The cache that bytes are read as, by a checksum. -/
def readWith (checksum : String → String) (bytes : ByteArray) : Cache :=
  match String.fromUTF8? bytes with
  | none => .empty
  | some text => (decodeWith checksum text).getD .empty

/-- A text whose bytes are the first ones of another begins that one. -/
theorem exists_append_of_fromUTF8? {text whole : String} {n : Nat} (hn : n < whole.toUTF8.size)
    (h : String.fromUTF8? (whole.toUTF8.extract 0 n) = some text) :
    ∃ rest, text ++ rest = whole ∧ rest ≠ "" := by
  unfold String.fromUTF8? at h
  split at h
  · next hvalid =>
    have hpos : String.Pos.Raw.IsValid whole ⟨n⟩ := by
      refine String.Pos.Raw.isValid_iff_isValidUTF8_extract_zero.mpr ⟨?_, hvalid⟩
      show n ≤ whole.utf8ByteSize
      rw [← String.size_toByteArray]
      exact Nat.le_of_lt hn
    obtain ⟨first, rest, rfl, hfirst⟩ := String.Pos.Raw.isValid_iff_exists_append.mp hpos
    have hsize : n = first.toByteArray.size := by
      rw [String.size_toByteArray]
      exact congrArg String.Pos.Raw.byteIdx hfirst
    have htext : text = first := by
      apply String.toByteArray_inj.mp
      rw [← Option.some.inj h]
      show (first ++ rest).toByteArray.extract 0 n = first.toByteArray
      rw [String.toByteArray_append]
      exact ByteArray.extract_append_eq_left hsize
    refine ⟨rest, by rw [htext], ?_⟩
    rintro rfl
    rw [String.append_empty] at hn
    exact absurd hsize (Nat.ne_of_lt hn)
  · simp at h

theorem readWith_of_cut (checksum : String → String) (c : Cache) {n : Nat}
    (hn : n < (encodeWith checksum c).toUTF8.size) :
    readWith checksum ((encodeWith checksum c).toUTF8.extract 0 n) = .empty := by
  unfold readWith
  split
  · rfl
  · next text htext =>
    obtain ⟨rest, hwhole, hrest⟩ := exists_append_of_fromUTF8? hn htext
    rw [decodeWith_of_cut c hwhole hrest]
    rfl

theorem readWith_append (checksum : String → String) (c : Cache) {more : String} (hmore : more ≠ "") :
    readWith checksum (encodeWith checksum c ++ more).toUTF8 = .empty := by
  unfold readWith
  simp only [Text.fromUTF8?_toUTF8, decodeWith_append c hmore, Option.getD_none]

end Cache

theorem CacheFile.read_of_contents {f : CacheFile} {d : Disk} {bytes : ByteArray}
    (h : d.contents f.path = .ok bytes) : f.read d = Cache.readWith Digest.Sha256.ofText bytes := by
  unfold CacheFile.read Disk.readText Cache.readWith
  rw [h]
  simp only
  cases String.fromUTF8? bytes <;> rfl

namespace Cache

/-- **Cut and extended caches are never trusted.** The bytes of a cache cut off anywhere, and its text
with anything behind it, read as the empty cache, whatever the entries are and whatever the checksum is
that both directions use. So does a cache file that holds either. -/
theorem read_eq_empty_of_cut_or_extended (c : Cache) :
    (∀ checksum : String → String,
      (∀ n < (encodeWith checksum c).toUTF8.size,
        readWith checksum ((encodeWith checksum c).toUTF8.extract 0 n) = .empty) ∧
      ∀ more, more ≠ "" → readWith checksum (encodeWith checksum c ++ more).toUTF8 = .empty) ∧
    ∀ (f : CacheFile) (d : Disk) (bytes : ByteArray), d.contents f.path = .ok bytes →
      (∃ n < (encode c).toUTF8.size, bytes = (encode c).toUTF8.extract 0 n) ∨
        (∃ more, more ≠ "" ∧ bytes = (encode c ++ more).toUTF8) →
      f.read d = .empty := by
  refine ⟨fun checksum => ⟨fun n hn => readWith_of_cut checksum c hn,
    fun more hmore => readWith_append checksum c hmore⟩, ?_⟩
  intro f d bytes hbytes h
  rw [CacheFile.read_of_contents hbytes]
  rcases h with ⟨n, hn, rfl⟩ | ⟨more, hmore, rfl⟩
  · exact readWith_of_cut _ c hn
  · exact readWith_append _ c hmore

/-- A disk whose build directory has a cache file of these bytes. -/
def holding (bytes : ByteArray) : Disk :=
  ⟨[(["b"], .directory), (["b", "gui-forms.cache"], .file bytes 5)], .present [], 10⟩

theorem contents_holding (bytes : ByteArray) :
    (holding bytes).contents (CacheFile.ofBuildDirectory ⟨"/b"⟩).path = .ok bytes := by
  have hw : (holding bytes).walk true ⟨"/b/gui-forms.cache"⟩ =
      .ok (.node ["b", "gui-forms.cache"] (.file bytes 5)) := rfl
  have hpath : (CacheFile.ofBuildDirectory ⟨"/b"⟩).path = ⟨"/b/gui-forms.cache"⟩ := by decide +kernel
  rw [hpath]
  exact Disk.contents_of_walk hw

/-- The awkward cache reads as empty when its last byte is missing and when a line end follows it, and
with a checksum of two lines also when the second of these is cut off. -/
theorem read_eq_empty_awkward :
    (CacheFile.ofBuildDirectory ⟨"/b"⟩).read
        (holding ((encode awkward).toUTF8.extract 0 ((encode awkward).toUTF8.size - 1))) = .empty ∧
      (CacheFile.ofBuildDirectory ⟨"/b"⟩).read (holding (encode awkward ++ "\r\n").toUTF8) = .empty ∧
      readWith (fun _ => "a\nb") ((encodeWith (fun _ => "a\nb") awkward).toUTF8.extract 0
        ((encodeWith (fun _ => "a\nb") awkward).toUTF8.size - 2)) = .empty := by
  obtain ⟨hall, hfile⟩ := read_eq_empty_of_cut_or_extended awkward
  have hsize : ∀ checksum, 0 < (encodeWith checksum awkward).toUTF8.size := by
    intro checksum
    rw [show (encodeWith checksum awkward).toUTF8.size = (encodeWith checksum awkward).utf8ByteSize
      from String.size_toByteArray, Nat.pos_iff_ne_zero, Ne, String.utf8ByteSize_eq_zero_iff,
      ← String.toList_eq_nil_iff, toList_encodeWith_eq_front]
    simp
  exact ⟨hfile _ _ _ (contents_holding _) (.inl ⟨_, Nat.sub_lt (hsize _) (by decide), rfl⟩),
    hfile _ _ _ (contents_holding _) (.inr ⟨"\r\n", by decide, rfl⟩),
    (hall _).1 _ (Nat.sub_lt (hsize _) (by decide))⟩

end Cache
end FormWeaver
