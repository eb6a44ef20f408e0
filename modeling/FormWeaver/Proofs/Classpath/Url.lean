import FormWeaver.Classpath.Location
import FormWeaver.Proofs.Path.Child
import FormWeaver.Proofs.Text.Cut
import FormWeaver.Text.Utf8
import Mathlib.Data.List.Basic

/-!
# Reading file URLs back

Each byte is written as itself or as an escape, and either is read back as that byte
(`decodeBytes_encodeByte_append`), so a text is read back as it was (`percentDecode_percentEncode`), and
two texts that are written alike are the same. What is written has neither blanks nor NULs in it, so a
URL is no other text after trimming, and the path in it begins at the slash behind an empty authority
(`spelledPath_url`).
-/

namespace FormWeaver.Classpath

/-! ## Bytes -/

/-- The digits of an escape. -/
def upperDigit (n : Nat) : Char := (Nat.digitChar n).toUpper

/-- Whether a character is neither blank nor NUL. -/
def isVisible (c : Char) : Bool := !Text.isBlank c && c != '\x00'

theorem upperDigit_spec : ∀ d < 16, Text.hexValue? (upperDigit d) = some d ∧ upperDigit d ≠ '+' ∧
    isVisible (upperDigit d) = true := by
  decide

theorem escapeValue?_upperDigit {n : Nat} (h : n < 256) :
    escapeValue? (upperDigit (n / 16)) (upperDigit (n % 16)) = some n := by
  obtain ⟨hhigh, hplus, -⟩ := upperDigit_spec (n / 16) (by omega)
  obtain ⟨hlow, -⟩ := upperDigit_spec (n % 16) (by omega)
  unfold escapeValue?
  simp only [hlow, hhigh, if_neg hplus, Option.map_some]
  congr 1
  omega

theorem toNat_ofNat {n : Nat} (h : n < 0x80) : (Char.ofNat n).toNat = n := by
  have hvalid : n.isValidChar := .inl (by omega)
  unfold Char.ofNat
  rw [dif_pos hvalid]
  rfl

theorem le_of_isAlphanum {c : Char} (h : c.isAlphanum = true) : '0'.toNat ≤ c.toNat := by
  have hlow : ∀ n < '0'.toNat, (Char.ofNat n).isAlphanum = false := by decide
  apply Nat.le_of_not_lt
  intro hlt
  have hfalse := hlow c.toNat hlt
  rw [Char.ofNat_toNat, h] at hfalse
  cases hfalse

/-- A byte that stands for itself is that of a mark in ASCII other than the percent sign. -/
theorem of_isPlainByte {b : UInt8} (h : isPlainByte b = true) : b.toNat < 0x80 ∧
    0x20 < (Char.ofNat b.toNat).toNat ∧ Char.ofNat b.toNat ≠ '%' := by
  unfold isPlainByte at h
  rw [Bool.and_eq_true, decide_eq_true_eq] at h
  obtain ⟨hascii, hmark⟩ := h
  refine ⟨hascii, ?_⟩
  generalize Char.ofNat b.toNat = c at hmark
  simp only [Bool.or_eq_true, beq_iff_eq] at hmark
  rcases hmark with (((((hword | rfl) | rfl) | rfl) | rfl) | rfl) | rfl
  · have hle := le_of_isAlphanum hword
    refine ⟨Nat.lt_of_lt_of_le (by decide) hle, ?_⟩
    rintro rfl
    exact absurd hle (by decide)
  all_goals exact ⟨by decide, by decide⟩

theorem isVisible_of_ascii {c : Char} (hlow : 0x20 < c.toNat) (hhigh : c.toNat < 0x80) :
    isVisible c = true := by
  have hnul : c ≠ '\x00' := by
    rintro rfl
    exact absurd hlow (by decide)
  have hblank : Text.isBlank c = false := by
    simp [Text.isBlank]
    omega
  rw [isVisible, hblank, Bool.not_false, Bool.true_and, bne_iff_ne]
  exact hnul

/-- A byte is written as itself, when no percent sign is, or as an escape that spells it. -/
theorem encodeByte_cases (b : UInt8) :
    (encodeByte b = [Char.ofNat b.toNat] ∧ Char.ofNat b.toNat ≠ '%' ∧
      String.utf8EncodeChar (Char.ofNat b.toNat) = [b]) ∨
    (encodeByte b = ['%', upperDigit (b.toNat / 16), upperDigit (b.toNat % 16)] ∧
      escapeValue? (upperDigit (b.toNat / 16)) (upperDigit (b.toNat % 16)) = some b.toNat) := by
  by_cases hplain : isPlainByte b = true
  · obtain ⟨hascii, -, hne⟩ := of_isPlainByte hplain
    refine .inl ⟨if_pos hplain, hne, ?_⟩
    have hval : (Char.ofNat b.toNat).val.toNat = b.toNat := toNat_ofNat hascii
    rw [String.utf8EncodeChar, hval, if_pos (by omega), UInt8.ofNat_toNat]
  · exact .inr ⟨if_neg hplain, escapeValue?_upperDigit b.toNat_lt⟩

theorem isVisible_of_mem_encodeByte {b : UInt8} {c : Char} (h : c ∈ encodeByte b) : isVisible c = true := by
  unfold encodeByte at h
  split at h
  · next hplain =>
    obtain ⟨hascii, hmark, -⟩ := of_isPlainByte hplain
    rw [List.mem_singleton.mp h]
    apply isVisible_of_ascii hmark
    rw [toNat_ofNat hascii]
    exact hascii
  · rcases List.mem_cons.mp h with rfl | hdigit
    · decide
    · obtain ⟨digit, hmem, rfl⟩ := List.mem_map.mp hdigit
      obtain ⟨d, hd, rfl⟩ := Text.exists_digit_of_mem_hexPair b.toNat_lt hmem
      exact (upperDigit_spec d hd).2.2

theorem decodeBytes_cons {c : Char} (h : c ≠ '%') (rest : List Char) :
    decodeBytes (c :: rest) = (decodeBytes rest).map (String.utf8EncodeChar c ++ ·) := by
  rw [decodeBytes.eq_def]
  split
  · contradiction
  · next heq => exact absurd (List.cons.inj heq).1 h
  · next heq =>
    obtain ⟨rfl, rfl⟩ := List.cons.inj heq
    rw [if_neg h]

theorem decodeBytes_escape {a b : Char} {n : Nat} (h : escapeValue? a b = some n) (rest : List Char) :
    decodeBytes ('%' :: a :: b :: rest) = (decodeBytes rest).map (UInt8.ofNat n :: ·) := by
  rw [decodeBytes, h]

theorem decodeBytes_encodeByte_append (b : UInt8) (rest : List Char) :
    decodeBytes (encodeByte b ++ rest) = (decodeBytes rest).map (b :: ·) := by
  rcases encodeByte_cases b with ⟨hself, hne, hbyte⟩ | ⟨hescape, hvalue⟩
  · rw [hself, List.singleton_append, decodeBytes_cons hne, hbyte]
    rfl
  · rw [hescape]
    exact (decodeBytes_escape hvalue rest).trans (by rw [UInt8.ofNat_toNat])

theorem decodeBytes_flatMap_encodeByte (bytes : List UInt8) :
    decodeBytes (bytes.flatMap encodeByte) = some bytes := by
  induction bytes with
  | nil => rfl
  | cons b bytes ih => rw [List.flatMap_cons, decodeBytes_encodeByte_append, ih, Option.map_some]

/-! ## Texts -/

theorem toList_percentEncode (s : String) :
    (percentEncode s).toList = s.toUTF8.data.toList.flatMap encodeByte := by
  unfold percentEncode
  rw [String.toList_ofList]

/-- A text is read back as it was written. -/
theorem percentDecode_percentEncode (s : String) : percentDecode (percentEncode s).toList = some s := by
  have hbytes : s.toUTF8.data.toList.toByteArray = s.toUTF8 := by
    apply ByteArray.ext
    simp
  unfold percentDecode
  rw [toList_percentEncode, decodeBytes_flatMap_encodeByte, Option.bind_some, hbytes,
    Text.fromUTF8?_toUTF8]

theorem percentEncode_injective {s t : String} (h : percentEncode s = percentEncode t) : s = t := by
  apply Option.some.inj
  rw [← percentDecode_percentEncode s, h, percentDecode_percentEncode t]

theorem isVisible_of_mem_percentEncode {s : String} {c : Char} (h : c ∈ (percentEncode s).toList) :
    isVisible c = true := by
  rw [toList_percentEncode, List.mem_flatMap] at h
  obtain ⟨b, -, hc⟩ := h
  exact isVisible_of_mem_encodeByte hc

theorem percentEncode_append (s t : String) :
    percentEncode (s ++ t) = percentEncode s ++ percentEncode t := by
  unfold percentEncode
  simp

/-- A slash at the beginning stays there. -/
theorem exists_percentEncode_of_slash {s : String} (h : s.toList.head? = some '/') :
    ∃ rest, (percentEncode s).toList = '/' :: rest := by
  obtain ⟨rest, hrest⟩ := List.head?_eq_some_iff.mp h
  have hs : s = "/" ++ String.ofList rest := by
    rw [← String.toList_inj, hrest]
    simp
  have hslash : percentEncode "/" = "/" := rfl
  refine ⟨(percentEncode (String.ofList rest)).toList, ?_⟩
  rw [hs, percentEncode_append, hslash]
  simp

/-! ## URLs -/

theorem toList_url (s : String) :
    ("file://" ++ percentEncode s).toList =
      "file".toList ++ ':' :: '/' :: '/' :: (percentEncode s).toList := by
  simp

theorem isVisible_of_mem_url {s : String} {c : Char} (h : c ∈ ("file://" ++ percentEncode s).toList) :
    isVisible c = true := by
  have hfront : "file://".toList.all isVisible = true := by simp [isVisible, Text.isBlank]
  rw [String.toList_append, List.mem_append] at h
  exact h.elim (List.all_eq_true.mp hfront c) isVisible_of_mem_percentEncode

/-- The path in a URL begins at the slash behind the empty authority. -/
theorem dropAuthority_percentEncode {s : String} (h : s.toList.head? = some '/') :
    dropAuthority ('/' :: '/' :: (percentEncode s).toList) = (percentEncode s).toList := by
  obtain ⟨rest, hrest⟩ := exists_percentEncode_of_slash h
  rw [hrest]
  rfl

theorem spelledPath_url {s : String} (h : s.toList.head? = some '/') :
    Location.spelledPath ("file://" ++ percentEncode s).toList = .ok ⟨s⟩ := by
  unfold Location.spelledPath
  rw [toList_url, Text.cut?_append_of_notMem (by decide)]
  simp only [dropAuthority_percentEncode h, percentDecode_percentEncode]
  rw [if_pos (by decide), if_pos (by decide)]

/-- The URL of a text that begins with a slash names the path which that text spells. -/
theorem pathOf_url {d : Disk} {s : String} {p : Path} (h : s.toList.head? = some '/')
    (hp : d.absolute ⟨s⟩ = .ok p) : Location.pathOf d ("file://" ++ percentEncode s) = .ok p := by
  have htrim : Text.trim ("file://" ++ percentEncode s).toList = ("file://" ++ percentEncode s).toList := by
    apply Text.trim_eq_self
    intro c hc
    have hvisible := isVisible_of_mem_url hc
    rw [isVisible, Bool.and_eq_true, Bool.not_eq_true'] at hvisible
    exact hvisible.1
  have hnul : ("file://" ++ percentEncode s).toList.contains '\x00' = false := by
    rw [List.contains_eq_mem, decide_eq_false_iff_not]
    intro hc
    cases isVisible_of_mem_url hc
  have hne : ("file://" ++ percentEncode s).toList.isEmpty = false := by rw [toList_url]; rfl
  unfold Location.pathOf
  simp only [htrim, hne, hnul, spelledPath_url h, hp, Bool.false_eq_true, if_false]

/-! ## The path in a URL -/

/-- The path with a slash for each backslash. -/
def slashed (p : Path) : Path := ⟨Text.replaceChar '\\' '/' p.text⟩

theorem slashed_eq_self {p : Path} (h : '\\' ∉ p.text.toList) : slashed p = p := by
  have hmap : p.text.toList.map (fun c => if c = '\\' then '/' else c) = p.text.toList.map id :=
    List.map_congr_left fun c hc => if_neg fun (he : c = '\\') => h (he ▸ hc)
  unfold slashed Text.replaceChar
  rw [hmap, List.map_id, String.ofList_toList]

theorem isAbsolute_slashed {p : Path} (h : p.isAbsolute = true) : (slashed p).isAbsolute = true := by
  have hhead := eq_of_beq h
  unfold Path.isAbsolute slashed Text.replaceChar
  rw [String.toList_ofList, List.head?_map, hhead]
  rfl

/-- A URL shows an absolute path with its backslashes as slashes and with a slash behind a directory. -/
theorem urlPath_of_isAbsolute {p : Path} (h : p.isAbsolute = true) (directory : Bool) :
    (⟨urlPath p directory⟩ : Path) = if directory then (slashed p).child "" else slashed p := by
  have habs : (slashed p).isAbsolute = true := isAbsolute_slashed h
  have hempty := Path.isEmpty_text_of_isAbsolute habs
  have hurl : urlPath p directory = if (directory && !(slashed p).hasTrailingSlash) = true then
      (slashed p).text ++ "/" else (slashed p).text := by
    have hhead : ((Text.replaceChar '\\' '/' p.text).toList.head? == some '/') = true := habs
    unfold urlPath
    simp only [hhead, if_true]
    rfl
  rw [hurl]
  cases directory with
  | false => rfl
  | true =>
    cases hslash : (slashed p).hasTrailingSlash with
    | true => rw [if_pos rfl, Path.child_empty_of_hasTrailingSlash hslash, if_neg (by decide)]
    | false => rw [if_pos rfl, Path.child_empty_text hempty hslash, if_pos (by decide)]

end FormWeaver.Classpath
