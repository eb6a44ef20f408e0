import FormWeaver.Proofs.Classpath.NulEscapes

/-!
# What counts as an escape

The part of a file URL behind its authority is read from left to right: a character stands for its own
bytes, and a percent sign begins an escape, which stands for one byte. `UrlPiece` has the pieces that are
read so, and a part has a text exactly when it is put together from pieces whose bytes are those of the
text (`percentDecode_eq_some_iff`). An escape is two hexadecimal digits; but the number behind the percent
sign is read by the rules of numerals, which take a plus sign and one digit as well. `parse_iff_standsFor`
tells which file URLs are locations, and of which paths.
-/

namespace FormWeaver

/-- Whether a character is a hexadecimal digit of either case. -/
def IsHexDigit (c : Char) : Prop :=
  ('0' ≤ c ∧ c ≤ '9') ∨ ('a' ≤ c ∧ c ≤ 'f') ∨ ('A' ≤ c ∧ c ≤ 'F')

instance (c : Char) : Decidable (IsHexDigit c) := inferInstanceAs (Decidable (_ ∨ _))

/-- The hexadecimal digits are the characters that have a value. -/
theorem isHexDigit_iff {c : Char} : IsHexDigit c ↔ ∃ n, Text.hexValue? c = some n := by
  unfold IsHexDigit Text.hexValue?
  split
  · next h => exact iff_of_true (.inl h) ⟨_, rfl⟩
  split
  · next h => exact iff_of_true (.inr (.inl h)) ⟨_, rfl⟩
  split
  · next h => exact iff_of_true (.inr (.inr h)) ⟨_, rfl⟩
  · next hdecimal hlower hupper =>
    refine iff_of_false ?_ (by simp)
    rintro (h | h | h)
    · exact hdecimal h
    · exact hlower h
    · exact hupper h

theorem IsHexDigit.ne {c x : Char} (h : IsHexDigit c) (hx : ¬ IsHexDigit x) : c ≠ x := by
  rintro rfl
  exact hx h

namespace Classpath

/-! ## Pieces -/

/-- A piece of an escaped text. -/
inductive UrlPiece
  /-- A character that stands for its own bytes. -/
  | plain (c : Char) (h : c ≠ '%')
  /-- An escape of two digits, which stands for the byte that they spell. -/
  | digits (a b : Char) (high low : Nat) (ha : Text.hexValue? a = some high)
      (hb : Text.hexValue? b = some low)
  /-- An escape of a plus sign and a digit, which stands for the byte of that digit. -/
  | signed (b : Char) (low : Nat) (hb : Text.hexValue? b = some low)

/-- How a piece is written. -/
def UrlPiece.chars : UrlPiece → List Char
  | .plain c _ => [c]
  | .digits a b _ _ _ _ => ['%', a, b]
  | .signed b _ _ => ['%', '+', b]

/-- What a piece stands for. -/
def UrlPiece.bytes : UrlPiece → List UInt8
  | .plain c _ => String.utf8EncodeChar c
  | .digits _ _ high low _ _ => [UInt8.ofNat (high * 16 + low)]
  | .signed _ low _ => [UInt8.ofNat low]

/-- Whether an escaped text stands for a text: it is put together from pieces, and the bytes of these are
those of the text. -/
def StandsFor (part : List Char) (text : String) : Prop :=
  ∃ pieces : List UrlPiece, part = pieces.flatMap UrlPiece.chars ∧
    text.toUTF8.data.toList = pieces.flatMap UrlPiece.bytes

theorem decodeBytes_chars_append (piece : UrlPiece) (rest : List Char) :
    decodeBytes (piece.chars ++ rest) = (decodeBytes rest).map (piece.bytes ++ ·) := by
  cases piece with
  | plain c h => exact decodeBytes_cons h rest
  | digits a b high low ha hb =>
    have hplus : a ≠ '+' := (isHexDigit_iff.mpr ⟨high, ha⟩).ne (by decide)
    have hvalue : escapeValue? a b = some (high * 16 + low) := by
      unfold escapeValue?
      simp only [hb, ha, if_neg hplus, Option.map_some]
    exact decodeBytes_escape hvalue rest
  | signed b low hb =>
    have hvalue : escapeValue? '+' b = some low := by
      unfold escapeValue?
      simp only [hb, if_true]
    exact decodeBytes_escape hvalue rest

/-- The number behind a percent sign makes a piece of it. -/
theorem exists_piece_of_escapeValue? {a b : Char} {n : Nat} (h : escapeValue? a b = some n) :
    ∃ piece : UrlPiece, piece.chars = ['%', a, b] ∧ piece.bytes = [UInt8.ofNat n] := by
  unfold escapeValue? at h
  split at h
  · cases h
  · next low hb =>
    split at h
    · next hplus =>
      obtain rfl := Option.some.inj h
      exact ⟨.signed b low hb, by rw [hplus, UrlPiece.chars], rfl⟩
    · obtain ⟨high, ha, rfl⟩ := Option.map_eq_some_iff.mp h
      exact ⟨.digits a b high low ha hb, rfl, rfl⟩

/-- **What is read as bytes** is put together from pieces, and the bytes are theirs. -/
theorem decodeBytes_eq_some_iff {part : List Char} {bytes : List UInt8} :
    decodeBytes part = some bytes ↔ ∃ pieces : List UrlPiece,
      part = pieces.flatMap UrlPiece.chars ∧ bytes = pieces.flatMap UrlPiece.bytes := by
  constructor
  · intro h
    induction part using decodeBytes.induct generalizing bytes with
    | case1 => exact ⟨[], rfl, (Option.some.inj h).symm⟩
    | case2 a b rest hvalue => simp [decodeBytes, hvalue] at h
    | case3 a b rest n hvalue ih =>
      rw [decodeBytes_escape hvalue] at h
      obtain ⟨more, hmore, rfl⟩ := Option.map_eq_some_iff.mp h
      obtain ⟨pieces, rfl, rfl⟩ := ih hmore
      obtain ⟨piece, hchars, hbytes⟩ := exists_piece_of_escapeValue? hvalue
      exact ⟨piece :: pieces, by rw [List.flatMap_cons, hchars]; rfl,
        by rw [List.flatMap_cons, hbytes]; rfl⟩
    | case4 rest hshort => simp [decodeBytes] at h
    | case5 c rest hshort hc ih =>
      rw [decodeBytes_cons hc] at h
      obtain ⟨more, hmore, rfl⟩ := Option.map_eq_some_iff.mp h
      obtain ⟨pieces, rfl, rfl⟩ := ih hmore
      exact ⟨.plain c hc :: pieces, rfl, rfl⟩
  · rintro ⟨pieces, rfl, rfl⟩
    induction pieces with
    | nil => rfl
    | cons piece pieces ih =>
      rw [List.flatMap_cons, decodeBytes_chars_append, ih, Option.map_some, List.flatMap_cons]

theorem percentDecode_eq_some_iff {part : List Char} {text : String} :
    percentDecode part = some text ↔ StandsFor part text := by
  unfold percentDecode StandsFor
  rw [Option.bind_eq_some_iff]
  constructor
  · rintro ⟨bytes, hbytes, htext⟩
    obtain ⟨pieces, hpart, rfl⟩ := decodeBytes_eq_some_iff.mp hbytes
    have hencode : text.toUTF8 = text.toList.utf8Encode := String.utf8Encode_toList.symm
    refine ⟨pieces, hpart, ?_⟩
    rw [← Text.flatMap_of_fromUTF8? htext, hencode]
    simp [List.utf8Encode]
  · rintro ⟨pieces, hpart, htext⟩
    refine ⟨_, decodeBytes_eq_some_iff.mpr ⟨pieces, hpart, rfl⟩, ?_⟩
    have hbytes : (pieces.flatMap UrlPiece.bytes).toByteArray = text.toUTF8 := by
      rw [← htext]
      apply ByteArray.ext
      simp
    rw [hbytes, Text.fromUTF8?_toUTF8]

/-! ## Percent signs -/

/-- Whether every percent sign is followed by two digits, or by a plus sign and one. -/
def IsEscaped (part : List Char) : Prop :=
  ∀ before after, part = before ++ '%' :: after →
    ∃ a b rest, after = a :: b :: rest ∧ (IsHexDigit a ∨ a = '+') ∧ IsHexDigit b

theorem isEscaped_nil : IsEscaped [] := by
  intro before after h
  cases before <;> cases h

theorem isEscaped_cons {c : Char} (h : c ≠ '%') (cs : List Char) : IsEscaped (c :: cs) ↔ IsEscaped cs := by
  constructor
  · rintro hcs before after rfl
    exact hcs (c :: before) after rfl
  · intro hcs before after hsplit
    cases before with
    | nil => exact absurd (List.cons.inj hsplit).1 h
    | cons first before => exact hcs before after (List.cons.inj hsplit).2

theorem isEscaped_percent (cs : List Char) : IsEscaped ('%' :: cs) ↔
    (∃ a b rest, cs = a :: b :: rest ∧ (IsHexDigit a ∨ a = '+') ∧ IsHexDigit b) ∧ IsEscaped cs := by
  constructor
  · intro hcs
    refine ⟨hcs [] cs rfl, ?_⟩
    rintro before after rfl
    exact hcs ('%' :: before) after rfl
  · rintro ⟨hfirst, hcs⟩ before after hsplit
    cases before with
    | nil =>
      obtain rfl := (List.cons.inj hsplit).2
      exact hfirst
    | cons first before => exact hcs before after (List.cons.inj hsplit).2

/-- Behind the percent sign of an escape the next one is that of another escape. -/
theorem isEscaped_chars_append (piece : UrlPiece) (rest : List Char) :
    IsEscaped (piece.chars ++ rest) ↔ IsEscaped rest := by
  cases piece with
  | plain c h => exact isEscaped_cons h rest
  | digits a b high low ha hb =>
    have ha := isHexDigit_iff.mpr ⟨high, ha⟩
    have hb := isHexDigit_iff.mpr ⟨low, hb⟩
    show IsEscaped ('%' :: a :: b :: rest) ↔ _
    rw [isEscaped_percent, and_iff_right ⟨a, b, rest, rfl, .inl ha, hb⟩,
      isEscaped_cons (ha.ne (by decide)), isEscaped_cons (hb.ne (by decide))]
  | signed b low hb =>
    have hb := isHexDigit_iff.mpr ⟨low, hb⟩
    show IsEscaped ('%' :: '+' :: b :: rest) ↔ _
    rw [isEscaped_percent, and_iff_right ⟨'+', b, rest, rfl, .inr rfl, hb⟩, isEscaped_cons (by decide),
      isEscaped_cons (hb.ne (by decide))]

/-- Two digits, or a plus sign and one, make a piece behind a percent sign. -/
theorem exists_piece_of_digits {a b : Char} (ha : IsHexDigit a ∨ a = '+') (hb : IsHexDigit b) :
    ∃ piece : UrlPiece, piece.chars = ['%', a, b] := by
  obtain ⟨low, hlow⟩ := isHexDigit_iff.mp hb
  rcases ha with ha | rfl
  · obtain ⟨high, hhigh⟩ := isHexDigit_iff.mp ha
    exact ⟨.digits a b high low hhigh hlow, rfl⟩
  · exact ⟨.signed b low hlow, rfl⟩

/-- **A text is put together from pieces** exactly when every percent sign in it begins an escape. -/
theorem exists_pieces_iff {part : List Char} :
    (∃ pieces : List UrlPiece, part = pieces.flatMap UrlPiece.chars) ↔ IsEscaped part := by
  constructor
  · rintro ⟨pieces, rfl⟩
    induction pieces with
    | nil => exact isEscaped_nil
    | cons piece pieces ih => rwa [List.flatMap_cons, isEscaped_chars_append]
  · intro h
    -- Each piece takes the text up to where the next one begins.
    induction hn : part.length using Nat.strongRecOn generalizing part with
    | ind n ih =>
      cases part with
      | nil => exact ⟨[], rfl⟩
      | cons c cs =>
        obtain ⟨piece, rest, hpart⟩ : ∃ (piece : UrlPiece) (rest : List Char),
            c :: cs = piece.chars ++ rest := by
          by_cases hc : c = '%'
          · subst hc
            obtain ⟨a, b, rest, rfl, ha, hb⟩ := ((isEscaped_percent cs).mp h).1
            obtain ⟨piece, hpiece⟩ := exists_piece_of_digits ha hb
            exact ⟨piece, rest, by rw [hpiece]; rfl⟩
          · exact ⟨.plain c hc, cs, rfl⟩
        have hchars : 0 < piece.chars.length := by cases piece <;> simp [UrlPiece.chars]
        rw [hpart] at h hn
        rw [List.length_append] at hn
        obtain ⟨pieces, hpieces⟩ := ih rest.length (by omega)
          ((isEscaped_chars_append piece rest).mp h) rfl
        exact ⟨piece :: pieces, by rw [hpart, hpieces, List.flatMap_cons]⟩

/-- An escaped text stands for a text when its percent signs begin escapes and its bytes are UTF-8. -/
theorem exists_standsFor_iff {part : List Char} : (∃ text, StandsFor part text) ↔
    IsEscaped part ∧ ∀ pieces : List UrlPiece, part = pieces.flatMap UrlPiece.chars →
      ∃ text : String, text.toUTF8.data.toList = pieces.flatMap UrlPiece.bytes := by
  constructor
  · rintro ⟨text, pieces, hpart, htext⟩
    refine ⟨exists_pieces_iff.mp ⟨pieces, hpart⟩, fun pieces' hpart' => ⟨text, ?_⟩⟩
    -- The bytes do not depend on the pieces.
    have hbytes := decodeBytes_eq_some_iff.mpr ⟨pieces, hpart, rfl⟩
    have hbytes' := decodeBytes_eq_some_iff.mpr ⟨pieces', hpart', rfl⟩
    rw [htext, Option.some.inj (hbytes.symm.trans hbytes')]
  · rintro ⟨hescaped, hutf8⟩
    obtain ⟨pieces, hpart⟩ := exists_pieces_iff.mpr hescaped
    obtain ⟨text, htext⟩ := hutf8 pieces hpart
    exact ⟨text, pieces, hpart, htext⟩

theorem isScheme_of_file {scheme : List Char} (h : scheme.map Char.toLower = "file".toList) :
    isScheme scheme = true := by
  have hletters : ∀ c ∈ scheme, c.isAlpha = true := by
    intro c hc
    have hfile : "file".toList.all Char.isAlpha = true := rfl
    have hlower : c.toLower ∈ "file".toList := h ▸ List.mem_map_of_mem hc
    unfold Char.toLower at hlower
    split at hlower
    · next hupper =>
      have hletter : c.isUpper = true := decide_eq_true hupper
      show (c.isUpper || c.isLower) = true
      rw [hletter, Bool.true_or]
    · exact List.all_eq_true.mp hfile c hlower
  have hmark : ∀ c ∈ scheme, (c.isAlphanum || c == '+' || c == '-' || c == '.') = true := by
    intro c hc
    rw [Char.isAlphanum, hletters c hc]
    rfl
  have hlength : scheme.length = 4 := by
    rw [← List.length_map Char.toLower, h]
    rfl
  cases scheme with
  | nil => simp at hlength
  | cons first tail =>
    cases tail with
    | nil => simp at hlength
    | cons second rest =>
      show (first.isAlpha && (first :: second :: rest).all fun c =>
        c.isAlphanum || c == '+' || c == '-' || c == '.') = true
      rw [hletters first List.mem_cons_self, Bool.true_and, List.all_eq_true]
      exact hmark

end Classpath

/-! ## Locations -/

namespace Location

open Classpath

/-- Whether a text is a file URL with this part behind the authority. -/
def IsFileUrl (text part : List Char) : Prop :=
  ∃ scheme rest, text = scheme ++ ':' :: rest ∧ scheme.map Char.toLower = "file".toList ∧
    part = dropAuthority rest

/-- The part of a file URL is what stands behind its first colon, less the authority. -/
theorem isFileUrl_iff {text part : List Char} : IsFileUrl text part ↔
    ∃ scheme rest, Text.cut? [':'] text = some (scheme, rest) ∧ scheme.map Char.toLower = "file".toList ∧
      part = dropAuthority rest := by
  constructor
  · rintro ⟨scheme, rest, rfl, hfile, rfl⟩
    have hcolon : ':' ∉ scheme := by
      intro hc
      have hmem : Char.toLower ':' ∈ "file".toList := hfile ▸ List.mem_map_of_mem hc
      exact absurd hmem (by decide)
    exact ⟨scheme, rest, Text.cut?_append_of_notMem hcolon rest, hfile, rfl⟩
  · rintro ⟨scheme, rest, hcut, hfile, rfl⟩
    refine ⟨scheme, rest, ?_, hfile, rfl⟩
    rw [Text.eq_append_of_cut? hcut, List.append_assoc, List.singleton_append]

theorem spelledPath_of_isFileUrl {text part : List Char} (h : IsFileUrl text part) :
    spelledPath text = match percentDecode part with
      | some decoded => .ok ⟨decoded⟩
      | none => .error .badEscape := by
  obtain ⟨scheme, rest, hcut, hfile, rfl⟩ := isFileUrl_iff.mp h
  unfold spelledPath
  cases hdecode : percentDecode (dropAuthority rest) <;>
    simp only [hcut, isScheme_of_file hfile, hfile, hdecode, if_true]

variable {d : Disk} {raw : String} {part : List Char}

theorem pathOf_of_isFileUrl (hnul : '\x00' ∉ raw.toList) (h : IsFileUrl (Text.trim raw.toList) part) :
    pathOf d raw = match percentDecode part with
      | none => .error .badEscape
      | some decoded => match d.absolute ⟨decoded⟩ with
        | .error cause => .error (.noAbsolutePath cause)
        | .ok path => .ok path := by
  have hempty : (Text.trim raw.toList).isEmpty = false := by
    obtain ⟨scheme, rest, htext, -⟩ := h
    rw [htext]
    simp
  have hvisible : (Text.trim raw.toList).contains '\x00' = false := by
    rw [List.contains_eq_mem, decide_eq_false_iff_not]
    exact fun hmem => hnul (Text.mem_of_mem_trim hmem)
  unfold pathOf
  simp only [hempty, hvisible, Bool.false_eq_true, if_false, spelledPath_of_isFileUrl h]
  cases percentDecode part <;> rfl

/-- **File URLs.** A file URL without a NUL is a location exactly when the part behind its authority stands
for a text and this text, taken as a path, has an absolute form, which is the path of the location. The
part stands for a text exactly when every percent sign in it begins an escape and its bytes are UTF-8; an
escape is two hexadecimal digits, or a plus sign and one, and stands for the byte that they spell, and
every other character stands for its own bytes. Any other file URL is an error that tells which of the two
was missing. -/
theorem parse_iff_standsFor (hnul : '\x00' ∉ raw.toList) (h : IsFileUrl (Text.trim raw.toList) part) :
    (∀ l, parse d raw = .ok l ↔
      ∃ text path, StandsFor part text ∧ d.absolute ⟨text⟩ = .ok path ∧ l = ofAbsolute d path) ∧
      (∀ e, parse d raw = .error e ↔
        ((∀ text, ¬ StandsFor part text) ∧ e = ⟨raw, .badEscape⟩) ∨
          ∃ text cause, StandsFor part text ∧ d.absolute ⟨text⟩ = .error cause ∧
            e = ⟨raw, .noAbsolutePath cause⟩) ∧
      ((∃ text, StandsFor part text) ↔
        IsEscaped part ∧ ∀ pieces : List UrlPiece, part = pieces.flatMap UrlPiece.chars →
          ∃ text : String, text.toUTF8.data.toList = pieces.flatMap UrlPiece.bytes) := by
  have hstands : ∀ text, StandsFor part text ↔ percentDecode part = some text := fun text =>
    percentDecode_eq_some_iff.symm
  refine ⟨fun l => ?_, fun e => ?_, exists_standsFor_iff⟩
  all_goals
    unfold parse
    simp only [pathOf_of_isFileUrl hnul h, hstands]
  · cases percentDecode part with
    | none => simp
    | some decoded =>
      cases habsolute : d.absolute ⟨decoded⟩ with
      | error cause => simp [habsolute]
      | ok path => simp [habsolute, eq_comm]
  · cases percentDecode part with
    | none => simp [eq_comm]
    | some decoded =>
      cases habsolute : d.absolute ⟨decoded⟩ with
      | error cause => simp [habsolute, eq_comm]
      | ok path => simp [habsolute]

namespace Sample

/-- A file URL with an escape of two digits and one of a plus sign and a digit, and one with an escape that
is cut off. -/
theorem parse_iff_standsFor_signed :
    ('\x00' ∉ "file:///a%20%+5b".toList ∧
      IsFileUrl (Text.trim "file:///a%20%+5b".toList) "/a%20%+5b".toList ∧
      parse beside "file:///a%20%+5b" = .ok (ofAbsolute beside ⟨"/a \x05b"⟩)) ∧
    ('\x00' ∉ "file:///a%5".toList ∧ IsFileUrl (Text.trim "file:///a%5".toList) "/a%5".toList ∧
      parse beside "file:///a%5" = .error ⟨"file:///a%5", .badEscape⟩) := by
  have hsigned : '\x00' ∉ "file:///a%20%+5b".toList := by decide
  have hcut : '\x00' ∉ "file:///a%5".toList := by decide
  have hsignedUrl : IsFileUrl (Text.trim "file:///a%20%+5b".toList) "/a%20%+5b".toList :=
    ⟨"file".toList, "///a%20%+5b".toList, by decide, by decide, by decide⟩
  have hcutUrl : IsFileUrl (Text.trim "file:///a%5".toList) "/a%5".toList :=
    ⟨"file".toList, "///a%5".toList, by decide, by decide, by decide⟩
  obtain ⟨hok, -, -⟩ := parse_iff_standsFor (d := beside) hsigned hsignedUrl
  obtain ⟨-, herror, hstands⟩ := parse_iff_standsFor (d := beside) hcut hcutUrl
  refine ⟨⟨hsigned, hsignedUrl, (hok _).mpr ⟨"/a \x05b", ⟨"/a \x05b"⟩, ?_, by decide, rfl⟩⟩,
    hcut, hcutUrl, (herror _).mpr (.inl ⟨fun text htext => ?_, rfl⟩)⟩
  · exact ⟨[.plain '/' (by decide), .plain 'a' (by decide), .digits '2' '0' 2 0 rfl rfl,
      .signed '5' 5 rfl, .plain 'b' (by decide)], rfl, rfl⟩
  · obtain ⟨a, b, rest, hafter, -⟩ := (hstands.mp ⟨text, htext⟩).1 "/a".toList ['5'] rfl
    cases hafter

/-- Not only two hexadecimal digits make an escape. -/
theorem not_forall_two_digits :
    ¬ ∀ (d : Disk) (raw : String) (part : List Char), '\x00' ∉ raw.toList →
      IsFileUrl (Text.trim raw.toList) part →
      ((∃ l, parse d raw = .ok l) ↔
        (∀ before after, part = before ++ '%' :: after →
          ∃ a b rest, after = a :: b :: rest ∧ IsHexDigit a ∧ IsHexDigit b) ∧
        ∃ text path, StandsFor part text ∧ d.absolute ⟨text⟩ = .ok path) := by
  intro hall
  have hurl : IsFileUrl (Text.trim "file:///a%+5b".toList) "/a%+5b".toList :=
    ⟨"file".toList, "///a%+5b".toList, by decide, by decide, by decide⟩
  have hpath : pathOf beside "file:///a%+5b" = .ok ⟨"/a\x05b"⟩ := by decide
  have hparse : ∃ l, parse beside "file:///a%+5b" = .ok l := by
    unfold parse
    rw [hpath]
    exact ⟨_, rfl⟩
  obtain ⟨hdigits, -⟩ := (hall beside _ _ (by decide) hurl).mp hparse
  obtain ⟨a, b, rest, hafter, ha, -⟩ := hdigits "/a".toList "+5b".toList rfl
  obtain rfl : '+' = a := (List.cons.inj hafter).1
  exact absurd ha (by decide)

end Sample

end Location

end FormWeaver
