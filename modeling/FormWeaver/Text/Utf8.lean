/-!
# Bytes read leniently as text

What a process prints need not be UTF-8. The lenient reading keeps every character that is well
formed and turns each maximal ill-formed piece into the replacement character. It is a machine that
takes one byte at a time: between characters it has nothing pending, inside one it knows how many
bytes are still owed and in which range the next one must lie.
-/

namespace FormWeaver.Text

/-- The replacement character. -/
def replacement : Char := '\uFFFD'

/-- A character whose bytes have not all arrived. -/
structure Pending where
  /-- How many bytes are still owed, at least one. -/
  owed : Nat
  /-- The bits read so far. -/
  bits : Nat
  /-- The least value the next byte may have. -/
  low : Nat
  /-- The greatest value the next byte may have. -/
  high : Nat
  deriving Repr

/-- What a byte between characters begins. -/
inductive Start where
  /-- A character of one byte. -/
  | whole (c : Char)
  /-- The first of several bytes. -/
  | partly (pending : Pending)
  /-- No character begins with this byte. -/
  | illFormed

/-- What byte `b` begins. The ranges of second bytes exclude overlong forms, surrogates and
values past the last code point. -/
def Start.ofByte (b : Nat) : Start :=
  if b < 0x80 then .whole (Char.ofNat b)
  else if b < 0xC2 then .illFormed
  else if b < 0xE0 then .partly ⟨1, b - 0xC0, 0x80, 0xBF⟩
  else if b < 0xF0 then
    .partly ⟨2, b - 0xE0, if b = 0xE0 then 0xA0 else 0x80, if b = 0xED then 0x9F else 0xBF⟩
  else if b < 0xF5 then
    .partly ⟨3, b - 0xF0, if b = 0xF0 then 0x90 else 0x80, if b = 0xF4 then 0x8F else 0xBF⟩
  else .illFormed

/-- Reads on from `pending`; a byte that cannot continue the pending character ends it as
ill-formed and is read as the beginning of the next. -/
def lenientFrom : Option Pending → List UInt8 → List Char
  | none, [] => []
  | some _, [] => [replacement]
  | pending, b :: bs =>
    let begin : List Char :=
      match Start.ofByte b.toNat with
      | .whole c => c :: lenientFrom none bs
      | .partly p => lenientFrom (some p) bs
      | .illFormed => replacement :: lenientFrom none bs
    match pending with
    | none => begin
    | some p =>
      if p.low ≤ b.toNat && b.toNat ≤ p.high then
        let bits := p.bits * 64 + (b.toNat - 0x80)
        if p.owed = 1 then Char.ofNat bits :: lenientFrom none bs
        else lenientFrom (some ⟨p.owed - 1, bits, 0x80, 0xBF⟩) bs
      else replacement :: begin

/-- The lenient reading: each maximal ill-formed piece becomes the replacement character. -/
def lenient (bytes : ByteArray) : String := String.ofList (lenientFrom none bytes.data.toList)

/-- The bytes of a text are read as that text. -/
theorem fromUTF8?_toUTF8 (text : String) : String.fromUTF8? text.toUTF8 = some text := by
  unfold String.fromUTF8?
  exact dif_pos text.isValidUTF8

end FormWeaver.Text
