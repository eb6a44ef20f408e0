import FormWeaver.Archive.CodePage
import FormWeaver.Text.Utf8

/-!
# The directory of an archive

A zip archive is read from its end. The *end record* there tells how many entries the *directory*
lists, how long it is and where it begins; an archive with large numbers has a second end record,
found through a *locator* before the first. Offsets may be too small by what was put in front of the
archive, and the difference is taken from where the end record was found. All numbers have their
lowest byte first.
-/

namespace FormWeaver.Archive

/-! ## Numbers in bytes -/

/-- The number in `n` bytes from an offset, when all of them exist. -/
def number? (bytes : ByteArray) (offset : Nat) : Nat → Option Nat
  | 0 => some 0
  | n + 1 =>
    match bytes[offset]?, number? bytes (offset + 1) n with
    | some b, some rest => some (b.toNat + 256 * rest)
    | _, _ => none

/-- The `n` bytes from an offset, when all of them exist. -/
def slice? (bytes : ByteArray) (offset n : Nat) : Option (List UInt8) :=
  if offset + n ≤ bytes.size then some (bytes.extract offset (offset + n)).data.toList else none

/-! ## The end records -/

/-- The signature of the end record. -/
def endSignature : Nat := 0x06054B50

/-- The size of the end record without its comment. -/
def endSize : Nat := 22

/-- The end record of an archive. -/
structure EndRecord where
  position : Nat
  disk : Nat
  /-- The number of the disk on which the directory begins. -/
  directoryDisk : Nat
  /-- The number of entries on this disk. -/
  entriesHere : Nat
  entries : Nat
  size : Nat
  offset : Nat
  /-- The length of the comment behind the record. -/
  comment : Nat

/-- The end record at a position. -/
def EndRecord.at? (bytes : ByteArray) (position : Nat) : Option EndRecord := do
  let disk ← number? bytes (position + 4) 2
  let directoryDisk ← number? bytes (position + 6) 2
  let entriesHere ← number? bytes (position + 8) 2
  let entries ← number? bytes (position + 10) 2
  let size ← number? bytes (position + 12) 4
  let offset ← number? bytes (position + 16) 4
  let comment ← number? bytes (position + 20) 2
  let _ ← slice? bytes (position + endSize) comment
  return ⟨position, disk, directoryDisk, entriesHere, entries, size, offset, comment⟩

/-- The greatest position at most `start + n` that holds the signature. -/
def lastSignature? (bytes : ByteArray) (start : Nat) : Nat → Option Nat
  | 0 => if number? bytes start 4 = some endSignature then some start else none
  | n + 1 =>
    if number? bytes (start + n + 1) 4 = some endSignature then some (start + n + 1)
    else lastSignature? bytes start n

/-- The last end record that a comment of the greatest length leaves room for. -/
def EndRecord.find? (bytes : ByteArray) : Option EndRecord :=
  if bytes.size < endSize then none
  else
    let start := bytes.size - (endSize + 0xFFFF)
    (lastSignature? bytes start (bytes.size - endSize - start)).bind (EndRecord.at? bytes)

/-- Whether a number is too large for the record, and is given elsewhere. -/
def EndRecord.isTooSmall (e : EndRecord) : Bool :=
  e.disk == 0xFFFF || e.directoryDisk == 0xFFFF || e.entriesHere == 0xFFFF || e.entries == 0xFFFF ||
    e.size == 0xFFFFFFFF || e.offset == 0xFFFFFFFF

/-- Where the directory is: the bytes in front of the archive, the position of the directory, and the
number of its entries. -/
structure Extent where
  /-- How much every offset is too small. -/
  shift : Nat
  /-- Where the directory begins. -/
  start : Nat
  count : Nat

/-- The least position from `start` on, with at most `n` further ones, that holds the signature of
the large end record. -/
def firstLargeRecord? (bytes : ByteArray) : Nat → Nat → Option Nat
  | start, 0 => if number? bytes start 4 = some 0x06064B50 then some start else none
  | start, n + 1 =>
    if number? bytes start 4 = some 0x06064B50 then some start else firstLargeRecord? bytes (start + 1) n

/-- The disk and the offset that the locator before an end record gives. -/
def locator? (bytes : ByteArray) (e : EndRecord) : Option (Nat × Nat) :=
  if bytes.size < 42 + e.comment then none
  else
    let position := bytes.size - (42 + e.comment)
    if number? bytes position 4 = some 0x07064B50 then
      match number? bytes (position + 4) 4, number? bytes (position + 8) 8 with
      | some disk, some offset => some (disk, offset)
      | _, _ => none
    else none

/-- The extent that a large end record gives, looked for from `offset` on. -/
def Extent.ofLarge? (bytes : ByteArray) (e : EndRecord) (offset : Nat) : Option Extent := do
  if e.position < 60 || e.position - 60 < offset then none
  let position ← firstLargeRecord? bytes offset (e.position - 60 - offset)
  let disk ← number? bytes (position + 16) 4
  let directoryDisk ← number? bytes (position + 20) 4
  let _ ← number? bytes (position + 24) 8
  let count ← number? bytes (position + 32) 8
  let _ ← number? bytes (position + 40) 8
  let directory ← number? bytes (position + 48) 8
  let shift := position - offset
  if disk != directoryDisk || UInt64.size ≤ directory + shift then none
  return ⟨shift, directory + shift, count⟩

/-- Where the directory of an archive is. -/
def Extent.find? (bytes : ByteArray) : Option Extent :=
  match EndRecord.find? bytes with
  | none => none
  | some e =>
    if !e.isTooSmall && e.disk != e.directoryDisk then none
    else match locator? bytes e with
      | some (disk, offset) =>
        if !e.isTooSmall && e.disk != disk then none else Extent.ofLarge? bytes e offset
      | none =>
        if e.position < e.size + e.offset then none
        else
          let shift := e.position - e.size - e.offset
          some ⟨shift, e.offset + shift, e.entriesHere⟩

/-! ## The entries -/

/-- An entry as the directory lists it. -/
structure Entry where
  name : String
  encrypted : Bool
  method : Nat
  crc : Nat
  /-- The size of its data in the archive. -/
  compressedSize : Nat
  size : Nat
  /-- Where its local header is. -/
  header : Nat
  /-- Whether it has the extra field of strong encryption. -/
  sealed : Bool
  deriving Repr

/-- The greatest number of four bytes, which refers to the extra field of large numbers. -/
def elsewhere : Nat := 0xFFFFFFFF

/-- Takes the large numbers that the entry needs from an extra field; returns what is left of the
bytes and of the field's length. When the bytes run out, the numbers taken so far stay. -/
def Entry.takeLarge (e : Entry) (bytes : ByteArray) (position left : Nat) : Entry × Option (Nat × Int) :=
  let left : Int := left
  let (e, r) : Entry × Option (Nat × Int) :=
    if e.size = elsewhere then
      match number? bytes position 8 with
      | none => (e, none)
      | some n => ({ e with size := n }, some (position + 8, left - 8))
    else (e, some (position, left))
  let (e, r) : Entry × Option (Nat × Int) :=
    match r with
    | none => (e, none)
    | some (position, left) =>
      if e.compressedSize = elsewhere then
        match number? bytes position 8 with
        | none => (e, none)
        | some n => ({ e with compressedSize := n }, some (position + 8, left - 8))
      else (e, some (position, left))
  match r with
  | none => (e, none)
  | some (position, left) =>
    if e.header = elsewhere then
      match number? bytes position 8 with
      | none => (e, none)
      | some n => ({ e with header := n }, some (position + 8, left - 8))
    else (e, some (position, left))

/-- Takes the extra field of strong encryption, whose seven bytes are two of version, two of vendor,
one of strength and two of method. The outer `none` is a field that is not understood, the inner one
a field that is cut off. -/
def Entry.takeSeal? (e : Entry) (bytes : ByteArray) (position length : Nat) : Option (Option (Entry × Nat)) :=
  if length != 7 then none
  else
    match number? bytes position 2, number? bytes (position + 2) 2, number? bytes (position + 4) 1,
      number? bytes (position + 5) 2 with
    | some version, some vendor, some strength, some method =>
      if vendor != 0x4541 || version < 1 || 2 < version || strength < 1 || 3 < strength then none
      else some (some ({ e with method := method, sealed := true }, position + 7))
    | _, _, _, _ => some none

/-- Takes the extra fields of an entry in order. Fields that are cut off end the walk, and a field of
strong encryption that is not understood spoils the archive. -/
def Entry.takeExtra? (bytes : ByteArray) : Nat → Nat → Entry → Option Entry
  | 0, _, e => some e
  | fuel + 1, position, e =>
    if bytes.size ≤ position then some e
    else match number? bytes position 2, number? bytes (position + 2) 2 with
      | some kind, some length =>
        if kind = 0x0001 then
          match e.takeLarge bytes (position + 4) length with
          | (e, none) => some e
          | (e, some (next, left)) => takeExtra? bytes fuel (next + left.toNat) e
        else if kind = 0x9901 then
          match e.takeSeal? bytes (position + 4) length with
          | none => none
          | some none => some e
          | some (some (e, next)) => takeExtra? bytes fuel (next + length) e
        else takeExtra? bytes fuel (position + 4 + length) e
      | _, _ => some e

/-- The name that raw bytes spell. -/
def nameOf (utf8 : Bool) (raw : List UInt8) : String :=
  if utf8 then Text.lenient raw.toByteArray else codePageText raw

/-- The entry whose directory header is at a position, and the position behind it. -/
def Entry.at? (bytes : ByteArray) (shift position : Nat) : Option (Entry × Nat) := do
  let signature ← number? bytes position 4
  if signature != 0x02014B50 then none
  let flags ← number? bytes (position + 8) 2
  let method ← number? bytes (position + 10) 2
  let crc ← number? bytes (position + 16) 4
  let compressedSize ← number? bytes (position + 20) 4
  let size ← number? bytes (position + 24) 4
  let nameLength ← number? bytes (position + 28) 2
  let extraLength ← number? bytes (position + 30) 2
  let commentLength ← number? bytes (position + 32) 2
  let header ← number? bytes (position + 42) 4
  let rawName ← slice? bytes (position + 46) nameLength
  let extra ← slice? bytes (position + 46 + nameLength) extraLength
  let _ ← slice? bytes (position + 46 + nameLength + extraLength) commentLength
  let name := nameOf (flags.testBit 11) rawName
  let listed : Entry := ⟨name, flags.testBit 0, method, crc, compressedSize, size, header, false⟩
  let e ← listed.takeExtra? extra.toByteArray (extraLength + 1) 0
  if (e.method == 99 && !e.sealed) || UInt64.size ≤ e.header + shift then none
  return ({ e with header := e.header + shift },
    position + 46 + nameLength + extraLength + commentLength)

/-- The next `count` entries from a position on. -/
def entriesFrom? (bytes : ByteArray) (shift : Nat) : Nat → Nat → Option (List Entry)
  | 0, _ => some []
  | count + 1, position =>
    match Entry.at? bytes shift position with
    | none => none
    | some (e, next) => (entriesFrom? bytes shift count next).map (e :: ·)

/-- The entries of an archive in the order of its directory, when it is an archive. -/
def entries? (bytes : ByteArray) : Option (List Entry) :=
  match Extent.find? bytes with
  | none => none
  | some extent => entriesFrom? bytes extent.shift extent.count extent.start

end FormWeaver.Archive
