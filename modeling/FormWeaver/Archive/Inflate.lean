/-!
# Inflate

The decompressor of the deflate format. The compressed bytes are taken as a list of bits, the lowest bit of
each byte first. A Huffman code is a tree that the bits lead down; a code that is canonical fills its
tree from left to right, the short codes first, so the tree is built from the symbols sorted by
length. A stream that ends before its last block does, the empty one included, is as corrupt as one
that is no compressed data. What a repetition takes from before the beginning is zeros.
-/

namespace FormWeaver.Archive.Inflate

/-! ## Bits -/

/-- The bits of a byte, the lowest first. -/
def bitsOfByte (b : UInt8) : List Bool := (List.range 8).map fun i => b.toNat.testBit i

/-- The bits of bytes in order. -/
def bitsOfBytes (bytes : List UInt8) : List Bool := bytes.flatMap bitsOfByte

/-- The number that bits spell, the lowest first. -/
def numberOfBits : List Bool → Nat
  | [] => 0
  | b :: bs => b.toNat + 2 * numberOfBits bs

/-- Takes the number that the next `n` bits spell. -/
def take? (n : Nat) (bits : List Bool) : Option (Nat × List Bool) :=
  let taken := bits.take n
  if taken.length = n then some (numberOfBits taken, bits.drop n) else none

/-- Drops the bits up to the next whole byte. -/
def alignToByte (bits : List Bool) : List Bool := bits.drop (bits.length % 8)

/-! ## Huffman codes -/

/-- A Huffman code; a bit chooses the left branch when it is zero. -/
inductive Code where
  | none
  | symbol (s : Nat)
  | branch (zero one : Code)

namespace Code

/-- Takes the next symbol. -/
def next? : Code → List Bool → Option (Nat × List Bool)
  | .none, _ => Option.none
  | .symbol s, bits => some (s, bits)
  | .branch _ _, [] => Option.none
  | .branch zero one, b :: bits => if b then one.next? bits else zero.next? bits

/-- The longest code. -/
def maxLength : Nat := 15

/-- Builds the part of a tree that hangs `depth` deep from symbols with their lengths, in the order
of their codes; returns the symbols that are left over. -/
def build : Nat → Nat → List (Nat × Nat) → Code × List (Nat × Nat)
  | _, _, [] => (.none, [])
  | 0, depth, (s, length) :: rest => if length = depth then (.symbol s, rest) else (.none, (s, length) :: rest)
  | fuel + 1, depth, (s, length) :: rest =>
    if length = depth then (.symbol s, rest)
    else
      let (zero, left) := build fuel (depth + 1) ((s, length) :: rest)
      let (one, left) := build fuel (depth + 1) left
      (.branch zero one, left)

/-- The code in which each symbol has the length that the list gives at its position; length zero
leaves the symbol out. The lengths have to fill the tree, unless there is no symbol or only one, of
length one. -/
def ofLengths? (lengths : List Nat) : Option Code :=
  let used := (lengths.zipIdx.filter (·.1 != 0)).map fun (length, s) => (s, length)
  let room := used.foldl (fun n (_, length) => n + 1 <<< (maxLength - length)) 0
  if room == 1 <<< maxLength || used.length ≤ 1 && used.all (·.2 == 1) then
    let ordered := (List.range (maxLength + 1)).flatMap fun length => used.filter (·.2 == length)
    some (build maxLength 0 ordered).1
  else Option.none

end Code

/-! ## Blocks -/

/-- The least length of each length symbol from 257 on, with the number of its extra bits. -/
def lengthTable : List (Nat × Nat) :=
  [(3, 0), (4, 0), (5, 0), (6, 0), (7, 0), (8, 0), (9, 0), (10, 0), (11, 1), (13, 1), (15, 1), (17, 1),
   (19, 2), (23, 2), (27, 2), (31, 2), (35, 3), (43, 3), (51, 3), (59, 3), (67, 4), (83, 4), (99, 4),
   (115, 4), (131, 5), (163, 5), (195, 5), (227, 5), (258, 0)]

/-- The least distance of each distance symbol, with the number of its extra bits. -/
def distanceTable : List (Nat × Nat) :=
  [(1, 0), (2, 0), (3, 0), (4, 0), (5, 1), (7, 1), (9, 2), (13, 2), (17, 3), (25, 3), (33, 4), (49, 4),
   (65, 5), (97, 5), (129, 6), (193, 6), (257, 7), (385, 7), (513, 8), (769, 8), (1025, 9), (1537, 9),
   (2049, 10), (3073, 10), (4097, 11), (6145, 11), (8193, 12), (12289, 12), (16385, 13), (24577, 13)]

/-- Takes the extra bits of a symbol and adds them to its least value. -/
def extended? (table : List (Nat × Nat)) (s : Nat) (bits : List Bool) : Option (Nat × List Bool) := do
  let (least, extra) ← table[s]?
  let (n, bits) ← take? extra bits
  return (least + n, bits)

/-- The length and the distance of a repetition whose length symbol has been taken. -/
def repetition? (distances : Code) (s : Nat) (bits : List Bool) : Option (Nat × Nat × List Bool) := do
  let (length, bits) ← extended? lengthTable (s - 257) bits
  let (ds, bits) ← distances.next? bits
  let (distance, bits) ← extended? distanceTable ds bits
  return (length, distance, bits)

/-- The byte that stands `distance` back; before the beginning stand zeros. -/
def byteBack (distance : Nat) (out : Array UInt8) : UInt8 :=
  if distance ≤ out.size then out.getD (out.size - distance) 0 else 0

/-- Writes `length` bytes again that stand `distance` back. -/
def repeatBack (distance : Nat) : Nat → Array UInt8 → Array UInt8
  | 0, out => out
  | length + 1, out => repeatBack distance length (out.push (byteBack distance out))

/-- Takes symbols up to the end of a block. -/
def symbols? (literals distances : Code) :
    Nat → Array UInt8 → List Bool → Option (Array UInt8 × List Bool)
  | 0, _, _ => none
  | fuel + 1, out, bits =>
    match literals.next? bits with
    | none => none
    | some (s, bits) =>
      if s < 256 then symbols? literals distances fuel (out.push (UInt8.ofNat s)) bits
      else if s = 256 then some (out, bits)
      else match repetition? distances s bits with
        | none => none
        | some (length, distance, bits) =>
          symbols? literals distances fuel (repeatBack distance length out) bits

/-- Copies bytes as they are. -/
def plainBytes? : Nat → Array UInt8 → List Bool → Option (Array UInt8 × List Bool)
  | 0, out, bits => some (out, bits)
  | n + 1, out, bits =>
    match take? 8 bits with
    | none => none
    | some (b, bits) => plainBytes? n (out.push (UInt8.ofNat b)) bits

/-- The length of a plain block, which is followed by its complement. -/
def plainLength? (bits : List Bool) : Option (Nat × List Bool) := do
  let (n, bits) ← take? 16 (alignToByte bits)
  let (complement, bits) ← take? 16 bits
  if n + complement = 0xFFFF then some (n, bits) else none

/-- The lengths of the fixed literal code. -/
def fixedLiteralLengths : List Nat :=
  List.replicate 144 8 ++ List.replicate 112 9 ++ List.replicate 24 7 ++ List.replicate 8 8

/-- The lengths of the fixed distance code. -/
def fixedDistanceLengths : List Nat := List.replicate 32 5

/-- The order in which the lengths of the length code are given. -/
def lengthOrder : List Nat := [16, 17, 18, 0, 8, 7, 9, 6, 10, 5, 11, 4, 12, 3, 13, 2, 14, 1, 15]

/-- Takes `n` numbers of three bits each. -/
def threes? : Nat → List Bool → Option (List Nat × List Bool)
  | 0, bits => some ([], bits)
  | n + 1, bits => do
    let (x, bits) ← take? 3 bits
    let (xs, bits) ← threes? n bits
    return (x :: xs, bits)

/-- How often a symbol of the length code repeats which length: the symbol's own length once, the
last length, or zero. -/
def lengthRun? (lengths : Array Nat) (s : Nat) (bits : List Bool) : Option (Nat × Nat × List Bool) :=
  let counted (least extra value : Nat) : Option (Nat × Nat × List Bool) :=
    (take? extra bits).map fun (n, bits) => (least + n, value, bits)
  if s < 16 then some (1, s, bits)
  else if s = 16 then lengths.back?.bind (counted 3 2)
  else if s = 17 then counted 3 3 0
  else counted 11 7 0

/-- Takes code lengths until there are exactly `total`. -/
def codeLengths? (code : Code) (total : Nat) :
    Nat → Array Nat → List Bool → Option (List Nat × List Bool)
  | 0, _, _ => none
  | fuel + 1, lengths, bits =>
    if lengths.size = total then some (lengths.toList, bits)
    else if total < lengths.size then none
    else match code.next? bits with
      | none => none
      | some (s, bits) =>
        match lengthRun? lengths s bits with
        | none => none
        | some (n, value, bits) =>
          codeLengths? code total fuel (lengths ++ Array.replicate n value) bits

/-- The codes that a dynamic block begins with. Neither may have more symbols than have a meaning. -/
def dynamicCodes? (bits : List Bool) : Option (Code × Code × List Bool) := do
  let (literals, bits) ← take? 5 bits
  let (distances, bits) ← take? 5 bits
  guard (literals ≤ lengthTable.length ∧ distances < distanceTable.length)
  let (lengths, bits) ← take? 4 bits
  let (given, bits) ← threes? (lengths + 4) bits
  let byOrder := lengthOrder.zip given
  let code ← Code.ofLengths? ((List.range 19).map fun s => (byOrder.lookup s).getD 0)
  let total := literals + 257 + (distances + 1)
  let (all, bits) ← codeLengths? code total (total + 1) #[] bits
  let literalCode ← Code.ofLengths? (all.take (literals + 257))
  let distanceCode ← Code.ofLengths? (all.drop (literals + 257))
  return (literalCode, distanceCode, bits)

/-- Takes what a block of a kind holds. -/
def blockOfKind? (kind : Nat) (out : Array UInt8) (bits : List Bool) : Option (Array UInt8 × List Bool) :=
  match kind with
  | 0 => do
    let (n, bits) ← plainLength? bits
    plainBytes? n out bits
  | 1 => do
    let literals ← Code.ofLengths? fixedLiteralLengths
    let distances ← Code.ofLengths? fixedDistanceLengths
    symbols? literals distances (bits.length + 1) out bits
  | 2 => do
    let (literals, distances, bits) ← dynamicCodes? bits
    symbols? literals distances (bits.length + 1) out bits
  | _ => none

/-- Takes blocks up to the one that says it is the last. -/
def blocks? : Nat → Array UInt8 → List Bool → Option (Array UInt8)
  | 0, _, _ => none
  | fuel + 1, out, bits => do
    let (header, bits) ← take? 3 bits
    let (out, bits) ← blockOfKind? (header / 2) out bits
    if header % 2 = 1 then some out else blocks? fuel out bits

/-- What compressed bytes decompress to. -/
def decompress? (bytes : List UInt8) : Option (List UInt8) :=
  let bits := bitsOfBytes bytes
  (blocks? (bits.length + 1) #[] bits).map Array.toList

end FormWeaver.Archive.Inflate
