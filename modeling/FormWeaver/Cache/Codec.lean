import FormWeaver.Cache.Basic
import FormWeaver.Digest.Sha256
import FormWeaver.Json.Parser
import FormWeaver.Json.Printer

/-!
# The text of a cache

A cache is written as lines: a header with the version of the format, a line of JSON for each entry
in order, and a trailer with the number of entries and a checksum of their lines. The reader trusts
nothing else: a text without its last line feed, with another version, another count or another
checksum, or with a line that is no entry, is no cache. Both directions take the checksum as a
parameter, since that no cut or extended text is taken for a cache does not rest on it.
-/

namespace FormWeaver.Cache

/-! ## One entry -/

/-- The entry as JSON. -/
def entryJson (e : CacheEntry) : Json :=
  .object [("descriptor", .string e.descriptor.text),
    ("descriptor_mtime", .ofNat e.descriptorTime.toNat),
    ("class", .string e.classFile.text),
    ("class_mtime", .ofNat e.classTime.toNat)]

/-- The line of an entry. -/
def entryLine (e : CacheEntry) : String := (entryJson e).compact

/-- The path that a JSON text spells. -/
def pathOf? : Json → Option Path
  | .string text => some ⟨text⟩
  | _ => none

/-- The time that a JSON number spells, when it fits into 64 bits. -/
def timeOf? (value : Json) : Option UInt64 :=
  value.natural?.bind fun n => if n < UInt64.size then some (UInt64.ofNat n) else none

/-- The entry of four values in order. -/
def entryOfValues? (descriptor descriptorTime classFile classTime : Json) : Option CacheEntry :=
  match pathOf? descriptor, timeOf? descriptorTime, pathOf? classFile, timeOf? classTime with
  | some f, some ft, some c, some ct => some ⟨f, ft, c, ct⟩
  | _, _, _, _ => none

/-- The value of the only member of a name. -/
def member? (members : List (String × Json)) (name : String) : Option Json :=
  match members.filter (·.1 == name) with
  | [(_, value)] => some value
  | _ => none

/-- The entry that a JSON value describes: an object with the four members once each and any others,
or an array of the four values. -/
def entryOfJson? : Json → Option CacheEntry
  | .object members =>
    match member? members "descriptor", member? members "descriptor_mtime",
      member? members "class", member? members "class_mtime" with
    | some f, some ft, some c, some ct => entryOfValues? f ft c ct
    | _, _, _, _ => none
  | .array [f, ft, c, ct] => entryOfValues? f ft c ct
  | _ => none

/-- The entry of a line. -/
def entryOfLine? (line : List Char) : Option CacheEntry := (Json.parse line).bind entryOfJson?

/-! ## The whole cache -/

/-- The word that a header begins with. -/
def headerWord : String := "gui-forms-cache"

/-- The version of the format. -/
def formatVersion : Nat := 1

/-- The word that a trailer begins with. -/
def trailerWord : String := "end"

/-- The number that decimal digits spell, with or without a plus sign. -/
def natOf? (cs : List Char) : Option Nat :=
  let ds := match cs with
    | '+' :: rest => rest
    | _ => cs
  if ds.isEmpty || !ds.all Char.isDigit then none
  else some (Text.decimalValue ds)

/-- The text of a cache, by a checksum. -/
def encodeWith (checksum : String → String) (c : Cache) : String :=
  let records := c.sorted.map entryLine
  let body := Text.joinWith "\n" records
  headerWord ++ " " ++ Text.decimal formatVersion ++ "\n" ++
    (if records.isEmpty then "" else body ++ "\n") ++
    trailerWord ++ " " ++ Text.decimal records.length ++ " " ++ checksum body ++ "\n"

/-- Whether a line is a header of this version. -/
def isHeader (line : List Char) : Bool :=
  match headerWord.toList.isPrefixOf? line with
  | none => false
  | some version => natOf? (Text.trim version) == some formatVersion

/-- Whether a line is the trailer of records. -/
def isTrailer (checksum : String → String) (records : List (List Char)) (line : List Char) : Bool :=
  match line.splitOn ' ' with
  | [word, count, digest] =>
    String.ofList word == trailerWord && natOf? count == some records.length &&
      String.ofList digest == checksum (Text.joinWith "\n" (records.map String.ofList))
  | _ => false

/-- The entries of the lines between a header and a trailer. -/
def decodeLinesWith (checksum : String → String) : List (List Char) → Option (List CacheEntry)
  | header :: first :: rest =>
    let records := (first :: rest).dropLast
    let trailer := (first :: rest).getLast (by simp)
    if isHeader header && isTrailer checksum records trailer then records.mapM entryOfLine? else none
  | _ => none

/-- The cache that a text describes, by a checksum. -/
def decodeWith (checksum : String → String) (text : String) : Option Cache :=
  let cs := text.toList
  if cs.getLast? == some '\n' then (decodeLinesWith checksum (Text.lines cs)).map ofEntries else none

/-- The text of a cache. -/
def encode (c : Cache) : String := encodeWith Digest.Sha256.ofText c

/-- The cache that a text describes. -/
def decode (text : String) : Option Cache := decodeWith Digest.Sha256.ofText text

end FormWeaver.Cache
