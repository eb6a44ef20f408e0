import FormWeaver.Archive.Directory
import FormWeaver.Archive.Inflate
import FormWeaver.Digest.Crc32
import FormWeaver.Disk.Files

/-!
# Reading archives

An entry can be *opened* when it is not encrypted, its method is known and a local header stands where
the directory says; it can be *read* when its data then decompresses to bytes with the right checksum.
Listing an archive opens every entry, so one that cannot be opened spoils the list. Of several entries
of one name the last counts.
-/

namespace FormWeaver

/-- What goes wrong with an archive. -/
inductive ArchiveError where
  /-- The file cannot be opened. -/
  | notOpened (archive : Path)
  | notMapped (archive : Path)
  /-- The file is no archive. -/
  | notArchive (archive : Path)
  /-- An entry cannot be opened while the archive is listed. -/
  | notListed (archive : Path) (entry : String)
  /-- An entry cannot be opened. -/
  | entryNotOpened (archive : Path) (entry : String)
  /-- An entry cannot be read. -/
  | entryNotRead (archive : Path) (entry : String)
  deriving DecidableEq

/-- The wording of an archive error; a listing that fails has none of its own. -/
def ArchiveError.message? : ArchiveError → Option String
  | .notOpened archive => some ("Failed to open archive: " ++ archive.text)
  | .notMapped archive => some ("Failed to mmap archive: " ++ archive.text)
  | .notArchive archive => some ("Failed to read zip structure: " ++ archive.text)
  | .notListed _ _ => none
  | .entryNotOpened archive entry => some ("Failed to open " ++ entry ++ " in " ++ archive.text)
  | .entryNotRead archive entry => some ("Failed to read " ++ entry ++ " in " ++ archive.text)

namespace Archive

/-- The methods of compression that can be undone. -/
inductive Method where
  | stored
  | deflated
  deriving DecidableEq, Repr

/-- The method of a number. -/
def Method.ofNat? : Nat → Option Method
  | 0 => some .stored
  | 8 => some .deflated
  | _ => none

/-- The offset of an entry's data, when its local header is there. -/
def Entry.dataStart? (e : Entry) (bytes : ByteArray) : Option Nat := do
  let signature ← number? bytes e.header 4
  if signature != 0x04034B50 then none
  let nameLength ← number? bytes (e.header + 26) 2
  let extraLength ← number? bytes (e.header + 28) 2
  return e.header + 30 + nameLength + extraLength

/-- The method and the raw data of an entry that can be opened. Data that the file is too short for
is what the file has of it. -/
def Entry.open? (e : Entry) (bytes : ByteArray) : Option (Method × List UInt8) :=
  if e.encrypted || e.sealed then none
  else match e.dataStart? bytes, Method.ofNat? e.method with
    | some start, some method =>
      some (method, (bytes.extract start (min (start + e.compressedSize) bytes.size)).data.toList)
    | _, _ => none

/-- The bytes that raw data stands for. -/
def Method.expand? (m : Method) (raw : List UInt8) : Option (List UInt8) :=
  match m with
  | .stored => some raw
  | .deflated => Inflate.decompress? raw

/-- The bytes that raw data stands for, when they have the entry's checksum. -/
def Entry.expand? (e : Entry) (m : Method) (raw : List UInt8) : Option (List UInt8) :=
  (m.expand? raw).filter fun content => (Digest.Crc32.checksum content).toNat == e.crc

/-- Whether an entry is a directory. -/
def Entry.isDirectory (e : Entry) : Bool :=
  match e.name.toList.getLast? with
  | some c => c == '/' || c == '\\'
  | none => false

/-- The entry of a name; the last one counts. -/
def entryNamed? (entries : List Entry) (name : String) : Option Entry :=
  entries.reverse.find? (·.name == name)

/-- The bytes of an archive's file. -/
def load (d : Disk) (archive : Path) : Except ArchiveError ByteArray :=
  match d.contents archive with
  | .ok bytes => .ok bytes
  | .error .isADirectory => .error (.notMapped archive)
  | .error _ => .error (.notOpened archive)

/-- The bytes of an archive with the entries of its directory. -/
def directory (d : Disk) (archive : Path) : Except ArchiveError (ByteArray × List Entry) :=
  match load d archive with
  | .error e => .error e
  | .ok bytes =>
    match entries? bytes with
    | none => .error (.notArchive archive)
    | some entries => .ok (bytes, entries)

/-- The names of the entries that are files, in order, when every entry can be opened. -/
def names (d : Disk) (archive : Path) : Except ArchiveError (List String) :=
  match directory d archive with
  | .error e => .error e
  | .ok (bytes, entries) =>
    match entries.find? fun e => (e.open? bytes).isNone with
    | some e => .error (.notListed archive e.name)
    | none => .ok ((entries.filter fun e => !e.isDirectory).map (·.name))

/-- The bytes of an entry; `none` when the archive has no entry of this name. -/
def read (d : Disk) (archive : Path) (name : String) : Except ArchiveError (Option ByteArray) :=
  match directory d archive with
  | .error e => .error e
  | .ok (bytes, entries) =>
    match entryNamed? entries name with
    | none => .ok none
    | some e =>
      match e.open? bytes with
      | none => .error (.entryNotOpened archive name)
      | some (method, raw) =>
        match e.expand? method raw with
        | none => .error (.entryNotRead archive name)
        | some content => .ok (some content.toByteArray)

end Archive
end FormWeaver
