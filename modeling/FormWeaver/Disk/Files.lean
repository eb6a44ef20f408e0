import FormWeaver.Disk.Walk

/-!
# Reading and changing a disk

The operations that the program performs on files, each with the exact reason when it is refused.
An operation that is refused leaves the disk as it was, with one exception: `makeDirectories` keeps
the directories it made before it got stuck, so it returns the disk in either case.

The reasons are those that the tree itself gives: what stands, or does not stand, where a path leads.
Once its file is open an operation goes through. There is always space for what is written, and the
device does not fail, so no file is ever cut short.
-/

namespace FormWeaver.Disk

/-! ## Looking -/

/-- Whether the path leads to a regular file. -/
def isFile (d : Disk) (p : Path) : Bool :=
  match d.follow? p with
  | some (_, .file _ _) => true
  | _ => false

/-- Whether the path leads to a directory. -/
def isDirectory (d : Disk) (p : Path) : Bool :=
  match d.walk true p with
  | .ok (.node _ .directory) => true
  | .ok .removed => true
  | _ => false

/-- What tells an existing file or directory from all others: the place where it stands. A working
directory that has been removed is nowhere. -/
def identity? (d : Disk) (p : Path) : Option Place := (d.follow? p).map (·.1)

/-- The bytes of a file. -/
def contents (d : Disk) (p : Path) : Except SystemError ByteArray :=
  match d.walk true p with
  | .error e => .error e
  | .ok (.node _ (.file bytes _)) => .ok bytes
  | .ok (.node _ .directory) => .error .isADirectory
  | .ok (.node _ (.link _)) => .error .tooManyLinks
  | .ok (.gap _ _ _) => .error .notFound
  | .ok .removed => .error .isADirectory

/-- The text of a file. -/
def readText (d : Disk) (p : Path) : Except SystemError String :=
  match d.contents p with
  | .error e => .error e
  | .ok bytes =>
    match String.fromUTF8? bytes with
    | some text => .ok text
    | none => .error .notText

/-- The greatest modification time that can be told. -/
def latestTime : Nat := UInt64.size - 1

/-- A time as a number of 64 bits: one before the epoch counts as zero, one that is too late as the
greatest. -/
def clampTime (time : Int) : UInt64 := UInt64.ofNat (min time.toNat latestTime)

/-- The modification time of a file in nanoseconds since the epoch; what cannot be inspected has time
zero. So has a directory here: a disk keeps no times of directories. -/
def modificationTime (d : Disk) (p : Path) : UInt64 :=
  match d.follow? p with
  | some (_, .file _ modified) => clampTime modified
  | _ => 0

/-- The names in a directory. -/
def list (d : Disk) (p : Path) : Except SystemError (List String) :=
  match d.walk true p with
  | .error e => .error e
  | .ok (.node place .directory) =>
    .ok ((d.below place).filterMap fun (q, _) =>
      if q.length = place.length + 1 then q.getLast? else none)
  | .ok (.node _ _) => .error .notADirectory
  | .ok (.gap _ _ _) => .error .notFound
  | .ok .removed => .error .notFound

/-- The absolute form of a path. -/
def absolute (d : Disk) (p : Path) : Except SystemError Path :=
  if p.text.isEmpty then .error .emptyPath
  else if p.isAbsolute then .ok (Path.anchoredAt ⟨"/"⟩ p)
  else match d.workingDirectory with
    | .removed _ => .error .notFound
    | .present here => .ok (Path.anchoredAt ⟨"/" ++ Text.joinWith "/" here⟩ p)

/-! ## Changing -/

/-- The disk with a file of these bytes at a place; the clock moves on. -/
def store (d : Disk) (place : Place) (bytes : ByteArray) : Disk :=
  { d.insert place (.file bytes d.clock) with clock := d.clock + 1 }

/-- Writes a file: the bytes of an existing one are replaced, a missing one is made, and a link is
followed in either case. -/
def writeFile (d : Disk) (p : Path) (bytes : ByteArray) : Except SystemError Disk :=
  match d.walk true p with
  | .error e => .error e
  | .ok (.node place (.file _ _)) => .ok (d.store place bytes)
  | .ok (.node _ .directory) => .error .isADirectory
  | .ok (.node _ (.link _)) => .error .tooManyLinks
  | .ok .removed => .error .isADirectory
  | .ok (.gap directory name slash) =>
    if slash then .error .isADirectory else .ok (d.store (directory ++ [name]) bytes)

/-- Copies the bytes of a regular file. The target is emptied before the source is read, so a file that
is copied onto itself loses its bytes. -/
def copyFile (d : Disk) (source target : Path) : Except SystemError Disk :=
  match d.contents source with
  | .error .isADirectory => .error .notAFile
  | .error e => .error e
  | .ok bytes =>
    d.writeFile target (if d.identity? source = d.identity? target then .empty else bytes)

/-- Makes one directory in an existing one. -/
def makeDirectory (d : Disk) (p : Path) : Except SystemError Disk :=
  match d.walk false p with
  | .error e => .error e
  | .ok (.node _ _) => .error .alreadyExists
  | .ok .removed => .error .alreadyExists
  | .ok (.gap directory name _) => .ok (d.insert (directory ++ [name]) .directory)

/-- The path, its parent, that one's parent, and so on; the empty path is left out. -/
def lineage : Nat → Path → List Path
  | 0, _ => []
  | fuel + 1, p =>
    if p.text.isEmpty then []
    else p :: match p.parent? with
      | none => []
      | some q => lineage fuel q

/-- Makes the first directory of a lineage, and before it as many of the others as are missing. -/
def makeLineage (d : Disk) : List Path → Disk × Except SystemError Unit
  | [] => (d, .ok ())
  | p :: above =>
    match d.makeDirectory p with
    | .ok d' => (d', .ok ())
    | .error .notFound =>
      if above.isEmpty && p.parent?.isNone then (d, .error .noTree)
      else match d.makeLineage above with
        | (d', .error e) => (d', .error e)
        | (d', .ok ()) =>
          match d'.makeDirectory p with
          | .ok d'' => (d'', .ok ())
          | .error e => if d'.isDirectory p then (d', .ok ()) else (d', .error e)
    | .error e => if d.isDirectory p then (d, .ok ()) else (d, .error e)

/-- Makes a directory with all directories on the way to it. -/
def makeDirectories (d : Disk) (p : Path) : Disk × Except SystemError Unit :=
  d.makeLineage (lineage (p.components.length + 1) p)

/-- Gives a file or link another name; a file or link of that name is replaced. -/
def rename (d : Disk) (source target : Path) : Except SystemError Disk :=
  match d.walk false source, d.walk false target with
  | .error e, _ => .error e
  | .ok (.gap _ _ _), _ => .error .notFound
  | .ok (.node _ .directory), _ => .error .busy
  | .ok .removed, _ => .error .busy
  | .ok (.node _ _), .error e => .error e
  | .ok (.node _ _), .ok (.node _ .directory) => .error .isADirectory
  | .ok (.node _ _), .ok .removed => .error .busy
  | .ok (.node place n), .ok (.node place' _) =>
    if place = place' then .ok d else .ok ((d.erase place).insert place' n)
  | .ok (.node place n), .ok (.gap directory name slash) =>
    if slash then .error .notADirectory else .ok ((d.erase place).insert (directory ++ [name]) n)

/-- Removes a file or link. -/
def removeFile (d : Disk) (p : Path) : Except SystemError Disk :=
  match d.walk false p with
  | .error e => .error e
  | .ok (.node _ .directory) => .error .isADirectory
  | .ok (.node place _) => .ok (d.erase place)
  | .ok (.gap _ _ _) => .error .notFound
  | .ok .removed => .error .isADirectory

/-- Sets the modification time of a file. -/
def setModified (d : Disk) (p : Path) (time : Int) : Disk :=
  match d.follow? p with
  | some (place, .file bytes _) => d.insert place (.file bytes time)
  | _ => d

end FormWeaver.Disk
