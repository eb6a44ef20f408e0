import FormWeaver.CommandLine.Program
import Std.Data.HashMap
import Std.Data.HashSet

/-!
# The program as a process

`CommandLine.execute` is the program: a function of the arguments, the variables and the disk. Here
the disk and the variables are read into values, the function is called, and what it changed is
brought back to the disk. Nothing is decided here.

Read are the tree of the working directory, every tree that an argument, a variable or the file of
dependencies names, and wherever links in these lead. This front end starts no other process: a
class that has to be instrumented is reported as one whose instrumenter may not be executed.
-/

namespace FormWeaver.Console

open CommandLine

/-! ## Reading the disk -/

/-- The spelling of a place. -/
def spelled (p : Place) : String := "/" ++ Text.joinWith "/" p

/-- A place in the file system. -/
def located (p : Place) := (IO.FS.DirEntry.mk "/" (spelled p)).path

/-- A time in nanoseconds since the epoch. -/
def nanoseconds (t : IO.FS.SystemTime) : Int := t.sec * 1000000000 + t.nsec.toNat

/-- What has been read of the disk. -/
structure Snapshot where
  /-- The nodes by their places. -/
  nodes : Std.HashMap Place Node
  /-- The directories that have been read with all beneath them. -/
  complete : Std.HashSet Place

/-- The target of a link with all links on the way resolved; empty when it leads nowhere. -/
def linkTarget (p : Place) : IO String := do
  try
    let target := (← IO.FS.realPath (located p)).toString
    return if target = spelled p then "" else target
  catch _ => return ""

/-- What stands at a place; nothing, when it is missing, unreadable or of no kind the program uses. -/
def inspect (p : Place) : IO (Option Node) := do
  try
    let status ← (located p).symlinkMetadata
    match status.type with
    | .dir => return some .directory
    | .file => return some (.file (← IO.FS.readBinFile (located p)) (nanoseconds status.modified))
    | .symlink => return some (.link (← linkTarget p))
    | .other => return none
  catch _ => return none

/-- The names in a directory. -/
def namesIn (p : Place) : IO (List String) := do
  try return ((← (located p).readDir).map (·.fileName)).toList
  catch _ => return []

/-- What stands at a place, read once. -/
def visit (p : Place) : StateT Snapshot IO (Option Node) := do
  match (← get).nodes[p]? with
  | some n => return some n
  | none =>
    match ← inspect p with
    | none => return none
    | some n =>
      modify fun s => { s with nodes := s.nodes.insert p n }
      return some n

mutual

/-- Reads what the pieces lead to from a directory, with all beneath it. -/
partial def readPieces (here : Place) : List String → StateT Snapshot IO Unit
  | [] => readBelow here
  | piece :: rest => do
    if piece = "" || piece = "." then readPieces here rest
    else if piece = ".." then readPieces here.dropLast rest
    else
      let there := here ++ [piece]
      match ← visit there with
      | some .directory => readPieces there rest
      | some (.link target) =>
        unless target.isEmpty do readPieces [] (Disk.piecesOf target ++ rest)
      | _ => return ()

/-- Reads all beneath a directory. -/
partial def readBelow (p : Place) : StateT Snapshot IO Unit := do
  unless (← get).complete.contains p do
    modify fun s => { s with complete := s.complete.insert p }
    for name in ← namesIn p do
      readPieces p [name]

end

/-- The paths that a word can name. -/
def pathsOf (d : Disk) (word : String) : List Path :=
  (d.absolute ⟨word⟩).toOption.toList ++ (Location.parse d word).toOption.toList.map (·.path)

/-- The words of an argument: the whole, what stands behind an equals sign, and the items of both as
path lists. -/
def wordsOf (argument : String) : List String :=
  let behind := (Text.dropPast? ['='] argument.toList).toList.map String.ofList
  (argument :: behind) ++ (argument :: behind).flatMap Classpath.splitList

/-- The disk of a snapshot. What is written gets a time later than all that was read. -/
def Snapshot.disk (s : Snapshot) (here : WorkingDirectory) : Disk where
  nodes := s.nodes.toList
  workingDirectory := here
  clock := s.nodes.fold (fun latest _ n => match n with
    | .file _ modified => max latest (modified + 1)
    | _ => latest) 0

/-- The working directory. When it has been removed, the root stands for what it was in. -/
def workingDirectory : IO WorkingDirectory := do
  try return .present ((Disk.piecesOf (← IO.currentDir).toString).filter (· != ""))
  catch _ => return .removed []

/-- Reads the trees that the words name. -/
def readWords (here : WorkingDirectory) (words : List String) : StateT Snapshot IO Unit := do
  for word in words do
    for path in pathsOf ((← get).disk here) word do
      readPieces [] (Disk.piecesOf path.text)

/-- Reads the part of the disk that a call can look at. -/
def readDisk (vars : List (String × String)) (args : List String) : IO Disk := do
  let here ← workingDirectory
  let words := (args ++ vars.map (·.2)).flatMap wordsOf
  let ((), s) ← (do
    if let .present place := here then readPieces [] place
    readWords here words : StateT Snapshot IO Unit).run ⟨{}, {}⟩
  let listed := match (parse args).toOption.bind (·.classpathFile) with
    | none => []
    | some file => ((s.disk here).readText ⟨file⟩).toOption.toList.flatMap Arguments.listedEntries
  let ((), s) ← (readWords here listed).run s
  return s.disk here

/-! ## Bringing changes back -/

/-- Makes a place hold what it holds on the disk `d`. -/
def put (d : Disk) (p : Place) : Node → IO Unit
  | .directory => IO.FS.createDirAll (located p)
  | .file bytes _ => IO.FS.writeBinFile (located p) bytes
  | .link _ => match d.contents ⟨spelled p⟩ with
    | .ok bytes => IO.FS.writeBinFile (located p) bytes
    | .error _ => return ()

/-- Brings the changes between two disks to the file system: first what went, then what is new or
different, directories before what stands in them. -/
def bringBack (before after : Disk) : IO Unit := do
  let old := Std.HashMap.ofList before.nodes
  let new := Std.HashMap.ofList after.nodes
  for (p, n) in before.nodes do
    let goes := match n, new[p]? with
      | .directory, _ => false
      | _, none => true
      | n, some m => n != m
    if goes then IO.FS.removeFile (located p)
  let changed := after.nodes.filter fun (p, n) => old[p]? != some n
  for (p, n) in changed.mergeSort fun a b => a.1.length ≤ b.1.length do
    put after p n

/-! ## The call -/

/-- The names of the variables that matter to the program. -/
def variableNames : List String :=
  ["JAVA_HOME", "CLASSPATH", "GUI_FORMS_HOST_CLASSPATH", "GUI_FORMS_EXT_DIRS",
   "GUI_FORMS_INSTRUMENTER", "GUI_FORMS_JAVA"]

/-- The variables that are set. -/
def readVariables : IO (List (String × String)) :=
  variableNames.filterMapM fun name => do return (← IO.getEnv name).map (name, ·)

/-- The tool of a front end that starts no processes. -/
def refuse : Tool := fun d _ => (d, .error .permissionDenied)

/-- Calls the program and returns its exit code. -/
def call (args : List String) : IO UInt32 := do
  let vars ← readVariables
  let before ← readDisk vars args
  let e := execute before refuse (fun name => vars.lookup name) args
  bringBack before e.disk
  IO.print e.stdout
  unless e.fatal.isEmpty do IO.eprintln e.fatal
  return UInt32.ofNat e.code

end FormWeaver.Console

/-- The entry of the program. -/
def main (args : List String) : IO UInt32 := FormWeaver.Console.call args
