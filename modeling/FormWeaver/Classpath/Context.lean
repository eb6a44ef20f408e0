import FormWeaver.Archive.Reader
import FormWeaver.Classpath.Environment
import FormWeaver.Classpath.Location
import FormWeaver.Path.Order

/-!
# The class path of a run

A context is the class path assembled once for a run: the ambient locations of the environment, the
runtime's core library, then the dependencies, each URL once. Archives are indexed when the context
is built. A runtime with a module system adds a platform, whose module archives hold classes that go
before those of every location, and resources that come after.
-/

namespace FormWeaver

/-- What keeps a run from starting. -/
inductive SetupError where
  | workingDirectory (cause : SystemError)
  /-- The file that lists dependencies cannot be read. -/
  | classpathFile (path : Path) (cause : SystemError)
  | instrumenterMissing
  /-- The instrumenter is no file. -/
  | instrumenterNotFound (path : Path)
  deriving DecidableEq

/-- The wording of a setup error. -/
def SetupError.message : SetupError → String
  | .workingDirectory cause => "Failed to determine working directory: " ++ cause.message
  | .classpathFile path cause => "Failed to read classpath file " ++ path.text ++ ": " ++ cause.message
  | .instrumenterMissing =>
    "Instrumenter jar is not configured (use --instrumenter or GUI_FORMS_INSTRUMENTER)"
  | .instrumenterNotFound path => "Instrumenter jar does not exist: " ++ path.text

/-- What the operating system refused, when that is behind the error. -/
def SetupError.cause? : SetupError → Option SystemError
  | .workingDirectory cause => some cause
  | .classpathFile _ cause => some cause
  | .instrumenterMissing => none
  | .instrumenterNotFound _ => none

namespace Classpath

/-! ## Ambient locations -/

/-- The locations that the texts name; texts that name none are passed over. -/
def parseAll (d : Disk) (raws : List String) : List Location :=
  raws.filterMap fun raw => (Location.parse d raw).toOption

/-- Whether a path lies strictly beneath one of the directories. -/
def isUnderAny (path : Path) (directories : List Path) : Bool :=
  directories.any fun directory => !path.same directory && path.isBeneath directory

/-- The locations that the environment contributes. With a module system they are those of the
runtime class path; without, those of the loaders, the extensions behind all others. -/
def ambient (d : Disk) (env : Environment) : List Location :=
  if env.modular then
    match env.runtimeClasspath with
    | none => []
    | some raw => parseAll d (splitList raw)
  else
    let all := env.loaders.flatMap (parseAll d)
    let isExtension := fun l : Location => isUnderAny l.path env.extensionDirectories
    all.filter (fun l => !isExtension l) ++ all.filter isExtension

/-! ## Archives with their indices -/

/-- An archive with the names of its entries. -/
structure ArchiveIndex where
  path : Path
  /-- What the names of entries begin with; lookups leave it out. -/
  inside : String
  entries : List String

/-- The index of an archive, when it is a file whose entries can be listed. -/
def ArchiveIndex.of? (d : Disk) (path : Path) (inside : String) : Option ArchiveIndex :=
  if d.isFile path then
    match Archive.names d path with
    | .ok entries => some ⟨path, inside, entries⟩
    | .error _ => none
  else none

/-- The bytes of an indexed entry. -/
def ArchiveIndex.read? (i : ArchiveIndex) (d : Disk) (name : String) : Option ByteArray :=
  let entry := i.inside ++ name
  if i.entries.contains entry then
    match Archive.read d i.path entry with
    | .ok content => content
    | .error _ => none
  else none

/-- The modules of a runtime. -/
structure Platform where
  /-- The URL that stands for all of them. -/
  url : String
  runtimeHome : Path
  /-- The module archives in path order. -/
  modules : List ArchiveIndex

/-- The directory inside a module archive that holds its classes and resources. -/
def moduleClasses : String := "classes/"

/-- The absolute form of a path, or the path itself when it has none. -/
def absoluteOrSelf (d : Disk) (path : Path) : Path :=
  match d.absolute path with
  | .ok absolute => absolute
  | .error _ => path

/-- The module archives of a runtime, in path order. -/
def moduleArchives (d : Disk) (home : Path) : List Path :=
  let directory := home.child "jmods"
  match d.list directory with
  | .error _ => []
  | .ok names => Path.sort ((names.map directory.child).filter fun p => p.extension? == some "jmod")

/-- The platform of the runtime installed at `home`. -/
def Platform.ofHome (d : Disk) (home : Path) : Platform :=
  let absolute := absoluteOrSelf d home
  ⟨"jrt://" ++ percentEncode (urlPath absolute true), absolute,
   (moduleArchives d home).filterMap fun jmod => ArchiveIndex.of? d jmod moduleClasses⟩

/-! ## The context -/

/-- A location with the index of its archive, if it is one that can be listed. -/
structure IndexedLocation where
  location : Location
  index : Option ArchiveIndex

/-- The location with its index. -/
def IndexedLocation.of (d : Disk) (l : Location) : IndexedLocation :=
  ⟨l, if l.isDirectory then none else ArchiveIndex.of? d l.path ""⟩

/-- A class path with its indices. -/
structure Context where
  indexed : List IndexedLocation
  platform : Option Platform

/-- The locations in order. -/
def Context.locations (c : Context) : List Location := c.indexed.map (·.location)

/-- The first location of each URL. -/
def firstOfEachUrl : List Location → List Location
  | [] => []
  | l :: ls => l :: (firstOfEachUrl ls).filter (·.url != l.url)

/-- The core library of a runtime without modules. -/
def coreLibrary (d : Disk) (home : Option Path) : List Location :=
  match home with
  | none => []
  | some home =>
    let jar := (home.child "lib").child "rt.jar"
    if d.isFile jar then [Location.ofAbsolute d (absoluteOrSelf d jar)] else []

/-- All locations in order, before repetitions are dropped. -/
def candidates (d : Disk) (env : Environment) (dependencies : List Path) : List Location :=
  ambient d env ++ coreLibrary d env.runtimeHome ++ parseAll d (dependencies.map (·.text))

/-- The platform, when the runtime is known and has a module system. -/
def platform? (d : Disk) (env : Environment) : Option Platform :=
  if env.modular then env.runtimeHome.map (Platform.ofHome d) else none

/-- Assembles the class path. -/
def Context.build (d : Disk) (env : Environment) (dependencies : List Path) :
    Except SetupError Context :=
  match d.workingDirectory with
  | .removed _ => .error (.workingDirectory .notFound)
  | .present _ =>
    .ok ⟨(firstOfEachUrl (candidates d env dependencies)).map (IndexedLocation.of d), platform? d env⟩

/-! ## Looking up -/

/-- The bytes of a file beneath a directory; a name with a `..` piece has none. -/
def readBeneath? (d : Disk) (directory : Path) (name : String) : Option ByteArray :=
  if (name.toList.splitOn '/').contains ['.', '.'] then none
  else
    let file := directory.child name
    if d.isFile file then (d.contents file).toOption else none

/-- The bytes that a location has under a name. -/
def IndexedLocation.read? (l : IndexedLocation) (d : Disk) (name : String) : Option ByteArray :=
  if l.location.isDirectory then readBeneath? d l.location.path name
  else l.index.bind fun index => index.read? d name

/-- The bytes that the first location which has them has under a name. -/
def Context.inLocations? (c : Context) (d : Disk) (name : String) : Option ByteArray :=
  c.indexed.findSome? fun l => l.read? d name

/-- The bytes that the first module which has them has under a name. -/
def Context.inPlatform? (c : Context) (d : Disk) (name : String) : Option ByteArray :=
  match c.platform with
  | none => none
  | some platform => platform.modules.findSome? fun index => index.read? d name

/-- The bytes of a class: those of the platform, else those of the first location that has it. -/
def Context.findClass? (c : Context) (d : Disk) (className : String) : Option ByteArray :=
  let name := Text.replaceChar '.' '/' className ++ ".class"
  match c.inPlatform? d name with
  | some bytes => some bytes
  | none => c.inLocations? d name

/-- The bytes of a resource: those of the first location that has it, else those of the platform.
Slashes at the beginning of the name do not count. -/
def Context.findResource? (c : Context) (d : Disk) (name : String) : Option ByteArray :=
  let name := String.ofList (name.toList.dropWhile (· == '/'))
  if name.isEmpty then none
  else match c.inLocations? d name with
    | some bytes => some bytes
    | none => c.inPlatform? d name

end Classpath
end FormWeaver
