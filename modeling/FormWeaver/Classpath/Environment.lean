import FormWeaver.Disk.Files

/-!
# The environment of a run

What the surroundings contribute to a class path: the locations visible to each loader of the
host, ancestors first, the directories whose contents count as extensions, the target runtime with
whether it has a module system, and the class path the host runs with. An environment is given
outright, or taken from the settings of the host, where the directories and the module system
follow from the runtime's home.
-/

namespace FormWeaver

/-- What the surroundings contribute to a class path. -/
structure Environment where
  /-- The locations visible to each loader, ancestors first. -/
  loaders : List (List String)
  /-- The directories whose contents count as extensions. -/
  extensionDirectories : List Path
  runtimeHome : Option Path
  modular : Bool
  /-- The class path the host runs with. -/
  runtimeClasspath : Option String

namespace Classpath

/-- The items of a path list, which are separated by colons and commas; blank ones are dropped. -/
def splitList (raw : String) : List String :=
  ((raw.toList.splitOnP fun c => c == ':' || c == ',').map fun item => String.ofList (Text.trim item)).filter
    (· != "")

/-- Whether the runtime installed at `home` has a module system: it has a module image or a
directory of modules. -/
def hasModuleSystem (d : Disk) (home : Path) : Bool :=
  d.isFile ((home.child "lib").child "modules") || d.isDirectory (home.child "jmods")

end Classpath

/-- The settings of the host that make up an environment. -/
structure HostSettings where
  runtimeHome : Option Path
  /-- The extension directories, when they are set. -/
  extensionDirectories : Option (List Path)
  /-- The path list of the host's loader. -/
  hostClasspath : Option String
  /-- The class path the host runs with. -/
  runtimeClasspath : Option String

namespace HostSettings

/-- The one loader of the host, if its path list is set. -/
def loaders (s : HostSettings) : List (List String) :=
  match s.hostClasspath with
  | none => []
  | some raw => [Classpath.splitList raw]

/-- The extension directories: those that are set, else the runtime's own. -/
def effectiveExtensionDirectories (s : HostSettings) : List Path :=
  match s.extensionDirectories, s.runtimeHome with
  | some directories, _ => directories
  | none, some home => [(home.child "lib").child "ext"]
  | none, none => []

/-- Whether the target runtime has a module system. -/
def modular (s : HostSettings) (d : Disk) : Bool :=
  match s.runtimeHome with
  | none => false
  | some home => Classpath.hasModuleSystem d home

/-- The environment that the settings make up. -/
def environment (s : HostSettings) (d : Disk) : Environment :=
  ⟨s.loaders, s.effectiveExtensionDirectories, s.runtimeHome, s.modular d, s.runtimeClasspath⟩

end HostSettings
end FormWeaver
