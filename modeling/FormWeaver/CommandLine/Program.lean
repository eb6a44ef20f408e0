import FormWeaver.CommandLine.Parser
import FormWeaver.CommandLine.Settings
import FormWeaver.Run.Basic

/-!
# The program

A call of the program is a function of its arguments, the variables of its environment, the disk and
what running programs does. It leaves the disk, an exit code, and what it prints: a report as JSON, or
the error that kept it from starting.
-/

namespace FormWeaver.CommandLine

/-- What a call of the program leaves. -/
structure Exit where
  code : Nat
  stdout : String
  /-- The fatal error, if there is one, as it is printed to the error output. -/
  fatal : String
  disk : Disk
  /-- The arguments of the processes that were started, in order. -/
  started : List (List String)

/-- How a fatal error is printed. -/
def fatalText (e : SetupError) : String :=
  "Error: " ++ e.message ++ (match e.cause? with
    | none => ""
    | some cause => "\n\nCaused by:\n    " ++ cause.message)

/-- The exit of a call that prints a value. -/
def printed (d : Disk) (value : Json) : Exit := ⟨0, value.pretty ++ "\n", "", d, []⟩

/-- The exit of a call that could not start. -/
def fatal (d : Disk) (e : SetupError) : Exit := ⟨1, "", fatalText e, d, []⟩

/-- The location as JSON. -/
def locationJson (l : Location) : Json :=
  .object [("url", .string l.url), ("path", .string l.path.text),
    ("kind", .string (if l.isDirectory then "directory" else "archive"))]

/-- The platform as JSON. -/
def platformJson : Option Classpath.Platform → Json
  | none => .null
  | some p => .object [("url", .string p.url), ("runtime_home", .string p.runtimeHome.text)]

/-- The class path as JSON. -/
def contextJson (c : Classpath.Context) : Json :=
  .object [("locations", .array (c.locations.map locationJson)), ("platform", platformJson c.platform)]

/-- Removes the cache. -/
def clean (d : Disk) (a : Arguments) : Exit :=
  let file := CacheFile.ofBuildDirectory a.buildDirectory
  let (d, removed) := file.delete d
  printed d (.object [("cache_file", .string file.path.text), ("removed", .bool removed)])

/-- Prints the class path. -/
def showClasspath (d : Disk) (vars : Variables) (a : Arguments) : Exit :=
  match a.dependencies d with
  | .error e => fatal d e
  | .ok dependencies =>
    match Classpath.Context.build d ((a.hostSettings vars).environment d) dependencies with
    | .error e => fatal d e
    | .ok context => printed d (contextJson context)

/-- The exit of a call that ran. -/
def concluded (r : Run.Result) : Exit :=
  match r.report with
  | .error e => { fatal r.disk e with started := r.started }
  | .ok report =>
    { printed r.disk report.toJson with code := if report.hasErrors then 1 else 0, started := r.started }

/-- Instruments the stale classes. -/
def instrument (d : Disk) (tool : Tool) (vars : Variables) (a : Arguments) (scaling : Bool)
    (jar : Option String) : Exit :=
  match a.dependencies d with
  | .error e => fatal d e
  | .ok dependencies =>
    match instrumenterJar jar vars d with
    | .error e => fatal d e
    | .ok jar =>
      concluded (run d ⟨tool, runtimeProgram vars, jar⟩ ((a.hostSettings vars).environment d)
        ⟨a.sourceDirectory, a.outputDirectory, a.buildDirectory, dependencies, scaling⟩)

/-- The exit of a call whose command line was not followed. -/
def misused (d : Disk) (e : UsageError) : Exit := ⟨if e = .displayHelp then 0 else 2, "", "", d, []⟩

/-- A call of the program. -/
def execute (d : Disk) (tool : Tool) (vars : Variables) (args : List String) : Exit :=
  match parse args with
  | .error e => misused d e
  | .ok a =>
    match a.command with
    | .clean => clean d a
    | .classpath => showClasspath d vars a
    | .instrument scaling jar => instrument d tool vars a scaling jar

end FormWeaver.CommandLine
