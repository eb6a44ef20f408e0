import FormWeaver.Classpath.Context
import FormWeaver.CommandLine.Basic

/-!
# The settings of a call

Each setting comes from the command line, else from a variable of the environment that is not blank,
else from a default.
-/

namespace FormWeaver.CommandLine

/-- The variables of the environment by their names. -/
abbrev Variables := String → Option String

/-- The value of a variable that is not blank. -/
def Variables.nonBlank? (vars : Variables) (name : String) : Option String :=
  (vars name).filter fun value => Text.trimmed value != ""

namespace Arguments

/-- The source directory. -/
def sourceDirectory (a : Arguments) : Path := ⟨a.source.getD "src/main/java"⟩

/-- The output directory. -/
def outputDirectory (a : Arguments) : Path := ⟨a.output.getD "target/classes"⟩

/-- The build directory. -/
def buildDirectory (a : Arguments) : Path := ⟨a.buildDir.getD "target"⟩

/-- Where the target runtime is installed. -/
def runtimeHome (a : Arguments) (vars : Variables) : Option Path :=
  match a.javaHome with
  | some home => some ⟨home⟩
  | none => (vars.nonBlank? "JAVA_HOME").map Path.mk

/-- The entries of a text that lists one on a line; blank lines and those that begin with a number
sign are passed over. -/
def listedEntries (text : String) : List String :=
  ((Text.lines text.toList).map Text.trim).filterMap fun line =>
    if line.isEmpty || line.head? == some '#' then none else some (String.ofList line)

/-- The dependencies: those of the options in order, then those that the file lists. -/
def dependencies (a : Arguments) (d : Disk) : Except SetupError (List Path) :=
  let given := a.classpath.flatMap Classpath.splitList
  match a.classpathFile with
  | none => .ok (given.map Path.mk)
  | some file =>
    match d.readText ⟨file⟩ with
    | .error cause => .error (.classpathFile ⟨file⟩ cause)
    | .ok text => .ok ((given ++ listedEntries text).map Path.mk)

/-- The settings of the host. -/
def hostSettings (a : Arguments) (vars : Variables) : HostSettings where
  runtimeHome := a.runtimeHome vars
  extensionDirectories :=
    (vars.nonBlank? "GUI_FORMS_EXT_DIRS").map fun raw => (Classpath.splitList raw).map Path.mk
  hostClasspath := vars.nonBlank? "GUI_FORMS_HOST_CLASSPATH"
  runtimeClasspath := vars.nonBlank? "CLASSPATH"

end Arguments

/-- The archive of the instrumenter, which has to be a file. -/
def instrumenterJar (explicit : Option String) (vars : Variables) (d : Disk) : Except SetupError Path :=
  match explicit.or (vars.nonBlank? "GUI_FORMS_INSTRUMENTER") with
  | none => .error .instrumenterMissing
  | some jar => if d.isFile ⟨jar⟩ then .ok ⟨jar⟩ else .error (.instrumenterNotFound ⟨jar⟩)

/-- The program that runs the instrumenter. -/
def runtimeProgram (vars : Variables) : String := (vars "GUI_FORMS_JAVA").getD "java"

end FormWeaver.CommandLine
