/-!
# The command line

The program has three commands. `instrument`, which is also what it does without a command,
instruments every stale class; `classpath` prints the class path; `clean` removes the cache. Seven
options may stand before the command or behind it, two more behind `instrument` only.
-/

namespace FormWeaver.CommandLine

/-- An option. -/
inductive Flag where
  | source
  | output
  | buildDir
  | classpath
  | classpathFile
  | javaHome
  | logLevel
  | useJbScaling
  | instrumenter
  | help
  deriving DecidableEq, Repr

namespace Flag

/-- The name behind the two dashes. -/
def name : Flag → String
  | source => "source"
  | output => "output"
  | buildDir => "build-dir"
  | classpath => "classpath"
  | classpathFile => "classpath-file"
  | javaHome => "java-home"
  | logLevel => "log-level"
  | useJbScaling => "use-jb-scaling"
  | instrumenter => "instrumenter"
  | help => "help"

/-- Whether the option has a value. -/
def takesValue : Flag → Bool
  | useJbScaling | help => false
  | _ => true

/-- Whether the option may be given more than once. -/
def isRepeatable (f : Flag) : Bool := f == classpath

/-- Whether the option's value may be empty; a path may not. -/
def allowsEmpty : Flag → Bool
  | classpath | logLevel | useJbScaling | help => true
  | _ => false

/-- The options that may stand anywhere. -/
def everywhere : List Flag :=
  [source, output, buildDir, classpath, classpathFile, javaHome, logLevel, help]

/-- The options of `instrument` alone. -/
def ofInstrument : List Flag := [useJbScaling, instrumenter]

end Flag

/-- A command as it is named. -/
inductive CommandName where
  | instrument
  | classpath
  | clean
  deriving DecidableEq, Repr

namespace CommandName

/-- The word for a command. -/
def word : CommandName → String
  | instrument => "instrument"
  | classpath => "classpath"
  | clean => "clean"

/-- All commands. -/
def all : List CommandName := [instrument, classpath, clean]

/-- The command of a word. -/
def ofWord? (w : String) : Option CommandName := all.find? fun c => c.word == w

/-- The options that may stand behind a command. -/
def flags : CommandName → List Flag
  | instrument => Flag.everywhere ++ Flag.ofInstrument
  | _ => Flag.everywhere

end CommandName

/-- Why a command line is not understood, or not followed. -/
inductive UsageError where
  /-- An option that does not exist, or an argument where none is expected. -/
  | unknownArgument
  /-- A missing or empty value. -/
  | invalidValue
  | invalidSubcommand
  | argumentConflict
  /-- A value for an option that has none. -/
  | tooManyValues
  | displayHelp
  deriving DecidableEq, Repr

/-- What the program is asked to do. -/
inductive Command where
  | instrument (useJbScaling : Bool) (instrumenter : Option String)
  | classpath
  | clean
  deriving DecidableEq, Repr

/-- An understood command line. -/
structure Arguments where
  command : Command
  source : Option String
  output : Option String
  buildDir : Option String
  /-- The path lists of dependencies. -/
  classpath : List String
  /-- The file that lists dependencies. -/
  classpathFile : Option String
  javaHome : Option String
  logLevel : String
  deriving DecidableEq, Repr

end FormWeaver.CommandLine
