import FormWeaver.CommandLine.Basic
import FormWeaver.Text.Cut

/-!
# Understanding the command line

Arguments are read in order. An option's value is attached with an equals sign or is the next
argument; it is taken up only when something else follows or the arguments end, so a fault further on
may be found before one of the value. Two dashes end the options, and since nothing but a command is
expected behind them, any further argument is a fault. What stands behind the command is read by
itself; an option given on both sides has the values that stand behind the command.
-/

namespace FormWeaver.CommandLine

/-! ## One side of the command -/

/-- The options read so far. -/
structure Reading where
  /-- The options that have been taken up, with their values. -/
  taken : List (Flag × String)
  /-- The option that has not been taken up, with its value once that has been read. -/
  pending : Option (Flag × Option String)

namespace Reading

/-- Nothing has been read. -/
def empty : Reading := ⟨[], none⟩

/-- Whether an option waits for its value. -/
def isWaiting (r : Reading) : Bool :=
  match r.pending with
  | some (_, none) => true
  | _ => false

/-- Takes up an option with its value. -/
def take (r : Reading) (f : Flag) (value : String) : Except UsageError Reading :=
  if !f.isRepeatable && r.taken.any (·.1 == f) then .error .argumentConflict
  else if value.isEmpty && !f.allowsEmpty then .error .invalidValue
  else .ok { r with taken := r.taken ++ [(f, value)] }

/-- Takes up the pending option. -/
def settle (r : Reading) : Except UsageError Reading :=
  match r.pending with
  | none => .ok r
  | some (_, none) => .error .invalidValue
  | some (f, some value) => Reading.take { r with pending := none } f value

/-- Takes up the pending option, then another one with its value. -/
def settleAndTake (r : Reading) (f : Flag) (value : String) : Except UsageError Reading :=
  match r.settle with
  | .error e => .error e
  | .ok r => r.take f value

/-- Takes up the pending option and shows help. -/
def showHelp (r : Reading) : UsageError :=
  match r.settle with
  | .error e => e
  | .ok _ => .displayHelp

/-- Reads an option of one of the flags, with the value that is attached to it. -/
def option (flags : List Flag) (r : Reading) (name : String) (attached : Option String) :
    Except UsageError Reading :=
  match flags.find? (·.name == name), attached with
  | none, _ => .error .unknownArgument
  | some f, some value => if f.takesValue then r.settleAndTake f value else .error .tooManyValues
  | some .help, none => .error r.showHelp
  | some f, none =>
    if f.takesValue then
      match r.settle with
      | .error e => .error e
      | .ok r => .ok { r with pending := some (f, none) }
    else r.settleAndTake f "true"

end Reading

/-- The name and the attached value of an option that is written with two dashes. -/
def longOption? (a : String) : Option (String × Option String) :=
  match a.toList with
  | '-' :: '-' :: c :: cs =>
    match Text.cut? ['='] (c :: cs) with
    | some (name, value) => some (String.ofList name, some (String.ofList value))
    | none => some (String.ofList (c :: cs), none)
  | _ => none

/-- The letter of an option that is written with one dash. -/
def shortOption? (a : String) : Option Char :=
  match a.toList with
  | '-' :: c :: _ => if c = '-' then none else some c
  | _ => none

/-- The fault of an argument that is no option and no value. -/
def strayArgument (commands : List String) : UsageError :=
  if commands.isEmpty then .unknownArgument else .invalidSubcommand

/-- The fault of an argument behind two dashes. -/
def trailingArgument (commands : List String) (a : String) : UsageError :=
  if commands.contains a then .unknownArgument else strayArgument commands

/-- Reads arguments up to a command or the end; returns the command's word and what stands behind it.
-/
def readArguments (flags : List Flag) (commands : List String) :
    Reading → List String → Except UsageError (Reading × Option (String × List String))
  | r, [] => .ok (r, none)
  | r, a :: rest =>
    if !r.isWaiting && commands.contains a then .ok (r, some (a, rest))
    else if a = "--" then
      match rest with
      | [] => .ok (r, none)
      | b :: _ => .error (trailingArgument commands b)
    else match longOption? a, shortOption? a with
      | some (name, attached), _ =>
        match r.option flags name attached with
        | .error e => .error e
        | .ok r => readArguments flags commands r rest
      | none, some letter =>
        if letter = 'h' then .error r.showHelp else .error .unknownArgument
      | none, none =>
        match r.pending with
        | some (f, none) => readArguments flags commands { r with pending := some (f, some a) } rest
        | _ => .error (strayArgument commands)

/-! ## Both sides -/

/-- The word that asks for help. -/
def helpWord : String := "help"

/-- The words that may stand in place of a command. -/
def commandWords : List String := CommandName.all.map CommandName.word ++ [helpWord]

/-- The answer to a request for help about the commands that follow. -/
def helpAbout : List String → UsageError
  | [] => .displayHelp
  | [w] => if commandWords.contains w then .displayHelp else .invalidSubcommand
  | _ => .invalidSubcommand

/-- The options that stand behind a command. -/
def readCommand (c : CommandName) (args : List String) : Except UsageError (List (Flag × String)) :=
  match readArguments c.flags [] .empty args with
  | .error e => .error e
  | .ok (r, _) => r.settle.map (·.taken)

/-- The values of an option, of which those behind the command count first. -/
def valuesOf (before behind : List (Flag × String)) (f : Flag) : List String :=
  let values := fun taken : List (Flag × String) => (taken.filter (·.1 == f)).map (·.2)
  if (values behind).isEmpty then values before else values behind

/-- What is logged unless the command line says otherwise. -/
def defaultLogLevel : String := "info"

/-- The understood command line of the options before and behind a command. -/
def assemble (name : Option CommandName) (before behind : List (Flag × String)) : Arguments :=
  let one := fun f => (valuesOf before behind f).head?
  { command := match name with
      | none => .instrument false none
      | some .instrument => .instrument (one .useJbScaling).isSome (one .instrumenter)
      | some .classpath => .classpath
      | some .clean => .clean
    source := one .source
    output := one .output
    buildDir := one .buildDir
    classpath := valuesOf before behind .classpath
    classpathFile := one .classpathFile
    javaHome := one .javaHome
    logLevel := (one .logLevel).getD defaultLogLevel }

/-- Understands a command line, which is given without the program's name. -/
def parse (args : List String) : Except UsageError Arguments :=
  match readArguments Flag.everywhere commandWords .empty args with
  | .error e => .error e
  | .ok (r, none) => r.settle.map fun r => assemble none r.taken []
  | .ok (r, some (word, rest)) =>
    match CommandName.ofWord? word with
    | none => .error (helpAbout rest)
    | some name =>
      match readCommand name rest with
      | .error e => .error e
      | .ok behind => r.settle.map fun r => assemble (some name) r.taken behind

end FormWeaver.CommandLine
