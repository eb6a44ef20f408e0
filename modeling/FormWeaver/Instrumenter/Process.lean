import FormWeaver.Disk.Basic
import FormWeaver.Text.Numeral

/-!
# Processes

The instrumenter is a program of its own, started with a list of arguments. What it does is not fixed
here: a `Tool` is any function that takes the disk and an invocation to the disk afterwards and either
a completion or the reason why the process could not be started.
-/

namespace FormWeaver

/-- A program with its arguments. -/
structure Invocation where
  program : String
  arguments : List String
  deriving DecidableEq

/-- How a process ended. -/
inductive ExitStatus where
  /-- By itself, with a code. -/
  | code (n : Nat)
  | signal (n : Nat)
  deriving DecidableEq, Repr

/-- The names of the signals from one on. -/
def signalNames : List String :=
  ["SIGHUP", "SIGINT", "SIGQUIT", "SIGILL", "SIGTRAP", "SIGABRT", "SIGBUS", "SIGFPE", "SIGKILL",
   "SIGUSR1", "SIGSEGV", "SIGUSR2", "SIGPIPE", "SIGALRM", "SIGTERM", "SIGSTKFLT", "SIGCHLD",
   "SIGCONT", "SIGSTOP", "SIGTSTP", "SIGTTIN", "SIGTTOU", "SIGURG", "SIGXCPU", "SIGXFSZ",
   "SIGVTALRM", "SIGPROF", "SIGWINCH", "SIGIO", "SIGPWR", "SIGSYS"]

namespace ExitStatus

/-- Whether the process ended well. -/
def isSuccess (s : ExitStatus) : Bool := s == .code 0

/-- How messages show a status. -/
def display : ExitStatus → String
  | .code n => "exit status: " ++ Text.decimal n
  | .signal n =>
    let named := match (if n = 0 then none else signalNames[n - 1]?) with
      | some name => " (" ++ name ++ ")"
      | none => ""
    "signal: " ++ Text.decimal n ++ named

end ExitStatus

/-- A process that has ended. -/
structure Completion where
  status : ExitStatus
  /-- What it wrote to its output. -/
  stdout : ByteArray
  /-- What it wrote to its error output. -/
  stderr : ByteArray

/-- What running programs does. -/
abbrev Tool := Disk → Invocation → Disk × Except SystemError Completion

/-- Whether a text can be passed to a program. -/
def isPassable (s : String) : Bool := !s.toList.contains '\x00'

/-- The bytes that a text takes when it is passed to a program: its own and a zero behind them. -/
def passedSize (s : String) : Nat := s.utf8ByteSize + 1

/-- The bytes that one argument may take: 32 pages of 4 KiB. -/
def maxArgument : Nat := 32 * 4096

/-- The bytes that all arguments may take: a quarter of a stack of 8 MiB. -/
def argumentRoom : Nat := 2 * 1024 * 1024

/-- Whether the arguments are short enough to be passed to the program. Besides its bytes each takes
the eight of a pointer to it. -/
def Invocation.fits (i : Invocation) : Bool :=
  let words := i.program :: i.arguments
  words.all (passedSize · ≤ maxArgument) &&
    words.foldl (fun room s => room + passedSize s + 8) 0 ≤ argumentRoom

/-- Runs a program. It is not started when it would be passed a NUL character, nor when its arguments
are too long; a program that cannot be started in any case gives its own reason rather than their
length. -/
def Tool.launch (tool : Tool) (d : Disk) (i : Invocation) : Disk × Except SystemError Completion :=
  if !(isPassable i.program && i.arguments.all isPassable) then (d, .error .nulInArgument)
  else if i.fits then tool d i
  else match (tool d i).2 with
    | .error e => (d, .error e)
    | .ok _ => (d, .error .argumentsTooLong)

end FormWeaver
