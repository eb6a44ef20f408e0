import FormWeaver.Text.Cut

/-!
# What the instrumenter says

The instrumenter reports on its output, a line each: `ERROR: message` or `WARNING: message`, and
behind ` | ` a cause, if it has one. Other lines are not for us. A `Finding` is what all lines say
together, the errors in order and the warnings in order.
-/

namespace FormWeaver

/-- One thing the instrumenter has to say. -/
structure Diagnostic where
  message : String
  cause : Option String
  deriving DecidableEq, Repr

/-- How reports show a diagnostic. -/
def Diagnostic.display (d : Diagnostic) : String :=
  match d.cause with
  | none => d.message
  | some cause => d.message ++ " (" ++ cause ++ ")"

/-- All that the instrumenter has to say about a class. -/
structure Finding where
  /-- What makes the class unusable. -/
  errors : List Diagnostic
  /-- What does not. -/
  warnings : List Diagnostic
  deriving DecidableEq, Repr

namespace Diagnostic

/-- How grave a line is. -/
inductive Severity where
  | error | warning
  deriving DecidableEq, Repr

/-- What a line of this severity begins with. -/
def Severity.label : Severity → List Char
  | .error => "ERROR:".toList
  | .warning => "WARNING:".toList

/-- What stands between a message and its cause. -/
def separator : List Char := " | ".toList

/-- The diagnostic that stands behind a label. -/
def ofBody (body : List Char) : Diagnostic :=
  match Text.cut? separator body with
  | some (message, cause) =>
    ⟨String.ofList (Text.trim message), some (String.ofList (Text.trim cause))⟩
  | none => ⟨String.ofList (Text.trim body), none⟩

/-- What a line says, when it says something. -/
def ofLine? (line : List Char) : Option (Severity × Diagnostic) :=
  let line := Text.trim line
  if Severity.error.label.isPrefixOf line then
    some (.error, ofBody (line.drop Severity.error.label.length))
  else if Severity.warning.label.isPrefixOf line then
    some (.warning, ofBody (line.drop Severity.warning.label.length))
  else none

end Diagnostic

/-- What an output says, line by line. -/
def Finding.ofOutput (output : String) : Finding :=
  let said := (Text.lines output.toList).filterMap Diagnostic.ofLine?
  ⟨said.filterMap fun (s, d) => if s = .error then some d else none,
   said.filterMap fun (s, d) => if s = .warning then some d else none⟩

end FormWeaver
