import FormWeaver.Diagnostic
import FormWeaver.Instrumenter.Process
import FormWeaver.Nested.Closure
import FormWeaver.Text.Utf8

/-!
# Instrumenting a class

A class is instrumented by one process that is told the class path, the form, the class file, and for
each form that is referred to its file and its binding. Nothing is started when a reference does not
resolve. The process is trusted to have succeeded only when it ends well and reports no error; one
that fails without saying why is given an error that carries what it wrote to its error output.
-/

namespace FormWeaver

/-- The instrumenter and how it is run. -/
structure Instrumenter where
  /-- What running programs does. -/
  tool : Tool
  /-- The program that runs the instrumenter. -/
  program : String
  /-- The instrumenter's archive. -/
  jar : Path

/-- A class to instrument. -/
structure Request where
  descriptor : Path
  form : Form
  classFile : Path
  scaling : Bool

namespace Instrumenter

/-- The value of the class path argument: the paths of the locations, separated by colons. -/
def classpathValue (c : Classpath.Context) : String :=
  Text.joinWith ":" (c.locations.map (·.path.text))

/-- The arguments that tell of a form that is referred to. -/
def nestedArguments (r : Nested.Resolver) (d : Disk) (name : String) (form : Form) : List String :=
  (match form.origin with
    | .file path => ["--nested-form", name ++ "=" ++ path.text]
    | .resource _ => []) ++
  (match r.bindingOf d form with
    | some binding => ["--nested-class", name ++ "=" ++ binding]
    | none => [])

/-- The arguments for a request whose references have been resolved. -/
def arguments (i : Instrumenter) (r : Nested.Resolver) (d : Disk) (q : Request)
    (nested : List (String × Form)) : List String :=
  ["-jar", i.jar.text, "--classpath", classpathValue r.context] ++
  (match r.context.platform with
    | some platform => ["--platform", platform.runtimeHome.text]
    | none => []) ++
  ["--form", q.descriptor.text, "--class", q.classFile.text] ++
  nested.flatMap (fun (name, form) => nestedArguments r d name form) ++
  (if q.scaling then ["--jb-scaling"] else [])

/-- The finding of one error. -/
def failed (message : String) (cause : Option String) : Finding := ⟨[⟨message, cause⟩], []⟩

/-- What a process that has ended has to say. -/
def findingOf (c : Completion) : Finding :=
  let said := Finding.ofOutput (Text.lenient c.stdout)
  if !c.status.isSuccess && said.errors.isEmpty then
    { said with errors :=
        [⟨"Instrumenter failed with " ++ c.status.display, some (Text.trimmed (Text.lenient c.stderr))⟩] }
  else said

/-- The outcome of instrumenting a class. -/
structure Outcome where
  finding : Finding
  /-- The arguments of the process, if one was started. -/
  started : Option (List String)
  /-- The resolver, which remembers the forms it resolved. -/
  resolver : Nested.Resolver
  disk : Disk

/-- Instruments a class. -/
def transform (i : Instrumenter) (d : Disk) (r : Nested.Resolver) (q : Request) : Outcome :=
  match Nested.closure d r q.form with
  | (.error e, r) => ⟨failed e.message none, none, r, d⟩
  | (.ok nested, r) =>
    let args := i.arguments r d q nested
    match i.tool.launch d ⟨i.program, args⟩ with
    | (d, .error e) =>
      ⟨failed "Failed to execute java (ensure JRE/JDK is installed)" (some e.message), none, r, d⟩
    | (d, .ok completion) => ⟨findingOf completion, some args, r, d⟩

end Instrumenter
end FormWeaver
