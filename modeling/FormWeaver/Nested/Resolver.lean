import FormWeaver.Classes.Lookup
import FormWeaver.Classpath.Context
import FormWeaver.Form.Parser
import FormWeaver.Text.LetterCase

/-!
# Resolving references to forms

A form refers to another by name. The resolver first looks among the forms it has resolved in this
run, then among the known files: it takes the first one, in the order of lower-cased absolute paths,
whose lower-cased absolute path ends with the lower-cased name. Only when no known file matches is the
class path searched for a resource of the name. Successes are remembered, failures are not.
-/

namespace FormWeaver.Nested

/-- Why a reference does not resolve. -/
inductive ResolveError where
  /-- No known file and no resource matches. -/
  | notFound (name : String)
  /-- What matches cannot be read as a form. -/
  | descriptor (error : DescriptorError)
  deriving DecidableEq

/-- The wording of a resolution error. -/
def ResolveError.message : ResolveError → String
  | .notFound name => "Cannot find nested form file " ++ name
  | .descriptor error => error.message

/-- The text that references and paths are compared by: slashes for backslashes, in lower case. -/
def normalize (text : String) : String := Text.lowerCase (Text.replaceChar '\\' '/' text)

/-- A known file with the text it is matched by. -/
structure KnownFile where
  /-- The normalised absolute path. -/
  key : String
  file : Path

/-- The known file at a path. -/
def KnownFile.of (d : Disk) (file : Path) : KnownFile :=
  ⟨normalize (Classpath.absoluteOrSelf d file).text, file⟩

/-- The order of known files: by key, then by path. -/
def KnownFile.le (a b : KnownFile) : Bool :=
  !decide (b.key.toList.map Char.toNat :: b.file.key < a.key.toList.map Char.toNat :: a.file.key)

/-- Whether a known file matches a normalised name. -/
def KnownFile.isMatchOf (k : KnownFile) (wanted : String) : Bool :=
  wanted.toList.isSuffixOf k.key.toList

/-- What references are resolved with. -/
structure Resolver where
  known : List KnownFile
  context : Classpath.Context
  classRoot : Path
  /-- The forms resolved so far, by name. -/
  resolved : List (String × Form)

namespace Resolver

/-- A resolver that has resolved nothing yet. -/
def new (d : Disk) (files : List Path) (context : Classpath.Context) (classRoot : Path) : Resolver :=
  ⟨(files.map (KnownFile.of d)).mergeSort KnownFile.le, context, classRoot, []⟩

/-- The known file that a name refers to. -/
def knownFile? (r : Resolver) (name : String) : Option Path :=
  (r.known.find? fun k => k.isMatchOf (normalize name)).map (·.file)

/-- What reading a descriptor gives, as what resolving its name gives. -/
def asResolved : Except DescriptorError Form → Except ResolveError Form
  | .error e => .error (.descriptor e)
  | .ok form => .ok form

/-- What a name refers to, whatever has been resolved before. -/
def search (r : Resolver) (d : Disk) (name : String) : Except ResolveError Form :=
  match r.knownFile? name with
  | some file => asResolved (Form.parseFile d file)
  | none =>
    match r.context.findResource? d name with
    | none => .error (.notFound name)
    | some bytes => asResolved (Form.parse bytes (.resource name))

/-- What a name refers to. -/
def lookup (r : Resolver) (d : Disk) (name : String) : Except ResolveError Form :=
  match r.resolved.lookup name with
  | some form => .ok form
  | none => r.search d name

/-- The resolver that remembers what a name refers to. -/
def remember (r : Resolver) (name : String) (form : Form) : Resolver :=
  { r with resolved := (name, form) :: r.resolved }

/-- Resolves a reference and remembers it when that succeeds. -/
def resolve (r : Resolver) (d : Disk) (name : String) : Except ResolveError Form × Resolver :=
  match r.lookup d name with
  | .error e => (.error e, r)
  | .ok form => (.ok form, r.remember name form)

/-- The class that a form is bound to, by the name under which it was compiled: a nested class that
is declared with dots gets its dollar signs. A class that is not there keeps its declared name. -/
def bindingOf (r : Resolver) (d : Disk) (form : Form) : Option String :=
  form.binding.map fun declared =>
    match Classes.resolve? d r.classRoot (Classes.internalName declared) with
    | some internal => Classes.className internal
    | none => declared

end Resolver
end FormWeaver.Nested
