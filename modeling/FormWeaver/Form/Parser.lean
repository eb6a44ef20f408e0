import FormWeaver.Disk.Files
import FormWeaver.Form.Basic
import FormWeaver.Form.Tag

/-!
# Reading a form

The form is read off the tags of its document. The first `form` tag is the root and carries the
binding; each `nested-form` tag adds the file it names, once. Any other tag before the root makes
the document no form.
-/

namespace FormWeaver.Form

/-- What the tags so far have told. -/
structure Reading where
  /-- The root's binding, once the root has been seen. -/
  root : Option (Option String)
  nested : List String

/-- The binding that a root tag declares; a blank one is none. -/
def bindingOf (t : Tag) : Option String :=
  ((t.attribute? "bind-to-class").map Text.trimmed).filter (· != "")

/-- The list with `x` behind it, unless it has it already. -/
def addOnce (xs : List String) (x : String) : List String := if xs.contains x then xs else xs ++ [x]

/-- Takes one more tag into account. -/
def Reading.add (r : Reading) (t : Tag) : Except FormFault Reading :=
  if t.localName = "form" && r.root.isNone then .ok { r with root := some (bindingOf t) }
  else if t.localName = "nested-form" then
    match t.attribute? "form-file" with
    | none => .ok r
    | some file => .ok { r with nested := addOnce r.nested file }
  else if r.root.isNone then .error .otherRoot
  else .ok r

/-- Takes all tags into account. -/
def Reading.addAll (r : Reading) : List Tag → Except FormFault Reading
  | [] => .ok r
  | t :: ts =>
    match r.add t with
    | .error fault => .error fault
    | .ok r' => r'.addAll ts

/-- The binding and the references of a document. -/
def readDocument (text : String) : Except FormFault (Option String × List String) :=
  match (Reading.mk none []).addAll (tags text.toList) with
  | .error fault => .error fault
  | .ok r =>
    match r.root with
    | none => .error .noRoot
    | some binding => .ok (binding, r.nested)

/-- The form that the bytes of a document describe. -/
def parse (bytes : ByteArray) (origin : Origin) : Except DescriptorError Form :=
  match String.fromUTF8? bytes with
  | none => .error (.malformed origin .notText)
  | some text =>
    match readDocument text with
    | .error fault => .error (.malformed origin fault)
    | .ok (binding, nested) => .ok ⟨binding, nested, origin⟩

/-- The form in a file. -/
def parseFile (d : Disk) (path : Path) : Except DescriptorError Form :=
  match d.contents path with
  | .error cause => .error (.unreadable path cause)
  | .ok bytes => parse bytes (.file path)

end FormWeaver.Form
