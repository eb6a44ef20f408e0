import FormWeaver.Disk.Files

/-!
# From class names to class files

A class name `a.b.C` names the file `a/b/C.class` under a class root. A nested class is compiled to
a file whose name joins the outer and the inner name with a dollar sign, but a binding may spell it
with a dot. So when the literal file is missing, the last slash becomes a dollar sign, then the
slash before it, until a class file exists or no slash is left.
-/

namespace FormWeaver.Classes

/-- The internal form of a class name: slashes for dots. -/
def internalName (className : String) : String := Text.replaceChar '.' '/' className

/-- The class name of an internal name: dots for slashes. -/
def className (internal : String) : String := Text.replaceChar '/' '.' internal

/-- The class file of an internal name. -/
def classFile (root : Path) (internal : String) : Path := root.child (internal ++ ".class")

/-- Turns the first slash of the text into a dollar sign. -/
def sinkFirstSlash? : List Char → Option (List Char)
  | [] => none
  | c :: cs => if c = '/' then some ('$' :: cs) else (sinkFirstSlash? cs).map (c :: ·)

/-- Turns the last slash of the name into a dollar sign. -/
def sinkLastSlash? (internal : String) : Option String :=
  (sinkFirstSlash? internal.toList.reverse).map fun cs => String.ofList cs.reverse

/-- The candidates for an internal name in the order in which they are tried; the number bounds how
many slashes are turned. -/
def candidates : Nat → String → List String
  | 0, internal => [internal]
  | slashes + 1, internal =>
    internal :: match sinkLastSlash? internal with
      | none => []
      | some next => candidates slashes next

/-- The first candidate for an internal name whose class file exists. -/
def resolve? (d : Disk) (root : Path) (internal : String) : Option String :=
  (candidates (internal.toList.count '/') internal).find? fun candidate =>
    d.isFile (classFile root candidate)

/-- The class file that a class name denotes. -/
def fileOf? (d : Disk) (root : Path) (name : String) : Option Path :=
  (resolve? d root (internalName name)).map (classFile root)

end FormWeaver.Classes
