import FormWeaver.Disk.Error
import FormWeaver.Path.Basic

/-!
# Forms

A form descriptor says two things that matter here: the class it is bound to, if any, and the
other forms it refers to. A parsed form also remembers where it was read from, because a form that
came from a file is named to the tool by its path.
-/

namespace FormWeaver

/-- Where a form was read from. -/
inductive Origin where
  | file (path : Path)
  | resource (name : String)
  deriving DecidableEq

/-- How messages name an origin. -/
def Origin.describe : Origin → String
  | .file path => path.text
  | .resource name => "resource " ++ name

/-- A parsed form. -/
structure Form where
  binding : Option String
  /-- The forms it refers to, in the order of their first mention. -/
  nested : List String
  origin : Origin
  deriving DecidableEq

/-- What makes a text no form. -/
inductive FormFault where
  | notText
  /-- A tag other than `form` comes first. -/
  | otherRoot
  | noRoot
  deriving DecidableEq

/-- The wording of a fault. -/
def FormFault.message : FormFault → String
  | .notText => "not valid UTF-8"
  | .otherRoot => "root element is not <form>"
  | .noRoot => "missing <form> element"

/-- What goes wrong with one descriptor. -/
inductive DescriptorError where
  /-- Its file cannot be read. -/
  | unreadable (path : Path) (cause : SystemError)
  /-- It is no form. -/
  | malformed (origin : Origin) (fault : FormFault)
  /-- No class file exists for the class it is bound to. -/
  | classMissing (className : String)
  /-- It cannot be copied to the output directory. -/
  | unpublished (source target : Path) (cause : SystemError)
  deriving DecidableEq

/-- The wording of a descriptor error. -/
def DescriptorError.message : DescriptorError → String
  | .unreadable path cause => "Failed to read descriptor " ++ path.text ++ ": " ++ cause.message
  | .malformed origin fault => "Malformed descriptor " ++ origin.describe ++ ": " ++ fault.message
  | .classMissing className => "Class to bind does not exist: " ++ className
  | .unpublished source target cause =>
    "Failed to publish " ++ source.text ++ " -> " ++ target.text ++ ": " ++ cause.message

end FormWeaver
