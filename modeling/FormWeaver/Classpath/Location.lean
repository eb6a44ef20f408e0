import FormWeaver.Classpath.Url
import FormWeaver.Disk.Files
import FormWeaver.Text.Quoted

/-!
# Locations

A location is one element of a class path: a directory, or an archive of classes and resources. It
is given as a plain path or as a `file:` URL and made absolute against the working directory. Its
identity is its URL.
-/

namespace FormWeaver

/-- An element of a class path. -/
structure Location where
  /-- The URL, which is its identity. -/
  url : String
  path : Path
  /-- Whether it was a directory when it was made; any other location counts as an archive. -/
  isDirectory : Bool
  deriving DecidableEq

/-- What makes a text no location. -/
inductive LocationFault where
  | empty
  | holdsNul
  | otherScheme
  | badEscape
  | noAbsolutePath (cause : SystemError)
  deriving DecidableEq

/-- The wording of a fault. -/
def LocationFault.message : LocationFault → String
  | .empty => "empty location"
  | .holdsNul => "contains NUL byte"
  | .otherScheme => "unsupported URL scheme"
  | .badEscape => "bad percent escape"
  | .noAbsolutePath cause => cause.message

/-- A text that is no location, with the reason. -/
structure MalformedLocation where
  raw : String
  fault : LocationFault
  deriving DecidableEq

/-- The wording of the error. -/
def MalformedLocation.message (e : MalformedLocation) : String :=
  "Malformed classpath location " ++ Text.quoted e.raw ++ ": " ++ e.fault.message

namespace Location

/-- The location at an absolute path. -/
def ofAbsolute (d : Disk) (path : Path) : Location :=
  let directory := d.isDirectory path
  ⟨Classpath.fileUrl path directory, path, directory⟩

/-- The path that a trimmed text spells, as a `file:` URL or plainly. -/
def spelledPath (text : List Char) : Except LocationFault Path :=
  match Text.cut? [':'] text with
  | some (scheme, rest) =>
    if Classpath.isScheme scheme then
      if scheme.map Char.toLower = "file".toList then
        match Classpath.percentDecode (Classpath.dropAuthority rest) with
        | some decoded => .ok ⟨decoded⟩
        | none => .error .badEscape
      else .error .otherScheme
    else .ok ⟨String.ofList text⟩
  | none => .ok ⟨String.ofList text⟩

/-- The absolute path that a text names. -/
def pathOf (d : Disk) (raw : String) : Except LocationFault Path :=
  let text := Text.trim raw.toList
  if text.isEmpty then .error .empty
  else if text.contains '\x00' then .error .holdsNul
  else match spelledPath text with
    | .error fault => .error fault
    | .ok path =>
      match d.absolute path with
      | .error cause => .error (.noAbsolutePath cause)
      | .ok path => .ok path

/-- The location that a text names. -/
def parse (d : Disk) (raw : String) : Except MalformedLocation Location :=
  match pathOf d raw with
  | .error fault => .error ⟨raw, fault⟩
  | .ok path => .ok (ofAbsolute d path)

end Location
end FormWeaver
