import FormWeaver.Disk.Files
import FormWeaver.Path.Order

/-!
# Finding the forms of a source directory

Every regular file beneath the directory whose extension is `form` is a descriptor, at any depth,
hidden or not. Links below the directory are not followed and do not count, while a link that is
itself given as the directory is. The result is in path order, whatever the order of the disk. A
file given in place of a directory counts as its own only file, and a single dash names the
standard input, in which nothing is found. A directory whose path is too long to be looked up is
passed over with all that is in it.
-/

namespace FormWeaver.Form

/-- The extension of descriptors. -/
def descriptorExtension : String := "form"

/-- Whether the path is short enough to be looked up. -/
def isReadable (p : Path) : Bool := p.text.utf8ByteSize < Disk.maxPath

/-- The regular files at or beneath what the path leads to, spelled from the path. -/
def filesUnder (d : Disk) (root : Path) : List Path :=
  if root.same ⟨"-"⟩ then []
  else match d.follow? root with
    | some (_, .file _ _) => [root]
    | some (place, .directory) =>
      (d.below place).filterMap fun (q, n) =>
        let names := q.drop place.length
        match n with
        | .file _ _ =>
          if isReadable (names.dropLast.foldl Path.child root) then some (names.foldl Path.child root)
          else none
        | _ => none
    | _ => []

/-- The descriptors at or beneath a path, in path order. -/
def discover (d : Disk) (root : Path) : List Path :=
  Path.sort ((filesUnder d root).filter fun p => p.extension? == some descriptorExtension)

end FormWeaver.Form
