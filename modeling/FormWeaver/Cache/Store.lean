import FormWeaver.Cache.Codec

/-!
# The cache on disk

A cache is kept in one file of the build directory. A file that is missing or holds no cache reads as
the empty cache. Writing goes to a temporary sibling that then takes the file's place, so that the
file holds either what it held or all of the new text.
-/

namespace FormWeaver

/-- The file that a cache is kept in. -/
structure CacheFile where
  path : Path

namespace CacheFile

/-- The name of the cache file in a build directory. -/
def fileName : String := "gui-forms.cache"

/-- The cache file of a build directory. -/
def ofBuildDirectory (build : Path) : CacheFile := ⟨build.child fileName⟩

/-- The temporary sibling that a new text is written to. -/
def temporary (f : CacheFile) : Path := ⟨f.path.text ++ ".tmp"⟩

/-- The cache in the file. -/
def read (f : CacheFile) (d : Disk) : Cache :=
  match d.readText f.path with
  | .error _ => .empty
  | .ok text => (Cache.decode text).getD .empty

/-- Puts a text into the file by way of the temporary sibling; tells whether that worked. -/
def replace (f : CacheFile) (d : Disk) (text : String) : Disk × Bool :=
  match d.writeFile f.temporary text.toUTF8 with
  | .error _ => (d, false)
  | .ok d' =>
    match d'.rename f.temporary f.path with
    | .ok d'' => (d'', true)
    | .error _ =>
      match d'.removeFile f.temporary with
      | .ok d'' => (d'', false)
      | .error _ => (d', false)

/-- Writes a cache, making the directories on the way to the file; tells whether that worked. -/
def write (f : CacheFile) (d : Disk) (c : Cache) : Disk × Bool :=
  match f.path.parent? with
  | none => f.replace d (Cache.encode c)
  | some directory =>
    match d.makeDirectories directory with
    | (d', .error _) => (d', false)
    | (d', .ok ()) => f.replace d' (Cache.encode c)

/-- Removes the file; tells whether there was one to remove. -/
def delete (f : CacheFile) (d : Disk) : Disk × Bool :=
  if d.isFile f.path then
    match d.removeFile f.path with
    | .ok d' => (d', true)
    | .error _ => (d, false)
  else (d, false)

end CacheFile
end FormWeaver
