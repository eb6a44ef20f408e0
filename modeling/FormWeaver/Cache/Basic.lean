import FormWeaver.Disk.Files
import FormWeaver.Path.Order

/-!
# The cache

The cache remembers, for each pair of a descriptor and a class file that was processed without
errors, when either was last modified. A pair is up to date while both times are as remembered. A
pair is known by its two paths, compared by components; there is one entry for a pair, and the last
one put counts.
-/

namespace FormWeaver

/-- A processed pair with the modification times it had. -/
structure CacheEntry where
  descriptor : Path
  descriptorTime : UInt64
  classFile : Path
  classTime : UInt64
  deriving DecidableEq

namespace CacheEntry

/-- Whether the entry is that of a pair. -/
def isFor (e : CacheEntry) (descriptor classFile : Path) : Bool :=
  e.descriptor.same descriptor && e.classFile.same classFile

/-- The entry of a pair with the times that both files have now. -/
def capture (d : Disk) (descriptor classFile : Path) : CacheEntry :=
  ⟨descriptor, d.modificationTime descriptor, classFile, d.modificationTime classFile⟩

/-- Whether both files still have the times of the entry. -/
def isCurrent (e : CacheEntry) (d : Disk) (descriptor classFile : Path) : Bool :=
  e.descriptorTime == d.modificationTime descriptor && e.classTime == d.modificationTime classFile

/-- The order of entries: by descriptor, then by class file. -/
def le (a b : CacheEntry) : Bool :=
  !decide ([b.descriptor.key, b.classFile.key] < [a.descriptor.key, a.classFile.key])

end CacheEntry

/-- The processed pairs. -/
structure Cache where
  /-- The entries, one for a pair. -/
  entries : List CacheEntry

namespace Cache

/-- The cache that knows nothing. -/
def empty : Cache := ⟨[]⟩

/-- The entry of a pair. -/
def find? (c : Cache) (descriptor classFile : Path) : Option CacheEntry :=
  c.entries.find? (·.isFor descriptor classFile)

/-- The cache without the entry of a pair. -/
def erase (c : Cache) (descriptor classFile : Path) : Cache :=
  ⟨c.entries.filter fun e => !e.isFor descriptor classFile⟩

/-- The cache with an entry, in place of the one its pair had. -/
def insert (c : Cache) (e : CacheEntry) : Cache :=
  ⟨e :: (c.erase e.descriptor e.classFile).entries⟩

/-- The cache with the present times of a pair. -/
def put (c : Cache) (d : Disk) (descriptor classFile : Path) : Cache :=
  c.insert (.capture d descriptor classFile)

/-- Whether a pair has an entry and both its files still have the times of it. -/
def isUpToDate (c : Cache) (d : Disk) (descriptor classFile : Path) : Bool :=
  match c.find? descriptor classFile with
  | none => false
  | some e => e.isCurrent d descriptor classFile

/-- The cache of entries of which the last one for a pair counts. -/
def ofEntries (es : List CacheEntry) : Cache := es.foldl insert empty

/-- The entries by descriptor and class file. -/
def sorted (c : Cache) : List CacheEntry := c.entries.mergeSort CacheEntry.le

end Cache
end FormWeaver
