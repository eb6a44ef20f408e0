import FormWeaver.Disk.Error
import FormWeaver.Path.Basic

/-!
# The disk

A disk is a finite map from places to nodes. A *place* is the list of names that leads from the
root to a node, free of links and of `.` and `..`; a *node* is a regular file with its bytes and
its modification time, a directory, or a symbolic link with the text it points to. The root is
always a directory. Besides its nodes a disk knows the working directory, even when that has been
removed, and a clock that gives every file written by a program a time of its own.

The view of a disk is `node?`. Every change is `insert` or `erase`, and `node?_insert` and
`node?_erase` say what they do to the view.

Some worlds are no disks. A file has one name only: there are no hard links, and no part of the tree is
mounted at a second place. Names are texts. Nodes have no owners and no permissions, so nothing is
refused for lack of a right, and directories have no times.
-/

namespace FormWeaver

/-- The names from the root to a node. -/
abbrev Place := List String

/-- What a place holds. Times are nanoseconds since the epoch. -/
inductive Node where
  | file (bytes : ByteArray) (modified : Int)
  | directory
  | link (target : String)

/-- Files are equal when their bytes, one by one, and their times are. -/
instance : DecidableEq Node
  | .file b t, .file b' t' =>
    decidable_of_iff (b.data = b'.data ∧ t = t') (by rw [Node.file.injEq, ByteArray.ext_iff])
  | .directory, .directory => isTrue rfl
  | .link t, .link t' => decidable_of_iff (t = t') (by rw [Node.link.injEq])
  | .file .., .directory | .file .., .link _ | .directory, .file .. | .directory, .link _
  | .link _, .file .. | .link _, .directory => isFalse nofun

/-- The directory that relative paths start from. -/
inductive WorkingDirectory where
  | present (place : Place)
  /-- A directory that has been removed from `parent`. It is empty and stays so; `..` still leads
  from it to `parent`, but it has no name of its own. -/
  | removed (parent : Place)
  deriving DecidableEq, Repr

/-- A file system with a working directory and a clock. -/
structure Disk where
  /-- What stands where; the first entry of a place counts. -/
  nodes : List (Place × Node)
  workingDirectory : WorkingDirectory
  /-- The time the next file written by a program gets. -/
  clock : Int

namespace Disk

/-- What a place holds. -/
def node? (d : Disk) (p : Place) : Option Node :=
  if p = [] then some .directory else d.nodes.lookup p

/-- The disk with `n` at `p`. -/
def insert (d : Disk) (p : Place) (n : Node) : Disk :=
  { d with nodes := (p, n) :: d.nodes.filter (·.1 != p) }

/-- The disk with nothing at `p`. -/
def erase (d : Disk) (p : Place) : Disk := { d with nodes := d.nodes.filter (·.1 != p) }

/-- The places strictly beneath `p`, each once, with what they hold. -/
def below (d : Disk) (p : Place) : List (Place × Node) :=
  d.nodes.filter fun (q, n) => p.length < q.length && p.isPrefixOf q && d.nodes.lookup q == some n

theorem lookup_filter_ne {p q : Place} (nodes : List (Place × Node)) (h : q ≠ p) :
    (nodes.filter (·.1 != p)).lookup q = nodes.lookup q := by
  induction nodes with
  | nil => rfl
  | cons e es ih =>
    obtain ⟨r, n⟩ := e
    by_cases hr : r = p
    · subst hr
      have hq : (q == r) = false := by simpa using h
      simp [List.lookup_cons, hq, ih]
    · have hp : (r != p) = true := by simpa using hr
      simp only [List.filter_cons, hp, if_true, List.lookup_cons, ih]

theorem lookup_filter_self (p : Place) (nodes : List (Place × Node)) :
    (nodes.filter (·.1 != p)).lookup p = none := by
  induction nodes with
  | nil => rfl
  | cons e es ih =>
    obtain ⟨r, n⟩ := e
    by_cases hr : r = p
    · simp [hr, ih]
    · have hp : (r != p) = true := by simpa using hr
      have hpr : (p == r) = false := by simpa using fun h : p = r => hr h.symm
      simp only [List.filter_cons, hp, if_true, List.lookup_cons, hpr, ih]

/-- A place holds what was put there last, and the other places what they held. -/
theorem node?_insert (d : Disk) (p q : Place) (n : Node) (hp : p ≠ []) :
    (d.insert p n).node? q = if q = p then some n else d.node? q := by
  unfold node? insert
  by_cases hq : q = []
  · subst hq; simp [hp.symm]
  · by_cases hqp : q = p
    · simp [hqp, hp]
    · have : (q == p) = false := by simpa using hqp
      simp [hq, hqp, List.lookup_cons, this, lookup_filter_ne d.nodes hqp]

/-- Nothing stands where something was erased, and the other places hold what they held. -/
theorem node?_erase (d : Disk) (p q : Place) (hp : p ≠ []) :
    (d.erase p).node? q = if q = p then none else d.node? q := by
  unfold node? erase
  by_cases hq : q = []
  · subst hq; simp [hp.symm]
  · by_cases hqp : q = p
    · subst hqp; simp [hp, lookup_filter_self]
    · simp [hq, hqp, lookup_filter_ne d.nodes hqp]

end Disk
end FormWeaver
