import FormWeaver.Path.Basic

/-!
# The order of paths

Paths are ordered by their components: the root before `.`, that before `..`, that before any
name, and names by their code points. This is not the order of the spellings (`a/b` comes before
`a-c`, although `-` comes before `/`). The order is lexicographic on a key that two paths share
exactly when they are the same.
-/

namespace FormWeaver.Path

/-- The rank of a component's kind, then the code points of its name. -/
def Component.key : Component → List Nat
  | .root => [0]
  | .current => [1]
  | .parent => [2]
  | .name n => 3 :: n.toList.map Char.toNat

/-- The keys of the components, to be compared lexicographically. -/
def key (p : Path) : List (List Nat) := p.components.map Component.key

/-- Whether `p` comes before `q`. -/
def lt (p q : Path) : Bool := decide (p.key < q.key)

/-- Whether `p` comes before `q` or is the same path. -/
def le (p q : Path) : Bool := !q.lt p

/-- The paths in increasing order. -/
def sort (ps : List Path) : List Path := ps.mergeSort le

theorem Component.key_injective {a b : Component} (h : a.key = b.key) : a = b := by
  cases a <;> cases b <;> simp_all [Component.key]
  next m n =>
    have hinj : Function.Injective Char.toNat := fun x y hxy => Char.toNat_inj.mp hxy
    have := (List.map_inj_right fun x y hxy => hinj hxy).mp h
    exact String.toList_inj.mp this

/-- Paths share a key exactly when they are the same. -/
theorem key_eq_iff {p q : Path} : p.key = q.key ↔ p.same q = true := by
  unfold key same
  rw [beq_iff_eq]
  exact List.map_inj_right fun _ _ h => Component.key_injective h

end FormWeaver.Path
