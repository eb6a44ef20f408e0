import FormWeaver.Disk.Files
import Mathlib.Data.List.Induction

/-!
# Disks that are trees

On a disk that is a tree whatever has a name has it in a directory, so nothing stands beneath a file or a
link. Where a path leads depends on what the places hold and on the working directory only, not on the
order in which the disk keeps its nodes (`walk_congr`).
-/

namespace FormWeaver.Disk

variable {d d' : Disk} {follow : Bool} {place : Place} {names above : List String}

/-! ## Trees -/

/-- Whether all that has a name has it in a directory. -/
def IsTree (d : Disk) : Prop :=
  ∀ place name, (d.node? (place ++ [name])).isSome = true → d.node? place = some .directory

/-- The nodes tell whether a disk is a tree. -/
theorem isTree_of_nodes
    (h : ∀ q ∈ d.nodes.map (·.1), q = [] ∨ d.node? q.dropLast = some .directory) : d.IsTree := by
  intro place name hsome
  obtain ⟨n, hn⟩ := Option.isSome_iff_exists.mp hsome
  unfold node? at hn
  rw [if_neg (by simp)] at hn
  obtain ⟨before, after, hnodes, -⟩ := List.lookup_eq_some_iff.mp hn
  have hmem : place ++ [name] ∈ d.nodes.map (·.1) :=
    List.mem_map.mpr ⟨(place ++ [name], n), hnodes ▸ by simp, rfl⟩
  rcases h _ hmem with hnil | hparent
  · simp at hnil
  · rwa [List.dropLast_concat] at hparent

/-- What leads to a node of a tree are directories. -/
theorem IsTree.directory_of_above (h : d.IsTree) (hnode : (d.node? (place ++ names)).isSome = true)
    (habove : above <+: names) (hne : above ≠ names) : d.node? (place ++ above) = some .directory := by
  induction names using List.reverseRecOn with
  | nil => exact absurd (List.prefix_nil.mp habove) hne
  | append_singleton names name ih =>
    rw [← List.append_assoc] at hnode
    have hparent := h _ _ hnode
    rcases List.prefix_concat_iff.mp habove with rfl | habove
    · exact absurd rfl hne
    · by_cases he : above = names
      · rw [he]
        exact hparent
      · exact ih (by rw [hparent]; rfl) habove he

/-! ## What a walk depends on -/

section SameNodes

variable (h : ∀ place, d'.node? place = d.node? place)
include h

theorem walkPieces_congr (onLink : Place → List String → Except SystemError Found) (ps : List String) :
    ∀ here, walkPieces d' follow onLink here ps = walkPieces d follow onLink here ps := by
  induction ps with
  | nil => intro here; rfl
  | cons piece rest ih => intro here; simp only [walkPieces, h, ih]

theorem walkFrom_congr (links : Nat) : walkFrom d' follow links = walkFrom d follow links := by
  induction links with
  | zero => funext here ps; exact walkPieces_congr h _ ps here
  | succ links ih => funext here ps; simp only [walkFrom, ih, walkPieces_congr h]

theorem walk_congr (hw : d'.workingDirectory = d.workingDirectory) (p : Path) :
    d'.walk follow p = d.walk follow p := by
  have hremoved : ∀ (parent : Place) (ps : List String),
      walkRemoved d' follow parent ps = walkRemoved d follow parent ps := by
    intro parent ps
    induction ps with
    | nil => rfl
    | cons piece rest ih => simp only [walkRemoved, ih, walkFrom_congr h]
  simp only [walk, hw, walkFrom_congr h, hremoved]

theorem follow?_congr (hw : d'.workingDirectory = d.workingDirectory) (p : Path) :
    d'.follow? p = d.follow? p := by
  unfold follow?
  rw [walk_congr h hw]

end SameNodes

end FormWeaver.Disk
