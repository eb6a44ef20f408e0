import FormWeaver.Form.Discovery
import FormWeaver.Proofs.Disk.Places
import FormWeaver.Proofs.Path.Order
import Mathlib.Data.List.Pairwise
import Mathlib.Data.List.TakeDrop
import Mathlib.Data.List.TakeWhile

/-!
# No form is discovered twice

On a disk in which each place stands once, under names that a directory can hold, the descriptors that
are discovered are different paths: each is spelled from the source directory by the names that lead
to its place.
-/

namespace FormWeaver

/-- Whether each place stands once in a disk, under names that a directory can hold. -/
structure Disk.IsProper (d : Disk) : Prop where
  distinct : (d.nodes.map (·.1)).Nodup
  legal : ∀ place ∈ d.nodes.map (·.1), ∀ name ∈ place, Path.IsLegal name

/-- Every name on the way to a node is one that a directory can hold. -/
theorem Disk.IsProper.legal_of_node? {d : Disk} (hd : d.IsProper) {q : Place} {n : Node}
    (h : d.node? q = some n) : ∀ name ∈ q, Path.IsLegal name := by
  unfold Disk.node? at h
  split at h
  · next hnil => simp [hnil]
  · exact hd.legal q (List.mem_map_of_mem (Disk.mem_of_lookup h))

/-- Only a directory is at the end of a path that leads to one. -/
theorem Disk.eq_directory_of_follow? {d : Disk} {p : Path} (hroot : d.isDirectory p = true) {place : Place}
    {n : Node} (h : d.follow? p = some (place, n)) : n = .directory := by
  unfold Disk.follow? at h
  split at h
  · next q m hw =>
    obtain ⟨-, rfl⟩ := Prod.mk.inj (Option.some.inj h)
    cases m with
    | directory => rfl
    | file | link => simp [Disk.isDirectory, hw] at hroot
  · cases h

namespace Form

/-- The path of a place beneath another, spelled from the path of that one, tells the place. -/
theorem eq_of_same_foldl {root : Path} {place q r : Place} (hq : place <+: q) (hr : place <+: r)
    (hlq : ∀ name ∈ q, Path.IsLegal name) (hlr : ∀ name ∈ r, Path.IsLegal name)
    (h : ((q.drop place.length).foldl Path.child root).components =
      ((r.drop place.length).foldl Path.child root).components) : q = r := by
  rw [Path.components_foldl_child fun n hn => hlq n (List.mem_of_mem_drop hn),
    Path.components_foldl_child fun n hn => hlr n (List.mem_of_mem_drop hn)] at h
  have hdrop := (List.map_inj_right fun _ _ hab => Path.Component.name.inj hab).mp
    (List.append_cancel_left h)
  obtain ⟨tq, rfl⟩ := hq
  obtain ⟨tr, rfl⟩ := hr
  rw [List.drop_left, List.drop_left] at hdrop
  rw [hdrop]

/-- What is beneath a place is what the disk holds there. -/
theorem mem_below_iff {d : Disk} {place q : Place} {n : Node} :
    (q, n) ∈ d.below place ↔ place.length < q.length ∧ place <+: q ∧ d.node? q = some n := by
  unfold Disk.below
  simp only [List.mem_filter, Bool.and_eq_true, decide_eq_true_eq, List.isPrefixOf_iff_prefix, beq_iff_eq]
  constructor
  · rintro ⟨-, ⟨hlong, hprefix⟩, hlookup⟩
    refine ⟨hlong, hprefix, ?_⟩
    rwa [Disk.node?, if_neg (List.ne_nil_of_length_pos (by omega))]
  · rintro ⟨hlong, hprefix, hnode⟩
    rw [Disk.node?, if_neg (List.ne_nil_of_length_pos (by omega))] at hnode
    exact ⟨Disk.mem_of_lookup hnode, ⟨hlong, hprefix⟩, hnode⟩

/-- Whether the walk from a directory comes to what some names lead to: the directory is not taken for the
standard input, and the path of the last directory on the way is short enough. -/
def IsReported (root : Path) (names : List String) : Prop :=
  root.same ⟨"-"⟩ = false ∧ isReadable (names.dropLast.foldl Path.child root) = true

/-- The files beneath a directory stand beneath the place of that, and their paths are spelled by the names
between. -/
theorem mem_filesUnder_iff {d : Disk} {root p : Path} (hroot : d.isDirectory root = true) :
    p ∈ filesUnder d root ↔ ∃ place names bytes time, d.follow? root = some (place, .directory) ∧
      names ≠ [] ∧ d.node? (place ++ names) = some (.file bytes time) ∧ IsReported root names ∧
      p = names.foldl Path.child root := by
  unfold filesUnder
  split
  · next hdash => simp [IsReported, hdash]
  next hdash =>
  have hdash := Bool.eq_false_iff.mpr hdash
  split
  · next q bytes time hf => cases Disk.eq_directory_of_follow? hroot hf
  · next place hf =>
    rw [List.mem_filterMap]
    constructor
    · rintro ⟨⟨q, n⟩, hq, hp⟩
      obtain ⟨hlong, ⟨names, rfl⟩, hnode⟩ := mem_below_iff.mp hq
      cases n with
      | directory => simp at hp
      | link => simp at hp
      | file bytes time =>
        simp only [List.drop_left, Option.ite_none_right_eq_some, Option.some.injEq] at hp
        refine ⟨place, names, bytes, time, hf, ?_, hnode, ⟨hdash, hp.1⟩, hp.2.symm⟩
        rintro rfl
        simp at hlong
    · rintro ⟨place', names, bytes, time, hf', hne, hnode, ⟨-, hreadable⟩, rfl⟩
      obtain ⟨rfl, -⟩ := Prod.mk.inj (Option.some.inj (hf.symm.trans hf'))
      refine ⟨(place ++ names, .file bytes time), mem_below_iff.mpr ⟨?_, List.prefix_append _ _, hnode⟩, ?_⟩
      · rw [List.length_append]
        exact Nat.lt_add_of_pos_right (List.length_pos_iff.mpr hne)
      · simp [hreadable]
  · next hnone =>
    constructor
    · simp
    · rintro ⟨place, _, _, _, hf, -⟩
      exact absurd hf (hnone place)

/-- The extension of a name stands behind its last dot, and something stands before that. -/
theorem extensionOfName?_eq_some_iff {name e : String} : Path.extensionOfName? name = some e ↔
    '.' ∉ e.toList ∧ ∃ stem : String, stem ≠ "" ∧ name = stem ++ "." ++ e := by
  unfold Path.extensionOfName?
  rw [List.span_eq_takeWhile_dropWhile]
  constructor
  · intro h
    split at h
    · cases h
    · cases h
    next after dot c before hspan =>
    obtain rfl := Option.some.inj h
    obtain ⟨hafter, hbefore⟩ := Prod.mk.inj hspan
    have hdot : dot = '.' := by
      have hhead := List.head?_dropWhile_not (· != '.') name.toList.reverse
      rw [hbefore] at hhead
      simpa using hhead
    have hname : name.toList.reverse = after ++ dot :: c :: before := by
      rw [← hafter, ← hbefore, List.takeWhile_append_dropWhile]
    refine ⟨?_, String.ofList (c :: before).reverse, by simp, ?_⟩
    · rw [String.toList_ofList, List.mem_reverse, ← hafter]
      intro hmem
      simpa using List.mem_takeWhile_imp hmem
    · rw [← String.toList_inj, ← List.reverse_inj, hname, hdot]
      simp
  · rintro ⟨hno, stem, hstem, rfl⟩
    obtain ⟨c, before, hbefore⟩ := List.exists_cons_of_ne_nil
      (show stem.toList.reverse ≠ [] by simpa using hstem)
    have hreverse : (stem ++ "." ++ e).toList.reverse = e.toList.reverse ++ '.' :: c :: before := by
      rw [← hbefore]
      simp
    have hno' : ∀ x ∈ e.toList.reverse, (x != '.') = true := by
      intro x hx
      rw [bne_iff_ne]
      rintro rfl
      exact hno (List.mem_reverse.mp hx)
    rw [hreverse, List.takeWhile_append_of_pos hno', List.dropWhile_append_of_pos hno']
    simp

theorem extension?_foldl_child {above : List String} {name : String}
    (h : ∀ n ∈ above ++ [name], Path.IsLegal n) (root : Path) :
    ((above ++ [name]).foldl Path.child root).extension? = Path.extensionOfName? name := by
  have hlast : ((above ++ [name]).foldl Path.child root).fileName? = some name := by
    unfold Path.fileName?
    rw [Path.components_foldl_child h]
    simp
  rw [Path.extension?, hlast, Option.bind_some]

theorem mem_discover_iff {d : Disk} {root p : Path} :
    p ∈ discover d root ↔ p ∈ filesUnder d root ∧ p.extension? = some descriptorExtension := by
  unfold discover Path.sort
  rw [List.mem_mergeSort, List.mem_filter, beq_iff_eq]

/-- What is discovered is a file, spelled by names that a directory can hold, of which the last one has the
extension. -/
theorem exists_of_mem_discover {d : Disk} (hd : d.IsProper) {root p : Path}
    (hroot : d.isDirectory root = true) (h : p ∈ discover d root) :
    ∃ place names bytes time, d.follow? root = some (place, .directory) ∧
      (∀ name ∈ names, Path.IsLegal name) ∧ p = names.foldl Path.child root ∧
      d.node? (place ++ names) = some (.file bytes time) ∧ Disk.EndsWith names ".form" := by
  obtain ⟨hp, hextension⟩ := mem_discover_iff.mp h
  obtain ⟨place, names, bytes, time, hf, hne, hnode, -, rfl⟩ := (mem_filesUnder_iff hroot).mp hp
  have hlegal : ∀ name ∈ names, Path.IsLegal name := fun name hname =>
    hd.legal_of_node? hnode name (List.mem_append_right place hname)
  refine ⟨place, names, bytes, time, hf, hlegal, rfl, hnode, ?_⟩
  obtain ⟨above, name, rfl⟩ := (List.eq_nil_or_concat' names).resolve_left hne
  rw [extension?_foldl_child hlegal] at hextension
  obtain ⟨-, stem, -, hname⟩ := extensionOfName?_eq_some_iff.mp hextension
  refine ⟨above, name, rfl, ?_⟩
  rw [hname, String.append_assoc, String.toList_append]
  exact List.suffix_append _ _

theorem pairwise_filesUnder {d : Disk} (hd : d.IsProper) (root : Path) :
    (filesUnder d root).Pairwise fun p q => p.components ≠ q.components := by
  unfold filesUnder
  split
  · exact List.Pairwise.nil
  split
  · exact List.pairwise_singleton _ _
  · next place _ =>
    have hplaces : (d.below place).Pairwise fun a b => a.1 ≠ b.1 :=
      (List.pairwise_map.mp hd.distinct).filter _
    refine List.pairwise_filterMap.mpr (hplaces.imp_of_mem ?_)
    rintro ⟨q, n⟩ ⟨r, m⟩ hq hr hne f hf g hg
    obtain ⟨-, hqp, hqn⟩ := mem_below_iff.mp hq
    obtain ⟨-, hrp, hrn⟩ := mem_below_iff.mp hr
    -- Only a file is a descriptor, and its path is spelled by the names from the root to its place.
    cases n with
    | directory => simp at hf
    | link => simp at hf
    | file =>
      cases m with
      | directory => simp at hg
      | link => simp at hg
      | file =>
        simp only [Option.ite_none_right_eq_some, Option.some.injEq] at hf hg
        rw [← hf.2, ← hg.2]
        intro h
        exact hne (eq_of_same_foldl hqp hrp (hd.legal_of_node? hqn) (hd.legal_of_node? hrn) h)
  · exact List.Pairwise.nil

/-- **The forms are discovered in strict path order.** -/
theorem pairwise_lt_discover {d : Disk} (hd : d.IsProper) (root : Path) :
    (discover d root).Pairwise fun p q => p.lt q = true :=
  Path.pairwise_lt_sort ((pairwise_filesUnder hd root).filter _)

/-- **No form is discovered twice.** -/
theorem pairwise_discover {d : Disk} (hd : d.IsProper) (root : Path) :
    (discover d root).Pairwise fun p q => p.components ≠ q.components :=
  (pairwise_lt_discover hd root).imp Path.components_ne_of_lt

end Form
end FormWeaver
