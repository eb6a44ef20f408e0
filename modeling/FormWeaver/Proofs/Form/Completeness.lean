import FormWeaver.Proofs.Disk.Trees
import FormWeaver.Proofs.Form.Discovery

/-!
# All forms are discovered

On a disk that is a tree the descriptors of a source directory are the regular files beneath it whose name
has the extension, with nothing but directories on the way to them. The walk comes to all of them, unless
the directory is spelled like the standard input or the path of a directory on the way is too long. So
what is discovered is known exactly (`mem_discover_iff_isDescriptor`), and in strict path order there is
one list of it only: the order of the walk and that of the disk make no difference.
-/

namespace FormWeaver.Form

variable {d d' : Disk} {root p : Path} {place : Place} {names : List String}

/-! ## Descriptors -/

/-- Whether some names lead from a directory to a descriptor. -/
structure IsDescriptor (d : Disk) (place : Place) (names : List String) : Prop where
  /-- There are no links on the way. -/
  directories : ∀ above, above <+: names → above ≠ names → d.node? (place ++ above) = some .directory
  isFile : ∃ bytes time, d.node? (place ++ names) = some (.file bytes time)
  /-- There is something before the extension. -/
  named : ∃ above stem, names = above ++ [stem ++ ".form"] ∧ stem ≠ ""

theorem extensionOfName?_eq_descriptorExtension_iff {name : String} :
    Path.extensionOfName? name = some descriptorExtension ↔ ∃ stem, stem ≠ "" ∧ name = stem ++ ".form" := by
  have hnodot : '.' ∉ descriptorExtension.toList := by decide
  have hending : "." ++ descriptorExtension = ".form" := by decide
  simp only [extensionOfName?_eq_some_iff, hnodot, not_false_eq_true, true_and, String.append_assoc, hending]

/-- **What is discovered** are the descriptors that the walk comes to. -/
theorem mem_discover_iff_isDescriptor (hd : d.IsProper) (ht : d.IsTree) (hroot : d.isDirectory root = true) :
    p ∈ discover d root ↔ ∃ place names, d.follow? root = some (place, .directory) ∧
      IsDescriptor d place names ∧ IsReported root names ∧ p = names.foldl Path.child root := by
  rw [mem_discover_iff, mem_filesUnder_iff hroot]
  have hlegal : ∀ {place names n}, d.node? (place ++ names) = some n → ∀ name ∈ names, Path.IsLegal name :=
    fun hnode name hname => hd.legal_of_node? hnode name (List.mem_append_right _ hname)
  constructor
  · rintro ⟨⟨place, names, bytes, time, hf, hne, hnode, hreported, rfl⟩, hextension⟩
    obtain ⟨above, name, rfl⟩ := (List.eq_nil_or_concat' names).resolve_left hne
    rw [extension?_foldl_child (hlegal hnode), extensionOfName?_eq_descriptorExtension_iff] at hextension
    obtain ⟨stem, hstem, rfl⟩ := hextension
    have hsome : (d.node? (place ++ (above ++ [stem ++ ".form"]))).isSome = true := by rw [hnode]; rfl
    exact ⟨place, _, hf, ⟨fun q => ht.directory_of_above hsome, ⟨bytes, time, hnode⟩, above, stem, rfl,
      hstem⟩, hreported, rfl⟩
  · rintro ⟨place, names, hf, ⟨-, ⟨bytes, time, hnode⟩, above, stem, rfl, hstem⟩, hreported, rfl⟩
    refine ⟨⟨place, _, bytes, time, hf, by simp, hnode, hreported, rfl⟩, ?_⟩
    rw [extension?_foldl_child (hlegal hnode), extensionOfName?_eq_descriptorExtension_iff]
    exact ⟨stem, hstem, rfl⟩

/-! ## The order of the walk -/

/-- The files may be found in any order. -/
theorem sort_of_perm (hd : d.IsProper) {found : List Path} (h : found.Perm (filesUnder d root)) :
    Path.sort (found.filter fun p => p.extension? == some descriptorExtension) = discover d root := by
  have hfiles : found.Pairwise fun p q => p.components ≠ q.components :=
    h.symm.pairwise (pairwise_filesUnder hd root) fun h => h.symm
  refine Path.eq_of_pairwise_lt (Path.pairwise_lt_sort (hfiles.filter _)) (pairwise_lt_discover hd root) ?_
  intro p
  rw [Path.sort, List.mem_mergeSort, mem_discover_iff, List.mem_filter, h.mem_iff, beq_iff_eq]

/-- Disks that hold the same have the same descriptors. -/
theorem discover_congr (hd : d.IsProper) (hd' : d'.IsProper) (hroot : d.isDirectory root = true)
    (h : ∀ place, d'.node? place = d.node? place) (hw : d'.workingDirectory = d.workingDirectory) :
    discover d' root = discover d root := by
  have hroot' : d'.isDirectory root = true := by
    rw [← hroot, Disk.isDirectory, Disk.isDirectory, Disk.walk_congr h hw]
  refine Path.eq_of_pairwise_lt (pairwise_lt_discover hd' root) (pairwise_lt_discover hd root) fun p => ?_
  rw [mem_discover_iff, mem_discover_iff, mem_filesUnder_iff hroot', mem_filesUnder_iff hroot,
    Disk.follow?_congr h hw]
  simp only [h]

/-- **All forms are discovered.** On a disk that is a tree the descriptors beneath a directory are
discovered in strict path order. They are the regular files with the extension that directories lead to,
as far as the walk comes to them. Neither the order in which the walk finds them nor the order in which the
disk keeps its nodes makes a difference. -/
theorem discover_exact (hd : d.IsProper) (ht : d.IsTree) (hroot : d.isDirectory root = true) :
    (discover d root).Pairwise (fun p q => p.lt q = true) ∧
      (∀ p, p ∈ discover d root ↔ ∃ place names, d.follow? root = some (place, .directory) ∧
        IsDescriptor d place names ∧ IsReported root names ∧ p = names.foldl Path.child root) ∧
      (∀ found : List Path, found.Perm (filesUnder d root) →
        Path.sort (found.filter fun p => p.extension? == some descriptorExtension) = discover d root) ∧
      ∀ d' : Disk, d'.IsProper → (∀ place, d'.node? place = d.node? place) →
        d'.workingDirectory = d.workingDirectory → discover d' root = discover d root :=
  ⟨pairwise_lt_discover hd root, fun _ => mem_discover_iff_isDescriptor hd ht hroot,
    fun _ => sort_of_perm hd, fun _ hd' => discover_congr hd hd' hroot⟩

namespace Sample

/-- A source directory with an ignore file, a hidden directory, a directory, a link and a file without a stem
that end like descriptors, and a link to a directory elsewhere with a descriptor. -/
def garden : Disk :=
  ⟨[(["s"], .directory), (["s", ".gitignore"], .file "*.form".toUTF8 1), (["s", ".hidden"], .directory),
    (["s", ".hidden", "H.form"], .file .empty 2), (["s", "a-b.form"], .file .empty 3),
    (["s", "a"], .directory), (["s", "a", "A.form"], .file .empty 4), (["s", "x.form"], .directory),
    (["s", ".form"], .file .empty 5), (["s", "l.form"], .link "a/A.form"), (["s", "m"], .link "/o"),
    (["o"], .directory), (["o", "O.form"], .file .empty 6)], .present [], 7⟩

/-- Three descriptors are discovered, and what is in the directory `a` comes before `a-b.form`. -/
theorem discover_exact_garden : garden.IsProper ∧ garden.IsTree ∧ garden.isDirectory ⟨"s"⟩ = true ∧
    discover garden ⟨"s"⟩ = [⟨"s/.hidden/H.form"⟩, ⟨"s/a/A.form"⟩, ⟨"s/a-b.form"⟩] ∧
    ∃ place names, IsDescriptor garden place names ∧ names.foldl Path.child ⟨"s"⟩ = ⟨"s/.hidden/H.form"⟩ := by
  have hproper : garden.IsProper := ⟨by decide, by decide⟩
  have htree : garden.IsTree := Disk.isTree_of_nodes (by decide)
  have hroot : garden.isDirectory ⟨"s"⟩ = true := by decide
  obtain ⟨hsorted, hexact, -⟩ := discover_exact hproper htree hroot
  have hfiles : (filesUnder garden ⟨"s"⟩).filter (fun p => p.extension? == some descriptorExtension) =
      [⟨"s/.hidden/H.form"⟩, ⟨"s/a-b.form"⟩, ⟨"s/a/A.form"⟩] := by decide
  have hdiscovered : discover garden ⟨"s"⟩ = [⟨"s/.hidden/H.form"⟩, ⟨"s/a/A.form"⟩, ⟨"s/a-b.form"⟩] := by
    refine Path.eq_of_pairwise_lt hsorted (by decide) fun p => ?_
    rw [discover, Path.sort, List.mem_mergeSort, hfiles]
    simp only [List.mem_cons, List.not_mem_nil, or_false]
    exact or_congr_right or_comm
  obtain ⟨place, names, -, hdescriptor, -, hspelled⟩ :=
    (hexact ⟨"s/.hidden/H.form"⟩).mp (by simp [hdiscovered])
  exact ⟨hproper, htree, hroot, hdiscovered, place, names, hdescriptor, hspelled.symm⟩

end Sample

end FormWeaver.Form
