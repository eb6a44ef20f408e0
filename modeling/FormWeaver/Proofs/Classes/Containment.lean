import FormWeaver.Classpath.Context
import FormWeaver.Proofs.Classes.Candidates
import FormWeaver.Proofs.Path.Beneath
import FormWeaver.Proofs.Path.Characters

/-!
# Where a class is looked up

An internal name has no dots, so nothing in it leads upwards: behind a directory it leads beneath it. But
a class name that begins with a dot has an internal name that begins with a slash, and so has one that
begins with a slash itself. Such a name spells an absolute path, and this is looked up instead, whatever
directory was to be searched. `looked_up_beneath` tells both apart, for the class root and for the
directories of a class path.
-/

namespace FormWeaver.Classes

open Classpath (Context IndexedLocation)

/-- Whether a class name begins with a dot, or with a slash, which is what its dots become. -/
def IsRooted (name : String) : Prop := name.toList.head? = some '.' ∨ name.toList.head? = some '/'

instance (name : String) : Decidable (IsRooted name) := inferInstanceAs (Decidable (_ ∨ _))

/-! ## Internal names -/

theorem toList_internalName (name : String) :
    (internalName name).toList = name.toList.map fun c => if c = '.' then '/' else c :=
  String.toList_ofList

theorem dot_notMem_internalName (name : String) : '.' ∉ (internalName name).toList := by
  rw [toList_internalName, List.mem_map]
  rintro ⟨c, -, hc⟩
  split at hc
  · cases hc
  · next hne => exact hne hc

/-- The internal name begins with a slash when the name begins with what stands for one. -/
theorem head?_internalName_iff {name : String} :
    (internalName name).toList.head? = some '/' ↔ IsRooted name := by
  unfold IsRooted
  rw [toList_internalName, List.head?_map]
  cases name.toList.head? with
  | none => simp
  | some c => by_cases hc : c = '.' <;> simp [hc]

/-! ## The file behind a directory -/

/-- No piece of a text without dots, set before the ending of a class file, leads in place or upwards. -/
theorem pieces_class {text : String} (h : '.' ∉ text.toList) :
    (∀ piece ∈ (Path.mk (text ++ ".class")).pieces, piece ≠ "." ∧ piece ≠ "..") ∧
      ∃ piece ∈ (Path.mk (text ++ ".class")).pieces, piece ≠ "" := by
  obtain ⟨before, last, htext, hclass⟩ :=
    Path.exists_pieces_append (by decide : '/' ∉ ".class".toList) text
  have hend : ∀ piece : String, last ++ ".class" = piece → ".class".toList <:+ piece.toList := by
    rintro piece rfl
    rw [String.toList_append]
    exact List.suffix_append _ _
  rw [hclass]
  -- All pieces but the last one are pieces of the text; the last one has the ending behind it.
  constructor
  · intro piece hpiece
    rcases List.mem_append.mp hpiece with hpiece | hpiece
    · have hnodot : '.' ∉ piece.toList := by
        intro hdot
        have hmem : piece ∈ (Path.mk text).pieces := htext ▸ List.mem_append_left _ hpiece
        exact h ((Path.mem_text_iff (by decide)).mpr ⟨piece, hmem, hdot⟩)
      constructor <;> (rintro rfl; exact hnodot (by decide))
    · obtain rfl := List.mem_singleton.mp hpiece
      exact ⟨fun he => absurd (hend _ he) (by decide), fun he => absurd (hend _ he) (by decide)⟩
  · exact ⟨last ++ ".class", by simp, fun he => absurd (hend _ he) (by decide)⟩

theorem isAbsolute_class (text : String) :
    (Path.mk (text ++ ".class")).isAbsolute = true ↔ text.toList.head? = some '/' := by
  unfold Path.isAbsolute
  rw [beq_iff_eq, String.toList_append]
  cases text.toList with
  | nil => simp
  | cons c cs => simp

theorem liesBeneath_classFile {text : String} (h : '.' ∉ text.toList)
    (hrel : text.toList.head? ≠ some '/') (root : Path) : (classFile root text).LiesBeneath root := by
  have habs : (Path.mk (text ++ ".class")).isAbsolute = false :=
    Bool.eq_false_iff.mpr (mt (isAbsolute_class text).mp hrel)
  obtain ⟨hpieces, piece, hpiece, hne⟩ := pieces_class h
  refine (Path.liesBeneath_join_iff habs fun _ hdot => (hpieces _ (List.mem_of_head? hdot)).1 rfl).mpr ?_
  exact ⟨fun hup => (hpieces _ hup).2 rfl, piece, hpiece, hne, (hpieces piece hpiece).1⟩

/-- What begins with a slash is looked up as it is. -/
theorem classFile_of_slash {text : String} (h : text.toList.head? = some '/') (root : Path) :
    classFile root text = ⟨text ++ ".class"⟩ :=
  if_pos ((isAbsolute_class text).mpr h)

/-- What a name denotes lies beneath the class root, unless a candidate spells it from the root of the disk. -/
theorem liesBeneath_or_spelled_of_fileOf? {d : Disk} {root file : Path} {name : String}
    (h : fileOf? d root name = some file) : file.LiesBeneath root ∨
      ∃ candidate ∈ candidates ((internalName name).toList.count '/') (internalName name),
        candidate.toList.head? = some '/' ∧ file = ⟨candidate ++ ".class"⟩ := by
  obtain ⟨candidate, hcandidate, -, rfl⟩ := exists_candidate_of_fileOf? h
  have hdots := dot_notMem_candidates (dot_notMem_internalName name) _ _ hcandidate
  by_cases hslash : candidate.toList.head? = some '/'
  · exact .inr ⟨candidate, hcandidate, hslash, classFile_of_slash hslash root⟩
  · exact .inl (liesBeneath_classFile hdots hslash root)

/-- A directory of the class path is asked for the class file that the name spells behind it. -/
theorem read?_of_isDirectory {l : IndexedLocation} (hl : l.location.isDirectory = true) (d : Disk)
    (name : String) : l.read? d (internalName name ++ ".class") =
      if d.isFile (classFile l.location.path (internalName name)) = true
      then (d.contents (classFile l.location.path (internalName name))).toOption else none := by
  have hup : ((internalName name ++ ".class").toList.splitOn '/').contains ['.', '.'] = false := by
    rw [Bool.eq_false_iff, Ne, ← Path.up_mem_pieces_iff]
    intro hpiece
    exact ((pieces_class (dot_notMem_internalName name)).1 _ hpiece).2 rfl
  unfold IndexedLocation.read? Classpath.readBeneath?
  rw [if_pos hl, hup, if_neg Bool.false_ne_true]
  rfl

theorem cases_of_findClass? {c : Context} {d : Disk} {name : String} {bytes : ByteArray}
    (h : c.findClass? d name = some bytes) :
    c.inPlatform? d (internalName name ++ ".class") = some bytes ∨
      ∃ l ∈ c.indexed, l.read? d (internalName name ++ ".class") = some bytes := by
  dsimp only [Context.findClass?] at h
  split at h
  · next found hfound =>
    rw [← h]
    exact .inl hfound
  · exact .inr (List.exists_of_findSome?_eq_some h)

/-- **Where a class is looked up.** A class is found in the platform or in a location of the class path,
and in a directory among these it is the file that its internal name spells behind it. For a name that
begins with neither a dot nor a slash this file lies beneath the directory, and the class file that the
name denotes lies beneath the class root. For any other name it is one and the same file for all
directories, the one that the internal name spells from the root of the disk: when it is there, it is
what the name denotes, whatever the class root; and what the name denotes at all lies beneath the class
root or is spelled by a candidate from the root of the disk. -/
theorem looked_up_beneath (d : Disk) (name : String) :
    (∀ (c : Context) bytes, c.findClass? d name = some bytes →
      c.inPlatform? d (internalName name ++ ".class") = some bytes ∨
        ∃ l ∈ c.indexed, l.read? d (internalName name ++ ".class") = some bytes) ∧
      (∀ l : IndexedLocation, l.location.isDirectory = true →
        l.read? d (internalName name ++ ".class") =
          if d.isFile (classFile l.location.path (internalName name)) = true
          then (d.contents (classFile l.location.path (internalName name))).toOption else none) ∧
      (¬ IsRooted name →
        (∀ directory, (classFile directory (internalName name)).LiesBeneath directory) ∧
          ∀ root file, fileOf? d root name = some file → file.LiesBeneath root) ∧
      (IsRooted name →
        (∀ directory, classFile directory (internalName name) = ⟨internalName name ++ ".class"⟩) ∧
          (d.isFile ⟨internalName name ++ ".class"⟩ = true →
            ∀ root, fileOf? d root name = some ⟨internalName name ++ ".class"⟩) ∧
          ∀ root file, fileOf? d root name = some file → file.LiesBeneath root ∨
            ∃ candidate ∈ candidates ((internalName name).toList.count '/') (internalName name),
              candidate.toList.head? = some '/' ∧ file = ⟨candidate ++ ".class"⟩) := by
  refine ⟨fun c bytes => cases_of_findClass?, fun l hl => read?_of_isDirectory hl d name, ?_, ?_⟩
  · intro hrel
    have hhead : (internalName name).toList.head? ≠ some '/' := mt head?_internalName_iff.mp hrel
    refine ⟨liesBeneath_classFile (dot_notMem_internalName name) hhead, ?_⟩
    intro root file hfile
    rcases liesBeneath_or_spelled_of_fileOf? hfile with hbeneath | ⟨candidate, hcandidate, hslash, -⟩
    · exact hbeneath
    · exact absurd hslash (head?_ne_slash_of_candidates hhead _ _ hcandidate)
  · intro hrooted
    have hspelled := classFile_of_slash (head?_internalName_iff.mpr hrooted)
    refine ⟨hspelled, ?_, fun root file => liesBeneath_or_spelled_of_fileOf?⟩
    intro hfile root
    have hfound : fileOf? d root name = some (classFile root (internalName name)) :=
      fileOf?_of_isFile (by rw [hspelled root, hfile])
    rw [hfound, hspelled root]

namespace Sample

/-- A disk with a class root, a nested class in it, and a class elsewhere. -/
def elsewhere : Disk :=
  ⟨[(["o"], .directory), (["o", "a"], .directory), (["o", "a", "B$C.class"], .file "inside".toUTF8 5),
    (["x"], .directory), (["x", "C.class"], .file "outside".toUTF8 5)], .present [], 10⟩

/-- A class path of the class root alone. -/
def classRoot : IndexedLocation := ⟨⟨"file:///o/", ⟨"/o/"⟩, true⟩, none⟩

/-- A nested class is found beneath the class root. A name that begins with a dot is found elsewhere, by
the class root and by the class path. -/
theorem looked_up_beneath_elsewhere :
    (Path.mk "/o/a/B$C.class").LiesBeneath ⟨"/o"⟩ ∧
      fileOf? elsewhere ⟨"/o"⟩ ".x.C" = some ⟨"/x/C.class"⟩ ∧
      classRoot.read? elsewhere "/x/C.class" = some "outside".toUTF8 := by
  obtain ⟨-, -, hbeneath, -⟩ := looked_up_beneath elsewhere "a.B.C"
  obtain ⟨-, hread, -, hrooted⟩ := looked_up_beneath elsewhere ".x.C"
  have hentry : internalName ".x.C" ++ ".class" = "/x/C.class" := by decide
  obtain ⟨hspelled, hfound, -⟩ := hrooted (by decide)
  rw [hentry] at hread hspelled hfound
  refine ⟨(hbeneath (by decide)).2 ⟨"/o"⟩ ⟨"/o/a/B$C.class"⟩ (by decide),
    hfound (by decide) ⟨"/o"⟩, ?_⟩
  have hcontents : elsewhere.contents ⟨"/x/C.class"⟩ = .ok "outside".toUTF8 := rfl
  rw [hread classRoot rfl, hspelled, if_pos (by decide), hcontents]
  rfl

/-- Not all that is looked up lies beneath the class root, or beneath the directory of the class path that
has it. -/
theorem not_forall_liesBeneath :
    (¬ ∀ (d : Disk) (root : Path) (name : String) (file : Path), root.isAbsolute = true →
        fileOf? d root name = some file → file.LiesBeneath root) ∧
      ¬ ∀ (d : Disk) (l : IndexedLocation) (name : String) (bytes : ByteArray),
        l.location.isDirectory = true → Context.findClass? ⟨[l], none⟩ d name = some bytes →
        (classFile l.location.path (internalName name)).LiesBeneath l.location.path := by
  constructor
  · intro hall
    have hfile : fileOf? elsewhere ⟨"/o"⟩ ".x.C" = some ⟨"/x/C.class"⟩ := by decide
    exact absurd (hall _ _ _ _ (by decide) hfile).isBeneath (by decide)
  · intro hall
    have hfound : Context.findClass? ⟨[classRoot], none⟩ elsewhere ".x.C" = some "outside".toUTF8 := rfl
    exact absurd (hall _ _ _ _ rfl hfound).isBeneath (by decide)

end Sample

end FormWeaver.Classes
