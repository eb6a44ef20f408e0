import FormWeaver.Proofs.Nested.KnownFiles

/-!
# The first match

Files that are different paths are sorted strictly, also when their texts are the same: `A.form` and
`a.form` are told apart by their paths. So the known files are in one order, in whichever order they have
been found, and for each name that one of them ends with there is one file that comes first.
`resolve_new` tells what a new resolver answers in terms of it.
-/

namespace FormWeaver.Nested

/-! ## Before and after -/

namespace KnownFile

/-- Whether a known file comes before another: its text does, or the texts are the same and its path
does. -/
def Precedes (a b : KnownFile) : Prop := a.key < b.key ∨ a.key = b.key ∧ a.file.lt b.file = true

/-- Texts are ordered by the code points of their characters. -/
theorem map_toNat_lt_iff (s t : List Char) : s.map Char.toNat < t.map Char.toNat ↔ s < t := by
  induction s generalizing t with
  | nil =>
    cases t with
    | nil => simp
    | cons c t => simp
  | cons a s ih =>
    cases t with
    | nil => simp
    | cons c t =>
      rw [List.map_cons, List.map_cons, List.cons_lt_cons_iff, List.cons_lt_cons_iff, ih, Char.toNat_inj]
      exact Iff.rfl

theorem sortKey_lt_iff {a b : KnownFile} : a.sortKey < b.sortKey ↔ a.Precedes b := by
  have hkey : a.key.toList.map Char.toNat = b.key.toList.map Char.toNat ↔ a.key = b.key := by
    rw [List.map_inj_right fun _ _ h => Char.toNat_inj.mp h, String.toList_inj]
  unfold sortKey Precedes
  rw [List.cons_lt_cons_iff, map_toNat_lt_iff, ← String.lt_iff, hkey, Path.lt_iff]

instance (a b : KnownFile) : Decidable (a.Precedes b) := decidable_of_iff _ sortKey_lt_iff

theorem le_iff_not_precedes {a b : KnownFile} : a.le b = true ↔ ¬ b.Precedes a := by
  rw [le_iff, ← sortKey_lt_iff, not_lt]

theorem components_eq_of_sortKey {a b : KnownFile} (h : a.sortKey = b.sortKey) :
    a.file.components = b.file.components := by
  have hsame := Path.key_eq_iff.mp (List.cons.inj h).2
  unfold Path.same at hsame
  exact eq_of_beq hsame

end KnownFile

/-- Of two of the files that are different paths, neither of which comes before the other, there is one
only. -/
theorem eq_of_le_of_le {d : Disk} {files : List Path}
    (hfiles : files.Pairwise fun p q => p.components ≠ q.components) {p q : Path} (hp : p ∈ files)
    (hq : q ∈ files) (hpq : (KnownFile.of d p).le (KnownFile.of d q) = true)
    (hqp : (KnownFile.of d q).le (KnownFile.of d p) = true) : p = q := by
  have hkey := le_antisymm (KnownFile.le_iff.mp hpq) (KnownFile.le_iff.mp hqp)
  have hcomponents : p.components = q.components := KnownFile.components_eq_of_sortKey hkey
  by_contra hne
  have hsymm : Std.Symm fun p q : Path => p.components ≠ q.components := ⟨fun _ _ => Ne.symm⟩
  exact List.Pairwise.forall hfiles hp hq hne hcomponents

/-! ## The first file that matches -/

/-- Whether the normalised absolute path of a file ends with the normalised name. -/
def Matches (d : Disk) (file : Path) (name : String) : Prop :=
  (normalize name).toList <:+ (KnownFile.of d file).key.toList

instance (d : Disk) (file : Path) (name : String) : Decidable (Matches d file name) :=
  inferInstanceAs (Decidable (_ <:+ _))

/-- Whether a file is the first of those that end with the name. -/
structure IsFirstMatch (d : Disk) (files : List Path) (name : String) (file : Path) : Prop where
  mem : file ∈ files
  ends : Matches d file name
  precedes : ∀ other ∈ files, Matches d other name →
    other = file ∨ (KnownFile.of d file).Precedes (KnownFile.of d other)

namespace Resolver

variable {d₀ d : Disk} {files files' : List Path} {context : Classpath.Context} {root : Path}
  {name : String} {file : Path}

/-- A new resolver does not depend on the order in which the files have been found. -/
theorem new_perm (hfiles : files.Pairwise fun p q => p.components ≠ q.components)
    (hperm : files'.Perm files) : new d₀ files' context root = new d₀ files context root := by
  have hsorted := known_new_perm d₀ files context root
  have hsorted' := (known_new_perm d₀ files' context root).trans (hperm.map _)
  have hknown : (new d₀ files' context root).known = (new d₀ files context root).known := by
    refine List.Perm.eq_of_pairwise ?_ (KnownFile.pairwise_mergeSort _)
      (KnownFile.pairwise_mergeSort _) (hsorted'.trans hsorted.symm)
    intro a b ha hb hab hba
    -- The order is one on known files; that ties are equal holds for those of different paths only.
    obtain ⟨p, hp, rfl⟩ := List.mem_map.mp (hsorted'.mem_iff.mp ha)
    obtain ⟨q, hq, rfl⟩ := List.mem_map.mp (hsorted.mem_iff.mp hb)
    rw [eq_of_le_of_le hfiles hp hq hab hba]
  exact congrArg (fun known => Resolver.mk known context root []) hknown

/-- No known file is that of a name when none ends with it. -/
theorem knownFile?_eq_none_iff : (new d₀ files context root).knownFile? name = none ↔
    ∀ file ∈ files, ¬ Matches d₀ file name := by
  have hperm := known_new_perm d₀ files context root
  unfold knownFile?
  rw [Option.map_eq_none_iff, List.find?_eq_none]
  constructor
  · intro h file hfile hends
    refine h _ (hperm.mem_iff.mpr (List.mem_map_of_mem hfile)) ?_
    exact KnownFile.isMatchOf_iff.mpr (suffix_iff_endsWith.mp hends)
  · intro h k hk hmatch
    obtain ⟨file, hfile, rfl⟩ := List.mem_map.mp (hperm.mem_iff.mp hk)
    exact h file hfile (suffix_iff_endsWith.mpr (KnownFile.isMatchOf_iff.mp hmatch))

/-- The known file of a name is the first match. -/
theorem isFirstMatch_of_knownFile? (hfiles : files.Pairwise fun p q => p.components ≠ q.components)
    (h : (new d₀ files context root).knownFile? name = some file) :
    IsFirstMatch d₀ files name file := by
  obtain ⟨hmem, hends, hleast⟩ := least_of_knownFile? h
  refine ⟨hmem, suffix_iff_endsWith.mpr hends, ?_⟩
  intro other hother hmatch
  have hle := hleast other hother (suffix_iff_endsWith.mp hmatch)
  by_cases hback : (KnownFile.of d₀ other).le (KnownFile.of d₀ file) = true
  · exact .inl (eq_of_le_of_le hfiles hother hmem hback hle)
  · exact .inr (not_not.mp (mt KnownFile.le_iff_not_precedes.mpr hback))

end Resolver

/-- Two first matches are the same. -/
theorem IsFirstMatch.unique {d : Disk} {files : List Path} {name : String} {file other : Path}
    (h : IsFirstMatch d files name file) (h' : IsFirstMatch d files name other) : other = file := by
  rcases h.precedes other h'.mem h'.ends with heq | hbefore
  · exact heq
  · rcases h'.precedes file h.mem h.ends with heq | hafter
    · exact heq.symm
    · exact absurd (KnownFile.sortKey_lt_iff.mpr hafter)
        (lt_asymm (KnownFile.sortKey_lt_iff.mpr hbefore))

namespace Resolver

variable {d₀ d : Disk} {files : List Path} {context : Classpath.Context} {root : Path} {name : String}
  {file : Path}

theorem existsUnique_isFirstMatch (hfiles : files.Pairwise fun p q => p.components ≠ q.components)
    (h : ∃ file ∈ files, Matches d₀ file name) : ∃! file, IsFirstMatch d₀ files name file := by
  obtain ⟨file, hfile, hends⟩ := h
  cases hknown : (new d₀ files ⟨[], none⟩ ⟨""⟩).knownFile? name with
  | none => exact absurd hends (knownFile?_eq_none_iff.mp hknown file hfile)
  | some first =>
    have hfirst := isFirstMatch_of_knownFile? hfiles hknown
    exact ⟨first, hfirst, fun other hother => hfirst.unique hother⟩

theorem knownFile?_of_isFirstMatch (hfiles : files.Pairwise fun p q => p.components ≠ q.components)
    (h : IsFirstMatch d₀ files name file) :
    (new d₀ files context root).knownFile? name = some file := by
  cases hknown : (new d₀ files context root).knownFile? name with
  | none => exact absurd h.ends (knownFile?_eq_none_iff.mp hknown file h.mem)
  | some first => rw [h.unique (isFirstMatch_of_knownFile? hfiles hknown)]

theorem asResolved_ne_notFound (answer : Except DescriptorError Form) (n : String) :
    asResolved answer ≠ .error (.notFound n) := by
  cases answer <;> simp [asResolved]

theorem search_of_knownFile? {r : Resolver} (h : r.knownFile? name = some file) :
    r.search d name = asResolved (Form.parseFile d file) := by
  unfold search
  rw [h]

theorem search_of_no_knownFile? {r : Resolver} (h : r.knownFile? name = none) :
    r.search d name = match r.context.findResource? d name with
      | none => .error (.notFound name)
      | some bytes => asResolved (Form.parse bytes (.resource name)) := by
  unfold search
  split
  · next file hfile =>
    rw [h] at hfile
    cases hfile
  · rfl

theorem search_eq_notFound_iff {r : Resolver} {n : String} :
    r.search d name = .error (.notFound n) ↔
      n = name ∧ r.knownFile? name = none ∧ r.context.findResource? d name = none := by
  cases hknown : r.knownFile? name with
  | some file =>
    rw [search_of_knownFile? hknown]
    simp [asResolved_ne_notFound]
  | none =>
    rw [search_of_no_knownFile? hknown]
    cases r.context.findResource? d name with
    | some bytes => simp [asResolved_ne_notFound]
    | none => simp [eq_comm]

end Resolver

/-- **Which known file a reference picks.** Take known files that are different paths. A resolver of them
is the same in whatever order they are given. If some end with the name, one of them is the first, by its
normalised absolute path and then by its path, and a new resolver answers with what it reads there, be it
a form or an error, whatever its class path holds. Only if none does the class path come in: a resource of
the name is read, and if there is none either, and in no other case, nothing is found. -/
theorem resolve_new {files : List Path}
    (hfiles : files.Pairwise fun p q => p.components ≠ q.components) (d₀ d : Disk)
    (context : Classpath.Context) (root : Path) (name : String) :
    (∀ files' : List Path, files'.Perm files →
      Resolver.new d₀ files' context root = Resolver.new d₀ files context root) ∧
      ((∃ file ∈ files, Matches d₀ file name) → ∃! file, IsFirstMatch d₀ files name file) ∧
      (∀ file, IsFirstMatch d₀ files name file →
        ((Resolver.new d₀ files context root).resolve d name).1 =
          Resolver.asResolved (Form.parseFile d file)) ∧
      ((∀ file ∈ files, ¬ Matches d₀ file name) →
        ((Resolver.new d₀ files context root).resolve d name).1 =
          match context.findResource? d name with
          | none => .error (.notFound name)
          | some bytes => Resolver.asResolved (Form.parse bytes (.resource name))) ∧
      ∀ n, ((Resolver.new d₀ files context root).resolve d name).1 = .error (.notFound n) ↔
        n = name ∧ (∀ file ∈ files, ¬ Matches d₀ file name) ∧ context.findResource? d name = none := by
  have hlookup : ((Resolver.new d₀ files context root).resolve d name).1 =
      (Resolver.new d₀ files context root).search d name := Resolver.fst_resolve _ d name
  refine ⟨fun _ => Resolver.new_perm hfiles, Resolver.existsUnique_isFirstMatch hfiles, ?_, ?_, ?_⟩
  · intro file hfirst
    rw [hlookup, Resolver.search_of_knownFile? (Resolver.knownFile?_of_isFirstMatch hfiles hfirst)]
  · intro hnone
    rw [hlookup, Resolver.search_of_no_knownFile? (Resolver.knownFile?_eq_none_iff.mpr hnone)]
    rfl
  · intro n
    rw [hlookup, Resolver.search_eq_notFound_iff, Resolver.knownFile?_eq_none_iff]
    rfl

namespace Sample

open Form.Sample (sharing parseFile_sharing)

/-- A disk with two forms whose names differ in letter case only. -/
def letters : Disk :=
  ⟨[(["s"], .directory), (["s", "a.form"], .file sharing.text.toUTF8 5),
    (["s", "A.form"], .file sharing.text.toUTF8 5)], .present [], 10⟩

/-- Known files in an order that is not theirs, one of which has gone. -/
def unordered : List Path := [⟨"/t/b.form"⟩, ⟨"/s/a.form"⟩, ⟨"/s/A.form"⟩]

theorem isFirstMatch_letters : IsFirstMatch letters unordered "\\a.FORM" ⟨"/s/A.form"⟩ ∧
    IsFirstMatch letters unordered "b.form" ⟨"/t/b.form"⟩ :=
  ⟨⟨by decide, by decide, by decide⟩, by decide, by decide, by decide⟩

/-- The texts of two files are the same, and the first one by its path is read; what cannot be read is an
error, and what no file ends with is not found. -/
theorem resolve_new_letters :
    (∀ files', files'.Perm unordered →
      ((Resolver.new letters files' ⟨[], none⟩ ⟨"/o"⟩).resolve letters "\\a.FORM").1 =
        .ok ⟨some "C", ["z.form"], .file ⟨"/s/A.form"⟩⟩) ∧
      ((Resolver.new letters unordered ⟨[], none⟩ ⟨"/o"⟩).resolve letters "b.form").1 =
        .error (.descriptor (.unreadable ⟨"/t/b.form"⟩ .notFound)) ∧
      ((Resolver.new letters unordered ⟨[], none⟩ ⟨"/o"⟩).resolve letters "c.form").1 =
        .error (.notFound "c.form") := by
  have hdistinct : unordered.Pairwise fun p q => p.components ≠ q.components := by decide
  refine ⟨?_, ?_, ?_⟩
  · intro files' hperm
    obtain ⟨hsame, -, hfirst, -, -⟩ :=
      resolve_new hdistinct letters letters ⟨[], none⟩ ⟨"/o"⟩ "\\a.FORM"
    have hcontents : letters.contents ⟨"/s/A.form"⟩ = .ok sharing.text.toUTF8 := rfl
    rw [hsame files' hperm, hfirst _ isFirstMatch_letters.1, parseFile_sharing hcontents]
    rfl
  · obtain ⟨-, -, hanswer, -⟩ := resolve_new hdistinct letters letters ⟨[], none⟩ ⟨"/o"⟩ "b.form"
    have hcontents : letters.contents ⟨"/t/b.form"⟩ = .error .notFound := rfl
    rw [hanswer _ isFirstMatch_letters.2, Form.parseFile, hcontents]
    rfl
  · obtain ⟨-, -, -, -, hnot⟩ := resolve_new hdistinct letters letters ⟨[], none⟩ ⟨"/o"⟩ "c.form"
    exact (hnot _).mpr ⟨rfl, by decide, rfl⟩

end Sample

end FormWeaver.Nested
