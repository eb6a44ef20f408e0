import FormWeaver.Proofs.Form.Extraction
import FormWeaver.Proofs.Nested.Remembered
import FormWeaver.Proofs.Path.Order

/-!
# Which known file a reference is resolved to

A reference is compared with a path as a text: the path ends with the name, in lower case and with
slashes for backslashes. Piece by piece that is more than it seems and less than one might wish. Behind
the first slash of the name its pieces are the last ones of the path (`isMatchOf_iff_endsWith`), but what
stands before that slash need only end the piece before them, so `Header.form` is found in
`BigHeader.form`. Of all known files that end with the name the first one is taken, in the order of their
normalised absolute paths, and it stays the answer when it is remembered.
-/

namespace FormWeaver.Nested

/-! ## Pieces -/

/-- The pieces of a text between its slashes. -/
def pieces (cs : List Char) : List (List Char) := cs.splitOn '/'

/-- Whether a path ends with a name, piece by piece: what stands behind the first slash of the name are
the last pieces of the path, and what stands before it ends the piece before them. -/
def EndsWith (path name : List Char) : Prop :=
  ∃ before lead first rest, pieces name = first :: rest ∧ pieces path = before ++ (lead ++ first) :: rest

theorem pieces_cons_slash (cs : List Char) : pieces ('/' :: cs) = [] :: pieces cs := by
  unfold pieces
  rw [List.splitOn_cons_eq_if_modifyHead, if_pos (beq_self_eq_true '/')]

theorem pieces_cons {c : Char} (h : c ≠ '/') {cs first : List Char} {rest : List (List Char)}
    (hcs : pieces cs = first :: rest) : pieces (c :: cs) = (c :: first) :: rest := by
  unfold pieces at hcs ⊢
  rw [List.splitOn_cons_eq_if_modifyHead, if_neg (by simpa using h), hcs, List.modifyHead_cons]

theorem endsWith_append (front name : List Char) : EndsWith (front ++ name) name := by
  induction front with
  | nil =>
    obtain ⟨first, rest, hname⟩ := List.exists_cons_of_ne_nil (List.splitOn_ne_nil '/' name)
    exact ⟨[], [], first, rest, hname, hname⟩
  | cons c front ih =>
    obtain ⟨before, lead, first, rest, hname, hpath⟩ := ih
    by_cases hc : c = '/'
    · subst hc
      exact ⟨[] :: before, lead, first, rest, hname, by
        rw [List.cons_append, pieces_cons_slash, hpath, List.cons_append]⟩
    · -- The character goes to the first piece of the path, which may be the one that the name ends.
      cases before with
      | nil => exact ⟨[], c :: lead, first, rest, hname, pieces_cons hc hpath⟩
      | cons piece before => exact ⟨(c :: piece) :: before, lead, first, rest, hname, pieces_cons hc hpath⟩

theorem intercalate_pieces (cs : List Char) : ['/'].intercalate (pieces cs) = cs :=
  List.intercalate_splitOn '/'

theorem intercalate_suffix (before : List (List Char)) (lead first : List Char)
    (rest : List (List Char)) :
    ['/'].intercalate (first :: rest) <:+ ['/'].intercalate (before ++ (lead ++ first) :: rest) := by
  induction before with
  | nil =>
    refine ⟨lead, ?_⟩
    cases rest with
    | nil => simp [List.intercalate]
    | cons piece rest => simp [List.intercalate_cons_cons]
  | cons piece before ih =>
    obtain ⟨next, tail, htail⟩ := List.exists_cons_of_ne_nil
      (List.append_ne_nil_of_right_ne_nil before (List.cons_ne_nil (lead ++ first) rest))
    rw [htail] at ih
    rw [List.cons_append, htail, List.intercalate_cons_cons]
    exact ih.trans (List.suffix_append _ _)

/-- **A path ends with a name as a text exactly when it does so piece by piece.** -/
theorem suffix_iff_endsWith {path name : List Char} : name <:+ path ↔ EndsWith path name := by
  constructor
  · rintro ⟨front, rfl⟩
    exact endsWith_append front name
  · rintro ⟨before, lead, first, rest, hname, hpath⟩
    rw [← intercalate_pieces name, ← intercalate_pieces path, hname, hpath]
    exact intercalate_suffix before lead first rest

/-- Every character but the slashes is in a piece. -/
theorem exists_piece_of_mem {cs : List Char} {c : Char} (hc : c ≠ '/') (h : c ∈ cs) :
    ∃ piece ∈ pieces cs, c ∈ piece := by
  rw [← intercalate_pieces cs] at h
  exact (Text.mem_intercalate_iff (by simpa using hc)).mp h

/-- A text that ends with no slash has a component, that is a piece with a character. -/
theorem exists_component {cs : List Char} (h : cs ≠ []) (hlast : cs.getLast? ≠ some '/') :
    ∃ piece ∈ pieces cs, piece ≠ [] := by
  obtain ⟨c, hc⟩ : ∃ c, cs.getLast? = some c := ⟨_, List.getLast?_eq_some_getLast h⟩
  have hslash : c ≠ '/' := by
    rintro rfl
    exact hlast hc
  obtain ⟨piece, hpiece, hmem⟩ := exists_piece_of_mem hslash (List.mem_of_getLast? hc)
  exact ⟨piece, hpiece, List.ne_nil_of_mem hmem⟩

/-! ## The order of known files -/

namespace KnownFile

/-- What known files are compared by. -/
def sortKey (k : KnownFile) : List (List Nat) := k.key.toList.map Char.toNat :: k.file.key

theorem le_iff {a b : KnownFile} : a.le b = true ↔ a.sortKey ≤ b.sortKey := by
  unfold le sortKey
  rw [Bool.not_eq_true', decide_eq_false_iff_not, not_lt]

theorem pairwise_mergeSort (ks : List KnownFile) :
    (ks.mergeSort le).Pairwise fun a b => a.le b = true := by
  apply List.pairwise_mergeSort
  · intro a b c hab hbc
    exact le_iff.mpr (le_trans (le_iff.mp hab) (le_iff.mp hbc))
  · intro a b
    rw [Bool.or_eq_true, le_iff, le_iff]
    exact le_total a.sortKey b.sortKey

theorem isMatchOf_iff {k : KnownFile} {wanted : String} :
    k.isMatchOf wanted = true ↔ EndsWith k.key.toList wanted.toList := by
  unfold isMatchOf
  rw [List.isSuffixOf_iff_suffix, suffix_iff_endsWith]

end KnownFile

/-- The first match in an ordered list comes before every match, itself included. -/
theorem le_of_find? {ks : List KnownFile} (hks : ks.Pairwise fun a b => a.le b = true)
    {p : KnownFile → Bool} {k : KnownFile} (h : ks.find? p = some k) :
    ∀ other ∈ ks, p other = true → k.le other = true := by
  intro other hother hp
  obtain ⟨-, earlier, later, rfl, hearlier⟩ := List.find?_eq_some_iff_append.mp h
  rcases List.mem_append.mp hother with hother | hother
  · have hnot := hearlier other hother
    rw [hp] at hnot
    simp at hnot
  · rcases List.mem_cons.mp hother with rfl | hother
    · exact KnownFile.le_iff.mpr (le_refl _)
    · exact List.rel_of_pairwise_cons (List.pairwise_append.mp hks).2.1 hother

/-! ## What a resolver answers -/

theorem origin_of_parse {bytes : ByteArray} {origin : Origin} {form : Form}
    (h : Form.parse bytes origin = .ok form) : form.origin = origin := by
  unfold Form.parse at h
  split at h
  · simp at h
  · split at h
    · simp at h
    · rw [← Except.ok.inj h]

theorem origin_of_parseFile {d : Disk} {path : Path} {form : Form}
    (h : Form.parseFile d path = .ok form) : form.origin = .file path := by
  unfold Form.parseFile at h
  split at h
  · simp at h
  · exact origin_of_parse h

namespace Resolver

variable {d : Disk} {r : Resolver} {name : String} {form : Form} {file : Path}

/-- A form that a search reads from a file is in the known file that the name refers to. -/
theorem knownFile?_of_search (h : r.search d name = .ok form) (horigin : form.origin = .file file) :
    r.knownFile? name = some file := by
  unfold search at h
  split at h
  · next known hknown =>
    cases hparse : Form.parseFile d known with
    | error e => simp [hparse, asResolved] at h
    | ok form' =>
      rw [hparse] at h
      obtain rfl : form' = form := Except.ok.inj h
      rw [origin_of_parseFile hparse] at horigin
      rw [hknown, Origin.file.inj horigin]
  · split at h
    · simp at h
    · next bytes _ =>
      cases hparse : Form.parse bytes (.resource name) with
      | error e => simp [hparse, asResolved] at h
      | ok form' =>
        rw [hparse] at h
        obtain rfl : form' = form := Except.ok.inj h
        rw [origin_of_parse hparse] at horigin
        simp at horigin

/-- Whether what is remembered from files is from the known files that the names refer to. -/
def RemembersKnown (r : Resolver) : Prop :=
  ∀ name form file, r.resolved.lookup name = some form → form.origin = .file file →
    r.knownFile? name = some file

theorem knownFile?_of_lookup (hr : r.RemembersKnown) (h : r.lookup d name = .ok form)
    (horigin : form.origin = .file file) : r.knownFile? name = some file := by
  unfold lookup at h
  split at h
  · next remembered hremembered =>
    rw [Except.ok.inj h] at hremembered
    exact hr name form file hremembered horigin
  · exact knownFile?_of_search h horigin

theorem RemembersKnown.resolve (hr : r.RemembersKnown) (d : Disk) (name : String) :
    (r.resolve d name).2.RemembersKnown := by
  unfold Resolver.resolve
  split
  · exact hr
  · next form hform =>
    intro other found file hfound horigin
    show r.knownFile? other = some file
    simp only [Resolver.remember, List.lookup_cons] at hfound
    split at hfound
    · next hother =>
      obtain rfl := eq_of_beq hother
      obtain rfl := Option.some.inj hfound
      exact knownFile?_of_lookup hr hform horigin
    · exact hr other found file hfound horigin

/-- The resolver after it has been asked for names, each on the disk as it was then. -/
def after (r : Resolver) (asked : List (Disk × String)) : Resolver :=
  asked.foldl (fun r (d, name) => (r.resolve d name).2) r

theorem remembersKnown_after (hr : r.RemembersKnown) (asked : List (Disk × String)) :
    (r.after asked).RemembersKnown ∧ (r.after asked).forget = r.forget := by
  induction asked generalizing r with
  | nil => exact ⟨hr, rfl⟩
  | cons question asked ih =>
    obtain ⟨hkeeps, hforget⟩ := ih (hr.resolve question.1 question.2)
    exact ⟨hkeeps, hforget.trans (forget_resolve r question.1 question.2)⟩

/-- The known files of a new resolver are the files that it is given. -/
theorem known_new_perm (d : Disk) (files : List Path) (context : Classpath.Context) (root : Path) :
    (new d files context root).known.Perm (files.map (KnownFile.of d)) :=
  List.mergeSort_perm _ _

/-- The known file of a name: it ends with the name, and no file that does so comes before it. -/
theorem least_of_knownFile? {files : List Path} {context : Classpath.Context} {root : Path}
    (h : (new d files context root).knownFile? name = some file) :
    file ∈ files ∧ EndsWith (KnownFile.of d file).key.toList (normalize name).toList ∧
      ∀ other ∈ files, EndsWith (KnownFile.of d other).key.toList (normalize name).toList →
        (KnownFile.of d file).le (KnownFile.of d other) = true := by
  obtain ⟨k, hfind, rfl⟩ := Option.map_eq_some_iff.mp h
  have hperm := known_new_perm d files context root
  obtain ⟨file, hfile, rfl⟩ := List.mem_map.mp (hperm.mem_iff.mp (List.mem_of_find?_eq_some hfind))
  have hmatch := List.find?_some hfind
  show file ∈ files ∧ EndsWith (KnownFile.of d file).key.toList _ ∧ ∀ other ∈ files, _ →
    (KnownFile.of d file).le _ = true
  refine ⟨hfile, KnownFile.isMatchOf_iff.mp hmatch, ?_⟩
  intro other hother hends
  have hmem := hperm.mem_iff.mpr (List.mem_map_of_mem hother)
  exact le_of_find? (KnownFile.pairwise_mergeSort _) hfind _ hmem (KnownFile.isMatchOf_iff.mpr hends)

end Resolver

/-- **Which known file a reference is resolved to.** Take a resolver of any known files after it has been
asked for any names on any disks. If it answers a name with a form from a file, now or from memory, this
is a known file whose normalised absolute path ends with the normalised name: the pieces behind the first
slash of the name are its last pieces, and what stands before that slash ends the piece before them. Of
all known files that end so it is the first, so nothing but an earlier one keeps a file from being the
answer. A name that is not empty has a component, unless the path itself ends with a slash. -/
theorem endsWith_of_resolve {d₀ d : Disk} {files : List Path} {context : Classpath.Context}
    {root : Path} {asked : List (Disk × String)} {name : String} {form : Form} {file : Path}
    (h : (((Resolver.new d₀ files context root).after asked).resolve d name).1 = .ok form)
    (horigin : form.origin = .file file) :
    file ∈ files ∧ EndsWith (KnownFile.of d₀ file).key.toList (normalize name).toList ∧
      (∀ other ∈ files, EndsWith (KnownFile.of d₀ other).key.toList (normalize name).toList →
        (KnownFile.of d₀ file).le (KnownFile.of d₀ other) = true) ∧
      (normalize name ≠ "" → (KnownFile.of d₀ file).key.toList.getLast? ≠ some '/' →
        ∃ piece ∈ pieces (normalize name).toList, piece ≠ []) := by
  have hnew : (Resolver.new d₀ files context root).RemembersKnown := by
    intro name form file hlookup
    simp [Resolver.new] at hlookup
  obtain ⟨hkeeps, hforget⟩ := Resolver.remembersKnown_after hnew asked
  rw [Resolver.fst_resolve] at h
  have hknown : (Resolver.new d₀ files context root).forget.knownFile? name = some file := by
    rw [← hforget]
    show ((Resolver.new d₀ files context root).after asked).knownFile? name = some file
    exact Resolver.knownFile?_of_lookup hkeeps h horigin
  obtain ⟨hfile, hends, hleast⟩ := Resolver.least_of_knownFile? hknown
  refine ⟨hfile, hends, hleast, fun hname hslash => exists_component (by simpa using hname) ?_⟩
  intro hlast
  -- The path ends as the name does.
  obtain ⟨front, hfront⟩ := suffix_iff_endsWith.mpr hends
  apply hslash
  rw [← hfront, List.getLast?_append, hlast, Option.some_or]

namespace Sample

open Form.Sample (sharing parseFile_sharing)

/-- A disk with two forms, the name of one of which ends with the name of the other. -/
def headers : Disk :=
  ⟨[(["s"], .directory), (["s", "BigHeader.form"], .file sharing.text.toUTF8 5), (["t"], .directory),
    (["t", "Header.form"], .file sharing.text.toUTF8 5)], .present [], 10⟩

/-- A resolver that knows both forms. -/
def resolver : Resolver :=
  .new headers [⟨"/s/BigHeader.form"⟩, ⟨"/t/Header.form"⟩] ⟨[], none⟩ ⟨"/o"⟩

theorem known_resolver : resolver.known =
    [⟨"/s/BigHeader.form"⟩, ⟨"/t/Header.form"⟩].map (KnownFile.of headers) := by
  apply List.mergeSort_of_pairwise
  decide

theorem knownFile?_resolver : resolver.knownFile? "Header.form" = some ⟨"/s/BigHeader.form"⟩ ∧
    resolver.knownFile? "\\header.FORM" = some ⟨"/t/Header.form"⟩ := by
  unfold Resolver.knownFile?
  rw [known_resolver]
  decide

theorem parseFile_headers : Form.parseFile headers ⟨"/s/BigHeader.form"⟩ =
    .ok ⟨some "C", ["z.form"], .file ⟨"/s/BigHeader.form"⟩⟩ := by
  have hcontents : headers.contents ⟨"/s/BigHeader.form"⟩ = .ok sharing.text.toUTF8 := rfl
  exact parseFile_sharing hcontents

theorem lookup_resolver : resolver.lookup headers "Header.form" =
    .ok ⟨some "C", ["z.form"], .file ⟨"/s/BigHeader.form"⟩⟩ := by
  show resolver.search headers "Header.form" = _
  unfold Resolver.search
  rw [knownFile?_resolver.1]
  simp only [parseFile_headers]
  rfl

/-- The reference is remembered when the disk has gone, and is that of the file whose name only ends with
it, which comes first. Behind a separator the name is that of the other file. -/
theorem endsWith_of_resolve_header :
    ((resolver.after [(headers, "Header.form")]).resolve ⟨[], .present [], 11⟩ "Header.form").1 =
        .ok ⟨some "C", ["z.form"], .file ⟨"/s/BigHeader.form"⟩⟩ ∧
      EndsWith (KnownFile.of headers ⟨"/s/BigHeader.form"⟩).key.toList
        (normalize "Header.form").toList ∧
      (KnownFile.of headers ⟨"/s/BigHeader.form"⟩).le (KnownFile.of headers ⟨"/t/Header.form"⟩) = true ∧
      resolver.knownFile? "\\header.FORM" = some ⟨"/t/Header.form"⟩ := by
  have hanswer : ((resolver.after [(headers, "Header.form")]).resolve ⟨[], .present [], 11⟩
      "Header.form").1 = .ok ⟨some "C", ["z.form"], .file ⟨"/s/BigHeader.form"⟩⟩ := by
    rw [Resolver.fst_resolve]
    show ((resolver.resolve headers "Header.form").2).lookup _ _ = _
    rw [(Resolver.resolve_eq_ok_iff.mpr ⟨lookup_resolver, rfl⟩ :
      resolver.resolve headers "Header.form" = _)]
    rfl
  obtain ⟨-, hends, hleast, -⟩ := endsWith_of_resolve hanswer rfl
  refine ⟨hanswer, hends, hleast ⟨"/t/Header.form"⟩ (by simp) ?_, knownFile?_resolver.2⟩
  rw [← suffix_iff_endsWith]
  decide

/-- References do not match whole components only. -/
theorem not_forall_components_suffix :
    ¬ ∀ (d : Disk) (files : List Path) (context : Classpath.Context) (root : Path) (name : String)
        (form : Form) (file : Path),
      ((Resolver.new d files context root).resolve d name).1 = .ok form → form.origin = .file file →
      (pieces (normalize name).toList).filter (· ≠ []) <:+
          (pieces (KnownFile.of d file).key.toList).filter (· ≠ []) ∧
        (pieces (normalize name).toList).filter (· ≠ []) ≠ [] := by
  intro hall
  have hanswer : (resolver.resolve headers "Header.form").1 =
      .ok ⟨some "C", ["z.form"], .file ⟨"/s/BigHeader.form"⟩⟩ := by
    rw [Resolver.fst_resolve, lookup_resolver]
  obtain ⟨hsuffix, -⟩ := hall headers _ _ _ _ _ _ hanswer rfl
  exact absurd hsuffix (by decide)

end Sample

end FormWeaver.Nested
