import FormWeaver.Proofs.Classpath.Assembly
import FormWeaver.Proofs.Classpath.Location

/-!
# What a URL tells apart

The URL of a location shows its path but for backslashes, which become slashes, and but for a slash at
the end. So locations of one URL have one path, when backslashes are read as slashes
(`same_of_url_eq`), and of the locations considered for a class path none is dropped unless one of the
same path is kept. Backslashes do make a difference to a path: two files whose names differ in that one
has a backslash where the other has a slash share a URL, and only the first of them is kept.
-/

namespace FormWeaver.Classpath

variable {d : Disk} {l k : Location} {p q : Path}

/-! ## Paths of one URL -/

/-- A URL tells the components of an absolute path, when its backslashes are read as slashes. -/
theorem same_of_fileUrl_eq (hp : p.isAbsolute = true) (hq : q.isAbsolute = true)
    {directory directory' : Bool} (h : fileUrl p directory = fileUrl q directory') :
    (slashed p).same (slashed q) = true := by
  have hcomponents : ∀ {p : Path}, p.isAbsolute = true → ∀ directory : Bool,
      (Path.mk (urlPath p directory)).components = (slashed p).components := by
    intro p hp directory
    rw [urlPath_of_isAbsolute hp]
    split
    · exact Path.components_child_empty _
    · rfl
  have hencoded : percentEncode (urlPath p directory) = percentEncode (urlPath q directory') := by
    unfold fileUrl at h
    rwa [← String.toList_inj, String.toList_append, String.toList_append, List.append_cancel_left_eq,
      String.toList_inj] at h
  rw [Path.same, beq_iff_eq, ← hcomponents hp directory, ← hcomponents hq directory',
    percentEncode_injective hencoded]

/-- Whether a location is what its path makes it, and its path is absolute. -/
def IsLocated (l : Location) : Prop := l.path.isAbsolute = true ∧ l.url = fileUrl l.path l.isDirectory

theorem isLocated_ofAbsolute (h : d.absolute p = .ok q) : IsLocated (.ofAbsolute d q) :=
  ⟨Disk.isAbsolute_of_absolute h, rfl⟩

theorem isLocated_of_parse {raw : String} (h : Location.parse d raw = .ok l) : IsLocated l := by
  obtain ⟨-, p, q, -, hq, rfl⟩ := Location.exists_of_parse h
  exact isLocated_ofAbsolute hq

theorem isLocated_of_mem_parseAll {raws : List String} (h : l ∈ parseAll d raws) : IsLocated l := by
  obtain ⟨raw, -, hl⟩ := mem_parseAll.mp h
  exact isLocated_of_parse hl

/-- Locations of one URL have one path. -/
theorem IsLocated.same_path (hl : IsLocated l) (hk : IsLocated k) (h : l.url = k.url) :
    (slashed l.path).same (slashed k.path) = true ∧
      ('\\' ∉ l.path.text.toList → '\\' ∉ k.path.text.toList → l.path.same k.path = true) := by
  rw [hl.2, hk.2] at h
  have hsame := same_of_fileUrl_eq hl.1 hk.1 h
  refine ⟨hsame, fun hbl hbk => ?_⟩
  rwa [slashed_eq_self hbl, slashed_eq_self hbk] at hsame

/-! ## Class paths -/

theorem isLocated_of_mem_considered {here : Place} (hw : d.workingDirectory = .present here)
    {env : Environment} {dependencies : List Path} (h : l ∈ considered d env dependencies) :
    IsLocated l := by
  rcases mem_considered_iff.mp h with ⟨raw, -, hl⟩ | hl
  · exact isLocated_of_parse hl
  · obtain ⟨runtime, q, -, -, hq, rfl⟩ := (mem_coreLibrary_iff hw).mp hl
    exact isLocated_ofAbsolute hq

/-- **URLs and paths.** Two texts that name locations of one URL name one path, when backslashes are read
as slashes. So no location considered for a class path is dropped from it unless one of the same path is
kept. -/
theorem same_of_url_eq (d : Disk) :
    (∀ raw raw' l l', Location.parse d raw = .ok l → Location.parse d raw' = .ok l' → l.url = l'.url →
      (slashed l.path).same (slashed l'.path) = true ∧
        ('\\' ∉ l.path.text.toList → '\\' ∉ l'.path.text.toList → l.path.same l'.path = true)) ∧
    ∀ env dependencies c, Context.build d env dependencies = .ok c →
      ∀ l ∈ considered d env dependencies, ∃ k ∈ c.locations,
        (slashed k.path).same (slashed l.path) = true ∧
          ('\\' ∉ k.path.text.toList → '\\' ∉ l.path.text.toList → k.path.same l.path = true) := by
  constructor
  · intro raw raw' l l' hl hl' hurl
    exact (isLocated_of_parse hl).same_path (isLocated_of_parse hl') hurl
  · intro env dependencies c hc l hl
    cases hw : d.workingDirectory with
    | removed parent =>
      unfold Context.build at hc
      rw [hw] at hc
      cases hc
    | present here =>
      rw [build_of_present hw] at hc
      obtain rfl := Except.ok.inj hc
      rw [locations_map_of]
      obtain ⟨k, hk, hurl⟩ := List.mem_map.mp (mem_urls_firsts.mpr (List.mem_map_of_mem hl))
      have hlocated := isLocated_of_mem_considered hw ((firsts_sublist _).subset hk)
      exact ⟨k, hk, hlocated.same_path (isLocated_of_mem_considered hw hl) hurl⟩

namespace Sample

open Location.Sample

/-- An environment that contributes nothing. -/
def nothing : Environment := ⟨[], [], none, false, none⟩

/-- A directory that is named by its path and by a URL has one URL, and is kept once. -/
theorem same_of_url_eq_beside : ∃ l l' c,
    Location.parse beside "/w" = .ok l ∧ Location.parse beside "FILE://host/w//" = .ok l' ∧
      l.url = l'.url ∧ l.path.same l'.path = true ∧
      Context.build beside nothing [⟨"/w"⟩, ⟨"FILE://host/w//"⟩] = .ok c ∧
      l' ∈ considered beside nothing [⟨"/w"⟩, ⟨"FILE://host/w//"⟩] ∧
      ∃ k ∈ c.locations, k.path.same l'.path = true := by
  have hparse : Location.parse beside "/w" = .ok ⟨"file:///w/", ⟨"/w"⟩, true⟩ := by decide
  have hparse' : Location.parse beside "FILE://host/w//" = .ok ⟨"file:///w/", ⟨"/w/"⟩, true⟩ := by
    decide +kernel
  have hmem : ⟨"file:///w/", ⟨"/w/"⟩, true⟩ ∈
      considered beside nothing [⟨"/w"⟩, ⟨"FILE://host/w//"⟩] :=
    mem_considered (by decide) hparse'
  obtain ⟨hpath, hkept⟩ := same_of_url_eq beside
  obtain ⟨k, hk, hsame, -⟩ := hkept nothing [⟨"/w"⟩, ⟨"FILE://host/w//"⟩] _ rfl _ hmem
  have hlocation : k = ⟨"file:///w/", ⟨"/w"⟩, true⟩ := by
    revert k
    decide +kernel
  subst hlocation
  exact ⟨_, _, _, hparse, hparse', rfl, (hpath _ _ _ _ hparse hparse' rfl).2 (by decide) (by decide), rfl,
    hmem, _, hk, by rwa [slashed_eq_self (by decide), slashed_eq_self (by decide)] at hsame⟩

/-- A backslash in a name is no slash, but the URL has one for it: the second archive is dropped. -/
theorem merged_backslash : ∃ l l' c,
    Location.parse beside "/a\\b" = .ok l ∧ Location.parse beside "/a/b" = .ok l' ∧ l.url = l'.url ∧
      l.path.same l'.path = false ∧
      Context.build beside nothing [⟨"/a\\b"⟩, ⟨"/a/b"⟩] = .ok c ∧ c.locations = [l] := by
  refine ⟨⟨"file:///a/b", ⟨"/a\\b"⟩, false⟩, ⟨"file:///a/b", ⟨"/a/b"⟩, false⟩, _, ?_, ?_, rfl, ?_,
    rfl, ?_⟩
  all_goals decide

end Sample

end FormWeaver.Classpath
