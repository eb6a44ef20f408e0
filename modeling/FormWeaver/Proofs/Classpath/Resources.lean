import FormWeaver.Proofs.Classpath.ArchiveIndex
import FormWeaver.Proofs.Classpath.Identity
import FormWeaver.Proofs.Disk.Directories
import FormWeaver.Proofs.Path.Beneath

/-!
# Where a resource is found

A resource is looked up under its name without the slashes at its beginning, so the name is a relative path.
A directory of the class path refuses names with a piece that leads upwards, and a name of which no piece
is a name leads to no file. What is left leads beneath the directory, as its path is absolute
(`readBeneath?_eq_some_iff_liesBeneath`). All else that is found is an entry of an archive, and nothing that
there is to be found is missed (`findResource?_found`).
-/

namespace FormWeaver

namespace Archive

/-- Whether some bytes are those of an entry of this name. -/
def HasEntry (d : Disk) (archive : Path) (name : String) (bytes : ByteArray) : Prop :=
  ∃ file entries, directory d archive = .ok (file, entries) ∧
    ∃ e ∈ entries, e.name = name ∧ ∃ method raw content, e.open? file = some (method, raw) ∧
      e.expand? method raw = some content ∧ content.toByteArray = bytes

theorem hasEntry_of_read {d : Disk} {archive : Path} {name : String} {bytes : ByteArray}
    (h : read d archive name = .ok (some bytes)) : HasEntry d archive name bytes := by
  unfold read at h
  split at h
  · cases h
  next file entries hdirectory =>
  split at h
  · cases h
  next e he =>
  split at h
  · cases h
  next method raw hopen =>
  split at h
  · cases h
  next content hexpand =>
  unfold entryNamed? at he
  have hname : e.name = name := by simpa using List.find?_some he
  exact ⟨file, entries, hdirectory, e, List.mem_reverse.mp (List.mem_of_find?_eq_some he),
    hname, method, raw, content, hopen, hexpand, Option.some.inj (Except.ok.inj h)⟩

theorem isFile_of_names {d : Disk} {archive : Path} {listed : List String}
    (h : names d archive = .ok listed) : d.isFile archive = true := by
  unfold names at h
  split at h
  · cases h
  · next hdirectory => exact isFile_of_directory hdirectory

/-- Whether an archive that was listed on one disk has these bytes for a name on another. -/
structure Serves (d d' : Disk) (archive : Path) (name : String) (bytes : ByteArray) : Prop where
  listed : ∃ listed, names d archive = .ok listed ∧ name ∈ listed
  isRead : read d' archive name = .ok (some bytes)
  hasEntry : HasEntry d' archive name bytes

end Archive

namespace Classpath

variable {d d' : Disk} {c : Context} {env : Environment} {dependencies : List Path} {directory : Path}
  {name : String} {bytes : ByteArray}

/-! ## Beneath a directory -/

theorem readBeneath?_eq_some_iff : readBeneath? d directory name = some bytes ↔
    ".." ∉ (Path.mk name).pieces ∧ d.isFile (directory.child name) = true ∧
      d.contents (directory.child name) = .ok bytes := by
  unfold readBeneath?
  dsimp only
  split
  · next hup => simp [Path.up_mem_pieces_iff.mpr hup]
  · next hup =>
    cases d.contents (directory.child name) <;> simp [mt Path.up_mem_pieces_iff.mp hup, Except.toOption]

/-- A relative path that leads to a file has a name in it. -/
theorem exists_name_of_isFile (hrel : (Path.mk name).isAbsolute = false)
    (hfile : d.isFile (directory.child name) = true) :
    ∃ piece ∈ (Path.mk name).pieces, piece ≠ "" ∧ piece ≠ "." := by
  obtain ⟨last, ⟨hempty, hdot, -⟩, before, hlast⟩ : ∃ last, Disk.EndsIn (directory.child name) last := by
    by_contra hno
    rw [Disk.isFile_of_unnamed (not_exists.mp hno)] at hfile
    cases hfile
  obtain ⟨above, hpieces, -, -⟩ := Path.pieces_join hrel directory
  refine ⟨last, List.mem_of_getLast? ?_, hempty, hdot⟩
  rw [← List.getLast?_append_of_ne_nil above (Path.pieces_ne_nil _), ← hpieces]
  exact (congrArg List.getLast? hlast).trans List.getLast?_concat

/-- What an absolute directory has under a relative name is the file that this spells, if that lies beneath
the directory. -/
theorem readBeneath?_eq_some_iff_liesBeneath (habs : directory.isAbsolute = true)
    (hrel : (Path.mk name).isAbsolute = false) : readBeneath? d directory name = some bytes ↔
      (directory.child name).LiesBeneath directory ∧ d.isFile (directory.child name) = true ∧
        d.contents (directory.child name) = .ok bytes := by
  have hne : directory.text ≠ "" := by
    simpa using Path.isEmpty_text_of_isAbsolute habs
  have hbeneath : (directory.child name).LiesBeneath directory ↔ _ :=
    Path.liesBeneath_join_iff hrel fun he => absurd he hne
  rw [readBeneath?_eq_some_iff, hbeneath]
  constructor
  · rintro ⟨hup, hfile, hbytes⟩
    exact ⟨⟨hup, exists_name_of_isFile hrel hfile⟩, hfile, hbytes⟩
  · rintro ⟨⟨hup, -⟩, hfile, hbytes⟩
    exact ⟨hup, hfile, hbytes⟩

/-! ## In an archive -/

theorem ArchiveIndex.of?_eq_some_iff {archive : Path} {inside : String} {i : ArchiveIndex} :
    of? d archive inside = some i ↔
      i.path = archive ∧ i.inside = inside ∧ Archive.names d archive = .ok i.entries := by
  obtain ⟨path, prefixed, entries⟩ := i
  unfold of?
  cases hnames : Archive.names d archive with
  | error e => simp
  | ok listed => simp [Archive.isFile_of_names hnames, eq_comm]

/-- An index answers with what its archive serves. -/
theorem ArchiveIndex.exists_of?_iff {archive : Path} {inside : String} :
    (∃ i, of? d archive inside = some i ∧ i.read? d' name = some bytes) ↔
      Archive.Serves d d' archive (inside ++ name) bytes := by
  constructor
  · rintro ⟨i, hi, hread⟩
    obtain ⟨rfl, rfl, hnames⟩ := of?_eq_some_iff.mp hi
    rw [read?_eq] at hread
    split at hread
    · next hlisted =>
      cases hcontent : Archive.read d' i.path (i.inside ++ name) with
      | error e => simp [hcontent, Except.toOption] at hread
      | ok content =>
        obtain rfl : content = some bytes := by simpa [hcontent, Except.toOption] using hread
        exact ⟨⟨_, hnames, hlisted⟩, hcontent, Archive.hasEntry_of_read hcontent⟩
    · cases hread
  · rintro ⟨⟨listed, hnames, hmem⟩, hread, -⟩
    refine ⟨⟨archive, inside, listed⟩, of?_eq_some_iff.mpr ⟨rfl, rfl, hnames⟩, ?_⟩
    rw [read?_eq, if_pos hmem, hread]
    rfl

/-! ## In a class path -/

/-- What is looked up for a name: the slashes at its beginning do not count. -/
def entryName (name : String) : String := String.ofList (name.toList.dropWhile (· == '/'))

theorem isAbsolute_entryName (name : String) : (Path.mk (entryName name)).isAbsolute = false := by
  unfold Path.isAbsolute entryName
  rw [String.toList_ofList, beq_eq_false_iff_ne]
  intro hhead
  simpa [hhead] using List.head?_dropWhile_not (· == '/') name.toList

theorem entryName_slashes (n : Nat) (name : String) :
    entryName (String.ofList (List.replicate n '/') ++ name) = entryName name := by
  unfold entryName
  rw [String.toList_append, String.toList_ofList, List.dropWhile_append_of_pos]
  intro c hc
  exact beq_iff_eq.mpr (List.eq_of_mem_replicate hc)

theorem findResource?_eq (c : Context) (d : Disk) (name : String) :
    c.findResource? d name = if (entryName name).isEmpty then none
      else (c.inLocations? d (entryName name)).or (c.inPlatform? d (entryName name)) := by
  unfold Context.findResource? entryName
  dsimp only
  cases c.inLocations? d (String.ofList (name.toList.dropWhile (· == '/'))) <;> rfl

/-- What the bytes of an entry are. -/
inductive HasResource (d : Disk) (env : Environment) (c : Context) (d' : Disk) (entry : String)
    (bytes : ByteArray) : Prop
  /-- The file that the entry spells beneath a directory of the class path. -/
  | file {l : Location} (hl : l ∈ c.locations) (hdirectory : l.isDirectory = true)
      (hbeneath : (l.path.child entry).LiesBeneath l.path)
      (hfile : d'.isFile (l.path.child entry) = true)
      (hbytes : d'.contents (l.path.child entry) = .ok bytes)
  /-- The entry in an archive of the class path. -/
  | archive {l : Location} (hl : l ∈ c.locations) (harchive : l.isDirectory = false)
      (hserves : Archive.Serves d d' l.path entry bytes)
  /-- The entry in a module archive of the runtime, in the directory for resources there. -/
  | platform {home archive : Path} (hmodular : env.modular = true) (hhome : env.runtimeHome = some home)
      (harchive : archive ∈ moduleArchives d home)
      (hserves : Archive.Serves d d' archive (moduleClasses ++ entry) bytes)

section Built

variable (h : Context.build d env dependencies = .ok c)
include h

theorem isLocated_of_build {l : Location} (hl : l ∈ c.locations) : IsLocated l := by
  cases hw : d.workingDirectory with
  | removed parent => simp [Context.build, hw] at h
  | present here =>
    rw [build_of_present hw] at h
    rw [← Except.ok.inj h, locations_map_of] at hl
    exact isLocated_of_mem_considered hw ((firsts_sublist _).subset hl)

theorem platform_of_build : c.platform = platform? d env := by
  unfold Context.build at h
  split at h
  · cases h
  · rw [← Except.ok.inj h]

theorem indexed_of_build : c.indexed = c.locations.map (IndexedLocation.of d) := by
  calc c.indexed
      = c.indexed.map id := (List.map_id _).symm
    _ = c.indexed.map (IndexedLocation.of d ∘ IndexedLocation.location) :=
        List.map_congr_left fun i hi => eq_of_mem_indexed h hi
    _ = c.locations.map (IndexedLocation.of d) := List.map_map.symm

/-- What a location of the class path has under a relative name. -/
theorem read?_of_location {l : Location} (hl : l ∈ c.locations) (hrel : (Path.mk name).isAbsolute = false) :
    (IndexedLocation.of d l).read? d' name = some bytes ↔
      l.isDirectory = true ∧ (l.path.child name).LiesBeneath l.path ∧ d'.isFile (l.path.child name) = true ∧
          d'.contents (l.path.child name) = .ok bytes ∨
        l.isDirectory = false ∧ Archive.Serves d d' l.path name bytes := by
  unfold IndexedLocation.read? IndexedLocation.of
  dsimp only
  cases hdir : l.isDirectory with
  | true =>
    simp [readBeneath?_eq_some_iff_liesBeneath (isLocated_of_build h hl).1 hrel]
  | false =>
    have hserves : (∃ i, ArchiveIndex.of? d l.path "" = some i ∧ i.read? d' name = some bytes) ↔ _ :=
      ArchiveIndex.exists_of?_iff
    rw [String.empty_append] at hserves
    simp [Option.bind_eq_some_iff, hserves]

theorem hasResource_of_inLocations? (hrel : (Path.mk name).isAbsolute = false)
    (hfound : c.inLocations? d' name = some bytes) : HasResource d env c d' name bytes := by
  unfold Context.inLocations? at hfound
  rw [indexed_of_build h, List.findSome?_map] at hfound
  obtain ⟨l, hl, hread⟩ := List.exists_of_findSome?_eq_some hfound
  rcases (read?_of_location h hl hrel).mp hread with ⟨hdir, hbeneath, hfile, hbytes⟩ | ⟨hdir, hserves⟩
  · exact .file hl hdir hbeneath hfile hbytes
  · exact .archive hl hdir hserves

theorem hasResource_of_inPlatform? (hfound : c.inPlatform? d' name = some bytes) :
    HasResource d env c d' name bytes := by
  unfold Context.inPlatform? at hfound
  rw [platform_of_build h] at hfound
  split at hfound
  · cases hfound
  next platform hplatform =>
  obtain ⟨index, hindex, hread⟩ := List.exists_of_findSome?_eq_some hfound
  unfold platform? at hplatform
  split at hplatform
  · next hmodular =>
    obtain ⟨home, hhome, rfl⟩ := Option.map_eq_some_iff.mp hplatform
    obtain ⟨archive, harchive, hof⟩ := List.mem_filterMap.mp hindex
    exact .platform hmodular hhome harchive (ArchiveIndex.exists_of?_iff.mp ⟨index, hof, hread⟩)
  · cases hplatform

/-- What there is to be found is not missed. -/
theorem isSome_of_hasResource (hrel : (Path.mk name).isAbsolute = false)
    (hres : HasResource d env c d' name bytes) :
    (c.inLocations? d' name).isSome = true ∨ (c.inPlatform? d' name).isSome = true := by
  have hlocation : ∀ l ∈ c.locations, (IndexedLocation.of d l).read? d' name = some bytes →
      (c.inLocations? d' name).isSome = true := by
    intro l hl hread
    unfold Context.inLocations?
    rw [indexed_of_build h, List.findSome?_map, List.findSome?_isSome_iff]
    exact ⟨l, hl, Option.isSome_iff_exists.mpr ⟨bytes, hread⟩⟩
  cases hres with
  | file hl hdirectory hbeneath hfile hbytes =>
    have hread := (read?_of_location h hl hrel).mpr (.inl ⟨hdirectory, hbeneath, hfile, hbytes⟩)
    exact .inl (hlocation _ hl hread)
  | archive hl harchive hserves =>
    have hread := (read?_of_location h hl hrel).mpr (.inr ⟨harchive, hserves⟩)
    exact .inl (hlocation _ hl hread)
  | @platform home archive hmodular hhome harchive hserves =>
    obtain ⟨index, hof, hread⟩ := ArchiveIndex.exists_of?_iff.mpr hserves
    have hplatform : c.platform = some (Platform.ofHome d home) := by
      rw [platform_of_build h, platform?, if_pos hmodular, hhome, Option.map_some]
    unfold Context.inPlatform?
    rw [hplatform]
    exact .inr (List.findSome?_isSome_iff.mpr
      ⟨index, List.mem_filterMap.mpr ⟨archive, harchive, hof⟩, Option.isSome_iff_exists.mpr ⟨bytes, hread⟩⟩)

/-- **Where a resource is found.** Whatever the name of a resource, its bytes are those of a file beneath a
directory of the class path or of an entry of an archive. It is not found only when there is none of these,
or when its name is empty but for slashes. Slashes at the beginning of the name make no difference. -/
theorem findResource?_found (d' : Disk) (name : String) :
    (∀ bytes, c.findResource? d' name = some bytes → HasResource d env c d' (entryName name) bytes) ∧
      (c.findResource? d' name = none ↔
        entryName name = "" ∨ ∀ bytes, ¬ HasResource d env c d' (entryName name) bytes) ∧
      ∀ n, c.findResource? d' (String.ofList (List.replicate n '/') ++ name) = c.findResource? d' name := by
  have hrel := isAbsolute_entryName name
  have hfound : ∀ bytes, c.findResource? d' name = some bytes →
      HasResource d env c d' (entryName name) bytes := by
    intro bytes hfound
    rw [findResource?_eq] at hfound
    split at hfound
    · cases hfound
    rcases Option.or_eq_some_iff.mp hfound with hlocations | ⟨-, hplatform⟩
    · exact hasResource_of_inLocations? h hrel hlocations
    · exact hasResource_of_inPlatform? h hplatform
  refine ⟨hfound, ⟨fun hnone => ?_, fun hmissing => ?_⟩, fun n => ?_⟩
  · rw [or_iff_not_imp_left]
    intro hne bytes hres
    rw [findResource?_eq, if_neg (by simpa using hne), Option.or_eq_none_iff] at hnone
    rcases isSome_of_hasResource h hrel hres with hsome | hsome
    · rw [hnone.1] at hsome
      cases hsome
    · rw [hnone.2] at hsome
      cases hsome
  · rcases hmissing with hempty | hmissing
    · rw [findResource?_eq, if_pos (by simpa using hempty)]
    · exact Option.eq_none_iff_forall_ne_some.mpr fun bytes hsome => hmissing bytes (hfound bytes hsome)
  · rw [findResource?_eq, entryName_slashes, findResource?_eq]

end Built

namespace Sample

/-- A directory with a file, and a file of the same name outside. -/
def pages : Disk :=
  ⟨[(["w"], .directory), (["w", "x"], .file "page".toUTF8 1), (["x"], .file "outside".toUTF8 1)],
    .present [], 2⟩

/-- The file beneath the directory is found under any spelling of its name. A name that leads out of the
directory finds nothing. -/
theorem findResource?_found_pages : ∃ c, Context.build pages nothing [⟨"/w"⟩] = .ok c ∧
    c.findResource? pages "//./x" = some "page".toUTF8 ∧
    HasResource pages nothing c pages "./x" "page".toUTF8 ∧
    c.findResource? pages "/////./x" = c.findResource? pages "//./x" ∧
    c.findResource? pages "/../x" = none := by
  have hbuild : Context.build pages nothing [⟨"/w"⟩] =
      .ok ⟨[⟨⟨"file:///w/", ⟨"/w"⟩, true⟩, none⟩], none⟩ := rfl
  have hfound : Context.findResource? ⟨[⟨⟨"file:///w/", ⟨"/w"⟩, true⟩, none⟩], none⟩ pages "//./x" =
      some "page".toUTF8 := rfl
  obtain ⟨hresource, -, hslashes⟩ := findResource?_found hbuild pages "//./x"
  exact ⟨_, hbuild, hfound, hresource _ hfound, hslashes 3, rfl⟩

end Sample

end Classpath
end FormWeaver
