import FormWeaver.Proofs.Classpath.Assembly
import FormWeaver.Proofs.Disk.Growth

/-!
# Archives behind their indices

The index of an archive is made by opening every entry, a look-up opens the one that it is asked for.
While all entries can be opened the two agree on every name: the index holds the names of the entries
that are no directories, and behind it the archive answers itself, with the last of several entries of
one name and with nothing for one whose data is damaged. One entry that cannot be opened spoils the
list, though, and then the location has no index: nothing is found in it, while the archive still
reads the others. What goes wrong with an archive is told with a text that names it.
-/

namespace FormWeaver

namespace Archive

variable {d d' : Disk} {archive : Path} {bytes : ByteArray} {entries : List Entry} {name : String}

theorem isFile_of_directory (h : directory d archive = .ok (bytes, entries)) :
    d.isFile archive = true := by
  have hload : load d archive = .ok bytes := by
    unfold directory at h
    split at h
    · simp at h
    · next bytes' hbytes =>
      split at h
      · simp at h
      · rw [hbytes, (Prod.mk.inj (Except.ok.inj h)).1]
  unfold load at hload
  split at hload
  · next bytes' hcontents =>
    obtain ⟨place, time, hwalk⟩ := Disk.walk_of_contents hcontents
    unfold Disk.isFile Disk.follow?
    rw [hwalk]
  · simp at hload
  · simp at hload

/-- What an archive holds depends on the bytes of its file only. -/
theorem directory_congr (h : d'.contents archive = d.contents archive) :
    directory d' archive = directory d archive := by
  unfold directory load
  rw [h]

theorem read_congr (h : d'.contents archive = d.contents archive) (name : String) :
    read d' archive name = read d archive name := by
  unfold read
  rw [directory_congr h]

/-- The list of an archive all of whose entries can be opened. -/
theorem names_of_all_open (h : directory d archive = .ok (bytes, entries))
    (hopen : ∀ e ∈ entries, (e.open? bytes).isSome = true) :
    names d archive = .ok ((entries.filter fun e => !e.isDirectory).map (·.name)) := by
  have hnone : (entries.find? fun e => (e.open? bytes).isNone) = none := by
    rw [List.find?_eq_none]
    intro e he
    simp [Option.ne_none_iff_isSome.mpr (hopen e he)]
  unfold names
  rw [h]
  simp only [hnone]

/-- An entry that cannot be opened spoils the list. -/
theorem names_of_not_open (h : directory d archive = .ok (bytes, entries))
    (hclosed : ∃ e ∈ entries, e.open? bytes = none) :
    ∃ entry, names d archive = .error (.notListed archive entry) := by
  obtain ⟨e, he⟩ : ∃ e, (entries.find? fun e => (e.open? bytes).isNone) = some e := by
    apply Option.isSome_iff_exists.mp
    rw [List.find?_isSome]
    obtain ⟨e, he, hnone⟩ := hclosed
    exact ⟨e, he, by rw [hnone, Option.isNone_none]⟩
  refine ⟨e.name, ?_⟩
  unfold names
  rw [h]
  simp only [he]

/-- The bytes that an archive of these entries has for a name. -/
def lookup? (bytes : ByteArray) (entries : List Entry) (name : String) : Option ByteArray :=
  (entryNamed? entries name).bind fun e =>
    (e.open? bytes).bind fun (method, raw) => (e.expand? method raw).map List.toByteArray

/-- What an archive reads depends on the entry of the name only. -/
theorem read_of_directory (h : directory d archive = .ok (bytes, entries)) (name : String) :
    (read d archive name).toOption.join = lookup? bytes entries name := by
  unfold read lookup?
  rw [h]
  simp only
  cases entryNamed? entries name with
  | none => rfl
  | some e =>
    simp only [Option.bind_some]
    cases e.open? bytes with
    | none => rfl
    | some opened =>
      obtain ⟨method, raw⟩ := opened
      simp only [Option.bind_some]
      cases e.expand? method raw <;> rfl

theorem lookup?_of_no_entry (hname : ∀ e ∈ entries, e.name ≠ name) :
    lookup? bytes entries name = none := by
  have hnone : entryNamed? entries name = none := by
    unfold entryNamed?
    rw [List.find?_eq_none]
    intro e he
    simpa using hname e (List.mem_reverse.mp he)
  rw [lookup?, hnone, Option.bind_none]

/-! ## What the errors say

A text names what was being done and ends with the path of the archive. Only the failure to list an
archive, at an entry that cannot be opened, has no text of its own.
-/

variable {e : ArchiveError}

/-- What can be wrong with an archive before an entry is asked for. -/
theorem directory_eq_error (h : directory d archive = .error e) :
    e = .notOpened archive ∨ e = .notMapped archive ∨ e = .notArchive archive := by
  unfold directory load at h
  split at h
  · next e' hload =>
    rw [← Except.error.inj h]
    split at hload
    · cases hload
    · exact .inr (.inl (Except.error.inj hload).symm)
    · exact .inl (Except.error.inj hload).symm
  · split at h
    · exact .inr (.inr (Except.error.inj h).symm)
    · cases h

theorem message?_of_directory (h : directory d archive = .error e) :
    ∃ doing, e.message? = some (doing ++ archive.text) := by
  obtain rfl | rfl | rfl := directory_eq_error h
  · exact ⟨"Failed to open archive: ", rfl⟩
  · exact ⟨"Failed to mmap archive: ", rfl⟩
  · exact ⟨"Failed to read zip structure: ", rfl⟩

/-- Whatever keeps an entry from being read, the text of the error names the archive. -/
theorem message?_of_read (h : read d archive name = .error e) :
    ∃ doing, e.message? = some (doing ++ archive.text) := by
  unfold read at h
  split at h
  · next e' hdirectory => exact message?_of_directory (Except.error.inj h ▸ hdirectory)
  · split at h
    · cases h
    · split at h
      · exact ⟨"Failed to open " ++ name ++ " in ", by rw [← Except.error.inj h]; rfl⟩
      · split at h
        · exact ⟨"Failed to read " ++ name ++ " in ", by rw [← Except.error.inj h]; rfl⟩
        · cases h

/-- A list fails with a text that names the archive, or without a text at an entry of the archive that
cannot be opened. -/
theorem message?_of_names (h : names d archive = .error e) :
    (∃ doing, e.message? = some (doing ++ archive.text)) ∨
      ∃ bytes entries, directory d archive = .ok (bytes, entries) ∧
        ∃ entry ∈ entries, entry.open? bytes = none ∧ e = .notListed archive entry.name ∧
          e.message? = none := by
  unfold names at h
  split at h
  · next e' hdirectory => exact .inl (message?_of_directory (Except.error.inj h ▸ hdirectory))
  · next bytes entries hdirectory =>
    split at h
    · next entry hentry =>
      have hclosed := List.find?_some hentry
      rw [← Except.error.inj h]
      exact .inr ⟨bytes, entries, hdirectory, entry, List.mem_of_find?_eq_some hentry,
        Option.isNone_iff_eq_none.mp hclosed, rfl, rfl⟩
    · cases h

end Archive

namespace Classpath

open Archive (Entry)

variable {d d' : Disk} {bytes : ByteArray} {entries : List Entry}

/-- The locations of a class path that was built are indexed on the disk that it was built from. -/
theorem eq_of_mem_indexed {env : Environment} {dependencies : List Path} {c : Context}
    (h : Context.build d env dependencies = .ok c) {i : IndexedLocation} (hi : i ∈ c.indexed) :
    i = IndexedLocation.of d i.location := by
  cases hw : d.workingDirectory with
  | removed parent => simp [Context.build, hw] at h
  | present here =>
    rw [build_of_present hw] at h
    rw [← Except.ok.inj h] at hi
    obtain ⟨l, -, rfl⟩ := List.mem_map.mp hi
    rfl

/-- What an index answers for a name: what the archive reads, if the index has the name. -/
theorem ArchiveIndex.read?_eq (i : ArchiveIndex) (d : Disk) (name : String) :
    i.read? d name = if i.inside ++ name ∈ i.entries
      then (Archive.read d i.path (i.inside ++ name)).toOption.join else none := by
  unfold ArchiveIndex.read?
  simp only [List.contains_iff_mem]
  split
  · split
    · next content hread => rw [hread]; rfl
    · next e hread => rw [hread]; rfl
  · rfl

/-- The index of an archive all of whose entries can be opened agrees with the archive. -/
theorem read?_of_all_open {l : Location} {name : String} (harchive : l.isDirectory = false)
    (hdirectory : Archive.directory d l.path = .ok (bytes, entries))
    (hsame : d'.contents l.path = d.contents l.path)
    (hopen : ∀ e ∈ entries, (e.open? bytes).isSome = true)
    (hname : ∀ e ∈ entries, e.name = name → e.isDirectory = false) :
    (IndexedLocation.of d l).read? d' name = (Archive.read d' l.path name).toOption.join := by
  have hindex : (IndexedLocation.of d l).index =
      some ⟨l.path, "", (entries.filter fun e => !e.isDirectory).map (·.name)⟩ :=
    index_of_eq_some.mpr ⟨harchive, Archive.isFile_of_directory hdirectory, rfl, rfl,
      Archive.names_of_all_open hdirectory hopen⟩
  have hlocation : (IndexedLocation.of d l).location.isDirectory = false := harchive
  have hempty : "" ++ name = name := String.empty_append
  unfold IndexedLocation.read?
  rw [hindex, hlocation, Option.bind_some, ArchiveIndex.read?_eq, hempty]
  simp only [Bool.false_eq_true, if_false]
  split
  · rfl
  · next hmissing =>
    -- What the index lacks is the name of no entry, since it is not that of a directory.
    have hno : ∀ e ∈ entries, e.name ≠ name := by
      rintro e he rfl
      apply hmissing
      rw [List.mem_map]
      exact ⟨e, List.mem_filter.mpr ⟨he, by rw [hname e he rfl, Bool.not_false]⟩, rfl⟩
    rw [Archive.read_congr hsame, Archive.read_of_directory hdirectory, Archive.lookup?_of_no_entry hno]

/-- Behind an entry that cannot be opened the whole archive is out of sight. -/
theorem read?_of_not_open {l : Location} (harchive : l.isDirectory = false)
    (hdirectory : Archive.directory d l.path = .ok (bytes, entries))
    (hclosed : ∃ e ∈ entries, e.open? bytes = none) (name : String) :
    (IndexedLocation.of d l).read? d' name = none := by
  have hindex : (IndexedLocation.of d l).index = none := by
    obtain ⟨entry, hnames⟩ := Archive.names_of_not_open hdirectory hclosed
    apply Option.eq_none_iff_forall_ne_some.mpr
    intro index hsome
    obtain ⟨-, -, -, -, hok⟩ := index_of_eq_some.mp hsome
    rw [hnames] at hok
    cases hok
  have hlocation : (IndexedLocation.of d l).location.isDirectory = false := harchive
  unfold IndexedLocation.read?
  rw [hindex, hlocation]
  rfl

/-- **The index against the archive.** Take any location of a class path that was built whose archive
can be read, and any later disk on which the file has the same bytes. If every entry of the archive can
be opened, each name that is not that of a directory is looked up with the bytes that the archive reads
for it, and with nothing where the archive has no such entry or fails to read it. If some entry cannot
be opened, nothing is found in the location, whatever the archive reads. -/
theorem read?_of_archive {env : Environment} {dependencies : List Path} {c : Context}
    {i : IndexedLocation} (hbuild : Context.build d env dependencies = .ok c) (hi : i ∈ c.indexed)
    (harchive : i.location.isDirectory = false)
    (hdirectory : Archive.directory d i.location.path = .ok (bytes, entries))
    (hsame : d'.contents i.location.path = d.contents i.location.path) :
    ((∀ e ∈ entries, (e.open? bytes).isSome = true) →
      ∀ name, (∀ e ∈ entries, e.name = name → e.isDirectory = false) →
        i.read? d' name = (Archive.read d' i.location.path name).toOption.join) ∧
    ((∃ e ∈ entries, e.open? bytes = none) → ∀ name, i.read? d' name = none) := by
  rw [eq_of_mem_indexed hbuild hi]
  refine ⟨fun hopen name hname => ?_, fun hclosed name => ?_⟩
  · exact read?_of_all_open harchive hdirectory hsame hopen hname
  · exact read?_of_not_open harchive hdirectory hclosed name

namespace Sample

/-- A number in bytes, the lowest first. -/
def little : Nat → Nat → List UInt8
  | 0, _ => []
  | width + 1, n => UInt8.ofNat n :: little width (n / 256)

/-- The fields of a record, each with its width. -/
def fields (values : List (Nat × Nat)) : List UInt8 := values.flatMap fun (width, n) => little width n

/-- An entry without data. -/
structure Member where
  name : String
  /-- The lowest bit is that of encryption. -/
  flags : Nat

/-- The local header of a member. -/
def Member.stored (m : Member) : List UInt8 :=
  fields [(4, 0x04034B50), (2, 20), (2, m.flags), (2, 0), (4, 0), (4, 0), (4, 0), (4, 0),
    (2, m.name.length), (2, 0)] ++ m.name.toUTF8.data.toList

/-- The header of a member in the directory. -/
def Member.listed (m : Member) (offset : Nat) : List UInt8 :=
  fields [(4, 0x02014B50), (2, 20), (2, 20), (2, m.flags), (2, 0), (4, 0), (4, 0), (4, 0), (4, 0),
    (2, m.name.length), (2, 0), (2, 0), (2, 0), (2, 0), (4, 0), (4, offset)] ++ m.name.toUTF8.data.toList

/-- The directory of members that are stored from an offset on. -/
def directoryFrom : Nat → List Member → List UInt8
  | _, [] => []
  | offset, m :: ms => m.listed offset ++ directoryFrom (offset + m.stored.length) ms

/-- An archive of members. -/
def archive (ms : List Member) : ByteArray :=
  let stored := ms.flatMap Member.stored
  let directory := directoryFrom 0 ms
  ⟨⟨stored ++ directory ++ fields [(4, 0x06054B50), (2, 0), (2, 0), (2, ms.length), (2, ms.length),
    (4, directory.length), (4, stored.length), (2, 0)]⟩⟩

/-- An archive with one entry. -/
def openArchive : ByteArray := archive [⟨"a", 0⟩]

/-- An archive with the same entry, and an encrypted one beside it. -/
def lockedArchive : ByteArray := archive [⟨"a", 0⟩, ⟨"b", 1⟩]

/-- The open archive as a location. -/
def openJar : Location := ⟨"file:///o.jar", ⟨"/o.jar"⟩, false⟩

/-- The locked archive as a location. -/
def lockedJar : Location := ⟨"file:///l.jar", ⟨"/l.jar"⟩, false⟩

/-- A disk with both archives. -/
def shelf : Disk :=
  ⟨[(["o.jar"], .file openArchive 1), (["l.jar"], .file lockedArchive 1)], .present [], 2⟩

/-- The disk at a later time, with one more file. -/
def later : Disk := shelf.store ["y"] .empty

theorem contents_shelf : shelf.contents openJar.path = .ok openArchive ∧
    shelf.contents lockedJar.path = .ok lockedArchive :=
  ⟨rfl, rfl⟩

theorem contents_later : later.contents openJar.path = shelf.contents openJar.path ∧
    later.contents lockedJar.path = shelf.contents lockedJar.path := by
  have hlater : later.contents openJar.path = .ok openArchive ∧
      later.contents lockedJar.path = .ok lockedArchive := ⟨rfl, rfl⟩
  exact ⟨hlater.1.trans contents_shelf.1.symm, hlater.2.trans contents_shelf.2.symm⟩

/-- An archive on the disk whose entries are as they are asked to be can be read. -/
theorem exists_directory {path : Path} {bytes : ByteArray} {p : List Entry → Prop} [DecidablePred p]
    (hcontents : shelf.contents path = .ok bytes)
    (h : (Archive.entries? bytes).any (fun entries => decide (p entries)) = true) :
    ∃ entries, Archive.directory shelf path = .ok (bytes, entries) ∧ p entries := by
  obtain ⟨entries, hentries, hp⟩ := (Option.any_eq_true _ _).mp h
  refine ⟨entries, ?_, of_decide_eq_true hp⟩
  unfold Archive.directory Archive.load
  simp only [hcontents, hentries]

theorem exists_open : ∃ entries, Archive.directory shelf openJar.path = .ok (openArchive, entries) ∧
    (∀ e ∈ entries, (e.open? openArchive).isSome = true) ∧
    (∀ e ∈ entries, e.isDirectory = false) ∧
    Archive.lookup? openArchive entries "a" = some .empty ∧
    Archive.lookup? openArchive entries "x" = none :=
  exists_directory contents_shelf.1 (by decide +kernel)

theorem exists_locked : ∃ entries, Archive.directory shelf lockedJar.path = .ok (lockedArchive, entries) ∧
    (∃ e ∈ entries, e.open? lockedArchive = none) ∧
    (∀ e ∈ entries, e.isDirectory = false) ∧
    Archive.lookup? lockedArchive entries "a" = some .empty :=
  exists_directory contents_shelf.2 (by decide +kernel)

theorem read_lockedJar : (Archive.read later lockedJar.path "a").toOption.join = some .empty := by
  obtain ⟨entries, hdirectory, -, -, hlookup⟩ := exists_locked
  rw [Archive.read_congr contents_later.2, Archive.read_of_directory hdirectory, hlookup]

/-- The class path of both. -/
def shelved : Context := ⟨[openJar, lockedJar].map (IndexedLocation.of shelf), none⟩

theorem build_shelf :
    Context.build shelf ⟨[], [], none, false, none⟩ [⟨"/o.jar"⟩, ⟨"/l.jar"⟩] = .ok shelved := by
  have hpresent : shelf.workingDirectory = .present [] := rfl
  have hlocations : firsts (considered shelf ⟨[], [], none, false, none⟩ [⟨"/o.jar"⟩, ⟨"/l.jar"⟩]) =
      [openJar, lockedJar] := rfl
  rw [build_of_present hpresent, hlocations]
  rfl

theorem mem_shelved : IndexedLocation.of shelf openJar ∈ shelved.indexed ∧
    IndexedLocation.of shelf lockedJar ∈ shelved.indexed :=
  ⟨List.mem_cons_self, List.mem_cons_of_mem _ List.mem_cons_self⟩

/-- From the open archive its entry is read, and a name that is not there has nothing. From the locked
one nothing is found, though the archive reads the entry that is not encrypted. -/
theorem read?_of_archive_shelf :
    Context.build shelf ⟨[], [], none, false, none⟩ [⟨"/o.jar"⟩, ⟨"/l.jar"⟩] = .ok shelved ∧
      (∃ i ∈ shelved.indexed, i.location = openJar ∧
        i.read? later "a" = some .empty ∧ i.read? later "x" = none) ∧
      ∃ i ∈ shelved.indexed, i.location = lockedJar ∧ i.read? later "a" = none ∧
        (Archive.read later i.location.path "a").toOption.join = some .empty := by
  obtain ⟨entries, hdirectory, hopen, hfiles, ha, hx⟩ := exists_open
  obtain ⟨entries', hdirectory', hclosed, -⟩ := exists_locked
  obtain ⟨hagree, -⟩ := read?_of_archive build_shelf mem_shelved.1 rfl hdirectory contents_later.1
  obtain ⟨-, hhidden⟩ := read?_of_archive build_shelf mem_shelved.2 rfl hdirectory' contents_later.2
  have hread : ∀ name, (IndexedLocation.of shelf openJar).read? later name =
      Archive.lookup? openArchive entries name := by
    intro name
    rw [hagree hopen name fun e he _ => hfiles e he]
    rw [← Archive.read_of_directory hdirectory, ← Archive.read_congr contents_later.1]
    rfl
  exact ⟨build_shelf, ⟨_, mem_shelved.1, rfl, (hread "a").trans ha, (hread "x").trans hx⟩,
    _, mem_shelved.2, rfl, hhidden hclosed "a", read_lockedJar⟩

/-- The index does not agree with every archive that can be read: an encrypted entry hides the others. -/
theorem not_forall_read?_eq_read :
    ¬ ∀ (d d' : Disk) (env : Environment) (dependencies : List Path) (c : Context) (i : IndexedLocation)
        (bytes : ByteArray) (entries : List Entry) (name : String),
      Context.build d env dependencies = .ok c → i ∈ c.indexed → i.location.isDirectory = false →
      Archive.directory d i.location.path = .ok (bytes, entries) →
      d'.contents i.location.path = d.contents i.location.path →
      (∀ e ∈ entries, e.name = name → e.isDirectory = false) →
      i.read? d' name = (Archive.read d' i.location.path name).toOption.join := by
  intro hall
  obtain ⟨entries, hdirectory, hclosed, hfiles, -⟩ := exists_locked
  have hagree := hall shelf later _ _ shelved (IndexedLocation.of shelf lockedJar) _ entries "a"
    build_shelf mem_shelved.2 rfl hdirectory contents_later.2 fun e he _ => hfiles e he
  have hhidden : (IndexedLocation.of shelf lockedJar).read? later "a" = none :=
    read?_of_not_open rfl hdirectory hclosed "a"
  have hread := hhidden.symm.trans (hagree.trans read_lockedJar)
  simp at hread

end Sample

end Classpath
end FormWeaver
