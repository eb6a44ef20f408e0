import FormWeaver.Proofs.Cache.Replacement
import FormWeaver.Proofs.Disk.Directories

/-!
# Writing a cache is atomic

A cache is written in steps, and each may fail: the directories on the way are made, the text is put next
to the file, and it takes the file's name. Whatever fails, the file reads as before, and whatever
succeeds, nothing but the file and its temporary sibling has changed, new directories apart
(`write_atomic`). Places are told on the disk with the directories made, as a path may not lead anywhere
before.

What links do is shown by three small disks at the end.
-/

namespace FormWeaver

namespace CacheFile

open Disk (EndsIn Leads)

variable {f : CacheFile} {d d' : Disk} {q : Place}

/-- The sibling has a name of its own. -/
theorem exists_endsIn_temporary (f : CacheFile) :
    ∃ sibling, EndsIn f.temporary sibling ∧ ∀ name, EndsIn f.path name → sibling ≠ name := by
  obtain ⟨before, last, hpath, hpieces⟩ :=
    Path.exists_pieces_append (by decide : '/' ∉ ".tmp".toList) f.path.text
  have hsuffix : ".tmp".toList <:+ (last ++ ".tmp").toList := by
    rw [String.toList_append]
    exact List.suffix_append _ _
  refine ⟨last ++ ".tmp", ⟨⟨?_, ?_, ?_⟩, before, hpieces⟩, ?_⟩
  · intro h
    rw [h] at hsuffix
    exact absurd hsuffix (by decide)
  · intro h
    rw [h] at hsuffix
    exact absurd hsuffix (by decide)
  · intro h
    rw [h] at hsuffix
    exact absurd hsuffix (by decide)
  · rintro name ⟨-, before', hname⟩ h
    have hlast : last = name := by
      have hboth : before ++ [last] = before' ++ [name] := hpath.symm.trans hname
      exact (List.cons.inj (List.append_inj' hboth rfl).2).1
    have hlength := congrArg (fun s => s.toList.length) (h.trans hlast.symm)
    simp at hlength

theorem spot?_of_leads {p : Path} {there : Place} {name : String} (h : d.Leads p there name)
    (hname : Disk.IsStep name) (hsize : name.utf8ByteSize ≤ Disk.maxName) :
    d.spot? false p = some (there ++ [name]) := by
  cases hn : d.node? (there ++ [name]) with
  | none => exact Disk.spot?_of_walk (h.walk_gap hname hsize hn)
  | some n => exact Disk.spot?_of_walk (h.walk_node false hname hsize hn (.inl rfl))

/-! ## Replacing the file -/

section Replace

variable {sibling text : String} {above : Place}

/-- What has been put next to the file and taken away again leaves all else as it was. -/
theorem node?_erase_store (hq : q ≠ above ++ [sibling]) (bytes : ByteArray) :
    ((d.store (above ++ [sibling]) bytes).erase (above ++ [sibling])).node? q = d.node? q := by
  rw [Disk.node?_erase _ _ _ (by simp), if_neg hq, Disk.node?_store _ _ _ _ (by simp), if_neg hq]

/-- A file that is taken away can be put back. -/
theorem grows_of_erase {place : Place} {bytes : ByteArray} {time : Int}
    (h : d.node? place = some (.file bytes time)) : (d.erase place).Grows d := by
  have hne := Disk.ne_nil_of_file h
  have hkeep : ∀ r n, (d.erase place).node? r = some n → d.node? r = some n :=
    fun _ _ hr => (Disk.node?_of_erase hne hr).2
  refine ⟨rfl, fun r hr => hkeep r _ hr, fun r b t hr => ⟨b, t, hkeep r _ hr⟩, fun r target => ?_⟩
  refine ⟨fun hr => ?_, hkeep r _⟩
  rw [Disk.node?_erase _ _ _ hne, if_neg]
  · exact hr
  · rintro rfl
    rw [h] at hr
    cases hr

/-- A disk on which the path of a file leads to it lets the file be replaced, also once it has grown. -/
theorem rename_of_isFile {name : String} {source : Path} {place : Place} {bytes : ByteArray} {time : Int}
    (hname : EndsIn f.path name) (hfile : d.isFile f.path = true) (hg : d.Grows d')
    (hs : d'.walk false source = .ok (.node place (.file bytes time))) :
    ∃ d'', d'.rename source f.path = .ok d'' := by
  obtain ⟨q, b, t, hw⟩ := Disk.isFile_iff.mp hfile
  obtain ⟨there, hleads, hsize, ⟨-, hgap⟩ | ⟨n, hn, hend⟩⟩ := Disk.walk_cases hname hw
  · cases hgap
  -- What the last name stands for is a file or a link, and no directory.
  have hkind : ∃ n', d'.node? (there ++ [name]) = some n' ∧ n' ≠ .directory := by
    rcases hend with hnode | ⟨-, target, rfl⟩
    · obtain rfl : n = .file b t := by
        simp only [Disk.Found.node.injEq] at hnode
        exact hnode.2.symm
      obtain ⟨b', t', hn'⟩ := hg.file _ _ _ hn
      exact ⟨_, hn', by simp⟩
    · exact ⟨_, (hg.link _ _).mpr hn, by simp⟩
  obtain ⟨n', hn', hdir⟩ := hkind
  have hw' := (hleads.grows hg).walk_node false hname.1 hsize hn' (.inl rfl)
  unfold Disk.rename
  rw [hs, hw']
  cases n' with
  | directory => exact absurd rfl hdir
  | file b' t' =>
    simp only
    split <;> exact ⟨_, rfl⟩
  | link target =>
    simp only
    split <;> exact ⟨_, rfl⟩

/-- Only what has a name can be replaced. -/
theorem exists_endsIn_of_rename {source : Path} (h : d.rename source f.path = .ok d') :
    ∃ name, EndsIn f.path name := by
  by_contra hno
  obtain ⟨e, he⟩ := Disk.rename_of_unnamed (not_exists.mp hno) d source
  rw [h] at he
  cases he

/-- The text takes the place that the path of the file names, if any. -/
theorem spot?_of_rename {name : String} (hname : EndsIn f.path name) {there : Place} {bytes : ByteArray}
    (hleads : (d.store (above ++ [sibling]) bytes).Leads f.path there name)
    (hsize : name.utf8ByteSize ≤ Disk.maxName) : d.spot? false f.path = some (there ++ [name]) :=
  spot?_of_leads (hleads.of_store (by simp)) hname.1 hsize

/-- **What replacing the file keeps**: all but the place of the sibling, and that of the file if it is
replaced. -/
theorem node?_replace_of_links (hsibling : EndsIn f.temporary sibling) (hplain : f.HasPlainSibling d)
    (hq : d.spot? false f.temporary ≠ some q)
    (hq' : (f.replace d text).2 = true → d.spot? false f.path ≠ some q) :
    (f.replace d text).1.node? q = d.node? q := by
  rcases replace_cases hsibling hplain text with h |
      ⟨above, hleads, hsize, -, hsource, hdone⟩
  · rw [h]
  have hplace : q ≠ above ++ [sibling] := by
    rintro rfl
    exact hq (spot?_of_leads hleads hsibling.1 hsize)
  rcases hdone with ⟨e, -, h⟩ | ⟨d₂, hrename, h⟩
  · rw [h]
    exact node?_erase_store hplace _
  · rw [h] at hq' ⊢
    obtain ⟨name, hname⟩ := exists_endsIn_of_rename hrename
    obtain ⟨there, hthere, hlen, -, -, hnodes⟩ := rename_cases hname hsource hrename
    have hfile : q ≠ there ++ [name] := by
      rintro rfl
      exact hq' rfl (spot?_of_rename hname hthere hlen)
    rw [hnodes, if_neg hfile, if_neg hplace, Disk.node?_store _ _ _ _ (by simp), if_neg hplace]

/-- A text cannot be put where a directory stands. -/
theorem replace_of_isDirectory (h : d.isDirectory f.temporary = true) : f.replace d text = (d, false) := by
  unfold replace
  rw [Disk.writeFile_of_isDirectory h]

/-- Once the file has been replaced, nothing is left at its sibling. -/
theorem walk_temporary_of_replace (hsibling : EndsIn f.temporary sibling)
    (hown : ∀ name, EndsIn f.path name → sibling ≠ name) (hplain : f.HasPlainSibling d)
    (h : (f.replace d text).2 = true) (follow : Bool) (place : Place) (n : Node) :
    (f.replace d text).1.walk follow f.temporary ≠ .ok (.node place n) := by
  rcases replace_cases hsibling hplain text with hfail |
      ⟨above, hleads, hsize, hold, hsource, ⟨e, -, hfail⟩ | ⟨d₂, hrename, hdone⟩⟩
  · rw [hfail] at h
    cases h
  · rw [hfail] at h
    cases h
  · rw [hdone]
    have hg : d.Grows (d.store (above ++ [sibling]) text.toUTF8) := Disk.grows_store (by simp) hold
    generalize d.store (above ++ [sibling]) text.toUTF8 = d₁ at *
    obtain ⟨name, hname⟩ := exists_endsIn_of_rename hrename
    obtain ⟨there, -, -, -, hwork, hnodes⟩ := rename_cases hname hsource hrename
    -- What stands anywhere but at the file stood there before, and nothing stands at the sibling.
    have hback : ∀ r n, r ≠ there ++ [name] → d₂.node? r = some n →
        r ≠ above ++ [sibling] ∧ d₁.node? r = some n := by
      intro r n hr hn
      rw [hnodes, if_neg hr] at hn
      split at hn
      · cases hn
      · next hr' => exact ⟨hr', hn⟩
    have hfile : ∀ r n, (∀ b t, n ≠ .file b t) → d₂.node? r = some n → d₁.node? r = some n := by
      intro r n hn hr
      refine (hback r n ?_ hr).2
      rintro rfl
      rw [hnodes, if_pos rfl] at hr
      exact hn _ _ (Option.some.inj hr).symm
    intro hw
    obtain ⟨there', hleads', -, ⟨-, hgap⟩ | ⟨n', hn', -⟩⟩ := Disk.walk_cases hsibling hw
    · cases hgap
    · have hne : there' ++ [sibling] ≠ there ++ [name] := fun heq =>
        hown name hname (List.cons.inj (List.append_inj' heq rfl).2).1
      obtain ⟨hplace, hn₁⟩ := hback _ _ hne hn'
      have hleads₁ : d₁.Leads f.temporary there' sibling :=
        hleads'.mono hwork.symm (fun r hr => hfile r _ (by simp) hr) fun r t hr => hfile r _ (by simp) hr
      have hstored := Disk.node?_of_walk hsource (by simp)
      exact hplace (by rw [hleads₁.unique (hleads.grows hg) hsibling.1 hsize hn₁ hstored])

theorem exists_endsIn_of_replace (hsibling : EndsIn f.temporary sibling) (hplain : f.HasPlainSibling d)
    (h : (f.replace d text).2 = true) : ∃ name, EndsIn f.path name := by
  rcases replace_cases hsibling hplain text with hfail |
      ⟨above, -, -, -, -, ⟨e, -, hfail⟩ | ⟨d₂, hrename, -⟩⟩
  · rw [hfail] at h
    cases h
  · rw [hfail] at h
    cases h
  · exact exists_endsIn_of_rename hrename

/-- A file that is not replaced reads as before. -/
theorem read_of_replace_false (hsibling : EndsIn f.temporary sibling) (hplain : f.HasPlainSibling d)
    (h : (f.replace d text).2 = false) : f.read (f.replace d text).1 = f.read d := by
  by_cases hname : ∃ name, EndsIn f.path name
  · obtain ⟨name, hname⟩ := hname
    rcases replace_cases hsibling hplain text with hfail |
        ⟨above, hleads, hsize, hold, hsource, ⟨e, hrename, hfail⟩ | ⟨d₂, -, hdone⟩⟩
    · rw [hfail]
    · -- The path of the file leads to none, neither before nor after, or it could be replaced.
      have hg : d.Grows (d.store (above ++ [sibling]) text.toUTF8) := Disk.grows_store (by simp) hold
      have hno : ∀ d₀ : Disk, d₀.Grows (d.store (above ++ [sibling]) text.toUTF8) →
          f.read d₀ = .empty := by
        intro d₀ hg₀
        apply read_of_not_isFile
        rw [← Bool.not_eq_true]
        intro hfile
        obtain ⟨d₂, hd₂⟩ := rename_of_isFile hname hfile hg₀ hsource
        rw [hrename] at hd₂
        cases hd₂
      rw [hfail, hno d hg, hno _ (grows_of_erase (Disk.node?_of_walk hsource (by simp)))]
    · rw [hdone] at h
      cases h
  · have hno := fun d => read_of_not_isFile (Disk.isFile_of_unnamed (not_exists.mp hname) d)
    rw [hno, hno]

end Replace

/-! ## Writing -/

/-- **Writing a cache is atomic**, if no link stands at the temporary sibling once the directories on the
way have been made. Nothing changes but the place of the sibling, that of the file when it is written,
and free places at which directories are made. A cache that is written is read back, unless the way to
the file leads through a link that the file replaces, and nothing is left at the sibling. When writing
fails, the file reads as it did once the directories had been made, and if its directory was there, as
before. -/
theorem write_atomic (f : CacheFile) (d : Disk) {c : Cache} (hc : c.Distinct)
    (hplain : f.HasPlainSibling (d.prepare f.path)) :
    (∀ q, (d.prepare f.path).spot? false f.temporary ≠ some q →
      ((f.write d c).2 = true → (d.prepare f.path).spot? false f.path ≠ some q) →
      Disk.KeepsAt (fun _ => True) d (f.write d c).1 q) ∧
    ((f.write d c).2 = true →
      (f.HasOwnWay (d.prepare f.path) → (f.read (f.write d c).1).entries.Perm c.entries) ∧
      ∀ follow place n, (f.write d c).1.walk follow f.temporary ≠ .ok (.node place n)) ∧
    ((f.write d c).2 = false →
      f.read (f.write d c).1 = f.read (d.prepare f.path) ∧
      ((∀ q, f.path.parent? = some q → q.text.isEmpty = true ∨ d.isDirectory q = true) →
        f.read (f.write d c).1 = f.read d)) := by
  obtain ⟨sibling, hsibling, hother⟩ := f.exists_endsIn_temporary
  have hprepared : (∀ q, f.path.parent? = some q → q.text.isEmpty = true ∨ d.isDirectory q = true) →
      f.read (d.prepare f.path) = f.read d := fun h => by rw [Disk.prepare_of_isDirectory h]
  rcases f.write_cases d c with h | h
  · rw [h]
    exact ⟨fun q _ _ => Disk.keepsAt_prepare_of_links d f.path q, nofun, fun _ => ⟨rfl, hprepared⟩⟩
  · rw [h]
    refine ⟨fun q hq hq' => ?_, fun hw => ⟨fun hown => ?_, ?_⟩, fun hw => ?_⟩
    · exact (Disk.keepsAt_prepare_of_links d f.path q).trans
        (.inl (node?_replace_of_links hsibling hplain hq hq'))
    · obtain ⟨name, hname⟩ := exists_endsIn_of_replace hsibling hplain hw
      exact read_of_replace hname hsibling hplain hown hc (Prod.ext rfl hw)
    · exact walk_temporary_of_replace hsibling hother hplain hw
    · have hread := read_of_replace_false hsibling hplain hw
      exact ⟨hread, fun hdir => hread.trans (hprepared hdir)⟩

/-! ## Small disks -/

namespace Sample

def entry : CacheEntry := ⟨⟨"/z.form"⟩, 1, ⟨"/C.class"⟩, 2⟩

def cache : Cache := ⟨[entry]⟩

theorem distinct_cache : cache.Distinct := List.pairwise_singleton _ _

/-- On an empty disk a cache is written and read back, and all else is as it was but for the directory
of the file. -/
theorem write_atomic_fresh :
    cache.Distinct ∧ (⟨⟨"/b/c"⟩⟩ : CacheFile).HasPlainSibling (Disk.prepare ⟨[], .present [], 0⟩ ⟨"/b/c"⟩) ∧
      (CacheFile.write ⟨⟨"/b/c"⟩⟩ ⟨[], .present [], 0⟩ cache).2 = true ∧
      (CacheFile.read ⟨⟨"/b/c"⟩⟩ (CacheFile.write ⟨⟨"/b/c"⟩⟩ ⟨[], .present [], 0⟩ cache).1).entries.Perm
        cache.entries := by
  have hsibling : (Disk.prepare ⟨[], .present [], 0⟩ ⟨"/b/c"⟩).walk false
      (⟨⟨"/b/c"⟩⟩ : CacheFile).temporary = .ok (.gap ["b"] "c.tmp" false) := by
    unfold Disk.prepare
    decide +kernel
  have hfile : (Disk.prepare ⟨[], .present [], 0⟩ ⟨"/b/c"⟩).walk false (⟨⟨"/b/c"⟩⟩ : CacheFile).path =
      .ok (.gap ["b"] "c" false) := by
    unfold Disk.prepare
    decide +kernel
  have hplain : (⟨⟨"/b/c"⟩⟩ : CacheFile).HasPlainSibling
      (Disk.prepare ⟨[], .present [], 0⟩ ⟨"/b/c"⟩) := by
    intro place target hw
    rw [hsibling] at hw
    cases hw
  have hwritten : (CacheFile.write ⟨⟨"/b/c"⟩⟩ ⟨[], .present [], 0⟩ cache).2 = true := by decide +kernel
  obtain ⟨-, hsuccess, -⟩ := write_atomic ⟨⟨"/b/c"⟩⟩ ⟨[], .present [], 0⟩ distinct_cache hplain
  refine ⟨distinct_cache, hplain, hwritten, (hsuccess hwritten).1 fun place target hw => ?_⟩
  rw [hfile] at hw
  cases hw

/-- The way to the file leads through a link that has the file's name and place. -/
def throughItself : Disk :=
  ⟨[(["t"], .directory), (["t", "c"], .link "../u"), (["u"], .directory)], .present [], 0⟩

/-- The file is there and a directory stands at its sibling, but on the way that is spelled a directory
is missing. -/
def detour : Disk :=
  ⟨[(["c"], .file (Cache.encode cache).toUTF8 0), (["c.tmp"], .directory)], .present [], 0⟩

/-- The text cannot be written to the sibling, but not before the missing directory has been made, through
which the file is found then. -/
theorem write_detour : (CacheFile.write ⟨⟨"/m/../c"⟩⟩ detour cache).2 = false ∧
    detour.isFile ⟨"/m/../c"⟩ = false ∧
    (∃ time, (CacheFile.write ⟨⟨"/m/../c"⟩⟩ detour cache).1.walk true ⟨"/m/../c"⟩ =
      .ok (.node ["c"] (.file (Cache.encode cache).toUTF8 time))) ∧
    ∀ follow, detour.walk follow (⟨⟨"/m/../c"⟩⟩ : CacheFile).temporary = .error .notFound := by
  have hfacts : (detour.prepare ⟨"/m/../c"⟩).isDirectory (⟨⟨"/m/../c"⟩⟩ : CacheFile).temporary = true ∧
      (detour.prepare ⟨"/m/../c"⟩).isFile ⟨"/m/../c"⟩ = true ∧
      (detour.prepare ⟨"/m/../c"⟩).identity? ⟨"/m/../c"⟩ = some ["c"] := by
    unfold Disk.prepare
    decide +kernel
  obtain ⟨hdirectory, hfile, hplace⟩ := hfacts
  have hfailed : CacheFile.write ⟨⟨"/m/../c"⟩⟩ detour cache = (detour.prepare ⟨"/m/../c"⟩, false) := by
    rcases write_cases ⟨⟨"/m/../c"⟩⟩ detour cache with h | h
    · exact h
    · rw [h, replace_of_isDirectory hdirectory]
  rw [hfailed]
  refine ⟨rfl, by decide +kernel, ?_, by decide +kernel⟩
  -- The file that is found is the one that was there.
  obtain ⟨place, bytes, time, hw⟩ := Disk.isFile_iff.mp hfile
  obtain rfl : place = ["c"] := Option.some.inj ((Disk.identity?_of_walk hw).symm.trans hplace)
  have hnode := (Disk.keepsAt_prepare_of_links _ _ _).file (Disk.node?_of_walk hw (by simp))
  obtain ⟨rfl, -⟩ := Node.file.inj (Option.some.inj
    ((show detour.node? ["c"] = some (.file (Cache.encode cache).toUTF8 0) from rfl).symm.trans hnode))
  exact ⟨time, hw⟩

/-- A link stands at the sibling, to which there is no way before a directory has been made. -/
def hiddenLink : Disk := ⟨[(["x"], .file .empty 0), (["c.tmp"], .link "/x")], .present [], 0⟩

/-- Whether nothing but a file stands at the temporary sibling. -/
def IsFreeOrFile (f : CacheFile) (d : Disk) : Prop :=
  ∀ follow place n, d.walk follow f.temporary = .ok (.node place n) → ∃ bytes time, n = .file bytes time

/-- What is written is not always read back, a file that could not be written may read otherwise than
before, and a file elsewhere may be written. -/
theorem write_not_atomic :
    (¬ ∀ (f : CacheFile) (d : Disk) (c : Cache), c.Distinct → IsFreeOrFile f d →
      (f.write d c).2 = true → (f.read (f.write d c).1).entries.Perm c.entries) ∧
    (¬ ∀ (f : CacheFile) (d : Disk) (c : Cache), c.Distinct → IsFreeOrFile f d →
      (f.write d c).2 = false → f.read (f.write d c).1 = f.read d) ∧
    ¬ ∀ (f : CacheFile) (d : Disk) (c : Cache), c.Distinct → IsFreeOrFile f d →
      ∀ q, d.spot? false f.temporary ≠ some q → d.spot? false f.path ≠ some q →
        Disk.KeepsAt (fun _ => True) d (f.write d c).1 q := by
  refine ⟨fun h => ?_, fun h => ?_, fun h => ?_⟩
  · have hgap : ∀ follow, throughItself.walk follow (⟨⟨"/t/c/../t/c"⟩⟩ : CacheFile).temporary =
        .ok (.gap ["t"] "c.tmp" false) := by decide +kernel
    have hlost : (CacheFile.write ⟨⟨"/t/c/../t/c"⟩⟩ throughItself cache).1.isFile ⟨"/t/c/../t/c"⟩ =
        false := by decide +kernel
    have hperm := h ⟨⟨"/t/c/../t/c"⟩⟩ throughItself cache distinct_cache
      (fun follow place n hw => by rw [hgap] at hw; cases hw) (by decide +kernel)
    rw [read_of_not_isFile hlost] at hperm
    exact absurd hperm.length_eq (by decide)
  · obtain ⟨hfailed, hbefore, ⟨time, hafter⟩, hmissing⟩ := write_detour
    have heq := h ⟨⟨"/m/../c"⟩⟩ detour cache distinct_cache
      (fun follow place n hw => by rw [hmissing] at hw; cases hw) hfailed
    have hperm := read_of_walk distinct_cache hafter
    rw [heq, read_of_not_isFile hbefore] at hperm
    exact absurd hperm.length_eq (by decide)
  · have hmissing : ∀ follow, hiddenLink.walk follow (⟨⟨"/m/../c"⟩⟩ : CacheFile).temporary =
        .error .notFound := by decide +kernel
    have hkept := h ⟨⟨"/m/../c"⟩⟩ hiddenLink cache distinct_cache
      (fun follow place n hw => by rw [hmissing] at hw; cases hw) ["x"] (by decide +kernel)
      (by decide +kernel)
    rcases hkept with hsame | ⟨-, hnone, -⟩
    · exact absurd hsame (by decide +kernel)
    · exact absurd hnone (by decide +kernel)

end Sample

end CacheFile
end FormWeaver
