import FormWeaver.Cache.Store
import FormWeaver.Proofs.Cache.Codec
import FormWeaver.Proofs.Disk.Growth
import FormWeaver.Proofs.Path.Child
import FormWeaver.Text.Utf8

/-!
# Writing a cache and reading it back

A cache that was written is read back, provided that no link stands where its text is first put, and
that the way to the file does not lead through a link which the file replaces. A disk on which this
cannot happen is *clear* for the cache file (`IsClear`); it stays clear while it grows.
-/

namespace FormWeaver

namespace Disk

variable {d d' : Disk}

/-! ## Single operations -/

theorem workingDirectory_rename {p q : Path} (h : d.rename p q = .ok d') :
    d'.workingDirectory = d.workingDirectory := by
  unfold rename at h
  split at h <;> try cases h
  · split at h <;> cases h <;> rfl
  · split at h <;> cases h
    rfl

theorem workingDirectory_removeFile {p : Path} (h : d.removeFile p = .ok d') :
    d'.workingDirectory = d.workingDirectory := by
  unfold removeFile at h
  split at h <;> cases h
  rfl

/-- Writing a file by a path at which no link stands puts it where the path leads to. -/
theorem writeFile_leads {p : Path} {name : String} {bytes : ByteArray} (hp : EndsIn p name)
    (hl : ∀ place target, d.walk false p ≠ .ok (.node place (.link target)))
    (h : d.writeFile p bytes = .ok d') :
    ∃ there, d.Leads p there name ∧ name.utf8ByteSize ≤ maxName ∧
      (d.node? (there ++ [name]) = none ∨ ∃ b t, d.node? (there ++ [name]) = some (.file b t)) ∧
      d' = d.store (there ++ [name]) bytes := by
  unfold writeFile at h
  cases hw : d.walk true p with
  | error e => simp [hw] at h
  | ok found =>
    obtain ⟨there, hleads, hsize, hend⟩ := walk_cases hp hw
    refine ⟨there, hleads, hsize, ?_⟩
    rcases hend with ⟨hn, rfl⟩ | ⟨n, hn, rfl | ⟨-, t, rfl⟩⟩
    · rw [hw] at h
      exact ⟨.inl hn, (Except.ok.inj h).symm⟩
    · rw [hw] at h
      cases n with
      | file b t => exact ⟨.inr ⟨b, t, hn⟩, (Except.ok.inj h).symm⟩
      | directory => simp at h
      | link => simp at h
    · exact absurd (hleads.walk_node false hp.1 hsize hn (.inl rfl)) (hl _ t)

theorem Leads.unique {p : Path} {there there' : Place} {name : String} {n n' : Node}
    (h : d.Leads p there name) (h' : d.Leads p there' name) (hname : IsStep name)
    (hsize : name.utf8ByteSize ≤ maxName) (hn : d.node? (there ++ [name]) = some n)
    (hn' : d.node? (there' ++ [name]) = some n') : there = there' := by
  have hw := h.walk_node false hname hsize hn (.inl rfl)
  rw [h'.walk_node false hname hsize hn' (.inl rfl)] at hw
  simp only [Except.ok.injEq, Found.node.injEq] at hw
  exact (List.append_cancel_right hw.1).symm

/-- Directories and links were there before a file was put anywhere. -/
theorem node?_of_store {place q : Place} {bytes : ByteArray} {n : Node} (hne : place ≠ [])
    (hn : ∀ b t, n ≠ .file b t) (h : (d.store place bytes).node? q = some n) : d.node? q = some n := by
  rw [node?_store _ _ _ _ hne] at h
  split at h
  · exact absurd (Option.some.inj h).symm (hn _ _)
  · exact h

theorem Leads.of_store {p : Path} {place there : Place} {bytes : ByteArray} {name : String}
    (hne : place ≠ []) (h : (d.store place bytes).Leads p there name) : d.Leads p there name :=
  h.mono rfl (fun _ hq => node?_of_store hne (by simp) hq) fun _ _ hq => node?_of_store hne (by simp) hq

theorem node?_of_erase {place q : Place} {n : Node} (hne : place ≠ [])
    (h : (d.erase place).node? q = some n) : q ≠ place ∧ d.node? q = some n := by
  rw [node?_erase _ _ _ hne] at h
  split at h
  · cases h
  · next hq => exact ⟨hq, h⟩

theorem Leads.of_erase {p : Path} {place there : Place} {name : String} (hne : place ≠ [])
    (h : (d.erase place).Leads p there name) : d.Leads p there name :=
  h.mono rfl (fun _ hq => (node?_of_erase hne hq).2) fun _ _ hq => (node?_of_erase hne hq).2

theorem isFile_iff {p : Path} :
    d.isFile p = true ↔ ∃ place bytes time, d.walk true p = .ok (.node place (.file bytes time)) := by
  unfold isFile follow?
  split
  · next place b t h =>
    split at h
    · next q n hw =>
      simp only [Option.some.injEq, Prod.mk.injEq] at h
      obtain ⟨rfl, rfl⟩ := h
      exact ⟨fun _ => ⟨_, _, _, hw⟩, fun _ => rfl⟩
    · simp at h
  · next hno =>
    refine ⟨fun h => absurd h (by simp), ?_⟩
    rintro ⟨place, b, t, hw⟩
    rw [hw] at hno
    exact absurd rfl (hno place b t)

theorem contents_of_walk {p : Path} {place : Place} {bytes : ByteArray} {time : Int}
    (h : d.walk true p = .ok (.node place (.file bytes time))) : d.contents p = .ok bytes := by
  unfold contents
  rw [h]

theorem contents_of_not_isFile {p : Path} (h : d.isFile p = false) : ∃ e, d.contents p = .error e := by
  unfold contents
  split
  · exact ⟨_, rfl⟩
  · next place b t hw => exact absurd (isFile_iff.mpr ⟨_, _, _, hw⟩) (by simp [h])
  all_goals exact ⟨_, rfl⟩

end Disk

namespace CacheFile

open Disk (EndsIn Leads)

variable {f : CacheFile} {d d' : Disk}

/-! ## Where the file is -/

/-- Whether the last pieces of the file's path and of its temporary sibling's are names. -/
def IsNamed (f : CacheFile) : Prop := (∃ name, EndsIn f.path name) ∧ ∃ name, EndsIn f.temporary name

theorem endsIn_child {name : String} (h : Path.IsLegal name) (p : Path) : EndsIn (p.child name) name := by
  obtain ⟨before, hp, -⟩ := Path.pieces_child h.2 p
  exact ⟨h.1, before, hp⟩

theorem temporary_ofBuildDirectory (build : Path) :
    (ofBuildDirectory build).temporary = build.child (fileName ++ ".tmp") := by
  unfold ofBuildDirectory temporary
  rw [Path.child_text (by decide), Path.child_text (by decide), String.append_assoc]

theorem isNamed_ofBuildDirectory (build : Path) : (ofBuildDirectory build).IsNamed := by
  refine ⟨⟨fileName, endsIn_child (by decide) build⟩, ⟨fileName ++ ".tmp", ?_⟩⟩
  rw [temporary_ofBuildDirectory]
  exact endsIn_child (by decide) build

/-- Whether a disk has no link that comes between writing the cache and reading it back, however much
it grows: none at the temporary sibling, and none at the file that is on the way to the file. -/
def IsClear (f : CacheFile) (d : Disk) : Prop :=
  ∀ d', d.Grows d' →
    (∀ place target, d'.walk false f.temporary ≠ .ok (.node place (.link target))) ∧
    ∀ place target, d'.walk false f.path = .ok (.node place (.link target)) →
      ∃ there name, place = there ++ [name] ∧
        (d'.erase place).walk false f.path = .ok (.gap there name false)

theorem IsClear.grows (h : f.IsClear d) (hg : d.Grows d') : f.IsClear d' :=
  fun d'' hg' => h d'' (hg.trans hg')

theorem isClear_of_no_links (h : d.nodes.all (!·.2.isLink) = true) : f.IsClear d := by
  intro d' hg
  have hno : ∀ p place target, d'.walk false p ≠ .ok (.node place (.link target)) := by
    intro p place target hw
    exact Disk.linkFree_of_nodes h place target
      ((hg.link place target).mp (Disk.node?_of_walk hw (by simp)))
  exact ⟨hno _, fun place target hw => absurd hw (hno _ place target)⟩

/-- Whether no link stands at the temporary sibling. -/
def HasPlainSibling (f : CacheFile) (d : Disk) : Prop :=
  ∀ place target, d.walk false f.temporary ≠ .ok (.node place (.link target))

/-- Whether the way to the file does not lead through a link that stands at the file itself. -/
def HasOwnWay (f : CacheFile) (d : Disk) : Prop :=
  ∀ place target, d.walk false f.path = .ok (.node place (.link target)) →
    ∃ there name, place = there ++ [name] ∧
      (d.erase place).walk false f.path = .ok (.gap there name false)

theorem IsClear.hasPlainSibling (h : f.IsClear d) : f.HasPlainSibling d := (h d (.refl d)).1

theorem IsClear.hasOwnWay (h : f.IsClear d) : f.HasOwnWay d := (h d (.refl d)).2

/-- The way stays its own when a file is put where nothing or a file stands. -/
theorem HasOwnWay.store {name : String} {place : Place} {bytes : ByteArray} (h : f.HasOwnWay d)
    (hp : EndsIn f.path name) (hne : place ≠ [])
    (hplace : d.node? place = none ∨ ∃ b t, d.node? place = some (.file b t)) :
    f.HasOwnWay (d.store place bytes) := by
  intro q target hw
  obtain ⟨there, rfl, hleads, hsize, hn⟩ := Disk.leads_of_walk_node hp hw
  have hlink := Disk.node?_of_store hne (by simp) hn
  obtain ⟨there', name', hq, hgap⟩ :=
    h _ _ ((hleads.of_store hne).walk_node false hp.1 hsize hlink (.inl rfl))
  obtain ⟨rfl, hleads'⟩ := Disk.leads_of_walk_gap hp hgap
  obtain rfl := List.append_cancel_right hq
  refine ⟨there, name', rfl, ?_⟩
  -- Directories and links are the same on both disks, also when the link has been taken away.
  have hforth : ∀ r n, (∀ b t, n ≠ .file b t) → (d.erase (there ++ [name'])).node? r = some n →
      ((d.store place bytes).erase (there ++ [name'])).node? r = some n := by
    intro r n hother hr
    obtain ⟨hrq, hr⟩ := Disk.node?_of_erase (by simp) hr
    rw [Disk.node?_erase _ _ _ (by simp), if_neg hrq, Disk.node?_store _ _ _ _ hne, if_neg]
    · exact hr
    · rintro rfl
      rcases hplace with hplace | ⟨b, t, hplace⟩ <;> rw [hplace] at hr
      · cases hr
      · exact hother b t (Option.some.inj hr).symm
  have hway : ((d.store place bytes).erase (there ++ [name'])).Leads f.path there name' :=
    hleads'.mono rfl (fun r hr => hforth r _ (by simp) hr) fun r t hr => hforth r _ (by simp) hr
  refine hway.walk_gap hp.1 hsize ?_
  rw [Disk.node?_erase _ _ _ (by simp), if_pos rfl]

/-! ## Replacing the file -/

/-- The way to the file has no use for what the file is going to replace. -/
theorem leads_erase {there : Place} {name : String} (hp : EndsIn f.path name) (hown : f.HasOwnWay d)
    (hleads : d.Leads f.path there name) (hsize : name.utf8ByteSize ≤ Disk.maxName)
    (hdir : d.node? (there ++ [name]) ≠ some .directory) :
    (d.erase (there ++ [name])).Leads f.path there name := by
  have hne : there ++ [name] ≠ [] := by simp
  by_cases hlink : ∃ target, d.node? (there ++ [name]) = some (.link target)
  · obtain ⟨target, hn⟩ := hlink
    have hw := hleads.walk_node false hp.1 hsize hn (.inl rfl)
    obtain ⟨there', name', hplace, hgap⟩ := hown _ _ hw
    obtain ⟨rfl, hleads'⟩ := Disk.leads_of_walk_gap hp hgap
    rwa [List.append_cancel_right hplace] at hleads' ⊢
  · refine hleads.mono rfl ?_ ?_
    · intro q hq
      rw [Disk.node?_erase _ _ _ hne, if_neg]
      · exact hq
      · rintro rfl
        exact hdir hq
    · intro q target hq
      rw [Disk.node?_erase _ _ _ hne, if_neg]
      · exact hq
      · rintro rfl
        exact hlink ⟨target, hq⟩

/-- A file that takes another name stands where that name leads to, and where it stood there is
nothing. -/
theorem rename_cases {source : Path} {name : String} {place : Place} {bytes : ByteArray} {time : Int}
    (hp : EndsIn f.path name) (hs : d.walk false source = .ok (.node place (.file bytes time)))
    (h : d.rename source f.path = .ok d') :
    ∃ there, d.Leads f.path there name ∧ name.utf8ByteSize ≤ Disk.maxName ∧
      d.node? (there ++ [name]) ≠ some .directory ∧ d'.workingDirectory = d.workingDirectory ∧
      ∀ q, d'.node? q = if q = there ++ [name] then some (.file bytes time)
        else if q = place then none else d.node? q := by
  have hfile := Disk.node?_of_walk hs (by simp)
  have hplace := Disk.ne_nil_of_file hfile
  -- The disk in which the file has moved to a new place.
  have moved : ∀ there q, ((d.erase place).insert (there ++ [name]) (.file bytes time)).node? q =
      if q = there ++ [name] then some (.file bytes time) else if q = place then none else d.node? q := by
    intro there q
    rw [Disk.node?_insert _ _ _ _ (by simp), Disk.node?_erase _ _ _ hplace]
  unfold Disk.rename at h
  cases hw : d.walk false f.path with
  | error e => simp [hs, hw] at h
  | ok found =>
    obtain ⟨there, hleads, hsize, hend⟩ := Disk.walk_cases hp hw
    refine ⟨there, hleads, hsize, ?_⟩
    rcases hend with ⟨hn, rfl⟩ | ⟨n, hn, rfl | ⟨hfollow, -⟩⟩
    · simp only [hs, hw, Bool.false_eq_true, if_false, Except.ok.injEq] at h
      subst h
      exact ⟨by simp [hn], rfl, moved there⟩
    · have hdir : n ≠ .directory := by
        rintro rfl
        simp [hs, hw] at h
      have h : (if place = there ++ [name] then (.ok d : Except SystemError Disk)
          else .ok ((d.erase place).insert (there ++ [name]) (.file bytes time))) = .ok d' := by
        rw [← h, hs, hw]
        cases n with
        | directory => exact absurd rfl hdir
        | file => rfl
        | link => rfl
      refine ⟨by rw [hn]; simpa using hdir, ?_⟩
      split at h
      · next e =>
        obtain rfl := Except.ok.inj h
        refine ⟨rfl, fun q => ?_⟩
        split
        · next hq => rw [hq, ← e, hfile]
        · next hq => rw [if_neg (by rwa [e])]
      · obtain rfl := Except.ok.inj h
        exact ⟨rfl, moved there⟩
    · simp at hfollow

/-- **What replacing the file can do.** The text cannot be written, and nothing is done; or it is written
to the sibling, which then takes the name of the file, or is removed again if it cannot. -/
theorem replace_cases {sibling : String} (hsibling : EndsIn f.temporary sibling)
    (hplain : f.HasPlainSibling d) (text : String) :
    f.replace d text = (d, false) ∨
      ∃ above, d.Leads f.temporary above sibling ∧ sibling.utf8ByteSize ≤ Disk.maxName ∧
        (d.node? (above ++ [sibling]) = none ∨
          ∃ b t, d.node? (above ++ [sibling]) = some (.file b t)) ∧
        (d.store (above ++ [sibling]) text.toUTF8).walk false f.temporary =
          .ok (.node (above ++ [sibling]) (.file text.toUTF8 d.clock)) ∧
        ((∃ e, (d.store (above ++ [sibling]) text.toUTF8).rename f.temporary f.path = .error e ∧
            f.replace d text =
              ((d.store (above ++ [sibling]) text.toUTF8).erase (above ++ [sibling]), false)) ∨
          ∃ d', (d.store (above ++ [sibling]) text.toUTF8).rename f.temporary f.path = .ok d' ∧
            f.replace d text = (d', true)) := by
  unfold replace
  cases hwrite : d.writeFile f.temporary text.toUTF8 with
  | error e => exact .inl rfl
  | ok d₁ =>
    have hg := Disk.grows_writeFile hwrite
    obtain ⟨above, hleads, hsize, hold, rfl⟩ := Disk.writeFile_leads hsibling hplain hwrite
    have hstored := Disk.node?_store d (above ++ [sibling]) (above ++ [sibling]) text.toUTF8 (by simp)
    rw [if_pos rfl] at hstored
    have hsource := (hleads.grows hg).walk_node false hsibling.1 hsize hstored (.inl rfl)
    refine .inr ⟨above, hleads, hsize, hold, hsource, ?_⟩
    cases hrename : (d.store (above ++ [sibling]) text.toUTF8).rename f.temporary f.path with
    | ok d₂ => exact .inr ⟨d₂, rfl, by simp only [hrename]⟩
    | error e =>
      have hremove : (d.store (above ++ [sibling]) text.toUTF8).removeFile f.temporary =
          .ok ((d.store (above ++ [sibling]) text.toUTF8).erase (above ++ [sibling])) := by
        unfold Disk.removeFile
        rw [hsource]
      exact .inl ⟨e, rfl, by simp only [hrename, hremove]⟩

/-- Once a text has been put into the file, the path of the file leads to it. -/
theorem walk_of_replace {name sibling text : String} (hname : EndsIn f.path name)
    (hsibling : EndsIn f.temporary sibling) (hplain : f.HasPlainSibling d) (hown : f.HasOwnWay d)
    (h : f.replace d text = (d', true)) :
    ∃ place time, d'.walk true f.path = .ok (.node place (.file text.toUTF8 time)) := by
  rcases replace_cases hsibling hplain text with hfail |
      ⟨above, hleads, hsize, hold, hsource, ⟨e, -, hfail⟩ | ⟨d₂, hrename, hdone⟩⟩
  · rw [h] at hfail
    cases hfail
  · rw [h] at hfail
    cases hfail
  · rw [h] at hdone
    obtain rfl : d' = d₂ := (Prod.mk.inj hdone).1
    have hown₁ : f.HasOwnWay (d.store (above ++ [sibling]) text.toUTF8) :=
      hown.store hname (by simp) hold
    generalize d.store (above ++ [sibling]) text.toUTF8 = d₁ at *
    have hstored := Disk.node?_of_walk hsource (by simp)
    obtain ⟨there, hthere, hlen, hdir, hwork, hnodes⟩ := rename_cases hname hsource hrename
    have hway := leads_erase hname hown₁ hthere hlen hdir
    have hne : there ++ [name] ≠ [] := by simp
    -- The way to the file leads through nothing that has moved.
    have hkeep : ∀ q n, (d₁.erase (there ++ [name])).node? q = some n →
        (∀ bytes time, n ≠ .file bytes time) → d'.node? q = some n := by
      intro q n hq hn
      obtain ⟨hq', hq⟩ := Disk.node?_of_erase hne hq
      rw [hnodes, if_neg hq', if_neg]
      · exact hq
      · rintro rfl
        rw [hstored] at hq
        exact hn _ _ (Option.some.inj hq).symm
    have hleads' : d'.Leads f.path there name :=
      hway.mono hwork (fun q hq => hkeep q _ hq (by simp)) fun q t hq => hkeep q _ hq (by simp)
    exact ⟨_, _, hleads'.walk_node true hname.1 hlen (by rw [hnodes, if_pos rfl]) (.inr (by simp))⟩

/-! ## Reading and writing -/

theorem distinct_read (f : CacheFile) (d : Disk) : (f.read d).Distinct := by
  unfold read
  split
  · exact Cache.distinct_empty
  · next text _ =>
    cases h : Cache.decode text with
    | none => exact Cache.distinct_empty
    | some c =>
      unfold Cache.decode Cache.decodeWith at h
      simp only at h
      split at h
      · obtain ⟨es, -, rfl⟩ := Option.map_eq_some_iff.mp h
        exact Cache.distinct_ofEntries es
      · simp at h

theorem read_of_not_isFile (h : d.isFile f.path = false) : f.read d = .empty := by
  obtain ⟨e, he⟩ := Disk.contents_of_not_isFile h
  unfold read Disk.readText
  rw [he]

theorem read_congr (h : d'.contents f.path = d.contents f.path) : f.read d' = f.read d := by
  unfold read Disk.readText
  rw [h]

/-- A cache is read from its text, with its entries in some order. -/
theorem read_of_walk {c : Cache} {place : Place} {time : Int} (hc : c.Distinct)
    (hw : d.walk true f.path = .ok (.node place (.file (Cache.encode c).toUTF8 time))) :
    (f.read d).entries.Perm c.entries := by
  obtain ⟨c', hdecode, hperm⟩ := Cache.decode_encode hc
  unfold read Disk.readText
  simp only [Disk.contents_of_walk hw, Text.fromUTF8?_toUTF8, hdecode, Option.getD_some]
  exact hperm

theorem read_of_replace {c : Cache} {name sibling : String} (hname : EndsIn f.path name)
    (hsibling : EndsIn f.temporary sibling) (hplain : f.HasPlainSibling d) (hown : f.HasOwnWay d)
    (hc : c.Distinct) (h : f.replace d (Cache.encode c) = (d', true)) :
    (f.read d').entries.Perm c.entries := by
  obtain ⟨place, time, hw⟩ := walk_of_replace hname hsibling hplain hown h
  exact read_of_walk hc hw

/-- **A cache that was written is read back**, with its entries in some order. -/
theorem read_of_write {c : Cache} (hf : f.IsNamed) (hclear : f.IsClear d) (hc : c.Distinct)
    (h : f.write d c = (d', true)) : (f.read d').entries.Perm c.entries := by
  obtain ⟨⟨name, hname⟩, ⟨sibling, hsibling⟩⟩ := hf
  have put : ∀ d₁, f.IsClear d₁ → f.replace d₁ (Cache.encode c) = (d', true) →
      (f.read d').entries.Perm c.entries := fun d₁ hclear₁ =>
    read_of_replace hname hsibling hclear₁.hasPlainSibling hclear₁.hasOwnWay hc
  unfold write at h
  split at h
  · exact put d hclear h
  · next directory _ =>
    have hg := Disk.grows_makeDirectories d directory
    split at h
    · simp at h
    · next hmade =>
      rw [hmade] at hg
      exact put _ (hclear.grows hg) h

theorem workingDirectory_replace (f : CacheFile) (d : Disk) (text : String) :
    (f.replace d text).1.workingDirectory = d.workingDirectory := by
  unfold replace
  split
  · rfl
  · next d' hwrite =>
    have hw := (Disk.grows_writeFile hwrite).workingDirectory
    split
    · next h => exact (Disk.workingDirectory_rename h).trans hw
    · split
      · next h => exact (Disk.workingDirectory_removeFile h).trans hw
      · exact hw

theorem workingDirectory_write (f : CacheFile) (d : Disk) (c : Cache) :
    (f.write d c).1.workingDirectory = d.workingDirectory := by
  unfold write
  split
  · exact f.workingDirectory_replace d _
  · next directory _ =>
    have hmade := (Disk.grows_makeDirectories d directory).workingDirectory
    split
    · next h => rwa [h] at hmade
    · next h =>
      rw [h] at hmade
      exact (f.workingDirectory_replace _ _).trans hmade

/-- **After a deletion there is no cache**, whatever stood there. -/
theorem isFile_delete (hf : f.IsNamed) (d : Disk) : (f.delete d).1.isFile f.path = false := by
  obtain ⟨⟨name, hname⟩, -⟩ := hf
  unfold delete
  cases hfile : d.isFile f.path with
  | false => simpa using hfile
  | true =>
    obtain ⟨place, bytes, time, hw⟩ := Disk.isFile_iff.mp hfile
    obtain ⟨there, hleads, hsize, hend⟩ := Disk.walk_cases hname hw
    obtain ⟨n, hn, hdir⟩ : ∃ n, d.node? (there ++ [name]) = some n ∧ n ≠ .directory := by
      rcases hend with ⟨-, h⟩ | ⟨n, hn, h | ⟨-, t, rfl⟩⟩
      · simp at h
      · refine ⟨n, hn, ?_⟩
        rintro rfl
        simp at h
      · exact ⟨_, hn, by simp⟩
    have hremove : d.removeFile f.path = .ok (d.erase (there ++ [name])) := by
      unfold Disk.removeFile
      rw [hleads.walk_node false hname.1 hsize hn (.inl rfl)]
      cases n with
      | file => rfl
      | directory => exact absurd rfl hdir
      | link => rfl
    rw [if_pos rfl, hremove]
    -- What is read now would have been read at the same place before, but there is nothing.
    rw [← Bool.not_eq_true, Disk.isFile_iff]
    rintro ⟨place', bytes', time', hw'⟩
    have hne : there ++ [name] ≠ [] := by simp
    obtain ⟨there', hleads', -, ⟨-, hgap⟩ | ⟨m, hm, -⟩⟩ := Disk.walk_cases hname hw'
    · cases hgap
    · obtain ⟨hdiff, hm⟩ := Disk.node?_of_erase hne hm
      exact hdiff (by rw [hleads.unique (hleads'.of_erase hne) hname.1 hsize hn hm])

end CacheFile
end FormWeaver
