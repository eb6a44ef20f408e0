import FormWeaver.Proofs.Cache.Cuts
import Mathlib.Data.List.Induction

/-!
# The last write wins

After it has been read, a cache is edited: entries are put for pairs of paths, each with the times that
the two files have by then, and entries are removed. `find?_edited` tells what is found in the end: for
each pair, however its paths are spelled, what the last of its own edits has left, and what the file held
when there has been none.
-/

namespace FormWeaver

/-! ## Times -/

/-- The time of a file is cut off at both ends of what 64 bits can tell; what is not there has none. -/
theorem Disk.toNat_modificationTime (d : Disk) (p : Path) :
    (∀ place bytes time, d.follow? p = some (place, .file bytes time) →
      (d.modificationTime p).toNat = min time.toNat (UInt64.size - 1)) ∧
      (d.follow? p = none → d.modificationTime p = 0) := by
  constructor
  · intro place bytes time h
    have hlt : min time.toNat latestTime < UInt64.size :=
      Nat.lt_of_le_of_lt (Nat.min_le_right _ _) (by decide)
    unfold modificationTime
    rw [h]
    exact UInt64.toNat_ofNat_of_lt' hlt
  · intro h
    unfold modificationTime
    rw [h]

/-! ## Edits -/

/-- What is done to the entry of a pair. -/
inductive CacheEdit where
  /-- Puts an entry with the times that both files have on the disk as it is then. -/
  | put (d : Disk) (descriptor classFile : Path)
  | remove (descriptor classFile : Path)

namespace CacheEdit

/-- Whether the edit is one of this pair, however the paths are spelled. -/
def isFor : CacheEdit → Path → Path → Bool
  | .put _ f k, descriptor, classFile => f.same descriptor && k.same classFile
  | .remove f k, descriptor, classFile => f.same descriptor && k.same classFile

/-- The entry that the edit leaves. -/
def entry? : CacheEdit → Option CacheEntry
  | .put d f k => some ⟨f, d.modificationTime f, k, d.modificationTime k⟩
  | .remove _ _ => none

/-- The cache after the edit. -/
def apply (c : Cache) : CacheEdit → Cache
  | .put d f k => c.put d f k
  | .remove f k => c.erase f k

variable {descriptor classFile : Path}

theorem distinct_apply {c : Cache} (h : c.Distinct) (e : CacheEdit) : (e.apply c).Distinct := by
  cases e with
  | put d f k => exact h.put d f k
  | remove f k => exact h.erase f k

/-- An edit settles what is found of its own pair, and of no other. -/
theorem find?_apply (c : Cache) (e : CacheEdit) (descriptor classFile : Path) :
    (e.apply c).find? descriptor classFile =
      if e.isFor descriptor classFile then e.entry? else c.find? descriptor classFile := by
  cases e with
  | put d f k => exact Cache.find?_insert c (.capture d f k) descriptor classFile
  | remove f k => exact Cache.find?_erase c f k descriptor classFile

end CacheEdit

namespace Cache

variable {c : Cache} {edits : List CacheEdit} {descriptor classFile : Path}

/-- The cache after edits, one after the other. -/
def edited (c : Cache) (edits : List CacheEdit) : Cache := edits.foldl CacheEdit.apply c

theorem edited_append (c : Cache) (edits more : List CacheEdit) :
    c.edited (edits ++ more) = (c.edited edits).edited more :=
  List.foldl_append

theorem distinct_edited (h : c.Distinct) (edits : List CacheEdit) : (c.edited edits).Distinct := by
  induction edits generalizing c with
  | nil => exact h
  | cons e edits ih => exact ih (e.distinct_apply h)

/-- Edits of other pairs can be left out. -/
theorem find?_edited_filter (c : Cache) (edits : List CacheEdit) (descriptor classFile : Path) :
    (c.edited (edits.filter (·.isFor descriptor classFile))).find? descriptor classFile =
      (c.edited edits).find? descriptor classFile := by
  -- From the last edit backwards: it settles its own pair and leaves any other to those before it.
  induction edits using List.reverseRecOn with
  | nil => rfl
  | append_singleton edits e ih =>
    rw [List.filter_append, List.filter_singleton, edited_append, edited_append]
    show _ = (e.apply (c.edited edits)).find? descriptor classFile
    rw [e.find?_apply]
    cases hfor : e.isFor descriptor classFile with
    | true => exact (e.find?_apply _ descriptor classFile).trans (if_pos hfor)
    | false => exact ih

theorem find?_edited_of_other (c : Cache)
    (h : ∀ e ∈ edits, e.isFor descriptor classFile = false) :
    (c.edited edits).find? descriptor classFile = c.find? descriptor classFile := by
  have hnone : edits.filter (·.isFor descriptor classFile) = [] := by
    rw [List.filter_eq_nil_iff]
    intro e he
    rw [h e he]
    exact Bool.false_ne_true
  rw [← find?_edited_filter, hnone]
  rfl

/-- The last edit of a pair settles what is found of it. -/
theorem find?_edited_of_last (c : Cache) {before after : List CacheEdit} {e : CacheEdit}
    (he : e.isFor descriptor classFile = true)
    (hafter : ∀ e ∈ after, e.isFor descriptor classFile = false) :
    (c.edited (before ++ e :: after)).find? descriptor classFile = e.entry? := by
  rw [edited_append]
  show ((e.apply (c.edited before)).edited after).find? descriptor classFile = _
  rw [find?_edited_of_other _ hafter, e.find?_apply, if_pos he]

end Cache

/-- **The last write wins.** Take the cache that is read from any file on any disk, and any edits of it.
There is one entry for a pair at most. What is found of a pair is the entry that was put last for it, with
the times that its files had then, if it has not been removed since; nothing, if it was removed last; and
what the file held, if it has not been edited. Edits of other pairs make no difference. The pair is up to
date exactly when there is an entry and both its times are those of the files now. The time of a file is
its modification time in nanoseconds since the epoch, between zero and the greatest number of 64 bits, and
zero for a file that is not there. -/
theorem find?_edited (file : CacheFile) (d : Disk) (edits : List CacheEdit)
    (descriptor classFile : Path) :
    ((file.read d).edited edits).Distinct ∧
      (∀ before d' f k after, edits = before ++ .put d' f k :: after →
        f.same descriptor = true → k.same classFile = true →
        (∀ e ∈ after, e.isFor descriptor classFile = false) →
        ((file.read d).edited edits).find? descriptor classFile =
          some ⟨f, d'.modificationTime f, k, d'.modificationTime k⟩) ∧
      (∀ before f k after, edits = before ++ .remove f k :: after →
        f.same descriptor = true → k.same classFile = true →
        (∀ e ∈ after, e.isFor descriptor classFile = false) →
        ((file.read d).edited edits).find? descriptor classFile = none) ∧
      ((∀ e ∈ edits, e.isFor descriptor classFile = false) →
        ((file.read d).edited edits).find? descriptor classFile =
          (file.read d).find? descriptor classFile) ∧
      ((file.read d).edited edits).find? descriptor classFile =
        ((file.read d).edited (edits.filter (·.isFor descriptor classFile))).find? descriptor classFile ∧
      (∀ now : Disk, ((file.read d).edited edits).isUpToDate now descriptor classFile = true ↔
        ∃ e, ((file.read d).edited edits).find? descriptor classFile = some e ∧
          e.descriptorTime = now.modificationTime descriptor ∧
          e.classTime = now.modificationTime classFile) ∧
      ∀ (now : Disk) (p : Path),
        (∀ place bytes time, now.follow? p = some (place, .file bytes time) →
          (now.modificationTime p).toNat = min time.toNat (UInt64.size - 1)) ∧
          (now.follow? p = none → now.modificationTime p = 0) := by
  refine ⟨Cache.distinct_edited (CacheFile.distinct_read file d) edits, ?_, ?_,
    Cache.find?_edited_of_other _, (Cache.find?_edited_filter _ _ _ _).symm,
    fun _ => Cache.isUpToDate_iff_exists, Disk.toNat_modificationTime⟩
  · rintro before d' f k after rfl hf hk hafter
    apply Cache.find?_edited_of_last _ _ hafter
    show (f.same descriptor && k.same classFile) = true
    rw [hf, hk, Bool.and_self]
  · rintro before f k after rfl hf hk hafter
    apply Cache.find?_edited_of_last _ _ hafter
    show (f.same descriptor && k.same classFile) = true
    rw [hf, hk, Bool.and_self]

namespace Cache.Sample

/-- The file of the awkward cache. -/
def file : CacheFile := .ofBuildDirectory ⟨"/b"⟩

/-- The disk with that file. -/
def stored : Disk := holding (encode awkward).toUTF8

theorem perm_read_stored : (file.read stored).entries.Perm awkward.entries := by
  have hpath : file.path = ⟨"/b/gui-forms.cache"⟩ := by decide +kernel
  have hw : stored.walk true ⟨"/b/gui-forms.cache"⟩ =
      .ok (.node ["b", "gui-forms.cache"] (.file (encode awkward).toUTF8 5)) := rfl
  exact CacheFile.read_of_walk distinct_awkward (hpath ▸ hw)

theorem find?_read_stored (descriptor classFile : Path) :
    (file.read stored).find? descriptor classFile = awkward.find? descriptor classFile :=
  find?_perm distinct_awkward perm_read_stored.symm descriptor classFile

/-- A disk with a descriptor from before the epoch and no class file. -/
def early : Disk := ⟨[(["s"], .directory), (["s", "x.form"], .file .empty (-5))], .present [], 10⟩

/-- The disk when the descriptor has a time beyond all that can be told, and the class file is there. -/
def late : Disk :=
  ⟨[(["s"], .directory), (["s", "x.form"], .file .empty 18446744073709551621),
    (["C.class"], .file .empty 7)], .present [], 10⟩

/-- A pair is put twice, under two spellings; two pairs of the file are removed, and one of them is put
again before that. -/
def edits : List CacheEdit :=
  [.put early ⟨"/s/x.form"⟩ ⟨"/C.class"⟩, .put early ⟨"/s/a-c.form"⟩ ⟨"/o/A.class"⟩,
    .remove ⟨"/s//a-c.form"⟩ ⟨"/o/./A.class"⟩, .put late ⟨"/s/./x.form"⟩ ⟨"//C.class"⟩,
    .remove ⟨"/s/a/b.form"⟩ ⟨"/o/A.class"⟩]

/-- The pair that was put twice has the later times, cut off at the top, under the later spelling; the one
that was put and removed has none; one that was left alone has what the file held. -/
theorem find?_edited_awkward :
    ((file.read stored).edited edits).find? ⟨"/s/x.form"⟩ ⟨"/C.class"⟩ =
        some ⟨⟨"/s/./x.form"⟩, 18446744073709551615, ⟨"//C.class"⟩, 7⟩ ∧
      ((file.read stored).edited edits).isUpToDate late ⟨"/s/x.form"⟩ ⟨"/C.class"⟩ = true ∧
      ((file.read stored).edited edits).find? ⟨"/s/a-c.form"⟩ ⟨"/o/A.class"⟩ = none ∧
      ((file.read stored).edited edits).find? ⟨"/s/\"a\\\n\r\x01é.form"⟩ ⟨"/o/A.class"⟩ =
        some ⟨⟨"/s/\"a\\\n\r\x01é.form"⟩, 18446744073709551615, ⟨"/o//A.class"⟩, 0⟩ := by
  obtain ⟨-, hput, -, -, -, hcurrent, htimes⟩ :=
    find?_edited file stored edits ⟨"/s/x.form"⟩ ⟨"/C.class"⟩
  obtain ⟨-, -, hremove, -⟩ := find?_edited file stored edits ⟨"/s/a-c.form"⟩ ⟨"/o/A.class"⟩
  obtain ⟨-, -, -, hkept, -⟩ :=
    find?_edited file stored edits ⟨"/s/\"a\\\n\r\x01é.form"⟩ ⟨"/o/A.class"⟩
  have hfound := hput (edits.take 3) late _ _ (edits.drop 4) rfl (by decide) (by decide) (by decide)
  have htop : late.modificationTime ⟨"/s/x.form"⟩ = 18446744073709551615 := by
    have hfollow : late.follow? ⟨"/s/x.form"⟩ =
        some (["s", "x.form"], .file .empty 18446744073709551621) := rfl
    apply UInt64.toNat_inj.mp
    rw [(htimes late ⟨"/s/x.form"⟩).1 _ _ _ hfollow]
    rfl
  refine ⟨hfound.trans ?_, (hcurrent late).mpr ⟨_, hfound, ?_, ?_⟩,
    hremove (edits.take 2) _ _ (edits.drop 3) rfl (by decide) (by decide) (by decide), ?_⟩
  · exact congrArg _ (congrArg (CacheEntry.mk _ · _ _) htop)
  · rfl
  · rfl
  · rw [hkept (by decide), find?_read_stored]
    decide

end Cache.Sample

end FormWeaver
