import FormWeaver.Proofs.Classpath.Url
import FormWeaver.Proofs.Disk.Canonical
import FormWeaver.Proofs.Disk.Directories

/-!
# Locations read back from their URLs

The path of a location is absolute, and its URL shows this path with a slash behind it when it is that of
a directory (`parse_fileUrl`). So the URL names the same location again (`parse_url`), with one exception:
the slash can make the path of a directory too long to be looked up, and what cannot be looked up counts
as an archive.
-/

namespace FormWeaver

/-- Whether the working directory stands under names that a directory can hold. -/
def Disk.IsPlaced (d : Disk) : Prop :=
  ∀ here, d.workingDirectory = .present here → ∀ name ∈ here, Path.IsLegal name

variable {d : Disk} {p q : Path}

/-! ## Absolute paths -/

theorem Disk.isAnchored_of_absolute (hd : d.IsPlaced) (h : d.absolute p = .ok q) : q.IsAnchored := by
  obtain ⟨here, rfl, habs | hw⟩ := absolute_cases h
  · exact Path.isAnchored_of_isAbsolute habs _
  · have hnames := hd here hw
    have hbase : (⟨"/" ++ Text.joinWith "/" here⟩ : Path) = (Path.mk "/").along (here.map .name) := by
      cases here with
      | nil => decide
      | cons name names => rw [Path.along_names hnames (List.cons_ne_nil _ _)]; rfl
    rw [hbase]
    apply Path.isAnchored_anchoredAt
    intro c hc
    obtain ⟨name, hname, rfl⟩ := List.mem_map.mp hc
    exact Path.Component.isInner_name (hnames name hname)

theorem Disk.absolute_of_isAnchored (h : p.IsAnchored) (d : Disk) : d.absolute p = .ok p := by
  have habs := h.isAbsolute
  unfold Disk.absolute
  rw [Path.isEmpty_text_of_isAbsolute habs, if_neg Bool.false_ne_true, if_pos habs,
    Path.anchoredAt_of_isAnchored h]

namespace Location

open Classpath

/-- What is behind a location: a trimmed text without a NUL, the path that it spells, and the absolute form
of that. -/
theorem exists_of_parse {raw : String} {l : Location} (h : parse d raw = .ok l) :
    '\x00' ∉ Text.trim raw.toList ∧ ∃ p q, spelledPath (Text.trim raw.toList) = .ok p ∧
      d.absolute p = .ok q ∧ l = ofAbsolute d q := by
  unfold parse pathOf at h
  split at h
  · cases h
  next q hq =>
  obtain rfl := Except.ok.inj h
  dsimp only at hq
  split at hq
  · cases hq
  split at hq
  · cases hq
  next hnul =>
  split at hq
  · cases hq
  next p hp =>
  split at hq
  · cases hq
  next q' hq' =>
  obtain rfl := Except.ok.inj hq
  exact ⟨by simpa using hnul, p, q', hp, hq', rfl⟩

theorem fileUrl_eq (habs : p.isAbsolute = true) (hb : '\\' ∉ p.text.toList) (directory : Bool) :
    fileUrl p directory = "file://" ++ percentEncode (if directory then p.child "" else p).text := by
  rw [fileUrl, ← slashed_eq_self hb, ← urlPath_of_isAbsolute habs, slashed_eq_self hb]

/-- The URL of a path in absolute form names that path, with a slash behind it when the URL is that of a
directory. -/
theorem parse_fileUrl (h : p.IsAnchored) (hb : '\\' ∉ p.text.toList) (d : Disk) (directory : Bool) :
    parse d (fileUrl p directory) = .ok (ofAbsolute d (if directory then p.child "" else p)) := by
  have hanchored : (if directory then p.child "" else p).IsAnchored := by
    split
    · exact h.child_empty
    · exact h
  unfold parse
  rw [fileUrl_eq h.isAbsolute hb,
    pathOf_url (eq_of_beq hanchored.isAbsolute) (Disk.absolute_of_isAnchored hanchored d)]

/-- Behind a slash the URL of a directory is that of an archive. -/
theorem fileUrl_child_empty (habs : p.isAbsolute = true) (hb : '\\' ∉ p.text.toList) (directory : Bool) :
    fileUrl (p.child "") directory = fileUrl p true := by
  have hempty := Path.isEmpty_text_of_isAbsolute habs
  have hb' : '\\' ∉ (p.child "").text.toList := by
    cases hslash : p.hasTrailingSlash with
    | true => rwa [Path.child_empty_of_hasTrailingSlash hslash]
    | false =>
      rw [Path.child_empty_text hempty hslash, String.toList_append, List.mem_append, not_or]
      exact ⟨hb, by decide⟩
  have hslash := Path.hasTrailingSlash_child_empty hempty
  have habs' : (p.child "").isAbsolute = true := by rw [Path.isAbsolute_child (by decide), habs]
  rw [fileUrl_eq habs' hb', fileUrl_eq habs hb, Path.child_empty_of_hasTrailingSlash hslash, ite_self,
    if_pos rfl]

/-- **Locations read back.** A location whose path has no backslash in it is read back from its URL, with
the same URL and the same path. Only a directory whose path has no slash at the end, and so many bytes
that no path may have one more, is read back as an archive. -/
theorem parse_url (hd : d.IsPlaced) {raw : String} {l : Location} (h : parse d raw = .ok l)
    (hb : '\\' ∉ l.path.text.toList) :
    ∃ l', parse d l.url = .ok l' ∧ l'.url = l.url ∧ l'.path.same l.path = true ∧
      (l'.isDirectory = l.isDirectory ↔ ¬ (l.isDirectory = true ∧ l.path.hasTrailingSlash = false ∧
        l.path.text.utf8ByteSize + 1 = Disk.maxPath)) := by
  obtain ⟨-, p, q, -, hq, rfl⟩ := exists_of_parse h
  have hanchored := Disk.isAnchored_of_absolute hd hq
  refine ⟨_, parse_fileUrl hanchored hb d (d.isDirectory q), ?_⟩
  simp only [ofAbsolute] at hb ⊢
  by_cases hslash : d.isDirectory q = true ∧ q.hasTrailingSlash = false
  · obtain ⟨hdir, hslash⟩ := hslash
    have habs := hanchored.isAbsolute
    rw [hdir, if_pos rfl]
    refine ⟨fileUrl_child_empty habs hb _, ?_, ?_⟩
    · rw [Path.same, Path.components_child_empty, beq_self_eq_true]
    · obtain ⟨-, -, hsize, -⟩ := Disk.walk_of_isDirectory habs hdir
      rw [Disk.isDirectory_child_empty habs hslash hdir, decide_eq_true_iff]
      simp only [hslash, true_and]
      omega
  · -- Nothing is put behind the path.
    have hsame : (if d.isDirectory q = true then q.child "" else q) = q := by
      split
      · next hdir =>
        apply Path.child_empty_of_hasTrailingSlash
        cases hq' : q.hasTrailingSlash with
        | true => rfl
        | false => exact absurd ⟨hdir, hq'⟩ hslash
      · rfl
    rw [hsame]
    exact ⟨rfl, beq_self_eq_true _, iff_of_true rfl fun ⟨hdir, hq', _⟩ => hslash ⟨hdir, hq'⟩⟩

namespace Sample

/-- A disk with a directory whose name needs escapes, beside the working directory. -/
def beside : Disk := ⟨[(["w"], .directory), (["a %"], .directory)], .present ["w"], 0⟩

theorem isPlaced_beside : beside.IsPlaced := by
  intro here hw
  obtain rfl : ["w"] = here := WorkingDirectory.present.inj hw
  decide

/-- A relative path to a directory, with blanks around it. -/
theorem parse_url_beside : beside.IsPlaced ∧
    parse beside " ../a % " = .ok ⟨"file:///w/../a%20%25/", ⟨"/w/../a %"⟩, true⟩ ∧
    ∃ l', parse beside "file:///w/../a%20%25/" = .ok l' ∧ l'.url = "file:///w/../a%20%25/" ∧
      l'.path.same ⟨"/w/../a %"⟩ = true ∧ l'.isDirectory = true := by
  have hparse : parse beside " ../a % " = .ok ⟨"file:///w/../a%20%25/", ⟨"/w/../a %"⟩, true⟩ := by
    decide
  obtain ⟨l', hl', hurl, hpath, hkind⟩ := parse_url isPlaced_beside hparse (by decide)
  exact ⟨isPlaced_beside, hparse, l', hl', hurl, hpath, hkind.mpr fun h => absurd h.2.2 (by decide)⟩

/-- The root, spelled by steps up from it. -/
def up (n : Nat) : Path := (Path.mk "/").along (.replicate n .parent)

theorem isInner_of_mem_replicate (n : Nat) :
    ∀ c ∈ List.replicate n Path.Component.parent, c.IsInner := by
  intro c hc
  rw [List.eq_of_mem_replicate hc]
  exact ⟨by decide, by decide⟩

theorem isAnchored_up (n : Nat) : (up n).IsAnchored :=
  ⟨"/", _, .inl rfl, isInner_of_mem_replicate n, .inl rfl⟩

theorem up_succ (n : Nat) : up (n + 1) = (up n).child ".." := by
  rw [up, List.replicate_succ', Path.along_concat]
  rfl

theorem hasTrailingSlash_up (n : Nat) : (up (n + 1)).hasTrailingSlash = false := by
  rw [up_succ]
  exact Path.hasTrailingSlash_child_of_ne (by decide) (by decide) _

theorem text_up (n : Nat) : (up (n + 2)).text = (up (n + 1)).text ++ "/" ++ ".." := by
  rw [up_succ, Path.child_text (by decide),
    Path.isEmpty_text_of_isAbsolute (isAnchored_up (n + 1)).isAbsolute, hasTrailingSlash_up,
    Bool.or_false, if_neg Bool.false_ne_true]

theorem spelling_up (n : Nat) : (up (n + 1)).text.utf8ByteSize = 3 * (n + 1) ∧
    (up (n + 1)).pieces = "" :: List.replicate (n + 1) ".." ∧
    ∀ c ∈ (up (n + 1)).text.toList, c = '/' ∨ c = '.' := by
  induction n with
  | zero =>
    have htext : (up 1).text.toList = ['/', '.', '.'] := rfl
    refine ⟨rfl, rfl, ?_⟩
    rw [htext]
    simp
  | succ n ih =>
    obtain ⟨hsize, hpieces, hchars⟩ := ih
    refine ⟨?_, ?_, ?_⟩
    · rw [text_up, String.utf8ByteSize_append, String.utf8ByteSize_append, hsize]
      show 3 * (n + 1) + 1 + 2 = _
      omega
    · have hup : up (n + 2) = ⟨(up (n + 1)).text ++ "/" ++ ".."⟩ := congrArg Path.mk (text_up n)
      rw [hup, Path.pieces_append_slash, hpieces, List.replicate_succ' (n := n + 1)]
      rfl
    · intro c hc
      rw [text_up, String.toList_append, String.toList_append, List.mem_append, List.mem_append] at hc
      rcases hc with (hc | hc) | hc
      · exact hchars c hc
      · exact .inl (by simpa using hc)
      · exact .inr (by simpa using hc)

theorem isDirectory_up {n : Nat} (h : 3 * (n + 1) < Disk.maxPath) (d : Disk) :
    d.isDirectory (up (n + 1)) = true := by
  obtain ⟨hsize, hpieces, hchars⟩ := spelling_up n
  have habs := (isAnchored_up (n + 1)).isAbsolute
  have hnul : (up (n + 1)).text.toList.contains '\x00' = false := by
    rw [List.contains_eq_mem, decide_eq_false_iff_not]
    intro hc
    rcases hchars _ hc with h | h <;> cases h
  have hup : ∀ k, d.walkFrom true Disk.maxLinks [] (List.replicate k "..") = .ok (.node [] .directory) := by
    intro k
    induction k with
    | zero => exact Disk.walkFrom_nil _ _
    | succ k ih => rw [List.replicate_succ, Disk.walkFrom_up, List.dropLast_nil, ih]
  have hwalk : d.walk true (up (n + 1)) = .ok (.node [] .directory) := by
    unfold Disk.walk
    rw [hnul, Path.isEmpty_text_of_isAbsolute habs, hsize, habs, if_neg Bool.false_ne_true,
      if_neg Bool.false_ne_true, if_neg (Nat.not_le_of_lt h), if_pos rfl]
    show d.walkFrom true Disk.maxLinks [] (up (n + 1)).pieces = _
    rw [hpieces, Disk.walkFrom_stay (.inl rfl), hup]
  unfold Disk.isDirectory
  rw [hwalk]

/-- The slash behind a directory whose path has as many bytes as a path may have. -/
theorem parse_fileUrl_up {n : Nat} (h : 3 * (n + 1) + 1 = Disk.maxPath) (d : Disk) :
    ∃ l l', parse d (fileUrl (up (n + 1)) false) = .ok l ∧ '\\' ∉ l.path.text.toList ∧
      l.isDirectory = true ∧ parse d l.url = .ok l' ∧ l'.isDirectory = false := by
  obtain ⟨hsize, -, hchars⟩ := spelling_up n
  have hanchored := isAnchored_up (n + 1)
  have hdir : d.isDirectory (up (n + 1)) = true := isDirectory_up (by omega) d
  have hb : '\\' ∉ (up (n + 1)).text.toList := by
    intro hc
    rcases hchars _ hc with h | h <;> cases h
  refine ⟨ofAbsolute d (up (n + 1)), ofAbsolute d ((up (n + 1)).child ""),
    parse_fileUrl hanchored hb d false, hb, hdir, ?_, ?_⟩
  · show parse d (fileUrl (up (n + 1)) (d.isDirectory (up (n + 1)))) = _
    rw [hdir, parse_fileUrl hanchored hb, if_pos rfl]
  · show d.isDirectory ((up (n + 1)).child "") = false
    rw [Disk.isDirectory_child_empty hanchored.isAbsolute (hasTrailingSlash_up n) hdir, hsize, h]
    decide

/-- It makes an archive of the directory. -/
theorem parse_url_up : beside.IsPlaced ∧
    ∃ l l', parse beside (fileUrl (up 1365) false) = .ok l ∧ '\\' ∉ l.path.text.toList ∧
      l.isDirectory = true ∧ parse beside l.url = .ok l' ∧ l'.isDirectory = false :=
  ⟨isPlaced_beside, parse_fileUrl_up (n := 1364) (by decide) beside⟩

end Sample

end Location
end FormWeaver
