import FormWeaver.Proofs.Disk.Places
import FormWeaver.Proofs.Path.Absolute

/-!
# Absolute and canonical paths

The absolute form of a path depends on its spelling and the working directory, its canonical form on what
the disk holds. A path that can be opened leads to the place that it is resolved to, if it is resolved
(`eq_of_canonical?`). What can be opened need not be resolved, though: the path from the root to what a link
leads to may be longer than the path that was given. Without links it is not (`canonical?_of_linkFree`).
-/

namespace FormWeaver.Disk

variable {d : Disk}

/-! ## Absolute paths -/

theorem absolute_cases {p q : Path} (h : d.absolute p = .ok q) :
    ∃ here : Place, q = Path.anchoredAt ⟨"/" ++ Text.joinWith "/" here⟩ p ∧
      (p.isAbsolute = true ∨ d.workingDirectory = .present here) := by
  unfold absolute at h
  split at h
  · cases h
  split at h
  · next habs => exact ⟨[], (Except.ok.inj h).symm, .inl habs⟩
  split at h
  · cases h
  · next here hw => exact ⟨here, (Except.ok.inj h).symm, .inr hw⟩

theorem isAbsolute_of_absolute {p q : Path} (h : d.absolute p = .ok q) : q.isAbsolute = true := by
  obtain ⟨here, rfl, -⟩ := absolute_cases h
  refine Path.isAbsolute_anchoredAt ?_ p
  rw [Path.isAbsolute, String.toList_append]
  rfl

/-! ## What is resolved can be opened -/

theorem utf8ByteSize_lt_of_walk {follow : Bool} {p : Path} {found : Found} (h : d.walk follow p = .ok found) :
    p.text.utf8ByteSize < maxPath := by
  unfold walk at h
  split at h
  · cases h
  split at h
  · cases h
  split at h
  · cases h
  · next hlong => exact Nat.lt_of_not_le hlong

/-- A path that is resolved can be walked, from the root or from the working directory. -/
theorem canonical?_cases {p : Path} {q : Place} (h : d.canonical? p = some q) :
    ¬ p.text.toList.contains '\x00' = true ∧ ¬ p.text.isEmpty = true ∧
      ∃ start n, walkFrom d true maxLinks start (piecesOf p.text) = .ok (.node q n) ∧
        (p.isAbsolute = true ∧ start = [] ∨ ¬ p.isAbsolute = true ∧ d.workingDirectory = .present start) := by
  unfold canonical? at h
  split at h
  · cases h
  next hopen =>
  rw [Bool.or_eq_true, not_or] at hopen
  refine ⟨hopen.1, hopen.2, ?_⟩
  split at h
  · next habs =>
    obtain ⟨n, hw⟩ := exists_walkFrom_of_resolveFrom h
    exact ⟨[], n, hw, .inl ⟨habs, rfl⟩⟩
  next hrelative =>
  split at h
  · next here hpresent =>
    obtain ⟨n, hw⟩ := exists_walkFrom_of_resolveFrom h
    exact ⟨here, n, hw, .inr ⟨hrelative, hpresent⟩⟩
  · cases h

/-- A path that can be opened leads to the place that it is resolved to. -/
theorem exists_walk_of_canonical? {p : Path} {q : Place} (hlong : p.text.utf8ByteSize < maxPath)
    (h : d.canonical? p = some q) : ∃ n, d.walk true p = .ok (.node q n) := by
  obtain ⟨hnul, hempty, start, n, hw, hstart⟩ := canonical?_cases h
  refine ⟨n, ?_⟩
  unfold walk
  rw [if_neg hnul, if_neg hempty, if_neg (Nat.not_le.mpr hlong)]
  obtain ⟨habs, rfl⟩ | ⟨hrelative, hpresent⟩ := hstart
  · rw [if_pos habs, hw]
  · rw [if_neg hrelative, hpresent]
    exact hw

/-- On a disk without links a path is resolved to the place that it spells. -/
theorem place?_of_canonical? (hd : d.LinkFree) {p : Path} {q : Place} (h : d.canonical? p = some q) :
    d.place? p = some q := by
  obtain ⟨-, -, start, n, hw, hstart⟩ := canonical?_cases h
  refine Eq.trans ?_ (place?_of_walkFrom hd hw)
  unfold place?
  obtain ⟨habs, rfl⟩ | ⟨hrelative, hpresent⟩ := hstart
  · rw [if_pos habs]
    rfl
  · rw [if_neg hrelative, hpresent]
    rfl

/-- What a path leads to stands at the place that the path is resolved to. -/
theorem eq_of_canonical? {p : Path} {q q' : Place} (h : d.identity? p = some q)
    (hcanonical : d.canonical? p = some q') : q' = q := by
  unfold identity? follow? at h
  split at h
  · next place n hw =>
    obtain ⟨n', hw'⟩ := exists_walk_of_canonical? (utf8ByteSize_lt_of_walk hw) hcanonical
    rw [hw] at hw'
    cases hw'
    exact Option.some.inj h
  · cases h

/-! ## The bytes of a path -/

theorem pathSize_cons (name : String) (rest : Place) :
    pathSize (name :: rest) = name.utf8ByteSize + 1 + pathSize rest :=
  rfl

theorem pathSize_concat (here : Place) (name : String) :
    pathSize (here ++ [name]) = pathSize here + (name.utf8ByteSize + 1) := by
  induction here with
  | nil => exact Nat.add_comm _ 0
  | cons first here ih =>
    rw [List.cons_append, pathSize_cons, pathSize_cons, ih]
    exact (Nat.add_assoc _ _ _).symm

theorem pathSize_dropLast_le (p : Place) : pathSize p.dropLast ≤ pathSize p := by
  induction p using List.reverseRecOn with
  | nil => exact Nat.le_refl _
  | append_singleton p name =>
    rw [List.dropLast_concat, pathSize_concat]
    exact Nat.le_add_right _ _

/-- The pieces of a text have all of its bytes but for the slashes. -/
theorem pathSize_piecesOf (cs : List Char) :
    pathSize (piecesOf (String.ofList cs)) = (String.ofList cs).utf8ByteSize + 1 := by
  unfold piecesOf
  rw [String.toList_ofList, List.splitOn_eq_splitOnP]
  induction cs with
  | nil => rfl
  | cons c cs ih =>
    rw [List.splitOnP_cons_eq_if_modifyHead, String.ofList_cons, String.utf8ByteSize_append,
      String.utf8ByteSize_singleton]
    split
    · next hc =>
      have hslash : c.utf8Size = 1 := by
        rw [eq_of_beq hc]
        rfl
      rw [List.map_cons, pathSize_cons, ih, hslash]
      rfl
    · obtain ⟨first, rest, hcs⟩ := List.exists_cons_of_ne_nil (List.splitOnP_ne_nil (· == '/') cs)
      rw [hcs, List.map_cons, pathSize_cons] at ih
      rw [hcs, List.modifyHead_cons, List.map_cons, pathSize_cons, String.ofList_cons,
        String.utf8ByteSize_append, String.utf8ByteSize_singleton]
      omega

/-- The first slash of an absolute path makes an empty piece, and the others have as many bytes with their
slashes as the path has. -/
theorem exists_piecesOf_of_isAbsolute {p : Path} (h : p.isAbsolute = true) :
    ∃ rest, piecesOf p.text = "" :: rest ∧ pathSize rest = p.text.utf8ByteSize := by
  obtain ⟨cs, hcs⟩ : ∃ cs, p.text.toList = '/' :: cs := List.head?_eq_some_iff.mp (eq_of_beq h)
  have htext : p.text = String.ofList ('/' :: cs) := by rw [← hcs, String.ofList_toList]
  refine ⟨piecesOf (String.ofList cs), ?_, ?_⟩
  · unfold piecesOf
    rw [hcs, String.toList_ofList, List.splitOn_eq_splitOnP, List.splitOnP_cons_eq_if_modifyHead,
      if_pos (beq_self_eq_true '/'), List.splitOn_eq_splitOnP]
    rfl
  · rw [pathSize_piecesOf, htext, String.ofList_cons, String.utf8ByteSize_append,
      String.utf8ByteSize_singleton, Nat.add_comm]
    rfl

theorem pathSize_pos_of_asksForDirectory {rest : List String} (h : asksForDirectory rest = true) :
    0 < pathSize rest := by
  cases rest with
  | nil => cases h
  | cons piece rest =>
    rw [pathSize_cons]
    omega

/-! ## What can be opened is resolved, as far as it is not too deep -/

/-- Whether the path to a name is short enough to be asked for, with a slash behind it where what follows
asks for a directory. -/
def IsShort (here : Place) (name : String) (rest : List String) : Prop :=
  pathSize (here ++ [name]) < maxPath ∧
    (asksForDirectory rest = true → pathSize (here ++ [name]) + 1 < maxPath)

/-- Whether what holds of a directory and the pieces to be walked from there goes on holding, and makes all
names short at which something stands. -/
structure KeepsShort (d : Disk) (P : Place → List String → Prop) : Prop where
  stay : ∀ {here piece rest}, P here (piece :: rest) → P here rest
  up : ∀ {here rest}, P here (".." :: rest) → P here.dropLast rest
  enter : ∀ {here name rest}, P here (name :: rest) → P (here ++ [name]) rest
  link : ∀ {here name rest target}, P here (name :: rest) → d.node? (here ++ [name]) = some (.link target) →
    P (linkStart target here) (piecesOf target ++ rest)
  short : ∀ {here name rest n}, P here (name :: rest) → d.node? (here ++ [name]) = some n →
    IsShort here name rest

theorem KeepsShort.resolveFrom_eq {P : Place → List String → Prop} (hP : KeepsShort d P) {links : Nat}
    {here : Place} {ps : List String} {q : Place} {n : Node} (hat : P here ps)
    (h : walkFrom d true links here ps = .ok (.node q n)) : resolveFrom d links here ps = some q := by
  induction links, here, ps using pieces_induction with
  | nil links here =>
    rw [walkFrom_nil] at h
    rw [resolveFrom_nil]
    cases h
    rfl
  | stay links here piece rest hs ih =>
    rw [walkFrom_stay hs] at h
    rw [resolveFrom_stay hs]
    exact ih (hP.stay hat) h
  | up links here rest ih =>
    rw [walkFrom_up] at h
    rw [resolveFrom_up]
    exact ih (hP.up hat) h
  | step links here piece rest hstep ih outer =>
    obtain ⟨hname, hcases⟩ := atName_of_walkFrom hstep h
    have hask : ∀ {n}, d.node? (here ++ [piece]) = some n →
        ¬ (maxName < piece.utf8ByteSize || maxPath ≤ pathSize (here ++ [piece])) = true := by
      intro n hn
      rw [Bool.or_eq_true, decide_eq_true_eq, decide_eq_true_eq, not_or]
      exact ⟨Nat.not_lt.mpr hname, Nat.not_le.mpr (hP.short hat hn).1⟩
    rw [resolveFrom_step hstep]
    cases hcases with
    | gap _ _ hfound => cases hfound
    | enter hn hw =>
      have hshort : ¬ (asksForDirectory rest && maxPath ≤ pathSize (here ++ [piece]) + 1) = true := by
        rw [Bool.and_eq_true, decide_eq_true_eq]
        rintro ⟨hasks, hlong⟩
        exact Nat.not_lt.mpr hlong ((hP.short hat hn).2 hasks)
      rw [if_neg (hask hn), hn]
      simp only [if_neg hshort]
      exact ih (hP.enter hat) hw
    | file bytes modified hn hrest hfound =>
      rw [if_neg (hask hn), hn, hrest]
      cases hfound
      rfl
    | stop target _ _ hfollow => cases hfollow
    | link left target hn ht hlinks hw =>
      subst hlinks
      rw [if_neg (hask hn), hn]
      simp only [ht, Bool.false_eq_true, if_false]
      exact outer left target (Nat.lt_succ_self left) (hP.link hat hn) hw

theorem KeepsShort.canonical?_eq {P : Place → List String → Prop} (hP : KeepsShort d P) {p : Path}
    {q : Place} (habs : p.isAbsolute = true)
    (hstart : ∀ rest, pathSize rest < maxPath → P [] rest) (h : d.identity? p = some q) :
    d.canonical? p = some q := by
  unfold identity? follow? at h
  split at h
  · next place n hw =>
    obtain rfl := Option.some.inj h
    have hsize := utf8ByteSize_lt_of_walk hw
    obtain ⟨rest, hpieces, hrest⟩ := exists_piecesOf_of_isAbsolute habs
    unfold walk at hw
    unfold canonical?
    split at hw
    · cases hw
    next hnul =>
    split at hw
    · cases hw
    next hempty =>
    rw [if_neg (by rw [Bool.or_eq_true]; exact not_or.mpr ⟨hnul, hempty⟩), if_pos habs, hpieces,
      resolveFrom_stay (.inl rfl)]
    rw [if_neg (Nat.not_le.mpr hsize), hpieces, walkFrom_stay (.inl rfl)] at hw
    exact hP.resolveFrom_eq (hstart rest (hrest ▸ hsize)) hw
  · cases h

/-- **On a disk without links** an absolute path that leads somewhere is resolved to that place: no path
on the way is longer than the path itself. -/
theorem canonical?_of_linkFree (hd : d.LinkFree) {p : Path} {q : Place} (habs : p.isAbsolute = true)
    (h : d.identity? p = some q) : d.canonical? p = some q := by
  have hkeeps : KeepsShort d fun here ps => pathSize here + pathSize ps < maxPath := by
    constructor
    · intro here piece rest hsize
      rw [pathSize_cons] at hsize
      omega
    · intro here rest hsize
      rw [pathSize_cons] at hsize
      have hup := pathSize_dropLast_le here
      omega
    · intro here name rest hsize
      rw [pathSize_cons] at hsize
      rw [pathSize_concat]
      omega
    · intro here name rest target _ hn
      exact absurd hn (hd _ _)
    · intro here name rest n hsize _
      rw [pathSize_cons] at hsize
      unfold IsShort
      rw [pathSize_concat]
      refine ⟨by omega, fun hasks => ?_⟩
      -- Where a directory is asked for, a piece follows that makes up for the slash.
      have hpos := pathSize_pos_of_asksForDirectory hasks
      omega
  exact hkeeps.canonical?_eq habs (fun rest hrest => by rwa [← Nat.zero_add (pathSize rest)] at hrest) h

/-- **What keeps a path from being resolved** is something that stands too deep. -/
theorem exists_deep_of_canonical?_eq_none {p : Path} {q : Place} (habs : p.isAbsolute = true)
    (h : d.identity? p = some q) (hnone : d.canonical? p = none) :
    ∃ place n, d.node? place = some n ∧ maxPath ≤ pathSize place + 1 := by
  by_contra hno
  have hkeeps : KeepsShort d fun _ _ => True := by
    refine ⟨fun _ => trivial, fun _ => trivial, fun _ => trivial, fun _ _ => trivial, ?_⟩
    intro here name rest n _ hn
    have hshort : pathSize (here ++ [name]) + 1 < maxPath :=
      Nat.lt_of_not_le fun hdeep => hno ⟨_, n, hn, hdeep⟩
    exact ⟨by omega, fun _ => hshort⟩
  rw [hkeeps.canonical?_eq habs (fun _ _ => trivial) h] at hnone
  cases hnone

end FormWeaver.Disk
