import FormWeaver.Proofs.Disk.Descent
import FormWeaver.Proofs.Path.Child

/-!
# The place that a path spells

On a disk without links a path leads, if it leads anywhere, to the place that its pieces spell from
where it begins (`place?`): a name goes down, `..` goes up. This place depends on the spelling and on
the working directory only, so it is the same on all disks that a run goes through (`place?_of_walk`).
-/

namespace FormWeaver

def Node.isLink : Node → Bool
  | .link _ => true
  | _ => false

namespace Disk

variable {d d' : Disk} {follow : Bool}

/-- Whether no link stands anywhere. -/
def LinkFree (d : Disk) : Prop := ∀ q target, d.node? q ≠ some (.link target)

theorem linkFree_of_nodes (h : d.nodes.all (!·.2.isLink) = true) : d.LinkFree := by
  intro q target hn
  unfold node? at hn
  split at hn
  · cases hn
  · have hlink := List.all_eq_true.mp h _ (mem_of_lookup hn)
    cases hlink

/-! ## Spelled places -/

/-- Where one more piece leads to, if it leads anywhere. -/
def spell : Option WorkingDirectory → String → Option WorkingDirectory
  | some (.present here), piece =>
    if piece = "" ∨ piece = "." then some (.present here)
    else if piece = ".." then some (.present here.dropLast)
    else some (.present (here ++ [piece]))
  | some (.removed parent), piece =>
    if piece = "" ∨ piece = "." then some (.removed parent)
    else if piece = ".." then some (.present parent)
    else none
  | none, _ => none

/-- The place that has been spelled. -/
def spelled? : Option WorkingDirectory → Option Place
  | some (.present here) => some here
  | _ => none

/-- The place that a path spells. -/
def place? (d : Disk) (p : Path) : Option Place :=
  spelled? (p.pieces.foldl spell (some (if p.isAbsolute then .present [] else d.workingDirectory)))

theorem place?_congr (h : d'.workingDirectory = d.workingDirectory) (p : Path) :
    d'.place? p = d.place? p := by
  unfold place?
  rw [h]

theorem spell_idle {piece : String} (h : piece = "" ∨ piece = ".") (w : Option WorkingDirectory) :
    spell w piece = w := by
  cases w with
  | none => rfl
  | some w => cases w <;> exact if_pos h

theorem spell_name {name : String} (h : IsStep name) (here : Place) :
    spell (some (.present here)) name = some (.present (here ++ [name])) := by
  rw [spell, if_neg (not_or.mpr ⟨h.1, h.2.1⟩), if_neg h.2.2]

theorem spelled?_spell {name : String} (h : IsStep name) (w : Option WorkingDirectory) :
    spelled? (spell w name) = (spelled? w).map (· ++ [name]) := by
  cases w with
  | none => rfl
  | some w =>
    cases w with
    | present here =>
      rw [spell_name h]
      rfl
    | removed parent =>
      rw [spell, if_neg (not_or.mpr ⟨h.1, h.2.1⟩), if_neg h.2.2]
      rfl

theorem foldl_spell_of_empty {ps : List String} (h : ps.all (· == "") = true)
    (w : Option WorkingDirectory) : ps.foldl spell w = w := by
  induction ps with
  | nil => rfl
  | cons p ps ih =>
    rw [List.all_cons, Bool.and_eq_true, beq_iff_eq] at h
    rw [List.foldl_cons, spell_idle (.inl h.1), ih h.2]

/-- A path whose last piece is a name spells a place of that name. -/
theorem place?_of_pieces {p : Path} {before : List String} {name : String} (h : IsStep name)
    (hp : p.pieces = before ++ [name]) (d : Disk) :
    d.place? p = (spelled? (before.foldl spell
      (some (if p.isAbsolute then .present [] else d.workingDirectory)))).map (· ++ [name]) := by
  unfold place?
  rw [hp, List.foldl_append]
  exact spelled?_spell h _

theorem place?_child {name : String} (h : Path.IsLegal name) (d : Disk) (p : Path) :
    d.place? (p.child name) = (d.place? p).map (· ++ [name]) := by
  obtain ⟨before, hchild, -, hp⟩ := Path.pieces_child h.2 p
  rw [place?_of_pieces h.1 hchild, Path.isAbsolute_child h.2]
  unfold place?
  -- An empty piece at the end of the path leads nowhere else.
  rcases hp with hp | hp
  · rw [hp]
  · rw [hp, List.foldl_append]
    show _ = Option.map _ (spelled? (spell _ ""))
    rw [spell_idle (.inl rfl)]

theorem place?_foldl_child {names : List String} (h : ∀ name ∈ names, Path.IsLegal name) (d : Disk)
    (p : Path) : d.place? (names.foldl Path.child p) = (d.place? p).map (· ++ names) := by
  induction names generalizing p with
  | nil => simp
  | cons name names ih =>
    rw [List.foldl_cons, ih fun n hn => h n (List.mem_cons_of_mem _ hn),
      place?_child (h name List.mem_cons_self)]
    cases d.place? p <;> simp

/-! ## Last names -/

/-- Whether the last name of a place ends in a text. -/
def EndsWith (q : Place) (ending : String) : Prop :=
  ∃ above name, q = above ++ [name] ∧ ending.toList <:+ name.toList

/-- A name has two endings only if one of them is an ending of the other. -/
theorem EndsWith.not_endsWith {q : Place} {s t : String} (hs : EndsWith q s)
    (hst : ¬ s.toList <:+ t.toList) (hts : ¬ t.toList <:+ s.toList) : ¬ EndsWith q t := by
  rintro ⟨above', name', hq, ht⟩
  obtain ⟨above, name, rfl, hs⟩ := hs
  obtain ⟨-, hname⟩ := List.append_inj' hq rfl
  obtain rfl := (List.cons.inj hname).1
  rcases List.suffix_or_suffix_of_suffix hs ht with h | h
  · exact hst h
  · exact hts h

theorem EndsWith.append {q : Place} {s : String} (h : EndsWith q s) (above : Place) :
    EndsWith (above ++ q) s := by
  obtain ⟨between, name, rfl, hs⟩ := h
  exact ⟨above ++ between, name, by simp, hs⟩

theorem endsWith_of_place?_child {name ending : String} {d : Disk} {p : Path} {q : Place}
    (h : Path.IsLegal name) (hend : ending.toList <:+ name.toList)
    (hq : d.place? (p.child name) = some q) : EndsWith q ending := by
  rw [place?_child h] at hq
  obtain ⟨above, -, rfl⟩ := Option.map_eq_some_iff.mp hq
  exact ⟨above, name, rfl, hend⟩

/-! ## Where walks end -/

/-- The place of what a walk ended at. -/
def Found.place? : Found → Option Place
  | .node place _ => some place
  | .gap directory name _ => some (directory ++ [name])
  | .removed => none

/-- The place that a path leads to, also when nothing stands there. -/
def spot? (d : Disk) (follow : Bool) (p : Path) : Option Place :=
  match d.walk follow p with
  | .ok found => found.place?
  | .error _ => none

theorem spot?_of_walk {p : Path} {found : Found} (h : d.walk follow p = .ok found) :
    d.spot? follow p = found.place? := by
  unfold spot?
  rw [h]

theorem place?_of_walkFrom (hd : d.LinkFree) {links : Nat} {here : Place} {ps : List String}
    {found : Found} (h : walkFrom d follow links here ps = .ok found) :
    spelled? (ps.foldl spell (some (.present here))) = found.place? := by
  induction links, here, ps using pieces_induction with
  | nil links here =>
    rw [walkFrom_nil] at h
    rw [← Except.ok.inj h]
    rfl
  | stay links here piece rest hs ih =>
    rw [walkFrom_stay hs] at h
    rw [List.foldl_cons, spell_idle hs]
    exact ih h
  | up links here rest ih =>
    rw [walkFrom_up] at h
    exact ih h
  | step links here piece rest hstep ih _ =>
    rw [List.foldl_cons, spell_name hstep]
    cases (atName_of_walkFrom hstep h).2 with
    | gap _ hrest hgap =>
      -- Only empty pieces may follow a free name.
      rw [foldl_spell_of_empty hrest, hgap]
      rfl
    | enter _ hw => exact ih hw
    | file _ _ _ hrest hfile =>
      rw [hrest, hfile]
      rfl
    | stop target hn _ _ _ => exact absurd hn (hd _ _)
    | link left target hn _ _ _ => exact absurd hn (hd _ _)

theorem place?_of_walkRemoved (hd : d.LinkFree) {parent : Place} {ps : List String} {found : Found}
    (h : walkRemoved d follow parent ps = .ok found) :
    spelled? (ps.foldl spell (some (.removed parent))) = found.place? := by
  induction ps with
  | nil =>
    rw [walkRemoved] at h
    rw [← Except.ok.inj h]
    rfl
  | cons piece ps ih =>
    unfold walkRemoved at h
    rw [List.foldl_cons]
    split at h
    · next hs =>
      rw [spell_idle (by simpa using hs)]
      exact ih h
    · split at h
      · next hu =>
        subst hu
        exact place?_of_walkFrom hd h
      · cases h

/-- **On a disk without links a path leads to the place that it spells.** -/
theorem place?_of_walk (hd : d.LinkFree) {p : Path} {found : Found}
    (h : d.walk follow p = .ok found) : d.place? p = found.place? := by
  unfold walk at h
  split at h
  · cases h
  split at h
  · cases h
  split at h
  · cases h
  unfold place?
  split at h
  · next habs =>
    rw [if_pos habs]
    exact place?_of_walkFrom hd h
  · next habs =>
    rw [if_neg habs]
    split at h
    · next here hw =>
      rw [hw]
      exact place?_of_walkFrom hd h
    · next parent hw =>
      rw [hw]
      exact place?_of_walkRemoved hd h

theorem place?_of_spot? (hd : d.LinkFree) {p : Path} {q : Place} (h : d.spot? follow p = some q) :
    d.place? p = some q := by
  unfold spot? at h
  split at h
  · next found hw => rw [place?_of_walk hd hw, h]
  · cases h

theorem spot?_ne (hd : d.LinkFree) {p : Path} {q : Place} (h : d.place? p ≠ some q) :
    d.spot? follow p ≠ some q :=
  fun hspot => h (place?_of_spot? hd hspot)

theorem place?_of_follow? (hd : d.LinkFree) {p : Path} {q : Place} {n : Node}
    (h : d.follow? p = some (q, n)) : d.place? p = some q := by
  unfold follow? at h
  split at h
  · next place m hw =>
    obtain ⟨rfl, rfl⟩ := Prod.mk.inj (Option.some.inj h)
    exact place?_of_walk hd hw
  · cases h

theorem place?_of_identity? (hd : d.LinkFree) {p : Path} {q : Place} (h : d.identity? p = some q) :
    d.place? p = some q := by
  unfold identity? at h
  obtain ⟨⟨place, n⟩, hf, rfl⟩ := Option.map_eq_some_iff.mp h
  exact place?_of_follow? hd hf

end Disk
end FormWeaver
