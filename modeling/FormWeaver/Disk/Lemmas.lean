import FormWeaver.Disk.Files

/-!
# Walks end at what the disk holds

The node that a walk ends at is the one the disk holds at that place. So the bytes that are read by
any path are those of one of the finitely many files of the disk, however the path is spelled and
through whatever links it leads.

A walk goes on piece by piece (`pieces_induction`): a piece may be skipped or lead up, and otherwise it
is a name, at which a walk that ends somewhere does one of five things (`AtName`).
-/

namespace FormWeaver.Disk

variable {d : Disk} {follow : Bool}

/-! ## One piece of a walk -/

/-- Whether a piece is looked up in a directory, and not skipped or the way up. -/
def IsStep (piece : String) : Prop := piece ≠ "" ∧ piece ≠ "." ∧ piece ≠ ".."

theorem walkFrom_nil (links : Nat) (here : Place) :
    walkFrom d follow links here [] = .ok (.node here .directory) := by
  cases links <;> rfl

theorem walkFrom_stay {piece : String} (h : piece = "" ∨ piece = ".") (links : Nat) (here : Place)
    (rest : List String) :
    walkFrom d follow links here (piece :: rest) = walkFrom d follow links here rest := by
  cases links <;> (unfold walkFrom; rw [walkPieces, if_pos (by simpa using h)])

theorem walkFrom_up (links : Nat) (here : Place) (rest : List String) :
    walkFrom d follow links here (".." :: rest) = walkFrom d follow links here.dropLast rest := by
  cases links <;> (unfold walkFrom; rw [walkPieces, if_neg (by decide), if_pos rfl])

/-- Where a walk goes on from a link that stands in a directory. -/
def linkStart (target : String) (here : Place) : Place := if (Path.mk target).isAbsolute then [] else here

/-- Following a link with so many links left. -/
def followLink (d : Disk) (follow : Bool) (target : String) (here : Place) (rest : List String) :
    Nat → Except SystemError Found
  | 0 => .error .tooManyLinks
  | links + 1 => walkFrom d follow links (linkStart target here) (piecesOf target ++ rest)

theorem walkFrom_step {piece : String} (h : IsStep piece) (links : Nat) (here : Place)
    (rest : List String) :
    walkFrom d follow links here (piece :: rest) =
      if maxName < piece.utf8ByteSize then .error .nameTooLong
      else match d.node? (here ++ [piece]) with
        | none => if rest.all (· == "") then .ok (.gap here piece !rest.isEmpty) else .error .notFound
        | some .directory => walkFrom d follow links (here ++ [piece]) rest
        | some (.file bytes modified) =>
          if rest.isEmpty then .ok (.node (here ++ [piece]) (.file bytes modified))
          else .error .notADirectory
        | some (.link target) =>
          if rest.isEmpty && !follow then .ok (.node (here ++ [piece]) (.link target))
          else if target.isEmpty then .error .notFound
          else followLink d follow target here rest links := by
  have h1 : ¬ ((piece = "" || piece = ".") = true) := by simpa using ⟨h.1, h.2.1⟩
  cases links <;> (unfold walkFrom; rw [walkPieces, if_neg h1, if_neg h.2.2]; rfl)

/-- What holds at the end of the pieces, and at a piece when it holds where a walk can go on from there,
holds throughout: following a link starts over with fewer links, all else goes on with fewer pieces. -/
@[elab_as_elim]
theorem pieces_induction {motive : Nat → Place → List String → Prop} (links : Nat) (here : Place)
    (ps : List String) (nil : ∀ links here, motive links here [])
    (stay : ∀ links here piece rest, piece = "" ∨ piece = "." → motive links here rest →
      motive links here (piece :: rest))
    (up : ∀ links (here : Place) rest, motive links here.dropLast rest →
      motive links here (".." :: rest))
    (step : ∀ links here piece rest, IsStep piece → motive links (here ++ [piece]) rest →
      (∀ left target, left < links → motive left (linkStart target here) (piecesOf target ++ rest)) →
      motive links here (piece :: rest)) : motive links here ps := by
  induction links using Nat.strongRecOn generalizing here ps with
  | ind links outer =>
    induction ps generalizing here with
    | nil => exact nil links here
    | cons piece rest ih =>
      by_cases hs : piece = "" ∨ piece = "."
      · exact stay links here piece rest hs (ih here)
      by_cases hu : piece = ".."
      · subst hu
        exact up links here rest (ih _)
      exact step links here piece rest ⟨fun e => hs (.inl e), fun e => hs (.inr e), hu⟩ (ih _)
        fun left target h => outer left h _ _

/-- What a walk that ends somewhere does at a name. -/
inductive AtName (d : Disk) (follow : Bool) (links : Nat) (here : Place) (name : String)
    (rest : List String) (found : Found) : Prop
  | gap (hn : d.node? (here ++ [name]) = none) (hrest : rest.all (· == "") = true)
      (hfound : found = .gap here name !rest.isEmpty)
  | enter (hn : d.node? (here ++ [name]) = some .directory)
      (hw : walkFrom d follow links (here ++ [name]) rest = .ok found)
  | file (bytes : ByteArray) (modified : Int)
      (hn : d.node? (here ++ [name]) = some (.file bytes modified)) (hrest : rest = [])
      (hfound : found = .node (here ++ [name]) (.file bytes modified))
  | stop (target : String) (hn : d.node? (here ++ [name]) = some (.link target)) (hrest : rest = [])
      (hfollow : follow = false) (hfound : found = .node (here ++ [name]) (.link target))
  | link (left : Nat) (target : String) (hn : d.node? (here ++ [name]) = some (.link target))
      (ht : target.isEmpty = false) (hlinks : links = left + 1)
      (hw : walkFrom d follow left (linkStart target here) (piecesOf target ++ rest) = .ok found)

theorem atName_of_walkFrom {links : Nat} {here : Place} {name : String} {rest : List String}
    {found : Found} (hname : IsStep name) (h : walkFrom d follow links here (name :: rest) = .ok found) :
    name.utf8ByteSize ≤ maxName ∧ AtName d follow links here name rest found := by
  rw [walkFrom_step hname] at h
  split at h
  · cases h
  next hsize =>
  refine ⟨Nat.le_of_not_lt hsize, ?_⟩
  split at h
  · next hn =>
    split at h
    · next hrest => exact .gap hn hrest (Except.ok.inj h).symm
    · cases h
  · next hn => exact .enter hn h
  · next bytes modified hn =>
    split at h
    · next hrest => exact .file bytes modified hn (List.isEmpty_iff.mp hrest) (Except.ok.inj h).symm
    · cases h
  · next target hn =>
    split at h
    · next hstop =>
      rw [Bool.and_eq_true, Bool.not_eq_true', List.isEmpty_iff] at hstop
      exact .stop target hn hstop.1 hstop.2 (Except.ok.inj h).symm
    split at h
    · cases h
    next ht =>
    cases links with
    | zero => cases h
    | succ left => exact .link left target hn (by simpa using ht) rfl h

/-! ## Where walks end -/

theorem node?_of_walkFrom {q : Place} {n : Node} (links : Nat) (here : Place) (ps : List String)
    (h : walkFrom d follow links here ps = .ok (.node q n)) (hn : n ≠ .directory) :
    d.node? q = some n := by
  induction links, here, ps using pieces_induction with
  | nil links here =>
    rw [walkFrom_nil] at h
    cases h
    exact absurd rfl hn
  | stay links here piece rest hs ih =>
    rw [walkFrom_stay hs] at h
    exact ih h
  | up links here rest ih =>
    rw [walkFrom_up] at h
    exact ih h
  | step links here piece rest hstep ih outer =>
    cases (atName_of_walkFrom hstep h).2 with
    | gap _ _ hgap => cases hgap
    | enter _ hw => exact ih hw
    | file bytes modified hfile _ hfound =>
      cases hfound
      exact hfile
    | stop target hlink _ _ hfound =>
      cases hfound
      exact hlink
    | link left target _ _ hlinks hw => exact outer left target (by omega) hw

/-! ## Resolving leads the same way -/

theorem resolveFrom_nil (links : Nat) (here : Place) : resolveFrom d links here [] = some here := by
  cases links <;> rfl

theorem resolveFrom_stay {piece : String} (h : piece = "" ∨ piece = ".") (links : Nat) (here : Place)
    (rest : List String) : resolveFrom d links here (piece :: rest) = resolveFrom d links here rest := by
  cases links <;> (unfold resolveFrom; rw [resolvePieces, if_pos (by simpa using h)])

theorem resolveFrom_up (links : Nat) (here : Place) (rest : List String) :
    resolveFrom d links here (".." :: rest) = resolveFrom d links here.dropLast rest := by
  cases links <;> (unfold resolveFrom; rw [resolvePieces, if_neg (by decide), if_pos rfl])

/-- Resolving a link with so many links left. -/
def resolveLink (d : Disk) (target : String) (here : Place) (rest : List String) : Nat → Option Place
  | 0 => none
  | links + 1 => resolveFrom d links (linkStart target here) (piecesOf target ++ rest)

theorem resolveFrom_step {piece : String} (h : IsStep piece) (links : Nat) (here : Place)
    (rest : List String) :
    resolveFrom d links here (piece :: rest) =
      if maxName < piece.utf8ByteSize || maxPath ≤ pathSize (here ++ [piece]) then none
      else match d.node? (here ++ [piece]) with
        | none => none
        | some .directory =>
          if asksForDirectory rest && maxPath ≤ pathSize (here ++ [piece]) + 1 then none
          else resolveFrom d links (here ++ [piece]) rest
        | some (.file _ _) => if rest.isEmpty then some (here ++ [piece]) else none
        | some (.link target) =>
          if target.isEmpty then none else resolveLink d target here rest links := by
  have h1 : ¬ ((piece = "" || piece = ".") = true) := by simpa using ⟨h.1, h.2.1⟩
  cases links <;> (unfold resolveFrom; rw [resolvePieces, if_neg h1, if_neg h.2.2]; rfl)

/-- What pieces are resolved to, a walk over them ends at. -/
theorem exists_walkFrom_of_resolveFrom {links : Nat} {here : Place} {ps : List String} {q : Place}
    (h : resolveFrom d links here ps = some q) :
    ∃ n, walkFrom d true links here ps = .ok (.node q n) := by
  induction links, here, ps using pieces_induction with
  | nil links here =>
    rw [resolveFrom_nil] at h
    rw [walkFrom_nil, Option.some.inj h]
    exact ⟨_, rfl⟩
  | stay links here piece rest hs ih =>
    rw [resolveFrom_stay hs] at h
    rw [walkFrom_stay hs]
    exact ih h
  | up links here rest ih =>
    rw [resolveFrom_up] at h
    rw [walkFrom_up]
    exact ih h
  | step links here piece rest hstep ih outer =>
    rw [resolveFrom_step hstep] at h
    rw [walkFrom_step hstep]
    split at h
    · cases h
    next hsize =>
    rw [Bool.or_eq_true, not_or, decide_eq_true_eq] at hsize
    rw [if_neg hsize.1]
    split at h
    · cases h
    · split at h
      · cases h
      · exact ih h
    · split at h
      · next hrest =>
        rw [if_pos hrest, Option.some.inj h]
        exact ⟨_, rfl⟩
      · cases h
    · next target _ =>
      split at h
      · cases h
      next ht =>
      rw [Bool.not_true, Bool.and_false, if_neg Bool.false_ne_true, if_neg ht]
      cases links with
      | zero => cases h
      | succ left => exact outer left target (Nat.lt_succ_self left) h

theorem exists_walkFrom_of_walkRemoved {parent : Place} {ps : List String} {found : Found}
    (h : walkRemoved d follow parent ps = .ok found) :
    found = .removed ∨ ∃ rest, walkFrom d follow maxLinks parent rest = .ok found := by
  induction ps with
  | nil => exact .inl (Except.ok.inj h).symm
  | cons piece rest ih =>
    unfold walkRemoved at h
    split at h
    · exact ih h
    split at h
    · exact .inr ⟨rest, h⟩
    · cases h

/-- What a walk ends at, it got to from some directory, unless that is the working directory that has
been removed. -/
theorem exists_walkFrom_of_walk {p : Path} {found : Found} (h : d.walk follow p = .ok found) :
    found = .removed ∨ ∃ here ps, walkFrom d follow maxLinks here ps = .ok found := by
  unfold walk at h
  split at h
  · cases h
  split at h
  · cases h
  split at h
  · cases h
  split at h
  · exact .inr ⟨_, _, h⟩
  split at h
  · exact .inr ⟨_, _, h⟩
  · exact (exists_walkFrom_of_walkRemoved h).imp_right fun ⟨ps, hw⟩ => ⟨_, ps, hw⟩

/-- What a walk ends at is what the disk holds there. -/
theorem node?_of_walk {p : Path} {q : Place} {n : Node} (h : d.walk follow p = .ok (.node q n))
    (hn : n ≠ .directory) : d.node? q = some n := by
  rcases exists_walkFrom_of_walk h with hremoved | ⟨here, ps, hw⟩
  · cases hremoved
  · exact node?_of_walkFrom _ _ _ hw hn

theorem mem_of_lookup {p : Place} {n : Node} :
    ∀ {nodes : List (Place × Node)}, nodes.lookup p = some n → (p, n) ∈ nodes
  | [], h => by simp at h
  | (q, m) :: nodes, h => by
    rw [List.lookup_cons] at h
    split at h
    · next hq =>
      have := eq_of_beq hq
      simp only [Option.some.injEq] at h
      subst this h
      simp
    · exact List.mem_cons_of_mem _ (mem_of_lookup h)

/-- The bytes read by a path are those of a file of the disk. -/
theorem mem_of_contents {p : Path} {bytes : ByteArray} (h : d.contents p = .ok bytes) :
    ∃ q time, (q, Node.file bytes time) ∈ d.nodes := by
  unfold contents at h
  split at h
  · simp at h
  · next q b time hw =>
    simp only [Except.ok.injEq] at h
    subst h
    have hq := node?_of_walk hw (by simp)
    unfold node? at hq
    split at hq
    · simp at hq
    · exact ⟨q, time, mem_of_lookup hq⟩
  all_goals simp at h

end FormWeaver.Disk
