import FormWeaver.Disk.Lemmas

/-!
# The way to the last name of a path

A walk first finds the directory in which the last name of its path is looked up, and only then looks
at what stands there. The first part, a *descent*, passes through directories and links only, so it is
the same on every disk that has these (`Descent.mono`). A path *leads* to a name in a directory when
its descent ends there; `walk_cases` takes a walk apart into the descent and what the disk holds under
the name, and `Leads.walk_node` and `Leads.walk_gap` put it together again.
-/

namespace FormWeaver.Disk

variable {d d' : Disk} {follow : Bool}

/-! ## Descents -/

/-- The pieces lead from directory `here`, with so many links to follow, to directory `there`, with so
many links left. -/
inductive Descent (d : Disk) : Nat → Place → List String → Place → Nat → Prop
  | here (links : Nat) (here : Place) : Descent d links here [] here links
  | stay {links left : Nat} {here there : Place} {piece : String} {rest : List String}
      (h : piece = "" ∨ piece = ".") (hr : Descent d links here rest there left) :
      Descent d links here (piece :: rest) there left
  | up {links left : Nat} {here there : Place} {rest : List String}
      (hr : Descent d links here.dropLast rest there left) :
      Descent d links here (".." :: rest) there left
  | enter {links left : Nat} {here there : Place} {piece : String} {rest : List String}
      (h : IsStep piece) (hsize : piece.utf8ByteSize ≤ maxName)
      (hn : d.node? (here ++ [piece]) = some .directory)
      (hr : Descent d links (here ++ [piece]) rest there left) :
      Descent d links here (piece :: rest) there left
  | link {links left : Nat} {here there : Place} {piece target : String} {rest : List String}
      (h : IsStep piece) (hsize : piece.utf8ByteSize ≤ maxName)
      (hn : d.node? (here ++ [piece]) = some (.link target)) (ht : target.isEmpty = false)
      (hr : Descent d links (linkStart target here) (piecesOf target ++ rest) there left) :
      Descent d (links + 1) here (piece :: rest) there left

/-- A descent passes through directories and links only. -/
theorem Descent.mono {links left : Nat} {here there : Place} {ps : List String}
    (hd : ∀ q, d.node? q = some .directory → d'.node? q = some .directory)
    (hl : ∀ q t, d.node? q = some (.link t) → d'.node? q = some (.link t))
    (h : Descent d links here ps there left) : Descent d' links here ps there left := by
  induction h with
  | here links here => exact .here links here
  | stay h _ ih => exact .stay h ih
  | up _ ih => exact .up ih
  | enter h hsize hn _ ih => exact .enter h hsize (hd _ hn) ih
  | link h hsize hn ht _ ih => exact .link h hsize (hl _ _ hn) ht ih

/-- A walk goes on from where a descent ends. -/
theorem Descent.walkFrom_append {links left : Nat} {here there : Place} {ps qs : List String}
    (h : Descent d links here ps there left) (hqs : qs ≠ []) :
    walkFrom d follow links here (ps ++ qs) = walkFrom d follow left there qs := by
  -- Whether a name is the last one matters at links and files; here more names follow.
  have hempty : ∀ rest : List String, (rest ++ qs).isEmpty = false := by
    intro rest
    cases rest with
    | nil => cases qs with
      | nil => exact absurd rfl hqs
      | cons => rfl
    | cons => rfl
  induction h with
  | here => rfl
  | stay h _ ih => rw [List.cons_append, walkFrom_stay h, ih]
  | up _ ih => rw [List.cons_append, walkFrom_up, ih]
  | enter h hsize hn _ ih =>
    rw [List.cons_append, walkFrom_step h, if_neg (by omega), hn]
    exact ih
  | link h hsize hn ht _ ih =>
    rw [List.cons_append, walkFrom_step h, if_neg (by omega), hn]
    simp only [hempty, ht, Bool.false_and, Bool.false_eq_true, if_false]
    rw [followLink, ← List.append_assoc]
    exact ih

/-- A walk that ends somewhere got by a descent to where its last name is looked up. -/
theorem descent_of_walkFrom {name : String} (hname : IsStep name) {found : Found} (links : Nat)
    (here : Place) (ps : List String) (h : walkFrom d follow links here (ps ++ [name]) = .ok found) :
    ∃ there left, Descent d links here ps there left ∧
      walkFrom d follow left there [name] = .ok found := by
  induction links, here, ps using pieces_induction with
  | nil links here => exact ⟨here, links, .here links here, h⟩
  | stay links here piece rest hs ih =>
    rw [List.cons_append, walkFrom_stay hs] at h
    obtain ⟨there, left, hd, hw⟩ := ih h
    exact ⟨there, left, .stay hs hd, hw⟩
  | up links here rest ih =>
    rw [List.cons_append, walkFrom_up] at h
    obtain ⟨there, left, hd, hw⟩ := ih h
    exact ⟨there, left, .up hd, hw⟩
  | step links here piece rest hstep ih outer =>
    rw [List.cons_append] at h
    -- Whatever ends a walk does not do so before the last name.
    have hmore : rest ++ [name] ≠ [] := List.append_ne_nil_of_right_ne_nil _ (List.cons_ne_nil _ _)
    obtain ⟨hsize, h⟩ := atName_of_walkFrom hstep h
    cases h with
    | gap _ hrest _ => simp [hname.1] at hrest
    | enter hn hw =>
      obtain ⟨there, left, hd, hw⟩ := ih hw
      exact ⟨there, left, .enter hstep hsize hn hd, hw⟩
    | file _ _ _ hrest _ => exact absurd hrest hmore
    | stop _ _ hrest _ _ => exact absurd hrest hmore
    | link links target hn ht hlinks hw =>
      subst hlinks
      rw [← List.append_assoc] at hw
      obtain ⟨there, left, hd, hw⟩ := outer links target (Nat.lt_succ_self _) hw
      exact ⟨there, left, .link hstep hsize hn ht hd, hw⟩

/-- A walk that ends at a directory, the last link followed, is a descent to there. -/
theorem descent_of_directory {found : Found} (hfound : found = .removed ∨ ∃ q, found = .node q .directory)
    (links : Nat) (here : Place) (ps : List String) (h : walkFrom d true links here ps = .ok found) :
    ∃ there left, found = .node there .directory ∧ Descent d links here ps there left := by
  induction links, here, ps using pieces_induction with
  | nil links here =>
    rw [walkFrom_nil] at h
    exact ⟨here, links, (Except.ok.inj h).symm, .here links here⟩
  | stay links here piece rest hs ih =>
    rw [walkFrom_stay hs] at h
    obtain ⟨there, left, hend, hd⟩ := ih h
    exact ⟨there, left, hend, .stay hs hd⟩
  | up links here rest ih =>
    rw [walkFrom_up] at h
    obtain ⟨there, left, hend, hd⟩ := ih h
    exact ⟨there, left, hend, .up hd⟩
  | step links here piece rest hstep ih outer =>
    obtain ⟨hsize, h⟩ := atName_of_walkFrom hstep h
    cases h with
    | gap _ _ hgap => rcases hfound with rfl | ⟨q, rfl⟩ <;> cases hgap
    | enter hn hw =>
      obtain ⟨there, left, hend, hd⟩ := ih hw
      exact ⟨there, left, hend, .enter hstep hsize hn hd⟩
    | file _ _ _ _ hfile => rcases hfound with rfl | ⟨q, rfl⟩ <;> cases hfile
    | stop _ _ _ hfollow _ => cases hfollow
    | link links target hn ht hlinks hw =>
      subst hlinks
      obtain ⟨there, left, hend, hd⟩ := outer links target (Nat.lt_succ_self _) hw
      exact ⟨there, left, hend, .link hstep hsize hn ht hd⟩

/-! ## The last name of a path -/

theorem walkFrom_name {name : String} (h : IsStep name) (links : Nat) (here : Place) :
    walkFrom d follow links here [name] =
      if maxName < name.utf8ByteSize then .error .nameTooLong
      else match d.node? (here ++ [name]) with
        | none => .ok (.gap here name false)
        | some (.link target) =>
          if follow = false then .ok (.node (here ++ [name]) (.link target))
          else if target.isEmpty then .error .notFound
          else followLink d follow target here [] links
        | some n => .ok (.node (here ++ [name]) n) := by
  rw [walkFrom_step h]
  cases hn : d.node? (here ++ [name]) with
  | none => simp
  | some n =>
    cases n with
    | file => simp
    | directory => simp only [walkFrom_nil]
    | link => simp

/-- Whether a name is the last piece of a path. -/
def EndsIn (p : Path) (name : String) : Prop :=
  IsStep name ∧ ∃ before, piecesOf p.text = before ++ [name]

/-- A path leads to a name in directory `there`. What the disk holds under the name does not matter. -/
def Leads (d : Disk) (p : Path) (there : Place) (name : String) : Prop :=
  ∃ start ps left, Descent d maxLinks start ps there left ∧
    ∀ (d' : Disk) (follow : Bool), d'.workingDirectory = d.workingDirectory →
      d'.walk follow p = walkFrom d' follow maxLinks start (ps ++ [name])

theorem walkRemoved_cases {name : String} (hname : IsStep name) (parent : Place) (before : List String) :
    (∃ e, ∀ (d : Disk) (follow : Bool), walkRemoved d follow parent (before ++ [name]) = .error e) ∨
    ∃ ps, ∀ (d : Disk) (follow : Bool), walkRemoved d follow parent (before ++ [name]) =
      walkFrom d follow maxLinks parent (ps ++ [name]) := by
  induction before with
  | nil =>
    refine .inl ⟨.notFound, fun d follow => ?_⟩
    have hs : ¬ ((name = "" || name = ".") = true) := by simpa using ⟨hname.1, hname.2.1⟩
    rw [List.nil_append, walkRemoved, if_neg hs, if_neg hname.2.2]
  | cons piece before ih =>
    by_cases hs : (piece = "" || piece = ".") = true
    · simpa only [List.cons_append, walkRemoved, if_pos hs] using ih
    by_cases hu : piece = ".."
    · refine .inr ⟨before, fun d follow => ?_⟩
      rw [List.cons_append, walkRemoved, if_neg hs, if_pos hu]
    · refine .inl ⟨.notFound, fun d follow => ?_⟩
      rw [List.cons_append, walkRemoved, if_neg hs, if_neg hu]

/-- Whether a path is refused, and where its walk begins, does not depend on the nodes of the disk. -/
theorem walk_start {p : Path} {name : String} (h : EndsIn p name) (d : Disk) :
    (∃ e, ∀ (d' : Disk) (follow : Bool), d'.workingDirectory = d.workingDirectory →
      d'.walk follow p = .error e) ∨
    ∃ start ps, ∀ (d' : Disk) (follow : Bool), d'.workingDirectory = d.workingDirectory →
      d'.walk follow p = walkFrom d' follow maxLinks start (ps ++ [name]) := by
  obtain ⟨hname, before, hp⟩ := h
  unfold walk
  by_cases hnul : p.text.toList.contains '\x00' = true
  · exact .inl ⟨.nulInName, fun _ _ _ => by rw [if_pos hnul]⟩
  by_cases hempty : p.text.isEmpty = true
  · exact .inl ⟨.notFound, fun _ _ _ => by rw [if_neg hnul, if_pos hempty]⟩
  by_cases hlong : maxPath ≤ p.text.utf8ByteSize
  · exact .inl ⟨.nameTooLong, fun _ _ _ => by rw [if_neg hnul, if_neg hempty, if_pos hlong]⟩
  -- What is refused so far is refused for its spelling; the rest depends on where the path begins.
  simp only [if_neg hnul, if_neg hempty, if_neg hlong, hp]
  by_cases habs : p.isAbsolute = true
  · exact .inr ⟨[], before, fun _ _ _ => by rw [if_pos habs]⟩
  simp only [if_neg habs]
  cases hwd : d.workingDirectory with
  | present here => exact .inr ⟨here, before, fun _ _ hd => by rw [hd]⟩
  | removed parent =>
    rcases walkRemoved_cases hname parent before with ⟨e, he⟩ | ⟨ps, hps⟩
    · exact .inl ⟨e, fun _ _ hd => by rw [hd]; exact he _ _⟩
    · exact .inr ⟨parent, ps, fun _ _ hd => by rw [hd]; exact hps _ _⟩

/-- A path leads to the same place on every disk that has the directories and links on the way. -/
theorem Leads.mono {p : Path} {there : Place} {name : String} (h : d.Leads p there name)
    (hw : d'.workingDirectory = d.workingDirectory)
    (hd : ∀ q, d.node? q = some .directory → d'.node? q = some .directory)
    (hl : ∀ q t, d.node? q = some (.link t) → d'.node? q = some (.link t)) :
    d'.Leads p there name := by
  obtain ⟨start, ps, left, hdescent, hwalk⟩ := h
  exact ⟨start, ps, left, hdescent.mono hd hl, fun d'' follow h => hwalk d'' follow (h.trans hw)⟩

theorem Leads.walk {p : Path} {there : Place} {name : String} (h : d.Leads p there name) :
    ∃ left, ∀ follow, d.walk follow p = walkFrom d follow left there [name] := by
  obtain ⟨start, ps, left, hdescent, hwalk⟩ := h
  exact ⟨left, fun follow => (hwalk d follow rfl).trans (hdescent.walkFrom_append (by simp))⟩

/-- A path that leads to a name under which there is something other than a link ends there, and so
does one whose last link is not to be followed. -/
theorem Leads.walk_node {p : Path} {there : Place} {name : String} {n : Node} (h : d.Leads p there name)
    (follow : Bool) (hname : IsStep name) (hsize : name.utf8ByteSize ≤ maxName)
    (hn : d.node? (there ++ [name]) = some n) (hl : follow = false ∨ ∀ t, n ≠ .link t) :
    d.walk follow p = .ok (.node (there ++ [name]) n) := by
  obtain ⟨left, hw⟩ := h.walk
  rw [hw, walkFrom_name hname, if_neg (by omega), hn]
  cases n with
  | file => rfl
  | directory => rfl
  | link t =>
    rcases hl with hl | hl
    · simp [hl]
    · exact absurd rfl (hl t)

theorem Leads.walk_gap {p : Path} {there : Place} {name : String} (h : d.Leads p there name)
    (hname : IsStep name) (hsize : name.utf8ByteSize ≤ maxName) (hn : d.node? (there ++ [name]) = none) :
    d.walk follow p = .ok (.gap there name false) := by
  obtain ⟨left, hw⟩ := h.walk
  rw [hw, walkFrom_name hname, if_neg (by omega), hn]

/-- **Walks taken apart.** A walk that ends somewhere leads to the last name of its path; unless it
follows a link from there, it ends at what the disk holds under the name. -/
theorem walk_cases {p : Path} {name : String} (h : EndsIn p name) {found : Found}
    (hw : d.walk follow p = .ok found) :
    ∃ there, d.Leads p there name ∧ name.utf8ByteSize ≤ maxName ∧
      ((d.node? (there ++ [name]) = none ∧ found = .gap there name false) ∨
        ∃ n, d.node? (there ++ [name]) = some n ∧
          (found = .node (there ++ [name]) n ∨ (follow = true ∧ ∃ t, n = .link t))) := by
  rcases walk_start h d with ⟨e, he⟩ | ⟨start, ps, hstart⟩
  · rw [he d follow rfl] at hw
    simp at hw
  rw [hstart d follow rfl] at hw
  -- The last name is looked up where the descent ends.
  obtain ⟨there, left, hdescent, hlast⟩ := descent_of_walkFrom h.1 _ _ _ hw
  rw [walkFrom_name h.1] at hlast
  split at hlast
  · simp at hlast
  · next hsize =>
    refine ⟨there, ⟨start, ps, left, hdescent, hstart⟩, by omega, ?_⟩
    cases hn : d.node? (there ++ [name]) with
    | none =>
      rw [hn] at hlast
      exact .inl ⟨rfl, (Except.ok.inj hlast).symm⟩
    | some n =>
      rw [hn] at hlast
      refine .inr ⟨n, rfl, ?_⟩
      cases n with
      | file => exact .inl (Except.ok.inj hlast).symm
      | directory => exact .inl (Except.ok.inj hlast).symm
      | link t =>
        cases follow with
        | false => exact .inl (Except.ok.inj hlast).symm
        | true => exact .inr ⟨rfl, t, rfl⟩

/-- Where the last link is not followed, a walk ends at what the disk holds under the last name. -/
theorem leads_of_walk_node {p : Path} {place : Place} {name : String} {n : Node} (h : EndsIn p name)
    (hw : d.walk false p = .ok (.node place n)) :
    ∃ there, place = there ++ [name] ∧ d.Leads p there name ∧ name.utf8ByteSize ≤ maxName ∧
      d.node? place = some n := by
  obtain ⟨there, hleads, hsize, ⟨-, hgap⟩ | ⟨m, hn, hnode | ⟨hfollow, -⟩⟩⟩ := walk_cases h hw
  · cases hgap
  · cases hnode
    exact ⟨there, rfl, hleads, hsize, hn⟩
  · cases hfollow

theorem leads_of_walk_gap {p : Path} {there : Place} {name free : String} {slash : Bool}
    (h : EndsIn p name) (hw : d.walk false p = .ok (.gap there free slash)) :
    free = name ∧ d.Leads p there name := by
  obtain ⟨there', hleads, -, ⟨-, hgap⟩ | ⟨n, -, hnode | ⟨hfollow, -⟩⟩⟩ := walk_cases h hw
  · cases hgap
    exact ⟨rfl, hleads⟩
  · cases hnode
  · cases hfollow

end FormWeaver.Disk
