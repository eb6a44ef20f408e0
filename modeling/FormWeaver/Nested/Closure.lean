import FormWeaver.Disk.Lemmas
import FormWeaver.Nested.Resolver

/-!
# All forms that a form refers to

The closure of a form's references is found by walking them: a name is resolved when it is first met,
and the names its form refers to come next. Cycles and shared forms end the walk because a name is
resolved once. That there are only finitely many names to meet is a fact about the disk: every form
is read from what is remembered, from a known file, from a file of the disk or from an indexed entry
of an archive (`Resolver.mentions`), and the walk cannot leave the names they mention.
-/

namespace FormWeaver.Nested

/-! ## The names that can be met -/

/-- The names that a document mentions. -/
def mentionsOf (bytes : ByteArray) : List String :=
  match Form.parse bytes (.resource "") with
  | .ok form => form.nested
  | .error _ => []

theorem mem_mentionsOf {bytes : ByteArray} {o : Origin} {form : Form} {n : String}
    (h : Form.parse bytes o = .ok form) (hn : n ∈ form.nested) : n ∈ mentionsOf bytes := by
  unfold mentionsOf Form.parse
  unfold Form.parse at h
  cases ht : String.fromUTF8? bytes with
  | none => simp [ht] at h
  | some text =>
    simp only [ht] at h ⊢
    cases hd : Form.readDocument text with
    | error e => simp [hd] at h
    | ok r =>
      simp only [hd, Except.ok.injEq] at h
      subst h
      exact hn

/-- The bytes of all files of a disk. -/
def allContents (d : Disk) : List ByteArray :=
  d.nodes.filterMap fun (_, n) => match n with
    | .file bytes _ => some bytes
    | _ => none

/-- The bytes of all entries of an index. -/
def indexContents (d : Disk) (i : Classpath.ArchiveIndex) : List ByteArray :=
  i.entries.filterMap fun entry => match Archive.read d i.path entry with
    | .ok content => content
    | .error _ => none

/-- All indices of a class path. -/
def allIndices (c : Classpath.Context) : List Classpath.ArchiveIndex :=
  c.indexed.filterMap (·.index) ++ (match c.platform with
    | none => []
    | some platform => platform.modules)

/-- All bytes that a class path can have under some name. -/
def reachableContents (c : Classpath.Context) (d : Disk) : List ByteArray :=
  allContents d ++ (allIndices c).flatMap (indexContents d)

theorem mem_allContents {d : Disk} {p : Path} {bytes : ByteArray} (h : d.contents p = .ok bytes) :
    bytes ∈ allContents d := by
  obtain ⟨q, time, hm⟩ := Disk.mem_of_contents h
  exact List.mem_filterMap.mpr ⟨_, hm, rfl⟩

theorem mem_indexContents {d : Disk} {i : Classpath.ArchiveIndex} {name : String} {bytes : ByteArray}
    (h : i.read? d name = some bytes) : bytes ∈ indexContents d i := by
  unfold Classpath.ArchiveIndex.read? at h
  simp only at h
  split at h
  · next hc =>
    exact List.mem_filterMap.mpr ⟨i.inside ++ name, by simpa using hc, h⟩
  · simp at h

theorem mem_reachable_of_index {c : Classpath.Context} {d : Disk} {i : Classpath.ArchiveIndex}
    {name : String} {bytes : ByteArray} (hi : i ∈ allIndices c) (h : i.read? d name = some bytes) :
    bytes ∈ reachableContents c d :=
  List.mem_append_right _ (List.mem_flatMap.mpr ⟨i, hi, mem_indexContents h⟩)

theorem mem_reachable_of_inLocations {c : Classpath.Context} {d : Disk} {name : String}
    {bytes : ByteArray} (h : c.inLocations? d name = some bytes) : bytes ∈ reachableContents c d := by
  obtain ⟨l, hl, hr⟩ := List.exists_of_findSome?_eq_some h
  unfold Classpath.IndexedLocation.read? at hr
  split at hr
  · unfold Classpath.readBeneath? at hr
    split at hr
    · simp at hr
    · simp only at hr
      split at hr
      · cases hc : d.contents (l.location.path.child name) with
        | error e => simp [hc, Except.toOption] at hr
        | ok b =>
          simp only [hc, Except.toOption, Option.some.injEq] at hr
          subst hr
          exact List.mem_append_left _ (mem_allContents hc)
      · simp at hr
  · obtain ⟨i, hi, hr⟩ := Option.bind_eq_some_iff.mp hr
    exact mem_reachable_of_index
      (List.mem_append_left _ (List.mem_filterMap.mpr ⟨l, hl, hi⟩)) hr

theorem mem_reachable_of_inPlatform {c : Classpath.Context} {d : Disk} {name : String}
    {bytes : ByteArray} (h : c.inPlatform? d name = some bytes) : bytes ∈ reachableContents c d := by
  unfold Classpath.Context.inPlatform? at h
  split at h
  · simp at h
  · next platform hp =>
    obtain ⟨i, hi, hr⟩ := List.exists_of_findSome?_eq_some h
    refine mem_reachable_of_index (List.mem_append_right _ ?_) hr
    simpa [hp] using hi

theorem mem_reachable_of_findResource {c : Classpath.Context} {d : Disk} {name : String}
    {bytes : ByteArray} (h : c.findResource? d name = some bytes) : bytes ∈ reachableContents c d := by
  unfold Classpath.Context.findResource? at h
  simp only at h
  split at h
  · simp at h
  · split at h
    · next b hb =>
      simp only [Option.some.injEq] at h
      subst h
      exact mem_reachable_of_inLocations hb
    · exact mem_reachable_of_inPlatform h

/-- All names that forms which the resolver can find mention. -/
def Resolver.mentions (r : Resolver) (d : Disk) : List String :=
  r.resolved.flatMap (fun (_, form) => form.nested) ++
    (reachableContents r.context d).flatMap mentionsOf

/-- Whether every form that the resolver finds mentions only names of a list. The list is given as a
function because it is never computed. -/
def Resolver.StaysWithin (r : Resolver) (d : Disk) (names : Unit → List String) : Prop :=
  ∀ name form, r.lookup d name = .ok form → ∀ n ∈ form.nested, n ∈ names ()

theorem mem_of_lookup_resolved {name : String} {form : Form} :
    ∀ {resolved : List (String × Form)}, resolved.lookup name = some form → ∃ n, (n, form) ∈ resolved
  | [], h => by simp at h
  | (m, f) :: resolved, h => by
    rw [List.lookup_cons] at h
    split at h
    · simp only [Option.some.injEq] at h
      exact ⟨m, by simp [h]⟩
    · obtain ⟨n, hn⟩ := mem_of_lookup_resolved h
      exact ⟨n, List.mem_cons_of_mem _ hn⟩

theorem mem_mentions_of_search {r : Resolver} {d : Disk} {name n : String} {form : Form}
    (h : r.search d name = .ok form) (hn : n ∈ form.nested) :
    n ∈ (reachableContents r.context d).flatMap mentionsOf := by
  have found : ∀ {bytes o}, Form.parse bytes o = .ok form → bytes ∈ reachableContents r.context d →
      n ∈ (reachableContents r.context d).flatMap mentionsOf := fun hp hb =>
    List.mem_flatMap.mpr ⟨_, hb, mem_mentionsOf hp hn⟩
  unfold Resolver.search at h
  split at h
  · next file _ =>
    unfold Form.parseFile at h
    split at h
    · simp [Resolver.asResolved] at h
    · next bytes hc =>
      cases hp : Form.parse bytes (.file file) with
      | error e => simp [hp, Resolver.asResolved] at h
      | ok f =>
        simp only [hp, Resolver.asResolved, Except.ok.injEq] at h
        subst h
        exact found hp (List.mem_append_left _ (mem_allContents hc))
  · split at h
    · simp at h
    · next bytes hb =>
      cases hp : Form.parse bytes (.resource name) with
      | error e => simp [hp, Resolver.asResolved] at h
      | ok f =>
        simp only [hp, Resolver.asResolved, Except.ok.injEq] at h
        subst h
        exact found hp (mem_reachable_of_findResource hb)

/-- The resolver stays within the names it mentions, and further ones. -/
theorem Resolver.staysWithin_mentions (r : Resolver) (d : Disk) (more : List String) :
    r.StaysWithin d fun _ => more ++ r.mentions d := by
  intro name form h n hn
  refine List.mem_append_right _ ?_
  unfold Resolver.lookup at h
  split at h
  · next f hf =>
    simp only [Except.ok.injEq] at h
    subst h
    obtain ⟨m, hm⟩ := mem_of_lookup_resolved hf
    exact List.mem_append_left _ (List.mem_flatMap.mpr ⟨_, hm, hn⟩)
  · exact List.mem_append_right _ (mem_mentions_of_search h hn)

/-- Remembering what a name refers to leads to no new names. -/
theorem Resolver.StaysWithin.remember {r : Resolver} {d : Disk} {names : Unit → List String}
    (hr : r.StaysWithin d names) {name : String} {form : Form} (h : r.lookup d name = .ok form) :
    (r.remember name form).StaysWithin d names := by
  intro m f hm
  unfold Resolver.lookup at hm
  simp only [Resolver.remember, List.lookup_cons] at hm
  split at hm
  · next g hg =>
    simp only [Except.ok.injEq] at hm
    subst hm
    split at hg
    · simp only [Option.some.injEq] at hg
      subst hg
      exact hr name form h
    · exact hr m g (by unfold Resolver.lookup; rw [hg])
  · next hg =>
    split at hg
    · simp at hg
    · exact hr m f (by unfold Resolver.lookup; rw [hg]; exact hm)

/-! ## The walk -/

/-- The number of names that have not been met. -/
def unmet (names : Unit → List String) (met : List String) : Nat :=
  (names ()).countP fun n => !met.contains n

theorem countP_cons_lt {n : String} {met l : List String} (hn : n ∈ l) (hm : n ∉ met) :
    (l.countP fun x => !(n :: met).contains x) < l.countP fun x => !met.contains x := by
  have hle : ∀ l : List String,
      (l.countP fun x => !(n :: met).contains x) ≤ l.countP fun x => !met.contains x := fun l =>
    List.countP_mono_left fun x _ hx => by simp at hx ⊢; exact hx.2
  induction l with
  | nil => simp at hn
  | cons a l ih =>
    rw [List.countP_cons, List.countP_cons]
    by_cases ha : a = n
    · subst ha
      have := hle l
      simp [hm] at this ⊢
      omega
    · have := ih ((List.mem_cons.mp hn).resolve_left fun h => ha h.symm)
      simp [ha] at this ⊢
      omega

theorem unmet_cons_lt {names : Unit → List String} {met : List String} {n : String}
    (hn : n ∈ names ()) (hm : n ∉ met) : unmet names (n :: met) < unmet names met :=
  countP_cons_lt hn hm

set_option linter.unusedVariables false in
/-- Walks the pending references, first to last; a form's own references come before the ones that
were pending with it. `met` holds the names that have been resolved. The forms come in the order in
which their names were met; the first name that does not resolve ends the walk. -/
def walk (d : Disk) (names : Unit → List String) (r : Resolver) (met pending : List String)
    (hr : r.StaysWithin d names) (hp : ∀ n ∈ pending, n ∈ names ()) :
    Except ResolveError (List (String × Form)) × Resolver :=
  match pending with
  | [] => (.ok [], r)
  | name :: rest =>
    if hm : name ∈ met then walk d names r met rest hr fun n hn => hp n (List.mem_cons_of_mem _ hn)
    else
      match h : r.lookup d name with
      | .error e => (.error e, r)
      | .ok form =>
        match walk d names (r.remember name form) (name :: met) (form.nested ++ rest)
            (hr.remember h) (fun n hn => (List.mem_append.mp hn).elim (hr name form h n)
              fun hn => hp n (List.mem_cons_of_mem _ hn)) with
        | (.ok more, r') => (.ok ((name, form) :: more), r')
        | (.error e, r') => (.error e, r')
termination_by (unmet names met, pending.length)
decreasing_by
  · exact Prod.Lex.right _ (by simp)
  · exact Prod.Lex.left _ _ (unmet_cons_lt (hp name (by simp)) hm)

/-- The forms that a form refers to, directly or through others, with their names. The form's own
references are walked from the last to the first, those of the others from the first to the last. -/
def closure (d : Disk) (r : Resolver) (form : Form) :
    Except ResolveError (List (String × Form)) × Resolver :=
  walk d (fun _ => form.nested ++ r.mentions d) r [] form.nested.reverse
    (r.staysWithin_mentions d form.nested) fun _ hn =>
      List.mem_append_left _ (List.mem_reverse.mp hn)

end FormWeaver.Nested
