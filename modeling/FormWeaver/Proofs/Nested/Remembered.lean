import FormWeaver.Proofs.Nested.Search

/-!
# What is remembered makes no difference

A resolver remembers what it has resolved, and it is *faithful* to a disk when all that it remembers is
what a search of the disk finds. A new resolver is faithful, and resolving keeps it so. What a faithful
resolver answers is therefore what a search finds, whatever was asked before (`answers_resolveAll`), and
so is what it finds of the references of a form (`closure_of_isFaithful`).
-/

namespace FormWeaver.Nested

variable {d d' : Disk} {r r' : Resolver} {name : String}

namespace Resolver

/-- The resolver as it was before it had resolved anything. -/
def forget (r : Resolver) : Resolver := { r with resolved := [] }

/-- Whether all that is remembered is what a search finds. -/
def IsFaithful (r : Resolver) (d : Disk) : Prop :=
  ∀ name form, r.resolved.lookup name = some form → r.search d name = .ok form

/-- Resolves names one after the other. -/
def resolveAll (r : Resolver) (d : Disk) : List String → List (Except ResolveError Form) × Resolver
  | [] => ([], r)
  | name :: names =>
    let (answer, r) := r.resolve d name
    let (answers, r) := r.resolveAll d names
    (answer :: answers, r)

theorem isFaithful_forget (r : Resolver) (d : Disk) : r.forget.IsFaithful d := by
  intro name form h
  simp [forget] at h

theorem isFaithful_new (d d' : Disk) (files : List Path) (context : Classpath.Context) (root : Path) :
    (new d files context root).IsFaithful d' := isFaithful_forget (new d files context root) d'

theorem context_eq (h : r'.forget = r.forget) : r'.context = r.context := by
  show r'.forget.context = r.forget.context
  rw [h]

theorem classRoot_eq (h : r'.forget = r.forget) : r'.classRoot = r.classRoot := by
  show r'.forget.classRoot = r.forget.classRoot
  rw [h]

/-- A search does not look at what is remembered. -/
theorem search_congr (h : r'.forget = r.forget) (d : Disk) (name : String) :
    r'.search d name = r.search d name := by
  show r'.forget.search d name = r.forget.search d name
  rw [h]

/-- What a faithful resolver finds is what a search finds. -/
theorem lookup_of_isFaithful (h : r.IsFaithful d) (name : String) :
    r.lookup d name = r.search d name := by
  unfold lookup
  split
  · next form hform => rw [h name form hform]
  · rfl

theorem lookup_eq_of_isFaithful (h : r.IsFaithful d) (h' : r'.IsFaithful d)
    (hforget : r'.forget = r.forget) (name : String) : r'.lookup d name = r.lookup d name := by
  rw [lookup_of_isFaithful h', lookup_of_isFaithful h, search_congr hforget]

/-- A resolver stays faithful on a disk of which a search finds the same. -/
theorem IsFaithful.congr (h : r.IsFaithful d)
    (hsearch : ∀ name, r.search d' name = r.search d name) : r.IsFaithful d' := by
  intro name form hform
  rw [hsearch]
  exact h name form hform

theorem IsFaithful.remember {form : Form} (h : r.IsFaithful d) (hform : r.search d name = .ok form) :
    (r.remember name form).IsFaithful d := by
  intro other found hfound
  show r.search d other = .ok found
  simp only [Resolver.remember, List.lookup_cons] at hfound
  split at hfound
  · next hother =>
    obtain rfl := eq_of_beq hother
    rw [hform, Option.some.inj hfound]
  · exact h other found hfound

/-! ## Asking -/

theorem fst_resolve (r : Resolver) (d : Disk) (name : String) :
    (r.resolve d name).1 = r.lookup d name := by
  unfold resolve
  split <;> next h => rw [h]

theorem forget_resolve (r : Resolver) (d : Disk) (name : String) :
    (r.resolve d name).2.forget = r.forget := by
  unfold resolve
  split <;> rfl

/-- **Resolving a name keeps a resolver faithful**; a name that does not resolve leaves no trace. -/
theorem IsFaithful.resolve (h : r.IsFaithful d) (name : String) : (r.resolve d name).2.IsFaithful d := by
  unfold Resolver.resolve
  split
  · exact h
  · next form hform =>
    rw [lookup_of_isFaithful h] at hform
    exact h.remember hform

/-- The answers to names that are resolved one after the other are what a search finds of each. -/
theorem answers_resolveAll (h : r.IsFaithful d) (names : List String) :
    (r.resolveAll d names).1 = names.map (r.search d) := by
  induction names generalizing r with
  | nil => rfl
  | cons name names ih =>
    have hrest : ((r.resolve d name).2.resolveAll d names).1 = names.map (r.search d) := by
      rw [ih (h.resolve name)]
      exact List.map_congr_left fun other _ => search_congr (forget_resolve r d name) d other
    show (r.resolve d name).1 :: ((r.resolve d name).2.resolveAll d names).1 = _
    rw [hrest, fst_resolve, lookup_of_isFaithful h]
    rfl

end Resolver

/-! ## The references of a form -/

/-- What the walk finds depends on what the names are found to refer to, and on nothing else. -/
theorem walk_congr {names names' : Unit → List String} {met pending : List String}
    (hr : r.StaysWithin d names) (hp : ∀ n ∈ pending, n ∈ names ())
    (hr' : r'.StaysWithin d names') (hp' : ∀ n ∈ pending, n ∈ names' ())
    (h : ∀ name, r'.lookup d name = r.lookup d name) :
    (walk d names' r' met pending hr' hp').1 = (walk d names r met pending hr hp).1 := by
  induction r, met, pending, hr, hp using walk.induct d names generalizing r' with
  | case1 r met hr hp => rw [walk_nil, walk_nil]
  | case2 r met hr name rest hp hm _ ih =>
    rw [walk_met hm, walk_met hm]
    exact ih hr' _ h
  | case3 r met hr name rest hp hm e hl =>
    rw [walk_stuck hm hl, walk_stuck hm (by rw [h, hl])]
  | case4 r met hr name rest hp hm form hl _ _ _ _ ih
  | case5 r met hr name rest hp hm form hl _ _ _ _ ih =>
    have hl' : r'.lookup d name = .ok form := by rw [h, hl]
    obtain ⟨_, hnext⟩ := walk_next hm hl hr hp
    obtain ⟨hrest, hnext'⟩ := walk_next hm hl' hr' hp'
    have hagain : ∀ other, (r'.remember name form).lookup d other =
        (r.remember name form).lookup d other := by
      intro other
      rw [Resolver.lookup_remember hl', Resolver.lookup_remember hl, h]
    rw [hnext, hnext', ih (hr'.remember hl') hrest hagain]

/-- The search leaves a resolver as faithful as it was, and what it works on as it was. -/
theorem Search.Ends.isFaithful {s : Search} {turns : Nat} {calls : List String} {answer : Answer}
    (h : Ends d s turns calls answer) (hs : s.resolver.IsFaithful d) :
    answer.2.IsFaithful d ∧ answer.2.forget = s.resolver.forget := by
  induction h with
  | done => exact ⟨hs, rfl⟩
  | skip hm _ ih => exact ih hs
  | @stuck r r' met name e rest found hm h =>
    have hkept := hs.resolve name
    have hforget := r.forget_resolve d name
    rw [h] at hkept hforget
    exact ⟨hkept, hforget⟩
  | @next r r' met rest found name form turns calls answer hm h _ ih =>
    have hkept := hs.resolve name
    have hforget := r.forget_resolve d name
    rw [h] at hkept hforget
    obtain ⟨hfaithful, hagain⟩ := ih hkept
    exact ⟨hfaithful, hagain.trans hforget⟩

theorem isFaithful_closure (h : r.IsFaithful d) (form : Form) :
    (closure d r form).2.IsFaithful d ∧ (closure d r form).2.forget = r.forget := by
  obtain ⟨turns, calls, hends⟩ := exists_ends d r form
  exact hends.isFaithful h

/-- **What is found of the references of a form** does not depend on what is remembered. -/
theorem closure_of_isFaithful (h : r.IsFaithful d) (h' : r'.IsFaithful d)
    (hforget : r'.forget = r.forget) (form : Form) :
    (closure d r' form).1 = (closure d r form).1 :=
  walk_congr _ _ _ _ (Resolver.lookup_eq_of_isFaithful h h' hforget)

end FormWeaver.Nested
