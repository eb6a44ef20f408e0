import FormWeaver.Nested.Closure

/-!
# The walk over references

A form refers to names directly, and through what it refers to (`RefersTo`). The walk over them is taken
apart into its steps: a name that has been met is passed over, one that does not resolve ends the walk, and
any other is remembered, which makes no difference to what names resolve to. A form without references, or
with a single one that has none, is walked out here.
-/

namespace FormWeaver.Nested

variable {d : Disk} {r : Resolver}

/-- The names that a form refers to, directly or through others. -/
inductive RefersTo (r : Resolver) (d : Disk) (form : Form) : String → Prop
  | direct {name : String} (h : name ∈ form.nested) : RefersTo r d form name
  | through {name next : String} {f : Form} (hn : RefersTo r d form name)
      (hf : r.lookup d name = .ok f) (h : next ∈ f.nested) : RefersTo r d form next

theorem Resolver.lookup_remember {name : String} {form : Form} (h : r.lookup d name = .ok form)
    (other : String) : (r.remember name form).lookup d other = r.lookup d other := by
  by_cases ho : other = name
  · subst ho
    rw [h]
    simp [Resolver.lookup, Resolver.remember]
  · have hb : (other == name) = false := by simpa using ho
    unfold Resolver.lookup Resolver.remember Resolver.search
    simp only [List.lookup_cons, hb]
    rfl

/-! ## The steps of the walk -/

section Walk

variable {names : Unit → List String} {met rest : List String} {name : String}

theorem walk_nil (hr : r.StaysWithin d names) (hp : ∀ n ∈ [], n ∈ names ()) :
    walk d names r met [] hr hp = (.ok [], r) := by
  rw [walk]

theorem walk_met (hm : name ∈ met) (hr : r.StaysWithin d names)
    (hp : ∀ n ∈ name :: rest, n ∈ names ()) :
    walk d names r met (name :: rest) hr hp =
      walk d names r met rest hr fun n hn => hp n (List.mem_cons_of_mem _ hn) := by
  rw [walk, dif_pos hm]

theorem walk_stuck (hm : name ∉ met) {e : ResolveError} (h : r.lookup d name = .error e)
    (hr : r.StaysWithin d names) (hp : ∀ n ∈ name :: rest, n ∈ names ()) :
    walk d names r met (name :: rest) hr hp = (.error e, r) := by
  rw [walk, dif_neg hm]
  split
  · next e' h' =>
    rw [h] at h'
    rw [Except.error.inj h']
  · next h' =>
    rw [h] at h'
    simp at h'

theorem walk_next (hm : name ∉ met) {form : Form} (h : r.lookup d name = .ok form)
    (hr : r.StaysWithin d names) (hp : ∀ n ∈ name :: rest, n ∈ names ()) :
    ∃ hp', walk d names r met (name :: rest) hr hp =
      ((walk d names (r.remember name form) (name :: met) (form.nested ++ rest) (hr.remember h) hp').1.map
        fun more => (name, form) :: more,
      (walk d names (r.remember name form) (name :: met) (form.nested ++ rest) (hr.remember h) hp').2) := by
  rw [walk, dif_neg hm]
  split
  · next h' =>
    rw [h] at h'
    simp at h'
  · next form' h' =>
    rw [h] at h'
    obtain rfl := Except.ok.inj h'
    refine ⟨fun n hn => (List.mem_append.mp hn).elim (hr name form h n)
      fun hn => hp n (List.mem_cons_of_mem _ hn), ?_⟩
    split <;> next hw => rw [hw]; rfl

end Walk

theorem closure_of_nil {form : Form} (h : form.nested = []) : closure d r form = (.ok [], r) := by
  have hw : ∀ (pending : List String) (names : Unit → List String) (hr : r.StaysWithin d names)
      (hp : ∀ n ∈ pending, n ∈ names ()), pending = [] → walk d names r [] pending hr hp = (.ok [], r) := by
    rintro _ names hr hp rfl
    exact walk_nil hr hp
  unfold closure
  exact hw _ _ _ _ (by rw [h]; rfl)

theorem closure_of_single {form f : Form} {name : String} (h : form.nested = [name])
    (hf : r.lookup d name = .ok f) (hnone : f.nested = []) :
    closure d r form = (.ok [(name, f)], r.remember name f) := by
  have hw : ∀ (pending : List String) (names : Unit → List String) (hr : r.StaysWithin d names)
      (hp : ∀ n ∈ pending, n ∈ names ()), pending = [name] →
      walk d names r [] pending hr hp = (.ok [(name, f)], r.remember name f) := by
    rintro _ names hr hp rfl
    have hlast : ∀ (pending : List String) (hp : ∀ n ∈ pending, n ∈ names ()), pending = [] →
        walk d names (r.remember name f) [name] pending (hr.remember hf) hp =
          (.ok [], r.remember name f) := by
      rintro _ hp rfl
      exact walk_nil _ hp
    obtain ⟨hp', hnext⟩ := walk_next List.not_mem_nil hf hr hp
    rw [hnext, hlast _ hp' (by rw [hnone]; rfl)]
    rfl
  unfold closure
  exact hw _ _ _ _ (by rw [h]; rfl)

end FormWeaver.Nested
