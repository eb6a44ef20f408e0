import FormWeaver.Proofs.Nested.Search

/-!
# The order in which references are met

The search keeps one list of pending names and puts what a form refers to in front of it. This comes to a
walk by recursion, which goes through what a form refers to, in the order of the document, before it goes
on with what stands beside the form, and passes over names that have been met (`Visits`). There is one
such walk (`Visits.unique`), and the search calls names in its order (`Search.Ends.visits`). Only the
references of the form that the search starts from are gone through from the last one.
-/

namespace FormWeaver.Nested

/-- Walking some names, where others have been met before, visits these names in this order: a name that
has been met is passed over; any other is visited, next all that its form refers to is walked, and then
the names behind it. -/
inductive Visits (find : String → Except ResolveError Form) :
    List String → List String → List String → Prop
  | nil (met : List String) : Visits find met [] []
  | skip {met rest order : List String} {name : String} (hm : name ∈ met)
      (hrest : Visits find met rest order) : Visits find met (name :: rest) order
  | visit {met rest inner order : List String} {name : String} {form : Form} (hm : name ∉ met)
      (hf : find name = .ok form) (hinner : Visits find (met ++ [name]) form.nested inner)
      (hrest : Visits find (met ++ name :: inner) rest order) :
      Visits find met (name :: rest) (name :: inner ++ order)

namespace Visits

variable {find : String → Except ResolveError Form} {met names order order' : List String}

/-- There is no other walk. -/
theorem unique (h : Visits find met names order) (h' : Visits find met names order') : order = order' := by
  induction h generalizing order' with
  | nil met =>
    cases h' with
    | nil => rfl
  | skip hm _ ih =>
    cases h' with
    | skip _ hrest => exact ih hrest
    | visit hnew => exact absurd hm hnew
  | visit hm hf _ _ ihinner ihrest =>
    cases h' with
    | skip hmet => exact absurd hmet hm
    | visit _ hf' hinner hrest =>
      rw [hf] at hf'
      obtain rfl := Except.ok.inj hf'
      obtain rfl := ihinner hinner
      rw [ihrest hrest]

/-- A walk over names put one behind the other is one walk behind the other. -/
theorem of_append {front back : List String} (h : Visits find met (front ++ back) order) :
    ∃ first second, order = first ++ second ∧ Visits find met front first ∧
      Visits find (met ++ first) back second := by
  generalize hnames : front ++ back = names at h
  induction h generalizing front with
  | nil met =>
    obtain ⟨rfl, rfl⟩ := List.append_eq_nil_iff.mp hnames
    exact ⟨[], [], rfl, .nil met, .nil _⟩
  | @skip met rest order name hm hrest ih =>
    cases front with
    | nil =>
      obtain rfl : back = name :: rest := hnames
      exact ⟨[], order, rfl, .nil met, by rw [List.append_nil]; exact .skip hm hrest⟩
    | cons next front =>
      obtain ⟨rfl, hfront⟩ := List.cons.inj hnames
      obtain ⟨first, second, horder, hfirst, hsecond⟩ := ih hfront
      exact ⟨first, second, horder, .skip hm hfirst, hsecond⟩
  | @visit met rest inner order name form hm hf hinner hrest _ ih =>
    cases front with
    | nil =>
      obtain rfl : back = name :: rest := hnames
      exact ⟨[], _, rfl, .nil met, by rw [List.append_nil]; exact .visit hm hf hinner hrest⟩
    | cons next front =>
      obtain ⟨rfl, hfront⟩ := List.cons.inj hnames
      obtain ⟨first, second, rfl, hfirst, hsecond⟩ := ih hfront
      refine ⟨next :: inner ++ first, second, (List.append_assoc _ _ _).symm,
        .visit hm hf hinner hfirst, ?_⟩
      rwa [List.append_assoc] at hsecond

end Visits

variable {d : Disk} {r : Resolver} {form : Form} {name : String}

/-- **The search walks.** A search that succeeds calls names in the order of the walk over what is pending:
each turn is a step of the walk, and what a form refers to, put in front of what is pending, is walked
before that. -/
theorem Search.Ends.visits {s : Search} {turns : Nat} {calls : List String} {answer : Answer}
    {forms : List (String × Form)} (h : Ends d s turns calls answer) (hok : answer.1 = .ok forms) :
    Visits (s.resolver.lookup d) s.met.reverse s.pending calls := by
  induction h with
  | done r met found => exact .nil _
  | skip hm _ ih => exact .skip (List.mem_reverse.mpr hm) (ih hok)
  | stuck rest found hm h => cases hok
  | @next r r' met rest found name form turns calls answer hm h _ ih =>
    have hsame : r'.lookup d = r.lookup d := funext (Resolver.lookup_of_resolve h)
    have hwalk : Visits (r.lookup d) (name :: met).reverse (form.nested ++ rest) calls := hsame ▸ ih hok
    rw [List.reverse_cons] at hwalk
    obtain ⟨inner, order, rfl, hinner, hrest⟩ := hwalk.of_append
    rw [List.append_assoc, List.singleton_append] at hrest
    exact .visit (fun hmet => hm (List.mem_reverse.mp hmet)) (Resolver.resolve_eq_ok_iff.mp h).1 hinner
      hrest

/-- When all names resolve that a form refers to, its references are walked from the last one, and the walk
visits each name once that the form refers to. -/
theorem exists_visits (hall : ∀ name, RefersTo r d form name → ∃ f, r.lookup d name = .ok f) :
    ∃ order, Visits (r.lookup d) [] form.nested.reverse order ∧ order.Nodup ∧
      ∀ name, name ∈ order ↔ RefersTo r d form name := by
  obtain ⟨turns, calls, h⟩ := exists_ends d r form
  obtain ⟨forms, hforms⟩ := (closure_ok_iff form).mpr hall
  exact ⟨calls, h.visits hforms, h.nodup.1,
    fun name => ⟨h.refersTo name, fun hname => h.mem_of_refersTo hforms hname⟩⟩

/-- The order of a form's references makes no difference to what it refers to. -/
theorem refersTo_reverse_iff :
    RefersTo r d { form with nested := form.nested.reverse } name ↔ RefersTo r d form name := by
  constructor
  · intro h
    induction h with
    | direct h => exact .direct (List.mem_reverse.mp h)
    | through _ hf h ih => exact .through ih hf h
  · intro h
    induction h with
    | direct h => exact .direct (List.mem_reverse.mpr h)
    | through _ hf h ih => exact .through ih hf h

/-- The references can be walked from the first one, too. -/
theorem exists_visits_document (hall : ∀ name, RefersTo r d form name → ∃ f, r.lookup d name = .ok f) :
    ∃ order, Visits (r.lookup d) [] form.nested order ∧ order.Nodup ∧
      ∀ name, name ∈ order ↔ RefersTo r d form name := by
  have hall' : ∀ name, RefersTo r d { form with nested := form.nested.reverse } name →
      ∃ f, r.lookup d name = .ok f := fun name hname => hall name (refersTo_reverse_iff.mp hname)
  obtain ⟨order, hwalk, hnodup, hmem⟩ := exists_visits hall'
  refine ⟨order, ?_, hnodup, fun name => (hmem name).trans refersTo_reverse_iff⟩
  rwa [List.reverse_reverse] at hwalk

end FormWeaver.Nested
