import FormWeaver.Proofs.Nested.Reachable
import Mathlib.Algebra.GroupWithZero.Nat
import Mathlib.Data.List.Perm.Subperm

/-!
# The search for references, turn by turn

The forms that a form refers to are found by a loop: a turn takes the next pending name, passes over it
if it has been met, and otherwise resolves it and puts what its form refers to in front of what is
pending. `Search.Ends` follows the loop and keeps the names that it resolves; `exists_ends` is that it
ends, with the closure of the references. What is said of its calls is proved turn by turn: no name is
resolved twice (`Ends.nodup`), only names that the form refers to are (`Ends.refersTo`), and when all of
them resolve, all of them are (`Ends.mem_of_refersTo`). So the closure is found exactly when every name
resolves that the form refers to (`closure_ok_iff`).
-/

namespace FormWeaver.Nested

/-- What the search ends with: the forms with their names, or the first name that does not resolve; and
the resolver, which remembers what it has resolved. -/
abbrev Answer := Except ResolveError (List (String × Form)) × Resolver

/-- Where the search stands. -/
structure Search where
  resolver : Resolver
  /-- The names that have been taken up. -/
  met : List String
  /-- The names that are still to be looked at, the next one first. -/
  pending : List String
  /-- What has been found so far. -/
  found : List (String × Form)

namespace Search

/-- The search at its beginning. -/
def start (r : Resolver) (form : Form) : Search := ⟨r, [], form.nested.reverse, []⟩

/-- From a state the loop ends with an answer after so many turns, and resolves these names on the way.
Each constructor is what one turn may do. -/
inductive Ends (d : Disk) : Search → Nat → List String → Answer → Prop
  | done (r : Resolver) (met : List String) (found : List (String × Form)) :
      Ends d ⟨r, met, [], found⟩ 1 [] (.ok found, r)
  | skip {r : Resolver} {met rest : List String} {found : List (String × Form)} {name : String}
      {turns : Nat} {calls : List String} {answer : Answer} (hm : name ∈ met)
      (hr : Ends d ⟨r, met, rest, found⟩ turns calls answer) :
      Ends d ⟨r, met, name :: rest, found⟩ (turns + 1) calls answer
  | stuck {r r' : Resolver} {met : List String} {name : String} {e : ResolveError}
      (rest : List String) (found : List (String × Form)) (hm : name ∉ met)
      (h : r.resolve d name = (.error e, r')) :
      Ends d ⟨r, met, name :: rest, found⟩ 1 [name] (.error e, r')
  | next {r r' : Resolver} {met rest : List String} {found : List (String × Form)} {name : String}
      {form : Form} {turns : Nat} {calls : List String} {answer : Answer} (hm : name ∉ met)
      (h : r.resolve d name = (.ok form, r'))
      (hr : Ends d ⟨r', name :: met, form.nested ++ rest, found ++ [(name, form)]⟩ turns calls answer) :
      Ends d ⟨r, met, name :: rest, found⟩ (turns + 1) (name :: calls) answer

end Search

variable {d : Disk} {r r' : Resolver} {name : String}

theorem Resolver.resolve_eq_error_iff {e : ResolveError} :
    r.resolve d name = (.error e, r') ↔ r.lookup d name = .error e ∧ r' = r := by
  unfold resolve
  cases r.lookup d name <;> simp [eq_comm]

theorem Resolver.resolve_eq_ok_iff {form : Form} :
    r.resolve d name = (.ok form, r') ↔ r.lookup d name = .ok form ∧ r' = r.remember name form := by
  unfold resolve
  cases r.lookup d name with
  | error e => simp
  | ok form' =>
    simp only [Prod.mk.injEq, Except.ok.injEq]
    constructor
    · rintro ⟨rfl, rfl⟩
      exact ⟨rfl, rfl⟩
    · rintro ⟨rfl, rfl⟩
      exact ⟨rfl, rfl⟩

/-- Resolving a name changes no lookup. -/
theorem Resolver.lookup_of_resolve {form : Form} (h : r.resolve d name = (.ok form, r'))
    (other : String) : r'.lookup d other = r.lookup d other := by
  obtain ⟨hl, rfl⟩ := resolve_eq_ok_iff.mp h
  exact lookup_remember hl other

/-- The number of names that the form of a name refers to. -/
def Resolver.degree (r : Resolver) (d : Disk) (name : String) : Nat :=
  match r.lookup d name with
  | .ok form => form.nested.length
  | .error _ => 0

theorem Resolver.degree_of_resolve {form : Form} (h : r.resolve d name = (.ok form, r')) :
    r'.degree d = r.degree d := by
  funext other
  rw [degree, degree, lookup_of_resolve h]

namespace Search.Ends

variable {s : Search} {turns : Nat} {calls : List String} {answer : Answer}

/-- No name is resolved twice, and none that has been met. -/
theorem nodup (h : Ends d s turns calls answer) : calls.Nodup ∧ ∀ c ∈ calls, c ∉ s.met := by
  induction h with
  | done => simp
  | skip hm _ ih => exact ih
  | stuck rest found hm h => simpa using hm
  | next hm h _ ih =>
    obtain ⟨hnodup, hnew⟩ := ih
    refine ⟨List.nodup_cons.mpr ⟨fun hc => hnew _ hc List.mem_cons_self, hnodup⟩, ?_⟩
    intro c hc
    rcases List.mem_cons.mp hc with rfl | hc
    · exact hm
    · exact fun hmet => hnew c hc (List.mem_cons_of_mem _ hmet)

/-- What holds of the pending names, and of what the form of a name refers to if it holds of the name,
holds of every name that is resolved. -/
theorem forall_calls {P : String → Prop} (h : Ends d s turns calls answer)
    (hpending : ∀ n ∈ s.pending, P n)
    (hP : ∀ n f, P n → s.resolver.lookup d n = .ok f → ∀ m ∈ f.nested, P m) : ∀ c ∈ calls, P c := by
  induction h with
  | done => simp
  | skip hm _ ih => exact ih (fun n hn => hpending n (List.mem_cons_of_mem _ hn)) hP
  | stuck rest found hm h => simpa using hpending _ List.mem_cons_self
  | next hm h _ ih =>
    have hname := hpending _ List.mem_cons_self
    have hlookup := (Resolver.resolve_eq_ok_iff.mp h).1
    rw [List.forall_mem_cons]
    refine ⟨hname, ih ?_ ?_⟩
    · intro n hn
      rcases List.mem_append.mp hn with hn | hn
      · exact hP _ _ hname hlookup n hn
      · exact hpending n (List.mem_cons_of_mem _ hn)
    · intro n f hn hf
      rw [Resolver.lookup_of_resolve h] at hf
      exact hP n f hn hf

/-- When the search succeeds, it has found the form of every name that it has resolved, in that order. -/
theorem exists_found {forms : List (String × Form)} (h : Ends d s turns calls answer)
    (hok : answer.1 = .ok forms) :
    ∃ more, forms = s.found ++ more ∧ more.map (·.1) = calls ∧
      ∀ e ∈ more, s.resolver.lookup d e.1 = .ok e.2 := by
  induction h with
  | done r met found => exact ⟨[], by simpa using (Except.ok.inj hok).symm, rfl, by simp⟩
  | skip hm _ ih => exact ih hok
  | stuck rest found hm h => cases hok
  | next hm h _ ih =>
    obtain ⟨more, hforms, hnames, hlookup⟩ := ih hok
    refine ⟨_ :: more, by rw [hforms, List.append_assoc]; rfl, congrArg _ hnames, ?_⟩
    rw [List.forall_mem_cons]
    refine ⟨(Resolver.resolve_eq_ok_iff.mp h).1, fun e he => ?_⟩
    rw [← Resolver.lookup_of_resolve h]
    exact hlookup e he

/-- The search fails only at a name that does not resolve. -/
theorem exists_error {e : ResolveError} (h : Ends d s turns calls answer) (herror : answer.1 = .error e) :
    ∃ c ∈ calls, s.resolver.lookup d c = .error e := by
  induction h with
  | done => cases herror
  | skip hm _ ih => exact ih herror
  | stuck rest found hm h =>
    obtain rfl := Except.error.inj herror
    exact ⟨_, List.mem_cons_self, (Resolver.resolve_eq_error_iff.mp h).1⟩
  | next hm h _ ih =>
    obtain ⟨c, hc, hlookup⟩ := ih herror
    exact ⟨c, List.mem_cons_of_mem _ hc, by rwa [Resolver.lookup_of_resolve h] at hlookup⟩

/-- When the search succeeds, no name is left out: neither one that was pending nor one that a name
refers to which has been resolved. -/
theorem closed {forms : List (String × Form)} (h : Ends d s turns calls answer)
    (hok : answer.1 = .ok forms) :
    (∀ n ∈ s.pending, n ∈ s.met ∨ n ∈ calls) ∧
      ∀ c ∈ calls, ∀ f, s.resolver.lookup d c = .ok f → ∀ n ∈ f.nested, n ∈ s.met ∨ n ∈ calls := by
  induction h with
  | done => simp
  | skip hm _ ih =>
    obtain ⟨hpending, hcalls⟩ := ih hok
    exact ⟨List.forall_mem_cons.mpr ⟨.inl hm, hpending⟩, hcalls⟩
  | stuck rest found hm h => cases hok
  | @next r r' met rest found name form turns calls answer hm h _ ih =>
    obtain ⟨hpending, hcalls⟩ := ih hok
    -- A name that has just been met is one that is resolved.
    have hmet : ∀ n, n ∈ name :: met ∨ n ∈ calls → n ∈ met ∨ n ∈ name :: calls := by
      intro n hn
      rw [List.mem_cons] at hn ⊢
      tauto
    refine ⟨List.forall_mem_cons.mpr ⟨.inr List.mem_cons_self, fun n hn =>
      hmet n (hpending n (List.mem_append_right _ hn))⟩, ?_⟩
    rw [List.forall_mem_cons]
    refine ⟨fun f hf n hn => ?_, fun c hc f hf n hn => ?_⟩
    · rw [(Resolver.resolve_eq_ok_iff.mp h).1] at hf
      obtain rfl := Except.ok.inj hf
      exact hmet n (hpending n (List.mem_append_left _ hn))
    · rw [← Resolver.lookup_of_resolve h] at hf
      exact hmet n (hcalls c hc f hf n hn)

/-- There are as many turns, but for the last, as names can have been pending. -/
theorem turns_le (h : Ends d s turns calls answer) :
    turns ≤ s.pending.length + (calls.map (s.resolver.degree d)).sum + 1 := by
  induction h with
  | done => simp
  | skip hm _ ih =>
    simp only [List.length_cons] at ih ⊢
    omega
  | stuck rest found hm h => simp
  | @next r r' met rest found name form turns calls answer hm h _ ih =>
    have hdegree : r.degree d name = form.nested.length := by
      rw [Resolver.degree, (Resolver.resolve_eq_ok_iff.mp h).1]
    simp only [Resolver.degree_of_resolve h, List.length_append] at ih
    simp only [List.length_cons, List.map_cons, List.sum_cons, hdegree]
    omega

/-- The search leaves the surroundings of the resolver as they are. -/
theorem resolver_eq (h : Ends d s turns calls answer) :
    answer.2.context = s.resolver.context ∧ answer.2.classRoot = s.resolver.classRoot := by
  induction h with
  | done => exact ⟨rfl, rfl⟩
  | skip hm _ ih => exact ih
  | stuck rest found hm h =>
    obtain ⟨-, rfl⟩ := Resolver.resolve_eq_error_iff.mp h
    exact ⟨rfl, rfl⟩
  | next hm h _ ih =>
    obtain ⟨-, rfl⟩ := Resolver.resolve_eq_ok_iff.mp h
    exact ih

end Search.Ends

/-! ## The walk is the search -/

/-- The answer of a search that had found something before. -/
def answerAfter (found : List (String × Form)) (answer : Answer) : Answer :=
  (answer.1.map (found ++ ·), answer.2)

theorem answerAfter_nil (answer : Answer) : answerAfter [] answer = answer := by
  obtain ⟨_ | forms, r⟩ := answer <;> rfl

theorem answerAfter_cons (found : List (String × Form)) (e : String × Form) (answer : Answer) :
    answerAfter found (answer.1.map (e :: ·), answer.2) = answerAfter (found ++ [e]) answer := by
  obtain ⟨_ | forms, r⟩ := answer <;> simp [answerAfter, Except.map]

/-- From any state the search ends with what the walk from there gives. -/
theorem exists_ends_walk {names : Unit → List String} {met pending : List String}
    (hr : r.StaysWithin d names) (hp : ∀ n ∈ pending, n ∈ names ()) (found : List (String × Form)) :
    ∃ turns calls, Search.Ends d ⟨r, met, pending, found⟩ turns calls
      (answerAfter found (walk d names r met pending hr hp)) := by
  induction r, met, pending, hr, hp using walk.induct d names generalizing found with
  | case1 r met hr hp =>
    refine ⟨1, [], ?_⟩
    rw [walk_nil]
    simpa [answerAfter, Except.map] using Search.Ends.done (d := d) r met found
  | case2 r met hr name rest hp hm _ ih =>
    obtain ⟨turns, calls, h⟩ := ih found
    refine ⟨turns + 1, calls, ?_⟩
    rw [walk_met hm]
    exact .skip hm h
  | case3 r met hr name rest hp hm e hl =>
    refine ⟨1, [name], ?_⟩
    rw [walk_stuck hm hl]
    exact .stuck rest found hm (Resolver.resolve_eq_error_iff.mpr ⟨hl, rfl⟩)
  | case4 r met hr name rest hp hm form hl _ _ _ _ ih =>
    obtain ⟨hp', hnext⟩ := walk_next hm hl hr hp
    obtain ⟨turns, calls, h⟩ := ih (found ++ [(name, form)])
    refine ⟨turns + 1, name :: calls, ?_⟩
    rw [hnext, answerAfter_cons]
    exact .next hm (Resolver.resolve_eq_ok_iff.mpr ⟨hl, rfl⟩) h
  | case5 r met hr name rest hp hm form hl _ _ _ _ ih =>
    obtain ⟨hp', hnext⟩ := walk_next hm hl hr hp
    obtain ⟨turns, calls, h⟩ := ih (found ++ [(name, form)])
    refine ⟨turns + 1, name :: calls, ?_⟩
    rw [hnext, answerAfter_cons]
    exact .next hm (Resolver.resolve_eq_ok_iff.mpr ⟨hl, rfl⟩) h

/-- **The search ends**, with the closure of the references. -/
theorem exists_ends (d : Disk) (r : Resolver) (form : Form) :
    ∃ turns calls, Search.Ends d (.start r form) turns calls (closure d r form) := by
  have h : ∃ turns calls, Search.Ends d (.start r form) turns calls
      (answerAfter [] (closure d r form)) := exists_ends_walk (r.staysWithin_mentions d form.nested) _ []
  rwa [answerAfter_nil] at h

/-! ## What a search resolves -/

section

variable {form : Form} {turns : Nat} {calls : List String} {answer : Answer}

/-- Only names that the form refers to are resolved. -/
theorem Search.Ends.refersTo (h : Ends d (.start r form) turns calls answer) :
    ∀ c ∈ calls, RefersTo r d form c :=
  h.forall_calls (fun _ hn => .direct (List.mem_reverse.mp hn)) fun _ _ hn hf _ hm => .through hn hf hm

/-- When the search succeeds, all names that the form refers to are resolved. -/
theorem Search.Ends.mem_of_refersTo {forms : List (String × Form)}
    (h : Ends d (.start r form) turns calls answer) (hok : answer.1 = .ok forms) {name : String}
    (hname : RefersTo r d form name) : name ∈ calls := by
  obtain ⟨hpending, hcalls⟩ := h.closed hok
  have hmet : ∀ n, n ∈ (Search.start r form).met ∨ n ∈ calls → n ∈ calls :=
    fun n hn => hn.resolve_left List.not_mem_nil
  induction hname with
  | direct hn => exact hmet _ (hpending _ (List.mem_reverse.mpr hn))
  | through _ hf hn ih => exact hmet _ (hcalls _ ih _ hf _ hn)

/-- All names that are resolved are mentioned by the form or by what the resolver can find, so there are
no more turns than there are mentions. -/
theorem Search.Ends.length_calls_le (h : Ends d (.start r form) turns calls answer) :
    calls.length ≤ (form.nested ++ r.mentions d).length := by
  refine (List.subperm_of_subset h.nodup.1 fun c hc => ?_).length_le
  have hwithin := r.staysWithin_mentions d form.nested
  exact h.forall_calls (P := (· ∈ form.nested ++ r.mentions d))
    (fun n hn => List.mem_append_left _ (List.mem_reverse.mp hn)) (fun n f _ hf => hwithin n f hf) c hc

end

/-- **The closure of references.** The forms that a form refers to are all found exactly when every
name resolves that the form refers to, directly or through others. -/
theorem closure_ok_iff (form : Form) :
    (∃ forms, (closure d r form).1 = .ok forms) ↔
      ∀ name, RefersTo r d form name → ∃ f, r.lookup d name = .ok f := by
  obtain ⟨turns, calls, hends⟩ := exists_ends d r form
  constructor
  · rintro ⟨forms, hforms⟩ name hname
    obtain ⟨more, -, hnames, hlookup⟩ := hends.exists_found hforms
    have hcall : name ∈ calls := hends.mem_of_refersTo hforms hname
    rw [← hnames, List.mem_map] at hcall
    obtain ⟨e, he, rfl⟩ := hcall
    exact ⟨e.2, hlookup e he⟩
  · intro h
    cases hanswer : (closure d r form).1 with
    | ok forms => exact ⟨forms, rfl⟩
    | error e =>
      obtain ⟨c, hc, hlookup⟩ := hends.exists_error hanswer
      obtain ⟨f, hf⟩ := h c (hends.refersTo c hc)
      cases hlookup.symm.trans hf

end FormWeaver.Nested
