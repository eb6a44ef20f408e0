import FormWeaver.Proofs.Instrumenter.References
import FormWeaver.Proofs.Nested.Preorder
import FormWeaver.Proofs.Run.Single

/-!
# The order in which the instrumenter is told of references

The process is told of the names that a form refers to in the order of a walk over them. The references of
each form that is met on the way are walked in the order of its document, but those of the form to
instrument from the last one to the first (`transform_eq_visits`). So the names are those of the walk in
the order of all documents, but they come in another order as soon as that makes a difference.
-/

namespace FormWeaver.Instrumenter

open Nested (Resolver RefersTo Visits exists_visits exists_visits_document exists_ends closure
  closure_ok_iff)

variable {d : Disk} {r : Resolver} {q : Request}

/-- The process is told of the names in the order of the walk from the last reference. -/
theorem transform_of_visits (i : Instrumenter) {order : List String}
    (hall : ∀ name, RefersTo r d q.form name → ∃ f, r.lookup d name = .ok f)
    (h : Visits (r.lookup d) [] q.form.nested.reverse order) :
    ∃ r', i.transform d r q = i.concluded d r' (i.arguments r d { q with scaling := false } [] ++
      order.flatMap (told r d) ++ if q.scaling then ["--jb-scaling"] else []) := by
  obtain ⟨turns, calls, hends⟩ := exists_ends d r q.form
  obtain ⟨forms, hforms⟩ := (closure_ok_iff q.form).mpr hall
  obtain ⟨more, hmore, hnames, hlookup⟩ := hends.exists_found hforms
  obtain rfl : forms = more := hmore
  obtain rfl : order = calls := h.unique (hends.visits hforms)
  refine ⟨(closure d r q.form).2, ?_⟩
  rw [i.transform_of_closure (Prod.ext hforms rfl), ← hnames]
  exact congrArg _ (i.arguments_eq q hends.resolver_eq.1 hends.resolver_eq.2 hlookup)

/-- **The order of references.** When all names resolve that a form refers to, there is one walk over its
references from the last one, and one from the first, where the references of every other form are walked
in the order of its document. Both visit the same names, each once: those that the form refers to. The
process is told of them in the order of the walk from the last reference. -/
theorem transform_eq_visits (i : Instrumenter)
    (hall : ∀ name, RefersTo r d q.form name → ∃ f, r.lookup d name = .ok f) :
    ∃ order document, (∀ other, Visits (r.lookup d) [] q.form.nested.reverse other ↔ other = order) ∧
      (∀ other, Visits (r.lookup d) [] q.form.nested other ↔ other = document) ∧
      order.Perm document ∧ order.Nodup ∧ (∀ name, name ∈ order ↔ RefersTo r d q.form name) ∧
      ∃ r', i.transform d r q = i.concluded d r' (i.arguments r d { q with scaling := false } [] ++
        order.flatMap (told r d) ++ if q.scaling then ["--jb-scaling"] else []) := by
  obtain ⟨order, horder, hnodup, hmem⟩ := exists_visits hall
  obtain ⟨document, hdocument, hnodup', hmem'⟩ := exists_visits_document hall
  have hperm : order.Perm document :=
    (List.perm_ext_iff_of_nodup hnodup hnodup').mpr fun name => (hmem name).trans (hmem' name).symm
  refine ⟨order, document, fun other => ⟨fun h => h.unique horder, ?_⟩,
    fun other => ⟨fun h => h.unique hdocument, ?_⟩, hperm, hnodup, hmem, i.transform_of_visits hall horder⟩
  · rintro rfl
    exact horder
  · rintro rfl
    exact hdocument

namespace Sample

open Run.Sample (plain instrumenter)

/-- Two forms that refer to each other. -/
def twins : List (String × Form) :=
  [("a", ⟨none, ["b"], .file ⟨"/a"⟩⟩), ("b", ⟨some "B", ["a"], .file ⟨"/b"⟩⟩)]

def knowsTwins : Resolver := ⟨[], ⟨[], none⟩, ⟨"/o"⟩, twins⟩

/-- A form that refers to both of them. -/
def askTwins : Request := ⟨⟨"/z.form"⟩, ⟨some "Z", ["a", "b"], .file ⟨"/z.form"⟩⟩, ⟨"/Z.class"⟩, false⟩

theorem lookup_twins {name : String} (h : RefersTo knowsTwins plain askTwins.form name) :
    ∃ f, knowsTwins.lookup plain name = .ok f := by
  have hmem : name = "a" ∨ name = "b" := by
    induction h with
    | direct h => simpa [askTwins] using h
    | through _ hf h ih =>
      rcases ih with rfl | rfl <;> obtain rfl := Except.ok.inj hf
      · exact .inr (List.mem_singleton.mp h)
      · exact .inl (List.mem_singleton.mp h)
  rcases hmem with rfl | rfl <;> exact ⟨_, rfl⟩

/-- Of two forms that refer to each other the one comes first that the walk begins with. -/
theorem visits_twins {find : String → Except Nested.ResolveError Form} {x y : String} {f g : Form}
    (hne : x ≠ y) (hf : find x = .ok f) (hg : find y = .ok g) (hx : f.nested = [y]) (hy : g.nested = [x]) :
    Visits find [] [x, y] [x, y] := by
  have hback : Visits find [x, y] g.nested [] := by
    rw [hy]
    exact .skip (by simp) (.nil _)
  have hnew : y ∉ [x] := fun hmem => hne (List.mem_singleton.mp hmem).symm
  have hinner : Visits find [x] f.nested [y] := by
    rw [hx]
    exact .visit hnew hg hback (.nil _)
  exact .visit List.not_mem_nil hf hinner (.skip (by simp) (.nil _))

/-- What the process is told, for which the walk began with the last reference. -/
def toldTwins : List String :=
  ["-jar", "instrumenter.jar", "--classpath", "", "--form", "/z.form", "--class", "/Z.class",
    "--nested-form", "b=/b", "--nested-class", "b=B", "--nested-form", "a=/a"]

/-- The walk from the last reference gives the order. -/
theorem transform_eq_visits_twins :
    (∀ name, RefersTo knowsTwins plain askTwins.form name → ∃ f, knowsTwins.lookup plain name = .ok f) ∧
      Visits (knowsTwins.lookup plain) [] ["b", "a"] ["b", "a"] ∧
      Visits (knowsTwins.lookup plain) [] ["a", "b"] ["a", "b"] ∧
      ∃ r', instrumenter.transform plain knowsTwins askTwins =
        instrumenter.concluded plain r' toldTwins := by
  have hall : ∀ name, RefersTo knowsTwins plain askTwins.form name →
      ∃ f, knowsTwins.lookup plain name = .ok f := fun name => lookup_twins
  have hwalk : Visits (knowsTwins.lookup plain) [] ["b", "a"] ["b", "a"] :=
    visits_twins (by decide) rfl rfl rfl rfl
  obtain ⟨order, document, horder, -, -, -, -, r', htransform⟩ := transform_eq_visits instrumenter hall
  obtain rfl : ["b", "a"] = order := (horder _).mp hwalk
  exact ⟨hall, hwalk, visits_twins (by decide) rfl rfl rfl rfl, r', htransform⟩

theorem started_twins : (instrumenter.transform plain knowsTwins askTwins).started = some toldTwins := by
  have hwalk : Visits (knowsTwins.lookup plain) [] ["b", "a"] ["b", "a"] :=
    visits_twins (by decide) rfl rfl rfl rfl
  obtain ⟨r', h⟩ := transform_of_visits (q := askTwins) instrumenter (fun name => lookup_twins) hwalk
  rw [h]
  show (instrumenter.concluded plain r' toldTwins).started = some toldTwins
  unfold concluded
  rw [Tool.launch_of_isSendable (by decide)]
  rfl

/-- The process is not always told of references in the order of the documents. -/
theorem not_forall_document_order :
    ¬ ∀ (i : Instrumenter) (d : Disk) (r : Resolver) (q : Request) (args document : List String),
      (∀ name, RefersTo r d q.form name → ∃ f, r.lookup d name = .ok f) →
      Visits (r.lookup d) [] q.form.nested document → (i.transform d r q).started = some args →
        args = i.arguments r d { q with scaling := false } [] ++ document.flatMap (told r d) ++
          if q.scaling then ["--jb-scaling"] else [] := by
  intro hall
  have hwalk : Visits (knowsTwins.lookup plain) [] ["a", "b"] ["a", "b"] :=
    visits_twins (by decide) rfl rfl rfl rfl
  have hargs := hall _ _ _ _ _ _ (fun name => lookup_twins) hwalk started_twins
  exact absurd hargs (by decide)

end Sample

end FormWeaver.Instrumenter
