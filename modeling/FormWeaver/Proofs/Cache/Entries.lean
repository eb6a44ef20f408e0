import FormWeaver.Cache.Basic
import Mathlib.Data.List.Pairwise

/-!
# A cache as a map

A cache holds at most one entry for a pair (`Cache.Distinct`), and every operation keeps it so. Then
the cache is a map from pairs to entries, and its operations are those of a map: `find?_erase` and
`find?_insert` say what they do to it. The order of the entries does not matter (`find?_perm`).
-/

namespace FormWeaver

theorem Path.same_iff {p q : Path} : p.same q = true ↔ p.components = q.components := by
  unfold Path.same
  exact beq_iff_eq

namespace CacheEntry

/-- The pair an entry is for, up to the spelling of its paths. -/
def pair (e : CacheEntry) : List Path.Component × List Path.Component :=
  (e.descriptor.components, e.classFile.components)

theorem isFor_iff {e : CacheEntry} {descriptor classFile : Path} :
    e.isFor descriptor classFile = true ↔ e.pair = (descriptor.components, classFile.components) := by
  unfold isFor pair
  rw [Bool.and_eq_true, Path.same_iff, Path.same_iff, Prod.mk.injEq]

theorem isFor_self (e : CacheEntry) : e.isFor e.descriptor e.classFile = true := isFor_iff.mpr rfl

/-- An entry is for the same pairs as any other entry for one of them. -/
theorem isFor_congr {e : CacheEntry} {f f' k k' : Path} (hf : f.same f' = true) (hk : k.same k' = true) :
    e.isFor f k = e.isFor f' k' := by
  rw [Bool.eq_iff_iff, isFor_iff, isFor_iff, Path.same_iff.mp hf, Path.same_iff.mp hk]

end CacheEntry

namespace Cache

/-- Whether no two entries are for one pair. -/
def Distinct (c : Cache) : Prop := c.entries.Pairwise fun a b => a.pair ≠ b.pair

/-! ## The operations keep the entries distinct -/

theorem distinct_empty : empty.Distinct := List.Pairwise.nil

theorem mem_erase {c : Cache} {f k : Path} {e : CacheEntry} :
    e ∈ (c.erase f k).entries ↔ e ∈ c.entries ∧ e.isFor f k = false := by
  simp [erase]

theorem Distinct.erase {c : Cache} (h : c.Distinct) (f k : Path) : (c.erase f k).Distinct :=
  h.filter _

theorem Distinct.insert {c : Cache} (h : c.Distinct) (e : CacheEntry) : (c.insert e).Distinct := by
  refine List.Pairwise.cons ?_ (h.erase e.descriptor e.classFile)
  intro e' he' hp
  have hf := (mem_erase.mp he').2
  rw [CacheEntry.isFor_iff.mpr hp.symm] at hf
  exact absurd hf (by decide)

theorem Distinct.put {c : Cache} (h : c.Distinct) (d : Disk) (f k : Path) : (c.put d f k).Distinct :=
  h.insert _

theorem distinct_ofEntries (es : List CacheEntry) : (ofEntries es).Distinct := by
  have from' : ∀ (es : List CacheEntry) (c : Cache), c.Distinct → (es.foldl Cache.insert c).Distinct := by
    intro es
    induction es with
    | nil =>
      intro _ h
      exact h
    | cons e es ih =>
      intro c h
      exact ih _ (h.insert e)
  exact from' es _ distinct_empty

/-- Of entries that are for different pairs all count. -/
theorem ofEntries_perm {es : List CacheEntry} (h : es.Pairwise fun a b => a.pair ≠ b.pair) :
    (ofEntries es).entries.Perm es := by
  have from' : ∀ (es : List CacheEntry) (c : Cache), es.Pairwise (fun a b => a.pair ≠ b.pair) →
      (∀ e ∈ es, ∀ e' ∈ c.entries, e'.pair ≠ e.pair) →
      (es.foldl Cache.insert c).entries.Perm (es ++ c.entries) := by
    intro es
    induction es with
    | nil =>
      intro c _ _
      exact List.Perm.refl _
    | cons e es ih =>
      intro c hes hc
      rw [List.pairwise_cons] at hes
      have hkeep : (c.erase e.descriptor e.classFile).entries = c.entries := by
        apply List.filter_eq_self.mpr
        intro e' he'
        have := hc e (by simp) e' he'
        rw [Bool.not_eq_true', ← Bool.not_eq_true, CacheEntry.isFor_iff]
        exact this
      have hins : (c.insert e).entries = e :: c.entries := by
        unfold Cache.insert
        rw [hkeep]
      refine (ih (c.insert e) hes.2 ?_).trans ?_
      · intro a ha e' he'
        rw [hins] at he'
        rcases List.mem_cons.mp he' with rfl | he'
        · exact hes.1 a ha
        · exact hc a (List.mem_cons_of_mem _ ha) e' he'
      · rw [hins]
        exact List.perm_middle
  simpa [ofEntries, empty] using from' es empty h (by simp [empty])

/-! ## Looking up -/

theorem isUpToDate_iff_exists {c : Cache} {d : Disk} {f k : Path} :
    c.isUpToDate d f k = true ↔ ∃ e, c.find? f k = some e ∧ e.descriptorTime = d.modificationTime f ∧
      e.classTime = d.modificationTime k := by
  unfold isUpToDate
  cases c.find? f k with
  | none => simp
  | some e => simp [CacheEntry.isCurrent]

theorem isFor_of_find? {c : Cache} {f k : Path} {e : CacheEntry} (h : c.find? f k = some e) :
    e.isFor f k = true := by
  have hs := List.find?_some h
  exact hs

/-- What a lookup finds is the one entry for the pair. -/
theorem find?_eq_some_iff {c : Cache} (h : c.Distinct) {f k : Path} {e : CacheEntry} :
    c.find? f k = some e ↔ e ∈ c.entries ∧ e.isFor f k = true := by
  constructor
  · intro he
    exact ⟨List.mem_of_find?_eq_some he, isFor_of_find? he⟩
  · rintro ⟨hm, hf⟩
    cases hc : c.find? f k with
    | none => exact absurd hf (List.find?_eq_none.mp hc e hm)
    | some e' =>
      have hf' := isFor_of_find? hc
      have hm' := List.mem_of_find?_eq_some hc
      have hp : e.pair = e'.pair := (CacheEntry.isFor_iff.mp hf).trans (CacheEntry.isFor_iff.mp hf').symm
      by_cases hne : e = e'
      · rw [hne]
      · have hsymm : Std.Symm fun a b : CacheEntry => a.pair ≠ b.pair := ⟨fun _ _ => Ne.symm⟩
        exact absurd hp (List.Pairwise.forall h hm hm' hne)

theorem mem_iff_find? {c : Cache} (h : c.Distinct) {e : CacheEntry} :
    e ∈ c.entries ↔ c.find? e.descriptor e.classFile = some e := by
  rw [find?_eq_some_iff h, CacheEntry.isFor_self]
  simp

theorem find?_congr (c : Cache) {f f' k k' : Path} (hf : f.same f' = true) (hk : k.same k' = true) :
    c.find? f k = c.find? f' k' := by
  unfold find?
  congr 1
  funext e
  exact CacheEntry.isFor_congr hf hk

theorem find?_perm {c c' : Cache} (h : c.Distinct) (hp : c.entries.Perm c'.entries) (f k : Path) :
    c'.find? f k = c.find? f k := by
  have h' : c'.Distinct := hp.pairwise h fun hab => hab.symm
  ext e
  rw [find?_eq_some_iff h, find?_eq_some_iff h', hp.mem_iff]

theorem find?_erase (c : Cache) (f k f' k' : Path) :
    (c.erase f k).find? f' k' =
      if f.same f' && k.same k' then none else c.find? f' k' := by
  unfold erase find?
  simp only
  rw [List.find?_filter]
  split
  · next h =>
    rw [Bool.and_eq_true] at h
    rw [List.find?_eq_none]
    intro e _
    rw [CacheEntry.isFor_congr h.1 h.2]
    simp
  · next h =>
    congr 1
    funext e
    by_cases he : e.isFor f' k' = true
    · have hn : e.isFor f k = false := by
        rw [← Bool.not_eq_true]
        intro hfk
        rw [CacheEntry.isFor_iff] at he hfk
        have := Prod.mk.inj (hfk.symm.trans he)
        exact h (by simp [Path.same_iff, this])
      simp [he, hn]
    · simp [he]

theorem find?_insert (c : Cache) (e : CacheEntry) (f k : Path) :
    (c.insert e).find? f k = if e.isFor f k then some e else c.find? f k := by
  have hcons : (c.insert e).find? f k =
      if e.isFor f k then some e else (c.erase e.descriptor e.classFile).find? f k := by
    unfold insert find?
    rw [List.find?_cons]
    cases e.isFor f k <;> rfl
  rw [hcons]
  split
  · rfl
  · next h =>
    rw [find?_erase, if_neg]
    exact h

end Cache
end FormWeaver
