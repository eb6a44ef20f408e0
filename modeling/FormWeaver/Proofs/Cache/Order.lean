import FormWeaver.Proofs.Cache.Codec
import FormWeaver.Proofs.Path.Order

/-!
# The text of a cache does not depend on an order

The order in which entries are written is linear on the pairs they are for. So the entries of a cache
are written in one order, in whatever order the cache holds them (`encode_perm`), and what is read back
is the cache that was written, entry by entry (`decode_encode_perm`).
-/

namespace FormWeaver

namespace CacheEntry

/-- What entries are compared by. -/
def sortKey (e : CacheEntry) : List (List (List Nat)) := [e.descriptor.key, e.classFile.key]

theorem le_iff {a b : CacheEntry} : a.le b = true ↔ a.sortKey ≤ b.sortKey := by
  unfold le sortKey
  rw [Bool.not_eq_true', decide_eq_false_iff_not, not_lt]

/-- Entries share a key only when they are for the same pair. -/
theorem pair_eq_of_sortKey {a b : CacheEntry} (h : a.sortKey = b.sortKey) : a.pair = b.pair := by
  obtain ⟨hdescriptor, hrest⟩ := List.cons.inj h
  obtain ⟨hclass, -⟩ := List.cons.inj hrest
  unfold pair
  rw [Path.same_iff.mp (Path.key_eq_iff.mp hdescriptor), Path.same_iff.mp (Path.key_eq_iff.mp hclass)]

theorem pairwise_mergeSort (es : List CacheEntry) :
    (es.mergeSort le).Pairwise fun a b => a.le b = true := by
  apply List.pairwise_mergeSort
  · intro a b c hab hbc
    exact le_iff.mpr (le_trans (le_iff.mp hab) (le_iff.mp hbc))
  · intro a b
    rw [Bool.or_eq_true, le_iff, le_iff]
    exact le_total a.sortKey b.sortKey

end CacheEntry

namespace Cache

/-- Entries for different pairs are sorted into one list, whatever order they had. -/
theorem sorted_perm {c c' : Cache} (hc : c.Distinct) (hp : c'.entries.Perm c.entries) :
    c'.sorted = c.sorted := by
  have hsorted : c.sorted.Perm c.entries := List.mergeSort_perm _ _
  have hsorted' : c'.sorted.Perm c.entries := (List.mergeSort_perm _ _).trans hp
  refine List.Perm.eq_of_pairwise ?_ (CacheEntry.pairwise_mergeSort c'.entries)
    (CacheEntry.pairwise_mergeSort c.entries) (hsorted'.trans hsorted.symm)
  intro a b ha hb hab hba
  -- Two entries that neither comes before the other are for one pair, and a pair has one entry.
  have hkey := le_antisymm (CacheEntry.le_iff.mp hab) (CacheEntry.le_iff.mp hba)
  have hpair := CacheEntry.pair_eq_of_sortKey hkey
  by_contra hne
  have hsymm : Std.Symm fun a b : CacheEntry => a.pair ≠ b.pair := ⟨fun _ _ => Ne.symm⟩
  exact List.Pairwise.forall hc (hsorted'.mem_iff.mp ha) (hsorted.mem_iff.mp hb) hne hpair

theorem encodeWith_perm (checksum : String → String) {c c' : Cache} (hc : c.Distinct)
    (hp : c'.entries.Perm c.entries) : encodeWith checksum c' = encodeWith checksum c := by
  unfold encodeWith
  rw [sorted_perm hc hp]

/-- **The text of a cache and the cache.** The text of a cache whose entries are for different pairs
describes a cache with just these entries, paths and times as they are spelled; and it is the text of
these entries in any other order too. -/
theorem decode_encode_perm {c : Cache} (hc : c.Distinct) :
    (∃ c', decode (encode c) = some c' ∧ c'.Distinct ∧ c'.entries.Perm c.entries) ∧
      ∀ c' : Cache, c'.entries.Perm c.entries → encode c' = encode c := by
  constructor
  · obtain ⟨c', hdecode, hperm⟩ := decode_encode hc
    exact ⟨c', hdecode, hperm.symm.pairwise hc fun h => h.symm, hperm⟩
  · intro c' hp
    exact encodeWith_perm _ hc hp

/-- A cache with paths that a quoted string or a line could stumble over. -/
def awkward : Cache :=
  ⟨[⟨⟨"/s/\"a\\\n\r\x01é.form"⟩, 18446744073709551615, ⟨"/o//A.class"⟩, 0⟩,
    ⟨⟨"/s/a-c.form"⟩, 1, ⟨"/o/A.class"⟩, 2⟩, ⟨⟨"/s/a/b.form"⟩, 3, ⟨"/o/A.class"⟩, 2⟩]⟩

theorem distinct_awkward : awkward.Distinct := by
  unfold Distinct
  decide +kernel

/-- The awkward cache is read back, and its text stays the same when it is turned around. -/
theorem decode_encode_perm_awkward :
    (∃ c', decode (encode awkward) = some c' ∧ c'.Distinct ∧ c'.entries.Perm awkward.entries) ∧
      encode ⟨awkward.entries.reverse⟩ = encode awkward := by
  obtain ⟨hread, horder⟩ := decode_encode_perm distinct_awkward
  exact ⟨hread, horder ⟨awkward.entries.reverse⟩ (List.reverse_perm _)⟩

end Cache
end FormWeaver
