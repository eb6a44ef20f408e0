import FormWeaver.Proofs.Classes.Candidates
import Mathlib.Order.Bounds.Defs

/-!
# Which candidate is found

A class file is looked for by a loop: a probe asks for the class file of the name that it has come to, and
when there is none the last slash of the name becomes a dollar sign. `Probing` follows the loop probe by
probe. Behind each probe one more slash of the name has been turned (`turned_succ`), so the candidates are
the names with none, one, two and more of their last slashes turned (`candidates_eq`), and what is found is
the one with the fewest (`resolve?_least`).
-/

namespace FormWeaver.Classes

/-! ## Names with some slashes turned -/

/-- The characters of a name whose last `k` slashes are dollar signs: a slash is one of these when fewer
than `k` slashes come behind it. -/
def turnedChars (k : Nat) : List Char → List Char
  | [] => []
  | c :: cs => (if c = '/' ∧ cs.count '/' < k then '$' else c) :: turnedChars k cs

/-- The name with its last `k` slashes turned into dollar signs. -/
def turned (k : Nat) (internal : String) : String := String.ofList (turnedChars k internal.toList)

theorem turnedChars_of_notMem {cs : List Char} (h : '/' ∉ cs) (k : Nat) : turnedChars k cs = cs := by
  induction cs with
  | nil => rfl
  | cons c cs ih =>
    rw [List.mem_cons, not_or] at h
    rw [turnedChars, if_neg fun hc => h.1 hc.1.symm, ih h.2]

theorem turnedChars_zero (cs : List Char) : turnedChars 0 cs = cs := by
  induction cs with
  | nil => rfl
  | cons c cs ih => rw [turnedChars, if_neg fun hc => Nat.not_lt_zero _ hc.2, ih]

/-- Behind the turn of the last slash, one slash fewer is left to be turned. -/
theorem turnedChars_succ {after : List Char} (h : '/' ∉ after) (k : Nat) (before : List Char) :
    turnedChars (k + 1) (before ++ '/' :: after) = turnedChars k (before ++ '$' :: after) := by
  induction before with
  | nil =>
    show (if '/' = '/' ∧ after.count '/' < k + 1 then '$' else '/') :: turnedChars (k + 1) after =
      (if '$' = '/' ∧ after.count '/' < k then '$' else '$') :: turnedChars k after
    rw [turnedChars_of_notMem h, turnedChars_of_notMem h, ite_self,
      if_pos ⟨rfl, by rw [List.count_eq_zero_of_not_mem h]; omega⟩]
  | cons c before ih =>
    have hcount : (before ++ '/' :: after).count '/' = (before ++ '$' :: after).count '/' + 1 := by
      simp
      omega
    show (if c = '/' ∧ (before ++ '/' :: after).count '/' < k + 1 then '$' else c) ::
        turnedChars (k + 1) (before ++ '/' :: after) =
      (if c = '/' ∧ (before ++ '$' :: after).count '/' < k then '$' else c) ::
        turnedChars k (before ++ '$' :: after)
    rw [ih, hcount]
    simp only [Nat.add_lt_add_iff_right]

theorem turned_zero (internal : String) : turned 0 internal = internal := by
  rw [turned, turnedChars_zero, String.ofList_toList]

variable {internal next : String}

theorem turned_succ (h : sinkLastSlash? internal = some next) (k : Nat) :
    turned (k + 1) internal = turned k next := by
  obtain ⟨before, after, hinternal, hafter, hnext⟩ := eq_of_sinkLastSlash? h
  rw [turned, turned, hinternal, hnext, turnedChars_succ hafter]

theorem count_of_sinkLastSlash? (h : sinkLastSlash? internal = some next) :
    internal.toList.count '/' = next.toList.count '/' + 1 := by
  obtain ⟨before, after, hinternal, -, hnext⟩ := eq_of_sinkLastSlash? h
  rw [hinternal, hnext]
  simp
  omega

/-- No slash is left to be turned when there is none. -/
theorem sinkFirstSlash?_eq_none_iff {cs : List Char} : sinkFirstSlash? cs = none ↔ '/' ∉ cs := by
  induction cs with
  | nil => simp [sinkFirstSlash?]
  | cons c cs ih =>
    rw [sinkFirstSlash?, List.mem_cons, not_or]
    split
    · next hc => simp [hc]
    · next hc => rw [Option.map_eq_none_iff, ih, and_iff_right (Ne.symm hc)]

theorem sinkLastSlash?_eq_none_iff : sinkLastSlash? internal = none ↔ internal.toList.count '/' = 0 := by
  rw [sinkLastSlash?, Option.map_eq_none_iff, sinkFirstSlash?_eq_none_iff, List.mem_reverse,
    List.count_eq_zero]

/-- **The candidates** are the names with none, one, two and so on of their last slashes turned. -/
theorem candidates_eq {n : Nat} (h : internal.toList.count '/' = n) :
    candidates n internal = (List.range (n + 1)).map (turned · internal) := by
  induction n generalizing internal with
  | zero =>
    show [internal] = [turned 0 internal]
    rw [turned_zero]
  | succ n ih =>
    cases hturn : sinkLastSlash? internal with
    | none =>
      rw [sinkLastSlash?_eq_none_iff] at hturn
      omega
    | some next =>
      have hnext : next.toList.count '/' = n := by
        have := count_of_sinkLastSlash? hturn
        omega
      rw [candidates, hturn, List.range_succ_eq_map, List.map_cons, turned_zero, List.map_map]
      show internal :: candidates n next = _
      rw [ih hnext]
      congr 1
      apply List.map_congr_left
      intro k _
      exact (turned_succ hturn k).symm

example : candidates 2 "a/B/C" = ["a/B/C", "a/B$C", "a$B$C"] := by decide

/-! ## The loop -/

/-- From a name the loop ends after so many probes, with the candidate whose class file is there or with
nothing. Each constructor is what one probe may lead to. -/
inductive Probing (d : Disk) (root : Path) : String → Nat → Option String → Prop
  | found {candidate : String} (h : d.isFile (classFile root candidate) = true) :
      Probing d root candidate 1 (some candidate)
  | spent {candidate : String} (h : d.isFile (classFile root candidate) = false)
      (hturn : sinkLastSlash? candidate = none) : Probing d root candidate 1 none
  | turn {candidate next : String} {probes : Nat} {result : Option String}
      (h : d.isFile (classFile root candidate) = false) (hturn : sinkLastSlash? candidate = some next)
      (hr : Probing d root next probes result) : Probing d root candidate (probes + 1) result

variable {d : Disk} {root : Path}

/-- The loop can go one way only. -/
theorem Probing.unique {candidate : String} {probes probes' : Nat} {result result' : Option String}
    (h : Probing d root candidate probes result) (h' : Probing d root candidate probes' result') :
    probes' = probes ∧ result' = result := by
  induction h generalizing probes' result' with
  | found hfile => cases h' <;> simp_all
  | spent hfile hturn => cases h' <;> simp_all
  | turn hfile hturn _ ih =>
    cases h' with
    | found hfile' => simp_all
    | spent _ hturn' => simp_all
    | turn _ hturn' hr =>
      obtain rfl := Option.some.inj (hturn.symm.trans hturn')
      obtain ⟨rfl, rfl⟩ := ih hr
      exact ⟨rfl, rfl⟩

/-- A name without a class file denotes what it denotes with its last slash turned. -/
theorem resolve?_of_turn (h : d.isFile (classFile root internal) = false)
    (hturn : sinkLastSlash? internal = some next) :
    resolve? d root internal = resolve? d root next := by
  rw [resolve?, count_of_sinkLastSlash? hturn, candidates, hturn, List.find?_cons, h]
  rfl

theorem resolve?_of_spent (h : d.isFile (classFile root internal) = false)
    (hturn : sinkLastSlash? internal = none) : resolve? d root internal = none := by
  rw [resolve?, sinkLastSlash?_eq_none_iff.mp hturn, candidates, List.find?_cons, h]
  rfl

/-- **The loop ends** with what the name denotes, after no more probes than one and one for each slash. -/
theorem exists_probing (d : Disk) (root : Path) (internal : String) :
    ∃ probes ≤ internal.toList.count '/' + 1,
      Probing d root internal probes (resolve? d root internal) := by
  induction hn : internal.toList.count '/' generalizing internal with
  | zero =>
    refine ⟨1, Nat.le_refl _, ?_⟩
    cases hfile : d.isFile (classFile root internal) with
    | true =>
      rw [resolve?_of_isFile hfile]
      exact .found hfile
    | false =>
      have hturn := sinkLastSlash?_eq_none_iff.mpr hn
      rw [resolve?_of_spent hfile hturn]
      exact .spent hfile hturn
  | succ n ih =>
    cases hfile : d.isFile (classFile root internal) with
    | true =>
      rw [resolve?_of_isFile hfile]
      exact ⟨1, by omega, .found hfile⟩
    | false =>
      cases hturn : sinkLastSlash? internal with
      | none =>
        rw [sinkLastSlash?_eq_none_iff] at hturn
        omega
      | some next =>
        have hnext : next.toList.count '/' = n := by
          have := count_of_sinkLastSlash? hturn
          omega
        obtain ⟨probes, hle, hprobing⟩ := ih next hnext
        rw [resolve?_of_turn hfile hturn]
        exact ⟨probes + 1, Nat.succ_le_succ hle, .turn hfile hturn hprobing⟩

/-- A name denotes the first of its candidates in the order of the slashes that are turned. -/
theorem resolve?_eq_find? (d : Disk) (root : Path) (internal : String) :
    resolve? d root internal = ((List.range (internal.toList.count '/' + 1)).find? fun k =>
      d.isFile (classFile root (turned k internal))).map (turned · internal) := by
  have hcandidates : candidates (internal.toList.count '/') internal = _ := candidates_eq rfl
  unfold resolve?
  rw [hcandidates, List.find?_map, Function.comp_def]

/-- **The fewest slashes are turned.** Looking for a class file ends, and it ends after no more probes than
one and one for each slash of the name. It finds the candidate with the fewest slashes turned among those
whose class file is there, and nothing when there is no such candidate. -/
theorem resolve?_least (d : Disk) (root : Path) (internal : String) :
    (∃ probes ≤ internal.toList.count '/' + 1, ∀ probes' result,
      Probing d root internal probes' result ↔ probes' = probes ∧ result = resolve? d root internal) ∧
      (∀ candidate, resolve? d root internal = some candidate ↔
        ∃ k, IsLeast {k | k ≤ internal.toList.count '/' ∧
          d.isFile (classFile root (turned k internal)) = true} k ∧ candidate = turned k internal) ∧
      (resolve? d root internal = none ↔
        ∀ k ≤ internal.toList.count '/', d.isFile (classFile root (turned k internal)) = false) := by
  refine ⟨?_, fun candidate => ?_, ?_⟩
  · obtain ⟨probes, hle, hprobing⟩ := exists_probing d root internal
    refine ⟨probes, hle, fun probes' result => ⟨hprobing.unique, ?_⟩⟩
    rintro ⟨rfl, rfl⟩
    exact hprobing
  · rw [resolve?_eq_find?, Option.map_eq_some_iff]
    apply exists_congr
    intro k
    rw [List.find?_range_eq_some, List.mem_range, Nat.lt_succ_iff, eq_comm (b := candidate)]
    apply and_congr_left
    intro _
    constructor
    · rintro ⟨hfile, hk, hfewer⟩
      refine ⟨⟨hk, hfile⟩, fun j ⟨_, hj⟩ => Nat.le_of_not_lt fun hlt => ?_⟩
      have hnone := hfewer j hlt
      rw [hj] at hnone
      cases hnone
    · rintro ⟨⟨hk, hfile⟩, hleast⟩
      refine ⟨hfile, hk, fun j hlt => ?_⟩
      cases hj : d.isFile (classFile root (turned j internal)) with
      | false => rfl
      | true => exact absurd (hleast ⟨by omega, hj⟩) (Nat.not_le_of_lt hlt)
  · rw [resolve?_eq_find?, Option.map_eq_none_iff, List.find?_range_eq_none]
    simp only [Nat.lt_succ_iff, Bool.not_eq_true']

end FormWeaver.Classes
