import FormWeaver.Classes.Lookup

/-!
# What is tried for a class name

The candidates for an internal name come from it by turning slashes into dollar signs, the last one first.
So what every such turn keeps is true of all candidates (`forall_candidates`), and the class file that a
name denotes is that of a candidate.
-/

namespace FormWeaver.Classes

/-! ## Turning a slash -/

theorem eq_of_sinkFirstSlash? {cs turned : List Char} (h : sinkFirstSlash? cs = some turned) :
    ∃ before after, cs = before ++ '/' :: after ∧ '/' ∉ before ∧ turned = before ++ '$' :: after := by
  induction cs generalizing turned with
  | nil => cases h
  | cons c cs ih =>
    unfold sinkFirstSlash? at h
    split at h
    · next hc =>
      subst hc
      exact ⟨[], cs, rfl, List.not_mem_nil, (Option.some.inj h).symm⟩
    · next hc =>
      obtain ⟨rest, hrest, rfl⟩ := Option.map_eq_some_iff.mp h
      obtain ⟨before, after, rfl, hbefore, rfl⟩ := ih hrest
      refine ⟨c :: before, after, rfl, ?_, rfl⟩
      rw [List.mem_cons, not_or]
      exact ⟨Ne.symm hc, hbefore⟩

/-- The slash that is turned is the last one. -/
theorem eq_of_sinkLastSlash? {internal next : String} (h : sinkLastSlash? internal = some next) :
    ∃ before after, internal.toList = before ++ '/' :: after ∧ '/' ∉ after ∧
      next.toList = before ++ '$' :: after := by
  obtain ⟨turned, hturned, rfl⟩ := Option.map_eq_some_iff.mp h
  obtain ⟨before, after, hcs, hbefore, rfl⟩ := eq_of_sinkFirstSlash? hturned
  refine ⟨after.reverse, before.reverse, ?_, by simpa using hbefore, by simp⟩
  rw [← List.reverse_reverse internal.toList, hcs]
  simp

/-! ## Candidates -/

/-- What turning the last slash keeps is true of all candidates for a name of which it is true. -/
theorem forall_candidates {p : String → Prop}
    (hturn : ∀ internal next, sinkLastSlash? internal = some next → p internal → p next)
    {internal : String} (h : p internal) (slashes : Nat) : ∀ c ∈ candidates slashes internal, p c := by
  induction slashes generalizing internal with
  | zero =>
    intro c hc
    rw [List.mem_singleton.mp hc]
    exact h
  | succ slashes ih =>
    intro c hc
    rcases List.mem_cons.mp hc with rfl | hc
    · exact h
    · split at hc
      · cases hc
      · next next hnext => exact ih (hturn internal next hnext h) c hc

/-- The name itself is tried first. -/
theorem head?_candidates (slashes : Nat) (internal : String) :
    (candidates slashes internal).head? = some internal := by
  cases slashes <;> rfl

theorem dot_notMem_candidates {internal : String} (h : '.' ∉ internal.toList) (slashes : Nat) :
    ∀ c ∈ candidates slashes internal, '.' ∉ c.toList := by
  refine forall_candidates (fun internal next hnext h => ?_) h slashes
  obtain ⟨before, after, hinternal, -, hturned⟩ := eq_of_sinkLastSlash? hnext
  rw [hinternal] at h
  rw [hturned]
  simpa using h

/-- No candidate begins with a slash, unless the name does. -/
theorem head?_ne_slash_of_candidates {internal : String} (h : internal.toList.head? ≠ some '/')
    (slashes : Nat) : ∀ c ∈ candidates slashes internal, c.toList.head? ≠ some '/' := by
  refine forall_candidates (p := fun c => c.toList.head? ≠ some '/') (fun internal next hnext h => ?_) h
    slashes
  obtain ⟨before, after, hinternal, -, hturned⟩ := eq_of_sinkLastSlash? hnext
  rw [hinternal] at h
  rw [hturned]
  cases before with
  | nil => exact absurd rfl h
  | cons c before => exact h

/-! ## The class file of a name -/

theorem exists_candidate_of_fileOf? {d : Disk} {root file : Path} {name : String}
    (h : fileOf? d root name = some file) :
    ∃ candidate ∈ candidates ((internalName name).toList.count '/') (internalName name),
      d.isFile file = true ∧ file = classFile root candidate := by
  obtain ⟨candidate, hcandidate, rfl⟩ := Option.map_eq_some_iff.mp h
  unfold resolve? at hcandidate
  have hfile := List.find?_some hcandidate
  exact ⟨candidate, List.mem_of_find?_eq_some hcandidate, hfile, rfl⟩

/-- The candidate that is the name itself comes before all others. -/
theorem resolve?_of_isFile {d : Disk} {root : Path} {internal : String}
    (h : d.isFile (classFile root internal) = true) : resolve? d root internal = some internal := by
  obtain ⟨rest, hrest⟩ := List.head?_eq_some_iff.mp
    (head?_candidates (internal.toList.count '/') internal)
  unfold resolve?
  rw [hrest, List.find?_cons, h]

theorem fileOf?_of_isFile {d : Disk} {root : Path} {name : String}
    (h : d.isFile (classFile root (internalName name)) = true) :
    fileOf? d root name = some (classFile root (internalName name)) := by
  unfold fileOf?
  rw [resolve?_of_isFile h, Option.map_some]

end FormWeaver.Classes
