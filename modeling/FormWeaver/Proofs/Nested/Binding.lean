import FormWeaver.Nested.Resolver
import FormWeaver.Proofs.Classes.Containment

/-!
# The class that a form is bound to

A run finds the class to instrument by its file, and tells of the class by its name. The name is that of
the candidate whose file was found. No candidate has dots, so the name spells this very file
(`internalName_className`), and whoever looks for the name finds the candidate at once
(`resolve?_of_isFile`).
-/

namespace FormWeaver.Classes

variable {d : Disk} {root : Path} {internal candidate name : String}

/-- The internal name is read back from the class name, since none of its dots come from elsewhere. -/
theorem internalName_className (h : '.' ∉ internal.toList) :
    internalName (className internal) = internal := by
  apply String.toList_inj.mp
  have hclass : (className internal).toList = internal.toList.map fun c => if c = '/' then '.' else c :=
    String.toList_ofList
  rw [toList_internalName, hclass, List.map_map]
  calc internal.toList.map _ = internal.toList.map id := List.map_congr_left fun c hc => ?_
    _ = internal.toList := List.map_id _
  show (if (if c = '/' then '.' else c) = '.' then '/' else if c = '/' then '.' else c) = c
  by_cases hslash : c = '/'
  · rw [if_pos hslash, if_pos rfl, hslash]
  · have hdot : c ≠ '.' := fun heq => h (heq ▸ hc)
    rw [if_neg hslash, if_neg hdot]

theorem dot_notMem_of_resolve? (h : resolve? d root (internalName name) = some candidate) :
    '.' ∉ candidate.toList :=
  dot_notMem_candidates (dot_notMem_internalName name) _ _ (List.mem_of_find?_eq_some h)

theorem isFile_of_resolve? (h : resolve? d root internal = some candidate) :
    d.isFile (classFile root candidate) = true := by
  unfold resolve? at h
  have hfile := List.find?_some h
  exact hfile

/-- **A name without a class file** denotes none that it spells. -/
theorem isFile_of_resolve?_eq_none (h : resolve? d root internal = none) :
    d.isFile (classFile root internal) = false := by
  cases hfile : d.isFile (classFile root internal) with
  | false => rfl
  | true =>
    rw [resolve?_of_isFile hfile] at h
    cases h

end FormWeaver.Classes

namespace FormWeaver.Nested.Resolver

open Classes

variable {r : Resolver} {d : Disk} {form : Form} {declared internal : String}

theorem bindingOf_of_resolve? (h : form.binding = some declared)
    (hinternal : resolve? d r.classRoot (internalName declared) = some internal) :
    r.bindingOf d form = some (className internal) := by
  unfold bindingOf
  rw [h, Option.map_some, hinternal]

theorem bindingOf_of_resolve?_eq_none (h : form.binding = some declared)
    (hnone : resolve? d r.classRoot (internalName declared) = none) :
    r.bindingOf d form = some declared := by
  unfold bindingOf
  rw [h, Option.map_some, hnone]

/-- **A form is bound to the class that is instrumented.** The class file for the declared name is the one
that the class name spells, and it is found when that is a file; when it is not found the form keeps the
declared name. A form that declares the class name is bound to it. -/
theorem bindingOf_names_file (h : form.binding = some declared) (r : Resolver) (d : Disk) :
    ∃ bound, r.bindingOf d form = some bound ∧
      (fileOf? d r.classRoot declared =
        if d.isFile (classFile r.classRoot (internalName bound)) then
          some (classFile r.classRoot (internalName bound))
        else none) ∧
      (fileOf? d r.classRoot declared = none → bound = declared) ∧
      ∀ form' : Form, form'.binding = some bound → r.bindingOf d form' = some bound := by
  cases hinternal : resolve? d r.classRoot (internalName declared) with
  | none =>
    have hfile : fileOf? d r.classRoot declared = none := by
      unfold fileOf?
      rw [hinternal, Option.map_none]
    refine ⟨declared, bindingOf_of_resolve?_eq_none h hinternal, ?_, fun _ => rfl, ?_⟩
    · rw [hfile, isFile_of_resolve?_eq_none hinternal]
      rfl
    · intro form' hbinding
      exact bindingOf_of_resolve?_eq_none hbinding hinternal
  | some internal =>
    have hspelled : internalName (className internal) = internal :=
      internalName_className (dot_notMem_of_resolve? hinternal)
    have hisFile := isFile_of_resolve? hinternal
    have hfile : fileOf? d r.classRoot declared = some (classFile r.classRoot internal) := by
      unfold fileOf?
      rw [hinternal, Option.map_some]
    refine ⟨className internal, bindingOf_of_resolve? h hinternal, ?_, ?_, ?_⟩
    · rw [hspelled, if_pos hisFile, hfile]
    · intro hnone
      rw [hfile] at hnone
      cases hnone
    · intro form' hbinding
      have hagain : resolve? d r.classRoot (internalName (className internal)) = some internal := by
        rw [hspelled]
        exact resolve?_of_isFile hisFile
      exact bindingOf_of_resolve? hbinding hagain

namespace Sample

open Classes.Sample

def resolver : Resolver := ⟨[], ⟨[], none⟩, ⟨"/o"⟩, []⟩

def boundTo (declared : String) : Form := ⟨some declared, [], .resource "x.form"⟩

/-- A nested class that is declared with dots gets its dollar sign and keeps it. A class that is missing
keeps its name. -/
theorem bindingOf_names_file_elsewhere :
    (boundTo "a.B.C").binding = some "a.B.C" ∧
      resolver.bindingOf elsewhere (boundTo "a.B.C") = some "a.B$C" ∧
      fileOf? elsewhere ⟨"/o"⟩ "a.B.C" = some ⟨"/o/a/B$C.class"⟩ ∧
      resolver.bindingOf elsewhere (boundTo "a.B$C") = some "a.B$C" ∧
      fileOf? elsewhere ⟨"/o"⟩ "a.D" = none ∧
      resolver.bindingOf elsewhere (boundTo "a.D") = some "a.D" := by
  have hnested : (boundTo "a.B.C").binding = some "a.B.C" := rfl
  have hplain : (boundTo "a.D").binding = some "a.D" := rfl
  have hdollar : resolver.bindingOf elsewhere (boundTo "a.B.C") = some "a.B$C" := by decide
  have hmissing : fileOf? elsewhere ⟨"/o"⟩ "a.D" = none := by decide
  obtain ⟨bound, hbound, hfile, -, hagain⟩ := bindingOf_names_file hnested resolver elsewhere
  obtain ⟨kept, hkept, -, hdeclared, -⟩ := bindingOf_names_file hplain resolver elsewhere
  obtain rfl := Option.some.inj (hbound.symm.trans hdollar)
  refine ⟨hnested, hbound, ?_, hagain _ rfl, hmissing, ?_⟩
  · rw [if_pos (by decide)] at hfile
    exact hfile.trans (by decide)
  · rw [hkept, hdeclared hmissing]

end Sample

end FormWeaver.Nested.Resolver
