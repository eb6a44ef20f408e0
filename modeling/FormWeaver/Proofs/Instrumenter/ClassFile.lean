import FormWeaver.Classes.Lookup
import FormWeaver.Instrumenter.Transform
import FormWeaver.Proofs.Disk.Places

/-!
# The class file that the instrumenter is given

The instrumenter is told the class file by its arguments, behind the last `--class`. A class file has a
name that ends in `.class`, so it stands at another place than a form or a cache. What a process may do
to the disk is said by `Tool.KeepsToClassFile`: whatever it does to the class file that it is given, it
leaves all other places as they are.
-/

namespace FormWeaver

/-! ## Names of class files -/

namespace Classes

theorem exists_text_of_fileOf? {d : Disk} {root c : Path} {name : String}
    (h : fileOf? d root name = some c) : ∃ text, c.text = text ++ ".class" := by
  obtain ⟨internal, -, rfl⟩ := Option.map_eq_some_iff.mp h
  unfold classFile Path.child Path.join
  split
  · exact ⟨internal, rfl⟩
  split
  · exact ⟨root.text ++ internal, by rw [String.append_assoc]⟩
  · exact ⟨root.text ++ "/" ++ internal, by simp only [String.append_assoc]⟩

theorem endsWith_of_fileOf? {d d' : Disk} {root c : Path} {name : String} {q : Place}
    (h : fileOf? d root name = some c) (hq : d'.place? c = some q) : Disk.EndsWith q ".class" := by
  obtain ⟨text, htext⟩ := exists_text_of_fileOf? h
  obtain ⟨before, last, -, hpieces⟩ := Path.exists_pieces_append (by decide : '/' ∉ ".class".toList) text
  rw [← htext] at hpieces
  have hsuffix : ".class".toList <:+ (last ++ ".class").toList := by
    rw [String.toList_append]
    exact List.suffix_append _ _
  -- A piece that ends so is none of those that are no names.
  have hname : Disk.IsStep (last ++ ".class") := by
    refine ⟨?_, ?_, ?_⟩ <;> (intro hl; rw [hl] at hsuffix; exact absurd hsuffix (by decide))
  rw [Disk.place?_of_pieces hname hpieces] at hq
  obtain ⟨above, -, rfl⟩ := Option.map_eq_some_iff.mp hq
  exact ⟨above, _, rfl, hsuffix⟩

end Classes

/-! ## The argument -/

/-- What stands behind the last `--class`. -/
def lastClass? : List String → Option Path
  | [] => none
  | [_] => none
  | flag :: value :: rest =>
    (lastClass? (value :: rest)).or (if flag = "--class" then some ⟨value⟩ else none)

/-- The class file that a process is given. -/
def Invocation.classFile? (inv : Invocation) : Option Path := lastClass? inv.arguments

theorem lastClass?_eq_none {args : List String} (h : "--class" ∉ args) : lastClass? args = none := by
  induction args with
  | nil => rfl
  | cons flag rest ih =>
    rw [List.mem_cons, not_or] at h
    cases rest with
    | nil => rfl
    | cons value rest =>
      rw [lastClass?, ih h.2, if_neg (Ne.symm h.1)]
      rfl

theorem lastClass?_append {value : String} {rest : List String} (h : "--class" ∉ value :: rest)
    (before : List String) : lastClass? (before ++ "--class" :: value :: rest) = some ⟨value⟩ := by
  induction before with
  | nil =>
    rw [List.nil_append, lastClass?, lastClass?_eq_none h, if_pos rfl]
    rfl
  | cons flag before ih =>
    have hcons : ∃ v vs, before ++ "--class" :: value :: rest = v :: vs := by
      cases before with
      | nil => exact ⟨_, _, rfl⟩
      | cons => exact ⟨_, _, rfl⟩
    obtain ⟨v, vs, hvs⟩ := hcons
    rw [List.cons_append, hvs, lastClass?, ← hvs, ih]
    rfl

namespace Instrumenter

theorem class_notMem_nestedArguments (r : Nested.Resolver) (d : Disk) (name : String) (form : Form) :
    "--class" ∉ nestedArguments r d name form := by
  -- A value that has an equals sign is not the option.
  have hvalue : ∀ value : String, "--class" ≠ name ++ "=" ++ value := by
    intro value h
    have hmem : '=' ∈ (name ++ "=" ++ value).toList := by simp
    rw [← h] at hmem
    exact absurd hmem (by decide)
  unfold nestedArguments
  rw [List.mem_append, not_or]
  constructor
  · cases form.origin with
    | file path => simpa using hvalue _
    | resource name => simp
  · cases r.bindingOf d form with
    | none => simp
    | some binding => simpa using hvalue _

/-- **The class file of a request is the one that the process is given.** -/
theorem classFile?_arguments (i : Instrumenter) (r : Nested.Resolver) (d : Disk) {q : Request}
    {text : String} (h : q.classFile.text = text ++ ".class") (nested : List (String × Form)) :
    Invocation.classFile? ⟨i.program, i.arguments r d q nested⟩ = some q.classFile := by
  have hclass : "--class" ≠ q.classFile.text := by
    intro hc
    have hsuffix : ".class".toList <:+ q.classFile.text.toList := by
      rw [h, String.toList_append]
      exact List.suffix_append _ _
    rw [← hc] at hsuffix
    exact absurd hsuffix (by decide)
  have hrest : "--class" ∉ q.classFile.text ::
      (nested.flatMap (fun f => nestedArguments r d f.1 f.2) ++
        if q.scaling then ["--jb-scaling"] else []) := by
    rw [List.mem_cons, List.mem_append, List.mem_flatMap]
    rintro (hc | ⟨f, -, hc⟩ | hc)
    · exact hclass hc
    · exact class_notMem_nestedArguments r d f.1 f.2 hc
    · split at hc <;> simp at hc
  -- The platform stands in front of the form, if there is one.
  obtain ⟨before, hargs⟩ : ∃ before, i.arguments r d q nested = before ++ "--class" ::
      q.classFile.text :: (nested.flatMap (fun f => nestedArguments r d f.1 f.2) ++
        if q.scaling then ["--jb-scaling"] else []) := by
    unfold arguments
    cases r.context.platform with
    | none =>
      exact ⟨["-jar", i.jar.text, "--classpath", classpathValue r.context, "--form",
        q.descriptor.text], by simp only [List.append_assoc]; rfl⟩
    | some platform =>
      exact ⟨["-jar", i.jar.text, "--classpath", classpathValue r.context, "--platform",
        platform.runtimeHome.text, "--form", q.descriptor.text],
        by simp only [List.append_assoc]; rfl⟩
  unfold Invocation.classFile?
  rw [hargs]
  exact lastClass?_append hrest _

end Instrumenter

/-! ## What a process may do -/

/-- Whether a program, whatever it does to the class file that it is given, leaves all other places as
they are, and puts no link. -/
structure Tool.KeepsToClassFile (tool : Tool) : Prop where
  workingDirectory : ∀ d inv, (tool d inv).1.workingDirectory = d.workingDirectory
  elsewhere : ∀ d inv q, (∀ c, inv.classFile? = some c → d.identity? c ≠ some q) →
    (tool d inv).1.node? q = d.node? q
  link : ∀ d inv q target, (tool d inv).1.node? q = some (.link target) →
    d.node? q = some (.link target)

end FormWeaver
