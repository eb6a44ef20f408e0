import FormWeaver.Proofs.Classpath.Identity
import FormWeaver.Proofs.Path.Beneath

/-!
# Which locations count as extensions

A location counts as an extension when its path lies strictly beneath an extension directory. Its path is
absolute, while the directory is taken as it is spelled. For one that is spelled absolutely this makes no
difference (`isUnderAny_respelled`). A relative one has nothing beneath it, though there may be locations
in the directory that it names, and only the empty path has everything beneath it (`isUnderAny_iff`).
-/

namespace FormWeaver.Classpath

variable {d : Disk} {l : Location} {path directory respelled : Path} {directories : List Path}

/-! ## Beneath a directory -/

/-- Whether a path lies strictly beneath the absolute form of a directory. -/
def IsIn (d : Disk) (path directory : Path) : Prop :=
  ∃ q, d.absolute directory = .ok q ∧ path.IsInside q

/-- Whether a directory is spelled otherwise by its absolute form, or not at all. An absolute one always has
one. -/
def IsRespelled (d : Disk) (directory respelled : Path) : Prop :=
  respelled = directory ∨ directory.isAbsolute = true ∧ d.absolute directory = .ok respelled

/-- The absolute form of an absolute path needs no working directory. -/
theorem absolute_of_isAbsolute (h : directory.isAbsolute = true) (d : Disk) :
    d.absolute directory = .ok (Path.anchoredAt ⟨"/"⟩ directory) := by
  unfold Disk.absolute
  rw [Path.isEmpty_text_of_isAbsolute h, if_neg Bool.false_ne_true, if_pos h]

theorem components_of_absolute (h : directory.isAbsolute = true) (hq : d.absolute directory = .ok respelled) :
    respelled.components = directory.components := by
  rw [absolute_of_isAbsolute h] at hq
  rw [← Except.ok.inj hq, Path.components_anchoredAt h]

/-- What lies beneath an absolute directory as it is spelled lies beneath its absolute form. -/
theorem isInside_iff_isIn (h : directory.isAbsolute = true) :
    path.IsInside directory ↔ IsIn d path directory := by
  have hform := absolute_of_isAbsolute h d
  have hsame := Path.IsInside.congr (p := path) (components_of_absolute h hform)
  constructor
  · intro hinside
    exact ⟨_, hform, hsame.mpr hinside⟩
  · rintro ⟨q, hq, hinside⟩
    obtain rfl : Path.anchoredAt ⟨"/"⟩ directory = q := Except.ok.inj (hform.symm.trans hq)
    exact hsame.mp hinside

/-- Everything absolute lies beneath the empty path. -/
theorem isInside_empty (hpath : path.isAbsolute = true) (h : directory.text = "") :
    path.IsInside directory := by
  obtain rfl : directory = ⟨""⟩ := congrArg Path.mk h
  refine ⟨path.components, ?_, rfl⟩
  intro hnil
  have hhead := Path.head?_components_iff.mpr hpath
  rw [hnil] at hhead
  cases hhead

/-- **Beneath an extension directory.** An absolute path is beneath one when it lies strictly beneath the
absolute form of one that is spelled absolutely, or when one is empty. -/
theorem isUnderAny_iff (hpath : path.isAbsolute = true) : isUnderAny path directories = true ↔
    ∃ directory ∈ directories,
      directory.text = "" ∨ directory.isAbsolute = true ∧ IsIn d path directory := by
  rw [isUnderAny_iff_isInside]
  refine exists_congr fun directory => and_congr_right fun _ => ?_
  constructor
  · intro hinside
    by_cases hempty : directory.text = ""
    · exact .inl hempty
    cases habs : directory.isAbsolute with
    | true => exact .inr ⟨rfl, (isInside_iff_isIn habs).mp hinside⟩
    | false => exact absurd hinside (Path.not_isInside_of_relative habs hempty hpath)
  · rintro (hempty | ⟨habs, hin⟩)
    · exact isInside_empty hpath hempty
    · exact (isInside_iff_isIn habs).mpr hin

theorem isUnderAny_respelled {directories' : List Path}
    (h : List.Forall₂ (IsRespelled d) directories directories') (path : Path) :
    isUnderAny path directories' = isUnderAny path directories := by
  rw [Bool.eq_iff_iff, isUnderAny_iff_isInside, isUnderAny_iff_isInside]
  induction h with
  | nil => rfl
  | cons hfirst _ ih =>
    have hcomponents := hfirst.elim (congrArg Path.components) fun h => components_of_absolute h.1 h.2
    rw [List.exists_mem_cons_iff, List.exists_mem_cons_iff, ih, Path.IsInside.congr hcomponents]

/-! ## The order of the ambient locations -/

/-- The ambient locations without a module system, by what counts as an extension among them. -/
theorem ambient_of_loaders {env : Environment} (h : env.modular = false) (d : Disk) :
    ambient d env =
      (parseAll d env.loaders.flatten).filter (!isUnderAny ·.path env.extensionDirectories) ++
        (parseAll d env.loaders.flatten).filter (isUnderAny ·.path env.extensionDirectories) := by
  unfold ambient
  rw [h, if_neg Bool.false_ne_true, parseAll_flatten]

theorem ambient_congr {env : Environment} (h : env.modular = false)
    (hunder : ∀ l ∈ parseAll d env.loaders.flatten,
      isUnderAny l.path directories = isUnderAny l.path env.extensionDirectories) :
    ambient d { env with extensionDirectories := directories } = ambient d env := by
  have hrespelled : ({ env with extensionDirectories := directories } : Environment).modular = false := h
  rw [ambient_of_loaders h, ambient_of_loaders hrespelled]
  exact congrArg₂ _ (List.filter_congr fun l hl => congrArg _ (hunder l hl)) (List.filter_congr hunder)

/-- A runtime with a relative home has no extensions of its own. -/
theorem ambient_of_relative_home {s : HostSettings} {home : Path} (h : s.modular d = false)
    (hset : s.extensionDirectories = none) (hhome : s.runtimeHome = some home)
    (hrel : home.isAbsolute = false) : ambient d (s.environment d) = parseAll d s.loaders.flatten := by
  have hdirectories : (s.environment d).extensionDirectories = [(home.child "lib").child "ext"] := by
    rw [HostSettings.environment, HostSettings.effectiveExtensionDirectories, hset, hhome]
  have hext : ((home.child "lib").child "ext").isAbsolute = false := by
    rw [Path.isAbsolute_child (by decide), Path.isAbsolute_child (by decide), hrel]
  have hne : ((home.child "lib").child "ext").text ≠ "" := Path.text_child_ne (by decide) _
  have hnone : ∀ l ∈ parseAll d s.loaders.flatten,
      isUnderAny l.path (s.environment d).extensionDirectories = false := by
    intro l hl
    rw [Bool.eq_false_iff, Ne, isUnderAny_iff (d := d) (isLocated_of_mem_parseAll hl).1, hdirectories]
    simp [hext, hne]
  have hothers : (parseAll d s.loaders.flatten).filter
      (!isUnderAny ·.path (s.environment d).extensionDirectories) = parseAll d s.loaders.flatten :=
    List.filter_eq_self.mpr fun l hl => by rw [hnone l hl]; rfl
  have hextensions : (parseAll d s.loaders.flatten).filter
      (isUnderAny ·.path (s.environment d).extensionDirectories) = [] :=
    List.filter_eq_nil_iff.mpr fun l hl => by rw [hnone l hl]; exact Bool.false_ne_true
  calc ambient d (s.environment d)
      = (parseAll d s.loaders.flatten).filter (!isUnderAny ·.path (s.environment d).extensionDirectories) ++
          (parseAll d s.loaders.flatten).filter (isUnderAny ·.path (s.environment d).extensionDirectories) :=
        ambient_of_loaders (show (s.environment d).modular = false from h) d
    _ = parseAll d s.loaders.flatten := by rw [hothers, hextensions, List.append_nil]

/-- Whether a location counts as an extension in an environment. -/
def CountsAsExtension (d : Disk) (env : Environment) (l : Location) : Prop :=
  ∃ directory ∈ env.extensionDirectories,
    directory.text = "" ∨ directory.isAbsolute = true ∧ IsIn d l.path directory

/-- **The extensions among the ambient locations.** Without a module system the locations that count as
extensions stand behind all others, each in the order in which the loaders name them. How an absolute
extension directory is spelled makes no difference to them, and a relative one might be left out. So a
runtime with a relative home has no extensions of its own. -/
theorem ambient_extensions (d : Disk) :
    (∀ env : Environment, env.modular = false →
      (∀ l ∈ parseAll d env.loaders.flatten,
        isUnderAny l.path env.extensionDirectories = true ↔ CountsAsExtension d env l) ∧
      ambient d env =
        (parseAll d env.loaders.flatten).filter (!isUnderAny ·.path env.extensionDirectories) ++
          (parseAll d env.loaders.flatten).filter (isUnderAny ·.path env.extensionDirectories) ∧
      (∀ directories, List.Forall₂ (IsRespelled d) env.extensionDirectories directories →
        ambient d { env with extensionDirectories := directories } = ambient d env) ∧
      ambient d { env with
        extensionDirectories := env.extensionDirectories.filter fun p => p.text = "" ∨ p.isAbsolute } =
        ambient d env) ∧
    ∀ (s : HostSettings) (home : Path), s.modular d = false → s.extensionDirectories = none →
      s.runtimeHome = some home → home.isAbsolute = false →
        ambient d (s.environment d) = parseAll d s.loaders.flatten := by
  refine ⟨fun env h => ⟨?_, ambient_of_loaders h d, ?_, ?_⟩, fun s home => ambient_of_relative_home⟩
  · intro l hl
    exact isUnderAny_iff (isLocated_of_mem_parseAll hl).1
  · intro directories hrespelled
    exact ambient_congr h fun l _ => isUnderAny_respelled hrespelled l.path
  · refine ambient_congr h fun l hl => ?_
    have habs := (isLocated_of_mem_parseAll hl).1
    rw [Bool.eq_iff_iff, isUnderAny_iff (d := d) habs, isUnderAny_iff (d := d) habs]
    simp only [List.mem_filter, decide_eq_true_eq]
    grind

namespace Sample

/-- An absolute extension directory and a relative one, with an archive in each. -/
def extended (first : Path) : Environment :=
  ⟨[["/e//x.jar", "r/y.jar"], ["a.jar"]], [first, ⟨"r"⟩], none, false, none⟩

/-- A runtime with a relative home, and an archive in the directory of its extensions. -/
def portable : HostSettings := ⟨some ⟨"jre"⟩, none, some "jre/lib/ext/x.jar:a.jar", none⟩

/-- What lies in the absolute directory is an extension in either spelling. What lies in the relative one
is not, nor is what lies in a relative runtime. -/
theorem ambient_extensions_relative :
    (extended ⟨"/./e"⟩).modular = false ∧
      List.Forall₂ (IsRespelled bare) (extended ⟨"/./e"⟩).extensionDirectories [⟨"/e"⟩, ⟨"r"⟩] ∧
      ambient bare (extended ⟨"/e"⟩) = ambient bare (extended ⟨"/./e"⟩) ∧
      (ambient bare (extended ⟨"/e"⟩)).map (·.path.text) = ["/r/y.jar", "/a.jar", "/e/x.jar"] ∧
      portable.modular bare = false ∧ (⟨"jre"⟩ : Path).isAbsolute = false ∧
      ambient bare (portable.environment bare) = parseAll bare ["jre/lib/ext/x.jar", "a.jar"] := by
  have hmodular : (extended ⟨"/./e"⟩).modular = false := rfl
  have hrespelled :
      List.Forall₂ (IsRespelled bare) (extended ⟨"/./e"⟩).extensionDirectories [⟨"/e"⟩, ⟨"r"⟩] :=
    .cons (.inr ⟨by decide, by decide⟩) (.cons (.inl rfl) .nil)
  have hhost : portable.modular bare = false := by decide
  have hrel : (⟨"jre"⟩ : Path).isAbsolute = false := by decide
  obtain ⟨henv, hhome⟩ := ambient_extensions bare
  obtain ⟨-, -, hspelling, -⟩ := henv (extended ⟨"/./e"⟩) hmodular
  have hnamed : portable.loaders.flatten = ["jre/lib/ext/x.jar", "a.jar"] := by decide
  refine ⟨hmodular, hrespelled, hspelling _ hrespelled, by decide, hhost, hrel, ?_⟩
  rw [← hnamed]
  exact hhome portable ⟨"jre"⟩ hhost rfl rfl hrel

/-- A relative extension directory is not the same to the class path as its absolute form: what lies in the
directory goes behind all others only when this is spelled absolutely. -/
theorem not_forall_ambient_absolute :
    ¬ ∀ (d : Disk) (env : Environment) (directories : List Path) (here : Place),
      env.modular = false → d.workingDirectory = .present here →
      List.Forall₂ (fun p q => q = p ∨ d.absolute p = .ok q) env.extensionDirectories directories →
        ambient d { env with extensionDirectories := directories } = ambient d env := by
  intro h
  have hforms : List.Forall₂ (fun p q => q = p ∨ bare.absolute p = .ok q) [⟨"ext"⟩] [⟨"/ext"⟩] :=
    .cons (.inr (by decide)) .nil
  have hsame := h bare ⟨[["ext/x.jar", "a.jar"]], [⟨"ext"⟩], none, false, none⟩ [⟨"/ext"⟩] [] rfl rfl hforms
  revert hsame
  decide

end Sample

end FormWeaver.Classpath
