import FormWeaver.Classpath.Context
import FormWeaver.Proofs.Path.Beneath
import Mathlib.Data.List.Forall2
import Mathlib.Data.List.Induction
import Mathlib.Data.List.Nodup

/-!
# How a class path is assembled

The locations of a class path are considered in a fixed order: those that the environment names
(`AreAmbient`), the core library (`IsCore`) and the dependencies. Each is kept unless one of its URL has been
kept before. Taken one at a time (`keep`) this comes to the locations before which none of the same URL comes
(`firsts_eq_foldl_keep`), so the class path is known in closed form (`build_eq`). A text that is no location
leaves no trace in it, wherever it stands (`Padded.parseAll_eq`).
-/

namespace FormWeaver.Classpath

variable {d : Disk}

/-! ## One location for each URL -/

/-- The locations before which none of the same URL comes. -/
def firsts (ls : List Location) : List Location :=
  (ls.zipIdx.filter fun (l, i) => (ls.take i).all (·.url != l.url)).map (·.1)

/-- Keeps a location unless one of its URL has been kept. -/
def keep (kept : List Location) (l : Location) : List Location :=
  if l.url ∈ kept.map (·.url) then kept else kept ++ [l]

theorem firsts_append_singleton (ls : List Location) (l : Location) :
    firsts (ls ++ [l]) = if l.url ∈ ls.map (·.url) then firsts ls else firsts ls ++ [l] := by
  have hbefore : (ls.zipIdx.filter fun (k, i) => ((ls ++ [l]).take i).all (·.url != k.url)) =
      ls.zipIdx.filter fun (k, i) => (ls.take i).all (·.url != k.url) := by
    apply List.filter_congr
    rintro ⟨k, i⟩ hk
    have hi : i < ls.length := by simpa using (List.mem_zipIdx hk).2.1
    simp only [List.take_append_of_le_length (Nat.le_of_lt hi)]
  have hlast : (ls.all (·.url != l.url)) = true ↔ l.url ∉ ls.map (·.url) := by
    simp [List.all_eq_true]
  unfold firsts
  rw [List.zipIdx_append, List.filter_append, hbefore, List.map_append]
  by_cases h : l.url ∈ ls.map (·.url)
  · have hall : (ls.all (·.url != l.url)) = false := by
      rw [← Bool.not_eq_true, hlast]
      exact not_not_intro h
    simp [h, hall]
  · have hall := hlast.mpr h
    simp [h, hall]

/-- No URL is lost. -/
theorem mem_urls_firsts {url : String} {ls : List Location} :
    url ∈ (firsts ls).map (·.url) ↔ url ∈ ls.map (·.url) := by
  induction ls using List.reverseRecOn with
  | nil => rfl
  | append_singleton ls l ih =>
    rw [firsts_append_singleton]
    split
    · next hl =>
      rw [ih, List.map_append, List.mem_append, or_iff_left_of_imp]
      intro h
      rw [List.map_singleton, List.mem_singleton] at h
      rwa [h]
    · rw [List.map_append, List.map_append, List.mem_append, List.mem_append, ih]

theorem firsts_sublist (ls : List Location) : (firsts ls).Sublist ls := by
  induction ls using List.reverseRecOn with
  | nil => exact .slnil
  | append_singleton ls l ih =>
    rw [firsts_append_singleton]
    split
    · exact ih.trans (List.sublist_append_left ls [l])
    · exact ih.append (.refl [l])

theorem firsts_concat (ls : List Location) (l : Location) : firsts (ls ++ [l]) = keep (firsts ls) l := by
  simp only [keep, mem_urls_firsts, firsts_append_singleton]

/-- **One location for each URL**, taken one at a time. -/
theorem firsts_eq_foldl_keep (ls : List Location) : firsts ls = ls.foldl keep [] := by
  induction ls using List.reverseRecOn with
  | nil => rfl
  | append_singleton ls l ih => rw [firsts_concat, ih, List.foldl_append]; rfl

theorem foldl_keep (kept ls : List Location) :
    ls.foldl keep kept = kept ++ (firstOfEachUrl ls).filter (·.url ∉ kept.map (·.url)) := by
  induction ls generalizing kept with
  | nil => simp [firstOfEachUrl]
  | cons l ls ih =>
    rw [List.foldl_cons, ih, firstOfEachUrl, List.filter_cons, List.filter_filter, keep]
    by_cases h : l.url ∈ kept.map (·.url)
    · rw [if_pos h, if_neg (by simpa using h)]
      congr 1
      apply List.filter_congr
      intro k _
      -- What is not among the kept ones is not the first one again.
      have hne : k.url ∉ kept.map (·.url) → k.url ≠ l.url := fun hk he => hk (he ▸ h)
      simpa using hne
    · rw [if_neg h, if_pos (by simpa using h), List.append_assoc, List.singleton_append]
      congr 2
      apply List.filter_congr
      intro k _
      rw [Bool.eq_iff_iff]
      simp [and_comm]

theorem firstOfEachUrl_eq (ls : List Location) : firstOfEachUrl ls = firsts ls := by
  rw [firsts_eq_foldl_keep, foldl_keep]
  simp

theorem nodup_urls_firsts (ls : List Location) : ((firsts ls).map (·.url)).Nodup := by
  induction ls using List.reverseRecOn with
  | nil => exact List.nodup_nil
  | append_singleton ls l ih =>
    rw [firsts_concat, keep]
    split
    · exact ih
    · next hl =>
      rw [List.map_append, List.map_singleton]
      exact List.nodup_append_comm.mp (List.nodup_cons.mpr ⟨hl, ih⟩)

/-! ## What an environment names -/

/-- The parts of a text between its colons and commas. -/
inductive Parts : List Char → List (List Char) → Prop
  | last {part : List Char} (h : ':' ∉ part ∧ ',' ∉ part) : Parts part [part]
  | cons {part rest : List Char} {parts : List (List Char)} {mark : Char} (h : ':' ∉ part ∧ ',' ∉ part)
      (hmark : mark = ':' ∨ mark = ',') (hrest : Parts rest parts) :
      Parts (part ++ mark :: rest) (part :: parts)

/-- Whether these are the items of a path list: its parts without the blanks around them, where that leaves
something. -/
def AreItems (raw : String) (items : List String) : Prop :=
  ∃ parts, Parts raw.toList parts ∧
    items = (parts.map fun part => String.ofList (Text.trim part)).filter (· != "")

/-- Whether these are the texts that an environment contributes: with a module system the items of the class
path that the host runs with, otherwise what the loaders name. -/
def AreAmbient (env : Environment) (texts : List String) : Prop :=
  if env.modular then
    match env.runtimeClasspath with
    | none => texts = []
    | some raw => AreItems raw texts
  else texts = env.loaders.flatten

theorem notMem_iff_separates {part : List Char} :
    (':' ∉ part ∧ ',' ∉ part) ↔ ∀ c ∈ part, (c == ':' || c == ',') = false := by
  constructor
  · rintro ⟨hcolon, hcomma⟩ c hc
    rw [Bool.or_eq_false_iff, beq_eq_false_iff_ne, beq_eq_false_iff_ne]
    exact ⟨fun h => hcolon (h ▸ hc), fun h => hcomma (h ▸ hc)⟩
  · intro h
    exact ⟨fun hc => absurd (h _ hc) (by decide), fun hc => absurd (h _ hc) (by decide)⟩

theorem Parts.cons_first {c : Char} (h : c ≠ ':' ∧ c ≠ ',') {cs first : List Char}
    {rest : List (List Char)} (hparts : Parts cs (first :: rest)) : Parts (c :: cs) ((c :: first) :: rest) := by
  have hnew : ∀ {part : List Char}, ':' ∉ part ∧ ',' ∉ part → ':' ∉ c :: part ∧ ',' ∉ c :: part :=
    fun hpart => ⟨List.not_mem_cons_of_ne_of_not_mem h.1.symm hpart.1,
      List.not_mem_cons_of_ne_of_not_mem h.2.symm hpart.2⟩
  cases hparts with
  | last hpart => exact .last (hnew hpart)
  | cons hpart hmark hrest => exact .cons (hnew hpart) hmark hrest

/-- **The parts of a text** are those that it is split into. -/
theorem parts_iff {cs : List Char} {parts : List (List Char)} :
    Parts cs parts ↔ cs.splitOnP (fun c => c == ':' || c == ',') = parts := by
  constructor
  · intro h
    induction h with
    | last h => exact List.splitOnP_eq_singleton (notMem_iff_separates.mp h)
    | @cons part rest parts mark h hmark _ ih =>
      have hseparates : (mark == ':' || mark == ',') = true := by simpa using hmark
      rw [List.splitOnP_append_cons part rest hseparates,
        List.splitOnP_eq_singleton (notMem_iff_separates.mp h), ih]
      rfl
  · rintro rfl
    induction cs with
    | nil => exact .last ⟨List.not_mem_nil, List.not_mem_nil⟩
    | cons c cs ih =>
      rw [List.splitOnP_cons_eq_if_modifyHead]
      split
      · next hc => exact .cons ⟨List.not_mem_nil, List.not_mem_nil⟩ (by simpa using hc) ih
      · next hc =>
        obtain ⟨first, rest, hcs⟩ :=
          List.exists_cons_of_ne_nil (List.splitOnP_ne_nil (fun c => c == ':' || c == ',') cs)
        rw [hcs] at ih ⊢
        exact ih.cons_first (by simpa using hc)

theorem areItems_iff {raw : String} {items : List String} : AreItems raw items ↔ items = splitList raw := by
  unfold AreItems splitList
  simp only [parts_iff, exists_eq_left']

/-! ## What is considered -/

/-- The texts that an environment contributes. -/
def ambientTexts (env : Environment) : List String :=
  if env.modular then env.runtimeClasspath.elim [] splitList else env.loaders.flatten

/-- The locations that are considered, in order. Without a module system those beneath an extension
directory come after the others of the environment. -/
def considered (d : Disk) (env : Environment) (dependencies : List Path) : List Location :=
  let named := parseAll d (ambientTexts env)
  let isExtension := fun l : Location => isUnderAny l.path env.extensionDirectories
  (if env.modular then named else named.filter (!isExtension ·) ++ named.filter isExtension) ++
    coreLibrary d env.runtimeHome ++ parseAll d (dependencies.map (·.text))

/-- Whether a location lies strictly beneath an extension directory. -/
def IsExtension (env : Environment) (l : Location) : Prop :=
  ∃ directory ∈ env.extensionDirectories, l.path.IsInside directory

theorem isUnderAny_iff_isInside {path : Path} {directories : List Path} :
    isUnderAny path directories = true ↔ ∃ directory ∈ directories, path.IsInside directory := by
  unfold isUnderAny
  simp only [List.any_eq_true, Bool.and_eq_true, Bool.not_eq_true', Path.isInside_iff]

instance (env : Environment) : DecidablePred (IsExtension env) :=
  fun _ => decidable_of_iff _ isUnderAny_iff_isInside

/-- Whether these are the locations of the core library: that of `lib/rt.jar` beneath the home of the runtime,
if it is a file. -/
def IsCore (d : Disk) (home : Option Path) (core : List Location) : Prop :=
  (∃ runtime q, home = some runtime ∧ d.isFile ((runtime.child "lib").child "rt.jar") = true ∧
    d.absolute ((runtime.child "lib").child "rt.jar") = .ok q ∧ core = [.ofAbsolute d q]) ∨
  (∀ runtime, home = some runtime → d.isFile ((runtime.child "lib").child "rt.jar") = false) ∧ core = []

/-- The locations to be considered, in order: those that the texts of an environment name, without a module
system the extensions behind the others, then the core library and what the dependencies name. Texts that
name no location are passed over. -/
def inOrder (d : Disk) (env : Environment) (texts : List String) (core : List Location)
    (dependencies : List Path) : List Location :=
  let locations := fun raws : List String => raws.filterMap fun raw => (Location.parse d raw).toOption
  let named := locations texts
  (if env.modular then named
    else named.filter (¬ IsExtension env ·) ++ named.filter (IsExtension env ·)) ++
  core ++ locations (dependencies.map (·.text))

theorem areAmbient_iff {env : Environment} {texts : List String} :
    AreAmbient env texts ↔ texts = ambientTexts env := by
  unfold AreAmbient ambientTexts
  split
  · cases env.runtimeClasspath with
    | none => rfl
    | some raw => exact areItems_iff
  · rfl

/-- Where there is a working directory a path with a name at its end has an absolute form. -/
theorem exists_absolute_child {here : Place} (hw : d.workingDirectory = .present here) {piece : String}
    (hpiece : Path.IsLegal piece) (p : Path) : ∃ q, d.absolute (p.child piece) = .ok q := by
  have hne : (p.child piece).text.isEmpty = false := by simpa using Path.text_child_ne hpiece p
  unfold Disk.absolute
  rw [hne, hw, if_neg Bool.false_ne_true]
  split <;> exact ⟨_, rfl⟩

theorem isCore_coreLibrary {here : Place} (hw : d.workingDirectory = .present here) (home : Option Path) :
    IsCore d home (coreLibrary d home) := by
  cases home with
  | none => exact .inr ⟨nofun, rfl⟩
  | some runtime =>
    cases hfile : d.isFile ((runtime.child "lib").child "rt.jar") with
    | true =>
      obtain ⟨q, hq⟩ := exists_absolute_child hw (by decide : Path.IsLegal "rt.jar") (runtime.child "lib")
      exact .inl ⟨runtime, q, rfl, hfile, hq, by simp [coreLibrary, absoluteOrSelf, hfile, hq]⟩
    | false =>
      right
      constructor
      · rintro _ ⟨⟩
        exact hfile
      · simp [coreLibrary, hfile]

/-- The core library, when there is one, is the location of its archive. -/
theorem mem_coreLibrary_iff {here : Place} (hw : d.workingDirectory = .present here) {home : Option Path}
    {l : Location} : l ∈ coreLibrary d home ↔ ∃ runtime q, home = some runtime ∧
      d.isFile ((runtime.child "lib").child "rt.jar") = true ∧
      d.absolute ((runtime.child "lib").child "rt.jar") = .ok q ∧ l = .ofAbsolute d q := by
  rcases isCore_coreLibrary hw home with ⟨runtime, q, rfl, hfile, hq, hcore⟩ | ⟨hnone, hcore⟩
  · rw [hcore, List.mem_singleton]
    simp [hfile, hq]
  · rw [hcore]
    constructor
    · intro hmem
      cases hmem
    · rintro ⟨runtime, _, hhome, hfile, -⟩
      rw [hnone runtime hhome] at hfile
      cases hfile

theorem considered_eq (d : Disk) (env : Environment) (dependencies : List Path) :
    considered d env dependencies =
      inOrder d env (ambientTexts env) (coreLibrary d env.runtimeHome) dependencies := by
  have hextension : ∀ l : Location, isUnderAny l.path env.extensionDirectories = decide (IsExtension env l) := by
    intro l
    rw [Bool.eq_iff_iff, isUnderAny_iff_isInside, decide_eq_true_eq]
    rfl
  unfold considered inOrder
  simp only [hextension, decide_not]
  rfl

theorem parseAll_append (raws raws' : List String) :
    parseAll d (raws ++ raws') = parseAll d raws ++ parseAll d raws' :=
  List.filterMap_append

theorem mem_parseAll {raws : List String} {l : Location} :
    l ∈ parseAll d raws ↔ ∃ raw ∈ raws, Location.parse d raw = .ok l := by
  unfold parseAll
  rw [List.mem_filterMap]
  refine exists_congr fun raw => and_congr_right fun _ => ?_
  cases Location.parse d raw <;> simp [Except.toOption]

theorem parseAll_flatten (loaders : List (List String)) :
    parseAll d loaders.flatten = loaders.flatMap (parseAll d) := by
  induction loaders with
  | nil => rfl
  | cons raws loaders ih => rw [List.flatten_cons, parseAll_append, ih, List.flatMap_cons]

theorem candidates_eq (d : Disk) (env : Environment) (dependencies : List Path) :
    candidates d env dependencies = considered d env dependencies := by
  unfold candidates considered ambient ambientTexts
  cases env.modular with
  | true => cases env.runtimeClasspath <;> rfl
  | false => simp only [Bool.false_eq_true, if_false, parseAll_flatten]

/-- What is considered are the locations that texts name, and the core library. -/
theorem mem_considered_iff {env : Environment} {dependencies : List Path} {l : Location} :
    l ∈ considered d env dependencies ↔
      (∃ raw ∈ ambientTexts env ++ dependencies.map (·.text), Location.parse d raw = .ok l) ∨
        l ∈ coreLibrary d env.runtimeHome := by
  have hnamed : (∃ raw ∈ ambientTexts env ++ dependencies.map (·.text), Location.parse d raw = .ok l) ↔
      l ∈ parseAll d (ambientTexts env) ∨ l ∈ parseAll d (dependencies.map (·.text)) := by
    rw [← mem_parseAll, parseAll_append, List.mem_append]
  rw [hnamed, or_right_comm]
  unfold considered
  rw [List.mem_append, List.mem_append]
  refine or_congr_left (or_congr_left ?_)
  by_cases hm : env.modular
  · simp [hm]
  · -- Extensions change their place only.
    cases he : isUnderAny l.path env.extensionDirectories <;> simp [hm, he]

/-- Each text that names a location has it considered. -/
theorem mem_considered {env : Environment} {dependencies : List Path} {raw : String} {l : Location}
    (hraw : raw ∈ ambientTexts env ++ dependencies.map (·.text)) (hl : Location.parse d raw = .ok l) :
    l ∈ considered d env dependencies :=
  mem_considered_iff.mpr (.inl ⟨raw, hraw, hl⟩)

/-! ## Texts that are no locations -/

/-- The second list is the first with texts put in anywhere that are no locations. -/
inductive Padded (d : Disk) : List String → List String → Prop
  | nil : Padded d [] []
  | keep (raw : String) {raws raws' : List String} (h : Padded d raws raws') :
      Padded d (raw :: raws) (raw :: raws')
  | insert {raw : String} {e : MalformedLocation} (he : Location.parse d raw = .error e)
      {raws raws' : List String} (h : Padded d raws raws') : Padded d raws (raw :: raws')

theorem Padded.parseAll_eq {raws raws' : List String} (h : Padded d raws raws') :
    parseAll d raws' = parseAll d raws := by
  unfold parseAll
  induction h with
  | nil => rfl
  | keep raw _ ih => rw [List.filterMap_cons, List.filterMap_cons, ih]
  | insert he _ ih => rw [List.filterMap_cons, he, ← ih]; rfl

theorem considered_of_padded {env : Environment} {loaders : List (List String)}
    {dependencies dependencies' : List Path} (hloaders : Padded d env.loaders.flatten loaders.flatten)
    (hdependencies : Padded d (dependencies.map (·.text)) (dependencies'.map (·.text))) :
    considered d { env with loaders } dependencies' = considered d env dependencies := by
  have hnamed : parseAll d (ambientTexts { env with loaders }) = parseAll d (ambientTexts env) := by
    unfold ambientTexts
    by_cases hm : env.modular
    · rw [if_pos hm, if_pos hm]
    · rw [if_neg hm, if_neg hm]
      exact hloaders.parseAll_eq
  unfold considered
  rw [hnamed, hdependencies.parseAll_eq]

/-! ## The context -/

/-- The index of a location is that of the archive at its own path, when this can be listed. -/
theorem index_of_eq_some {l : Location} {index : ArchiveIndex} :
    (IndexedLocation.of d l).index = some index ↔
      l.isDirectory = false ∧ d.isFile l.path = true ∧ index.path = l.path ∧ index.inside = "" ∧
        Archive.names d l.path = .ok index.entries := by
  obtain ⟨path, inside, entries⟩ := index
  unfold IndexedLocation.of
  cases hdir : l.isDirectory with
  | true => simp
  | false =>
    unfold ArchiveIndex.of?
    by_cases hfile : d.isFile l.path = true
    · cases hnames : Archive.names d l.path <;> simp [hfile, eq_comm, and_comm, and_left_comm]
    · simp [hfile]

theorem locations_map_of (ls : List Location) (platform : Option Platform) :
    Context.locations ⟨ls.map (IndexedLocation.of d), platform⟩ = ls := by
  unfold Context.locations
  rw [List.map_map]
  exact List.map_id' ls

theorem build_of_present {here : Place} (h : d.workingDirectory = .present here) (env : Environment)
    (dependencies : List Path) :
    Context.build d env dependencies =
      .ok ⟨(firsts (considered d env dependencies)).map (IndexedLocation.of d), platform? d env⟩ := by
  unfold Context.build
  rw [h, firstOfEachUrl_eq, candidates_eq]

/-- **The class path assembled.** Where there is a working directory a class path is assembled, and its
locations are the first of each URL, in order, of what the environment names, the core library and the
dependencies. No location of these is lost, unless one of its URL is kept. An index is that of the archive at
the path of its own location. Texts that are no locations, put in anywhere among those of the loaders and
those of the dependencies, change nothing. -/
theorem build_eq {here : Place} (h : d.workingDirectory = .present here) (env : Environment)
    (dependencies : List Path) :
    ∃ c texts core, Context.build d env dependencies = .ok c ∧
      AreAmbient env texts ∧ IsCore d env.runtimeHome core ∧
      c.locations = firsts (inOrder d env texts core dependencies) ∧
      (c.locations.map (·.url)).Nodup ∧
      (∀ l ∈ core, ∃ k ∈ c.locations, k.url = l.url) ∧
      (∀ raw ∈ texts ++ dependencies.map (·.text), ∀ l, Location.parse d raw = .ok l →
        ∃ k ∈ c.locations, k.url = l.url) ∧
      (∀ i ∈ c.indexed, ∀ index, i.index = some index ↔
        i.location.isDirectory = false ∧ d.isFile i.location.path = true ∧
          index.path = i.location.path ∧ index.inside = "" ∧
          Archive.names d i.location.path = .ok index.entries) ∧
      ∀ (loaders : List (List String)) (dependencies' : List Path),
        Padded d env.loaders.flatten loaders.flatten →
        Padded d (dependencies.map (·.text)) (dependencies'.map (·.text)) →
        Context.build d { env with loaders } dependencies' = .ok c := by
  have hkept : ∀ l ∈ considered d env dependencies,
      ∃ k ∈ firsts (considered d env dependencies), k.url = l.url :=
    fun l hl => List.mem_map.mp (mem_urls_firsts.mpr (List.mem_map_of_mem hl))
  refine ⟨_, ambientTexts env, coreLibrary d env.runtimeHome, build_of_present h env dependencies,
    areAmbient_iff.mpr rfl, isCore_coreLibrary h env.runtimeHome, ?_⟩
  rw [locations_map_of]
  refine ⟨congrArg firsts (considered_eq d env dependencies), nodup_urls_firsts _,
    fun l hl => hkept l (mem_considered_iff.mpr (.inr hl)),
    fun raw hraw l hl => hkept l (mem_considered hraw hl), ?_, ?_⟩
  · intro i hi index
    obtain ⟨l, _, rfl⟩ := List.mem_map.mp hi
    exact index_of_eq_some
  · intro loaders dependencies' hloaders hdependencies
    rw [build_of_present h, considered_of_padded hloaders hdependencies]
    rfl

namespace Sample

/-- An empty disk. -/
def bare : Disk := ⟨[], .present [], 0⟩

/-- A host with two loaders, the first of which names an extension before anything else. -/
def host : Environment := ⟨[["/e/x.jar", "/a.jar"], ["/a.jar"]], [⟨"/e"⟩], none, false, none⟩

/-- A disk with a runtime that has a core library. -/
def equipped : Disk :=
  ⟨[(["j"], .directory), (["j", "lib"], .directory), (["j", "lib", "rt.jar"], .file .empty 1)], .present [], 0⟩

/-- The host with this runtime. -/
def installed : Environment := { host with runtimeHome := some ⟨"/j"⟩ }

/-- The runtime with a module system, and a class path with colons, commas, a blank and a repetition. -/
def modular : Environment := ⟨[["/l.jar"]], [⟨"/e"⟩], some ⟨"/j"⟩, true, some "/e/x.jar: ,/m.jar,/e/x.jar:"⟩

theorem isCore_equipped {core : List Location} (h : IsCore equipped (some ⟨"/j"⟩) core) :
    core = [.ofAbsolute equipped ⟨"/j/lib/rt.jar"⟩] := by
  have hfile : equipped.isFile ((Path.child ⟨"/j"⟩ "lib").child "rt.jar") = true := by decide
  have habsolute : equipped.absolute ((Path.child ⟨"/j"⟩ "lib").child "rt.jar") = .ok ⟨"/j/lib/rt.jar"⟩ := by
    decide
  rcases h with ⟨runtime, q, hhome, -, hq, rfl⟩ | ⟨hnone, -⟩
  · obtain rfl := Option.some.inj hhome
    rw [Except.ok.inj (hq.symm.trans habsolute)]
  · rw [hnone _ rfl] at hfile
    cases hfile

/-- The extension comes after the application, and what is named again is not kept again; blanks and
URLs of another scheme do not show. The core library comes before the dependencies, and with a module system
after what the class path of the host names, in that order. -/
theorem build_eq_host :
    (∃ c, Context.build bare host [⟨"/b.jar"⟩, ⟨"/a.jar"⟩] = .ok c ∧
      c.locations.map (·.path.text) = ["/a.jar", "/e/x.jar", "/b.jar"] ∧
      Context.build bare { host with loaders := [["/e/x.jar", " ", "/a.jar"], ["http:x", "/a.jar"]] }
        [⟨"/b.jar"⟩, ⟨"/a.jar"⟩, ⟨""⟩] = .ok c) ∧
    (∃ c, Context.build equipped installed [⟨"/b.jar"⟩, ⟨"/a.jar"⟩] = .ok c ∧
      c.locations.map (·.path.text) = ["/a.jar", "/e/x.jar", "/j/lib/rt.jar", "/b.jar"]) ∧
    ∃ c, Context.build equipped modular [⟨"/b.jar"⟩, ⟨"/m.jar"⟩] = .ok c ∧
      c.locations.map (·.path.text) = ["/e/x.jar", "/m.jar", "/j/lib/rt.jar", "/b.jar"] := by
  have hbare : bare.workingDirectory = .present [] := rfl
  have hequipped : equipped.workingDirectory = .present [] := rfl
  refine ⟨?_, ?_, ?_⟩
  · obtain ⟨c, _, _, hc, rfl, hcore, hlocations, -, -, -, -, hpadded⟩ :=
      build_eq hbare host [⟨"/b.jar"⟩, ⟨"/a.jar"⟩]
    obtain ⟨_, _, hhome, -⟩ | ⟨-, rfl⟩ := hcore
    · cases hhome
    have hblank : Location.parse bare " " = .error ⟨" ", .empty⟩ := by decide
    have hscheme : Location.parse bare "http:x" = .error ⟨"http:x", .otherScheme⟩ := by decide
    have hempty : Location.parse bare "" = .error ⟨"", .empty⟩ := by decide
    refine ⟨c, hc, ?_, hpadded _ _ ?_ ?_⟩
    · rw [hlocations]
      decide
    · exact .keep _ (.insert hblank (.keep _ (.insert hscheme (.keep _ .nil))))
    · exact .keep _ (.keep _ (.insert hempty .nil))
  · obtain ⟨c, _, _, hc, rfl, hcore, hlocations, -⟩ :=
      build_eq hequipped installed [⟨"/b.jar"⟩, ⟨"/a.jar"⟩]
    obtain rfl := isCore_equipped hcore
    refine ⟨c, hc, ?_⟩
    rw [hlocations]
    decide +kernel
  · obtain ⟨c, _, _, hc, hitems, hcore, hlocations, -⟩ :=
      build_eq hequipped modular [⟨"/b.jar"⟩, ⟨"/m.jar"⟩]
    obtain rfl := isCore_equipped hcore
    obtain rfl := areAmbient_iff.mp hitems
    refine ⟨c, hc, ?_⟩
    rw [hlocations]
    decide +kernel

end Sample

end FormWeaver.Classpath
