import FormWeaver.Instrumenter.Transform
import FormWeaver.Proofs.Nested.Search
import Mathlib.Data.List.Nodup

/-!
# What the instrumenter is told of references

The process is told of every form that the form to instrument refers to, directly or through others:
once of its file, if it came from one, and once of the class that it is bound to, if there is one. It is
not started when one of them does not resolve (`transform_eq`).

What it is told of a name is a list of at most two `Telling`s, each of which is written as a flag with a
value. The arguments hold these options and no others of the two flags (`nestedOptions_written`).
-/

namespace FormWeaver.Instrumenter

open Nested (Resolver RefersTo Search closure closure_ok_iff exists_ends)

variable {d : Disk} {r r' : Resolver}

/-! ## What is told of a name -/

/-- What the process is told of a form that is referred to by a name. -/
inductive Telling where
  /-- The file that the form comes from. -/
  | file (name : String) (path : Path)
  /-- The class that the form is bound to. -/
  | binding (name className : String)
  deriving DecidableEq

/-- The flag and the value by which the process is told. -/
def Telling.option : Telling → String × String
  | file name path => ("--nested-form", name ++ "=" ++ path.text)
  | binding name className => ("--nested-class", name ++ "=" ++ className)

/-- What there is to tell of a name. -/
def tellings (r : Resolver) (d : Disk) (name : String) : List Telling :=
  match r.lookup d name with
  | .ok form =>
    (match form.origin with
      | .file path => [.file name path]
      | .resource _ => []) ++
    (match r.bindingOf d form with
      | some className => [.binding name className]
      | none => [])
  | .error _ => []

/-- A file is told of a name when that is where its form comes from. -/
theorem file_mem_tellings {name other : String} {path : Path} :
    .file other path ∈ tellings r d name ↔
      other = name ∧ ∃ form, r.lookup d name = .ok form ∧ form.origin = .file path := by
  unfold tellings
  cases r.lookup d name with
  | error e => simp
  | ok form =>
    simp only [Except.ok.injEq, exists_eq_left']
    cases form.origin <;> cases r.bindingOf d form <;> simp [eq_comm]

/-- A class is told of a name when its form declares one, by the name under which that was compiled. -/
theorem binding_mem_tellings {name other className : String} :
    .binding other className ∈ tellings r d name ↔
      other = name ∧ ∃ form declared, r.lookup d name = .ok form ∧ form.binding = some declared ∧
        className = (Classes.resolve? d r.classRoot (Classes.internalName declared)).elim declared
          Classes.className := by
  unfold tellings
  cases r.lookup d name with
  | error e => simp
  | ok form =>
    have hbound : r.bindingOf d form = some className ↔ ∃ declared, form.binding = some declared ∧
        className = (Classes.resolve? d r.classRoot (Classes.internalName declared)).elim declared
          Classes.className := by
      unfold Resolver.bindingOf
      rw [Option.map_eq_some_iff]
      refine exists_congr fun declared => and_congr_right fun _ => ?_
      cases Classes.resolve? d r.classRoot (Classes.internalName declared) <;> exact eq_comm
    simp only [Except.ok.injEq, exists_and_left, exists_eq_left', ← hbound]
    cases form.origin <;> cases r.bindingOf d form <;> simp [eq_comm]

theorem file_mem_flatMap_tellings {names : List String} {name : String} {path : Path} :
    .file name path ∈ names.flatMap (tellings r d) ↔
      name ∈ names ∧ ∃ form, r.lookup d name = .ok form ∧ form.origin = .file path := by
  simp only [List.mem_flatMap, file_mem_tellings]
  constructor
  · rintro ⟨_, hname, rfl, h⟩
    exact ⟨hname, h⟩
  · rintro ⟨hname, h⟩
    exact ⟨name, hname, rfl, h⟩

theorem binding_mem_flatMap_tellings {names : List String} {name className : String} :
    .binding name className ∈ names.flatMap (tellings r d) ↔
      name ∈ names ∧ ∃ form declared, r.lookup d name = .ok form ∧ form.binding = some declared ∧
        className = (Classes.resolve? d r.classRoot (Classes.internalName declared)).elim declared
          Classes.className := by
  simp only [List.mem_flatMap, binding_mem_tellings]
  constructor
  · rintro ⟨_, hname, rfl, h⟩
    exact ⟨hname, h⟩
  · rintro ⟨hname, h⟩
    exact ⟨name, hname, rfl, h⟩

theorem nodup_tellings (r : Resolver) (d : Disk) (name : String) : (tellings r d name).Nodup := by
  unfold tellings
  cases r.lookup d name with
  | error e => exact List.nodup_nil
  | ok form =>
    dsimp only
    cases form.origin <;> cases r.bindingOf d form <;> simp

/-- Of different names different things are told. -/
theorem nodup_flatMap_tellings {names : List String} (h : names.Nodup) :
    (names.flatMap (tellings r d)).Nodup := by
  refine List.nodup_flatMap.mpr ⟨fun name _ => nodup_tellings r d name, h.imp ?_⟩
  intro name name' hne t ht ht'
  cases t with
  | file other path => exact hne ((file_mem_tellings.mp ht).1.symm.trans (file_mem_tellings.mp ht').1)
  | binding other className =>
    exact hne ((binding_mem_tellings.mp ht).1.symm.trans (binding_mem_tellings.mp ht').1)

/-! ## How it is told -/

/-- Options as arguments, each flag before its value. -/
def written (options : List (String × String)) : List String := options.flatMap fun o => [o.1, o.2]

/-- Whether a flag before a value tells of a reference. -/
def isNested (o : String × String) : Bool :=
  (o.1 == "--nested-form" || o.1 == "--nested-class") && o.2.toList.contains '='

/-- The options among some arguments that tell of references. -/
def nestedOptions (args : List String) : List (String × String) := (args.zip args.tail).filter isNested

theorem isNested_option (t : Telling) : isNested t.option = true := by
  cases t <;> simp [isNested, Telling.option]

/-- Behind an option there is a flag, if anything, so its value begins none. -/
theorem nestedOptions_cons {flag value : String} {rest : List String}
    (h : ∀ next ∈ rest.head?, '=' ∉ next.toList) :
    nestedOptions (flag :: value :: rest) = [(flag, value)].filter isNested ++ nestedOptions rest := by
  unfold nestedOptions
  cases rest with
  | nil => simp
  | cons next rest =>
    have hnext : ¬ isNested (value, next) = true := by simp [isNested, h next rfl]
    show ([(flag, value)] ++ (value, next) :: (next :: rest).zip rest).filter isNested = _
    rw [List.filter_append, List.filter_cons_of_neg hnext]
    rfl

/-- The options that tell of references are read back from the arguments. -/
theorem nestedOptions_written {options : List (String × String)} (h : ∀ o ∈ options, '=' ∉ o.1.toList)
    (scaling : Bool) :
    nestedOptions (written options ++ if scaling then ["--jb-scaling"] else []) =
      options.filter isNested := by
  induction options with
  | nil => cases scaling <;> rfl
  | cons o options ih =>
    have hbehind : ∀ next ∈ (written options ++ if scaling then ["--jb-scaling"] else []).head?,
        '=' ∉ next.toList := by
      cases options with
      | nil => cases scaling <;> simp [written]
      | cons o' options =>
        intro next hmem
        obtain rfl : o'.1 = next := Option.some.inj hmem
        exact h o' (by simp)
    show nestedOptions (o.1 :: o.2 :: (written options ++ _)) = _
    rw [nestedOptions_cons hbehind, ih fun o ho => h o (List.mem_cons_of_mem _ ho), ← List.filter_append]
    rfl

/-- The options that do not tell of references. -/
def ownOptions (i : Instrumenter) (c : Classpath.Context) (q : Request) : List (String × String) :=
  [("-jar", i.jar.text), ("--classpath", classpathValue c)] ++
  (match c.platform with
    | some platform => [("--platform", platform.runtimeHome.text)]
    | none => []) ++
  [("--form", q.descriptor.text), ("--class", q.classFile.text)]

theorem flag_mem_of_mem_ownOptions (i : Instrumenter) (c : Classpath.Context) (q : Request) :
    ∀ o ∈ i.ownOptions c q, o.1 ∈ ["-jar", "--classpath", "--platform", "--form", "--class"] := by
  unfold ownOptions
  cases c.platform <;> simp

theorem filter_isNested_ownOptions (i : Instrumenter) (c : Classpath.Context) (q : Request) :
    (i.ownOptions c q).filter isNested = [] := by
  have hother : ∀ flag ∈ ["-jar", "--classpath", "--platform", "--form", "--class"],
      (flag == "--nested-form" || flag == "--nested-class") = false := by decide
  rw [List.filter_eq_nil_iff]
  intro o ho
  rw [isNested, hother _ (i.flag_mem_of_mem_ownOptions c q o ho)]
  exact Bool.false_ne_true

/-- What the process is told of a name: the file of its form, if it came from one, and the class that the
form is bound to, if any. -/
def told (r : Resolver) (d : Disk) (name : String) : List String :=
  match r.lookup d name with
  | .ok form => nestedArguments r d name form
  | .error _ => []

/-- The process is told what there is to tell. -/
theorem told_eq (r : Resolver) (d : Disk) (name : String) :
    told r d name = written ((tellings r d name).map Telling.option) := by
  unfold told tellings
  cases r.lookup d name with
  | error e => rfl
  | ok form =>
    unfold nestedArguments
    dsimp only
    cases form.origin <;> cases r.bindingOf d form <;> rfl

theorem flatMap_nestedArguments {forms : List (String × Form)} (hroot : r'.classRoot = r.classRoot)
    (h : ∀ e ∈ forms, r.lookup d e.1 = .ok e.2) :
    forms.flatMap (fun e => nestedArguments r' d e.1 e.2) = (forms.map (·.1)).flatMap (told r d) := by
  rw [List.flatMap_map]
  refine List.flatMap_congr fun e he => ?_
  rw [told, h e he]
  simp only [nestedArguments, Resolver.bindingOf, hroot]

/-- The arguments are those for a form without references, those that tell of the references, and what
is said of scaling. -/
theorem arguments_eq (i : Instrumenter) (q : Request) {forms : List (String × Form)}
    (hcontext : r'.context = r.context) (hroot : r'.classRoot = r.classRoot)
    (h : ∀ e ∈ forms, r.lookup d e.1 = .ok e.2) :
    i.arguments r' d q forms = i.arguments r d { q with scaling := false } [] ++
      (forms.map (·.1)).flatMap (told r d) ++ if q.scaling then ["--jb-scaling"] else [] := by
  rw [← flatMap_nestedArguments hroot h]
  unfold arguments
  simp only [hcontext, List.flatMap_nil, List.append_nil, Bool.false_eq_true, if_false]

/-- The arguments for a form without references are options of their own. -/
theorem arguments_nil (i : Instrumenter) (r : Resolver) (d : Disk) (q : Request) :
    i.arguments r d { q with scaling := false } [] = written (i.ownOptions r.context q) := by
  unfold arguments ownOptions written
  cases r.context.platform <;> simp

theorem written_append (options options' : List (String × String)) :
    written (options ++ options') = written options ++ written options' :=
  List.flatMap_append

theorem flatMap_told (r : Resolver) (d : Disk) (names : List String) :
    names.flatMap (told r d) = written ((names.flatMap (tellings r d)).map Telling.option) := by
  unfold written
  rw [List.map_flatMap, List.flatMap_assoc]
  exact List.flatMap_congr fun name _ => told_eq r d name

/-- The arguments of the process, by what it is told. -/
def argumentsFor (i : Instrumenter) (c : Classpath.Context) (q : Request) (ts : List Telling) : List String :=
  written (i.ownOptions c q ++ ts.map Telling.option) ++ if q.scaling then ["--jb-scaling"] else []

theorem argumentsFor_eq (i : Instrumenter) (r : Resolver) (d : Disk) (q : Request) (names : List String) :
    i.arguments r d { q with scaling := false } [] ++ names.flatMap (told r d) ++
      (if q.scaling then ["--jb-scaling"] else []) =
      i.argumentsFor r.context q (names.flatMap (tellings r d)) := by
  unfold argumentsFor
  rw [arguments_nil, flatMap_told, written_append]

/-- **The arguments tell of references what they are to tell**, in the options behind the others. -/
theorem nestedOptions_argumentsFor (i : Instrumenter) (c : Classpath.Context) (q : Request)
    (ts : List Telling) : nestedOptions (i.argumentsFor c q ts) = ts.map Telling.option := by
  unfold argumentsFor
  rw [nestedOptions_written, List.filter_append, filter_isNested_ownOptions, List.nil_append,
    List.filter_eq_self]
  · intro o ho
    obtain ⟨t, -, rfl⟩ := List.mem_map.mp ho
    exact isNested_option t
  · intro o ho
    rcases List.mem_append.mp ho with h | h
    · have hno : ∀ flag ∈ ["-jar", "--classpath", "--platform", "--form", "--class"], '=' ∉ flag.toList := by
        decide
      exact hno _ (i.flag_mem_of_mem_ownOptions c q o h)
    · obtain ⟨t, -, rfl⟩ := List.mem_map.mp h
      cases t <;> simp [Telling.option]

/-- What comes of starting the process with some arguments. -/
def concluded (i : Instrumenter) (d : Disk) (r : Resolver) (args : List String) : Outcome :=
  match i.tool.launch d ⟨i.program, args⟩ with
  | (d, .error e) =>
    ⟨failed "Failed to execute java (ensure JRE/JDK is installed)" (some e.message), none, r, d⟩
  | (d, .ok completion) => ⟨findingOf completion, some args, r, d⟩

theorem transform_of_closure (i : Instrumenter) {q : Request} {forms : List (String × Form)}
    (h : closure d r q.form = (.ok forms, r')) :
    i.transform d r q = i.concluded d r' (i.arguments r' d q forms) := by
  unfold transform
  rw [h]
  rfl

theorem transform_of_closure_error (i : Instrumenter) {q : Request} {e : Nested.ResolveError}
    (h : closure d r q.form = (.error e, r')) :
    i.transform d r q = ⟨failed e.message none, none, r', d⟩ := by
  unfold transform
  rw [h]

/-- A form is given up at a reference that does not resolve, or a process is told of some forms, whatever
the resolver has come to remember. -/
theorem transform_cases (i : Instrumenter) (d : Disk) (r : Resolver) (q : Request) :
    (∃ (e : Nested.ResolveError) (r' : Resolver), i.transform d r q = ⟨failed e.message none, none, r', d⟩) ∨
      ∃ (forms : List (String × Form)) (r' : Resolver), r'.context = r.context ∧
        i.transform d r q = i.concluded d r' (i.arguments r' d q forms) := by
  obtain ⟨turns, calls, hends⟩ := exists_ends d r q.form
  have hcontext : (closure d r q.form).2.context = r.context := hends.resolver_eq.1
  cases hclosure : closure d r q.form with
  | mk answer r' =>
    rw [hclosure] at hcontext
    cases answer with
    | error e => exact .inl ⟨e, r', transform_of_closure_error i hclosure⟩
    | ok forms => exact .inr ⟨forms, r', hcontext, transform_of_closure i hclosure⟩

/-- **References are closed over.** Whatever refers to whatever, the search for the references of a form
ends, after no more turns than there are names to look at, and it resolves no name twice and none that is
not referred to. When all names resolve that are referred to, the process is told once of the file of each
form that comes from one, and once of the class of each form that declares one, by the name under which it
was compiled; it is told nothing else of references. When a name does not resolve, the outcome is one
error, whatever the process would do. -/
theorem transform_eq (i : Instrumenter) (d : Disk) (r : Resolver) (q : Request) :
    ∃ turns calls, Search.Ends d (.start r q.form) turns calls (closure d r q.form) ∧
      turns ≤ q.form.nested.length + (calls.map (r.degree d)).sum + 1 ∧
      calls.length ≤ (q.form.nested ++ r.mentions d).length ∧
      calls.Nodup ∧ (∀ c ∈ calls, RefersTo r d q.form c) ∧
      ((∀ name, RefersTo r d q.form name → ∃ f, r.lookup d name = .ok f) →
        (∀ name, RefersTo r d q.form name → name ∈ calls) ∧
        ∃ ts : List Telling, ts.Nodup ∧
          (∀ name path, .file name path ∈ ts ↔
            RefersTo r d q.form name ∧ ∃ f, r.lookup d name = .ok f ∧ f.origin = .file path) ∧
          (∀ name className, .binding name className ∈ ts ↔
            RefersTo r d q.form name ∧ ∃ f declared, r.lookup d name = .ok f ∧ f.binding = some declared ∧
              className = (Classes.resolve? d r.classRoot (Classes.internalName declared)).elim declared
                Classes.className) ∧
          ts = calls.flatMap (tellings r d) ∧
          nestedOptions (i.argumentsFor r.context q ts) = ts.map Telling.option ∧
          ∃ r', i.transform d r q = i.concluded d r' (i.argumentsFor r.context q ts)) ∧
      ((∃ name e, RefersTo r d q.form name ∧ r.lookup d name = .error e) →
        ∃ name e r', RefersTo r d q.form name ∧ r.lookup d name = .error e ∧
          ∀ tool : Tool, transform { i with tool } d r q = ⟨failed e.message none, none, r', d⟩) := by
  obtain ⟨turns, calls, h⟩ := exists_ends d r q.form
  refine ⟨turns, calls, h, ?_, h.length_calls_le, h.nodup.1, h.refersTo, ?_, ?_⟩
  · simpa [Search.start] using h.turns_le
  · intro hall
    obtain ⟨forms, hforms⟩ := (closure_ok_iff q.form).mpr hall
    obtain ⟨more, hmore, hnames, hlookup⟩ := h.exists_found hforms
    obtain rfl : forms = more := hmore
    have hmem : ∀ name, RefersTo r d q.form name ↔ name ∈ calls :=
      fun name => ⟨fun hname => h.mem_of_refersTo hforms hname, h.refersTo name⟩
    refine ⟨fun name hname => (hmem name).mp hname, calls.flatMap (tellings r d),
      nodup_flatMap_tellings h.nodup.1, fun name path => ?_, fun name className => ?_, rfl,
      nestedOptions_argumentsFor i r.context q _, (closure d r q.form).2, ?_⟩
    · rw [file_mem_flatMap_tellings, hmem]
    · rw [binding_mem_flatMap_tellings, hmem]
    · rw [i.transform_of_closure (Prod.ext hforms rfl),
        i.arguments_eq q h.resolver_eq.1 h.resolver_eq.2 hlookup, hnames, argumentsFor_eq]
      rfl
  · rintro ⟨name, e, hname, he⟩
    cases hanswer : (closure d r q.form).1 with
    | ok forms =>
      obtain ⟨f, hf⟩ := (closure_ok_iff q.form).mp ⟨forms, hanswer⟩ name hname
      rw [he] at hf
      cases hf
    | error e' =>
      obtain ⟨c, hc, hlookup⟩ := h.exists_error hanswer
      exact ⟨c, e', (closure d r q.form).2, h.refersTo c hc, hlookup,
        fun tool => transform_of_closure_error { i with tool } (Prod.ext hanswer rfl)⟩

namespace Sample

/-- Three forms: two that refer to each other, of which one is a resource, and one that refers to itself. -/
def circle : List (String × Form) :=
  [("a", ⟨none, ["b"], .file ⟨"/a"⟩⟩), ("b", ⟨some "B", ["a", "c"], .resource "b"⟩),
    ("c", ⟨some "C", ["c"], .file ⟨"/c"⟩⟩)]

def knowsCircle : Resolver := ⟨[], ⟨[], none⟩, ⟨"/o"⟩, circle⟩

/-- A form that refers to the first two of them. -/
def askCircle : Request := ⟨⟨"/z.form"⟩, ⟨some "Z", ["a", "b"], .file ⟨"/z.form"⟩⟩, ⟨"/Z.class"⟩, true⟩

/-- An instrumenter that has nothing to say, and an empty disk. -/
def silent : Instrumenter := ⟨fun d _ => (d, .ok ⟨.code 0, .empty, .empty⟩), "java", ⟨"i.jar"⟩⟩

def vacant : Disk := ⟨[], .present [], 0⟩

theorem refersTo_circle {name : String} :
    RefersTo knowsCircle vacant askCircle.form name ↔ name = "a" ∨ name = "b" ∨ name = "c" := by
  constructor
  · intro h
    induction h with
    | direct h =>
      rcases List.mem_pair.mp h with rfl | rfl
      · exact .inl rfl
      · exact .inr (.inl rfl)
    | through _ hf h ih =>
      rcases ih with rfl | rfl | rfl <;> obtain rfl := Except.ok.inj hf
      · exact .inr (.inl (List.mem_singleton.mp h))
      · exact (List.mem_pair.mp h).imp_right .inr
      · exact .inr (.inr (List.mem_singleton.mp h))
  · have hb : RefersTo knowsCircle vacant askCircle.form "b" := .direct (by decide)
    rintro (rfl | rfl | rfl)
    · exact .direct (by decide)
    · exact hb
    · exact .through hb rfl (by decide)

/-- Each of the three is met in two ways. The process is told of two files and two classes. -/
theorem transform_eq_circle :
    (∀ name, RefersTo knowsCircle vacant askCircle.form name →
      ∃ f, knowsCircle.lookup vacant name = .ok f) ∧
    ∃ args r', silent.transform vacant knowsCircle askCircle = silent.concluded vacant r' args ∧
      (nestedOptions args).Perm [("--nested-form", "a=/a"), ("--nested-class", "b=B"),
        ("--nested-form", "c=/c"), ("--nested-class", "c=C")] := by
  have hall : ∀ name, RefersTo knowsCircle vacant askCircle.form name →
      ∃ f, knowsCircle.lookup vacant name = .ok f := by
    intro name h
    rcases refersTo_circle.mp h with rfl | rfl | rfl <;> exact ⟨_, rfl⟩
  obtain ⟨-, calls, -, -, -, -, -, htold, -⟩ := transform_eq silent vacant knowsCircle askCircle
  obtain ⟨-, ts, hnodup, hfiles, hbindings, -, hoptions, r', htransform⟩ := htold hall
  refine ⟨hall, _, r', htransform, ?_⟩
  have hperm : ts.Perm [.file "a" ⟨"/a"⟩, .binding "b" "B", .file "c" ⟨"/c"⟩, .binding "c" "C"] := by
    refine (List.perm_ext_iff_of_nodup hnodup (by decide)).mpr fun t => ?_
    cases t with
    | file name path =>
      rw [hfiles, refersTo_circle]
      constructor
      · rintro ⟨rfl | rfl | rfl, f, hf, horigin⟩ <;> obtain rfl := Except.ok.inj hf <;> cases horigin <;> simp
      · intro h
        simp only [List.mem_cons, Telling.file.injEq, reduceCtorEq, List.not_mem_nil, or_false, false_or] at h
        rcases h with ⟨rfl, rfl⟩ | ⟨rfl, rfl⟩
        · exact ⟨.inl rfl, _, rfl, rfl⟩
        · exact ⟨.inr (.inr rfl), _, rfl, rfl⟩
    | binding name className =>
      rw [hbindings, refersTo_circle]
      constructor
      · rintro ⟨rfl | rfl | rfl, f, declared, hf, hdeclared, rfl⟩ <;> obtain rfl := Except.ok.inj hf <;>
          cases hdeclared <;> decide
      · intro h
        simp only [List.mem_cons, Telling.binding.injEq, reduceCtorEq, List.not_mem_nil, or_false,
          false_or] at h
        rcases h with ⟨rfl, rfl⟩ | ⟨rfl, rfl⟩
        · exact ⟨.inr (.inl rfl), _, _, rfl, rfl, by decide⟩
        · exact ⟨.inr (.inr rfl), _, _, rfl, rfl, by decide⟩
  rw [hoptions]
  exact hperm.map Telling.option

end Sample

end FormWeaver.Instrumenter
