import FormWeaver.CommandLine.Settings
import FormWeaver.Proofs.Classpath.Identity
import FormWeaver.Proofs.Classpath.PercentEscapes
import FormWeaver.Proofs.Run.Single

/-!
# The class path as one argument

The instrumenter is passed the paths of all locations as one text, with colons between them. It can take
the text apart again when no path has a colon in it. A path list has none in its items, but a text that is
given as one entry may have, and so may the escapes of a URL, the home of the runtime and the working
directory. `splitOn_classpathValue` tells what the text comes apart into, and of which entries that is
something else than the paths.
-/

namespace FormWeaver

/-- Whether the absolute form of a path has a colon in it. -/
def Disk.PutsColon (d : Disk) (p : Path) : Prop :=
  ':' ∈ p.text.toList ∨ p.isAbsolute = false ∧
    ∃ here, d.workingDirectory = .present here ∧ ∃ name ∈ here, ':' ∈ name.toList

theorem Disk.colon_mem_absolute_iff {d : Disk} {p q : Path} (h : d.absolute p = .ok q) :
    ':' ∈ q.text.toList ↔ d.PutsColon p :=
  Disk.mem_absolute_iff (by decide) (by decide) h

/-! ## Entries -/

namespace Location

open Classpath (StandsFor percentDecode percentDecode_eq_some_iff splitList)

/-- The path that a text spells: for a file URL what the part behind its authority stands for, and for any
other text the text itself. -/
def Spells (text : List Char) (p : Path) : Prop :=
  (∃ part, IsFileUrl text part ∧ StandsFor part p.text) ∨
    (∀ part, ¬ IsFileUrl text part) ∧ p.text = String.ofList text

variable {d : Disk} {raw : String} {text part part' : List Char} {l : Location} {p q : Path}

theorem IsFileUrl.unique (h : IsFileUrl text part) (h' : IsFileUrl text part') : part = part' := by
  obtain ⟨scheme, rest, hcut, -, rfl⟩ := isFileUrl_iff.mp h
  obtain ⟨scheme', rest', hcut', -, rfl⟩ := isFileUrl_iff.mp h'
  rw [hcut, Option.some.injEq, Prod.mk.injEq] at hcut'
  rw [hcut'.2]

theorem spelledPath_of_not_isFileUrl (hurl : ∀ part, ¬ IsFileUrl text part)
    (h : spelledPath text = .ok p) : p = ⟨String.ofList text⟩ := by
  unfold spelledPath at h
  split at h
  · next scheme rest hcut =>
    split at h
    · split at h
      · next hfile =>
        exact absurd (isFileUrl_iff.mpr ⟨scheme, rest, hcut, hfile, rfl⟩) (hurl _)
      · cases h
    · exact (Except.ok.inj h).symm
  · exact (Except.ok.inj h).symm

/-- The path that a location is made of is the one that its text spells. -/
theorem spells_iff (h : spelledPath text = .ok p) : Spells text q ↔ q = p := by
  obtain ⟨spelled⟩ := q
  unfold Spells
  by_cases hurl : ∃ part, IsFileUrl text part
  · obtain ⟨part, hpart⟩ := hurl
    have hother : ¬ ∀ part, ¬ IsFileUrl text part := fun hall => hall part hpart
    have hdecode : percentDecode part = some p.text := by
      rw [spelledPath_of_isFileUrl hpart] at h
      split at h
      · next hdecoded => rw [hdecoded, ← Except.ok.inj h]
      · cases h
    constructor
    · rintro (⟨part', hpart', hstands⟩ | ⟨hnone, -⟩)
      · rw [← hpart.unique hpart', ← percentDecode_eq_some_iff, hdecode] at hstands
        exact congrArg Path.mk (Option.some.inj hstands).symm
      · exact absurd hnone hother
    · rintro rfl
      exact .inl ⟨part, hpart, percentDecode_eq_some_iff.mp hdecode⟩
  · have hnone : ∀ part, ¬ IsFileUrl text part := fun part hpart => hurl ⟨part, hpart⟩
    obtain rfl := spelledPath_of_not_isFileUrl hnone h
    simp [hnone]

/-- **The path of a location has a colon** exactly when the path that its text spells puts one there. -/
theorem colon_mem_path_iff (h : parse d raw = .ok l) :
    ':' ∈ l.path.text.toList ↔ ∃ p, Spells (Text.trim raw.toList) p ∧ d.PutsColon p := by
  obtain ⟨-, p, q, hp, hq, rfl⟩ := exists_of_parse h
  simp only [spells_iff hp, exists_eq_left]
  exact Disk.colon_mem_absolute_iff hq

/-- An item of a path list is no URL, and it spells no colon. -/
theorem colon_notMem_of_mem_splitList {items : String} (hraw : raw ∈ splitList items)
    (hp : Spells (Text.trim raw.toList) p) : ':' ∉ p.text.toList := by
  have hcolon : ':' ∉ Text.trim raw.toList := by
    intro hmem
    obtain ⟨piece, hpiece, rfl⟩ := List.mem_map.mp (List.mem_of_mem_filter hraw)
    rw [String.toList_ofList] at hmem
    exact Text.notMem_of_mem_splitOnP hpiece rfl (Text.mem_of_mem_trim (Text.mem_of_mem_trim hmem))
  rcases hp with ⟨part, ⟨scheme, rest, htext, -⟩, -⟩ | ⟨-, htext⟩
  · rw [htext] at hcolon
    exact absurd (List.mem_append_right scheme List.mem_cons_self) hcolon
  · rwa [htext, String.toList_ofList]

end Location

/-! ## Class paths -/

namespace Classpath

open Location (Spells)

variable {d : Disk} {env : Environment} {dependencies : List Path} {l k : Location}

/-- Locations of one URL both have a colon, or neither. -/
theorem IsLocated.colon_mem_iff (hl : IsLocated l) (hk : IsLocated k) (h : l.url = k.url) :
    ':' ∈ l.path.text.toList ↔ ':' ∈ k.path.text.toList := by
  have hslashed : ∀ p : Path, ':' ∈ (slashed p).text.toList ↔ ':' ∈ p.text.toList := by
    intro p
    unfold slashed Text.replaceChar
    rw [String.toList_ofList, List.mem_map]
    constructor
    · rintro ⟨c, hc, hcolon⟩
      split at hcolon
      · exact absurd hcolon (by decide)
      · rwa [← hcolon]
    · intro hc
      exact ⟨':', hc, rfl⟩
  have hcomponents := eq_of_beq (hl.same_path hk h).1
  rw [← hslashed l.path, ← hslashed k.path, ← Path.mem_components_iff (by decide) (by decide),
    hcomponents, Path.mem_components_iff (by decide) (by decide)]

/-- The paths that locations of a class path are made of: those that texts spell which name locations, and
that of the core library. -/
inductive IsEntry (d : Disk) (env : Environment) (dependencies : List Path) : Path → Prop
  | named {raw : String} {l : Location} {p : Path}
      (hraw : raw ∈ ambientTexts env ++ dependencies.map (·.text)) (hl : Location.parse d raw = .ok l)
      (hp : Spells (Text.trim raw.toList) p) : IsEntry d env dependencies p
  | core {home : Path} (hhome : env.runtimeHome = some home)
      (hfile : d.isFile ((home.child "lib").child "rt.jar") = true) :
      IsEntry d env dependencies ((home.child "lib").child "rt.jar")

/-- A location that is considered has a colon in its path when an entry puts one there. -/
theorem exists_colon_mem_considered_iff {here : Place} (hw : d.workingDirectory = .present here) :
    (∃ l ∈ considered d env dependencies, ':' ∈ l.path.text.toList) ↔
      ∃ p, IsEntry d env dependencies p ∧ d.PutsColon p := by
  constructor
  · rintro ⟨l, hl, hcolon⟩
    rcases mem_considered_iff.mp hl with ⟨raw, hraw, hparse⟩ | hcore
    · obtain ⟨p, hp, hputs⟩ := (Location.colon_mem_path_iff hparse).mp hcolon
      exact ⟨p, .named hraw hparse hp, hputs⟩
    · obtain ⟨home, q, hhome, hfile, hq, rfl⟩ := (mem_coreLibrary_iff hw).mp hcore
      exact ⟨_, .core hhome hfile, (Disk.colon_mem_absolute_iff hq).mp hcolon⟩
  · rintro ⟨p, hentry, hputs⟩
    cases hentry with
    | named hraw hparse hp =>
      exact ⟨_, mem_considered hraw hparse, (Location.colon_mem_path_iff hparse).mpr ⟨p, hp, hputs⟩⟩
    | @core home hhome hfile =>
      obtain ⟨q, hq⟩ := exists_absolute_child hw (by decide : Path.IsLegal "rt.jar") (home.child "lib")
      refine ⟨.ofAbsolute d q, mem_considered_iff.mpr (.inr ?_), ?_⟩
      · exact (mem_coreLibrary_iff hw).mpr ⟨home, q, hhome, hfile, hq, rfl⟩
      · exact (Disk.colon_mem_absolute_iff hq).mpr hputs

/-- **A class path has a location with a colon** exactly when an entry puts one there. -/
theorem exists_colon_mem_locations_iff {c : Context} (h : Context.build d env dependencies = .ok c) :
    (∃ l ∈ c.locations, ':' ∈ l.path.text.toList) ↔
      ∃ p, IsEntry d env dependencies p ∧ d.PutsColon p := by
  cases hw : d.workingDirectory with
  | removed parent =>
    unfold Context.build at h
    rw [hw] at h
    cases h
  | present here =>
    rw [build_of_present hw] at h
    obtain rfl := Except.ok.inj h
    rw [locations_map_of, ← exists_colon_mem_considered_iff hw]
    constructor
    · rintro ⟨l, hl, hcolon⟩
      exact ⟨l, (firsts_sublist _).subset hl, hcolon⟩
    · -- A location that is dropped has left one of its URL.
      rintro ⟨l, hl, hcolon⟩
      obtain ⟨k, hk, hurl⟩ := List.mem_map.mp (mem_urls_firsts.mpr (List.mem_map_of_mem hl))
      have hlocated := isLocated_of_mem_considered hw ((firsts_sublist _).subset hk)
      exact ⟨k, hk, (hlocated.colon_mem_iff (isLocated_of_mem_considered hw hl) hurl).mpr hcolon⟩

end Classpath

/-! ## The argument -/

namespace Instrumenter

open Classpath (Context IsEntry ambientTexts splitList)
open Location (Spells)
open Nested (Resolver)

variable {i : Instrumenter} {d : Disk} {r : Resolver} {q : Request} {args : List String}

/-- A process that is started is passed the class path as its fourth argument. -/
theorem exists_of_started (h : (i.transform d r q).started = some args) :
    ∃ rest, args = "-jar" :: i.jar.text :: "--classpath" :: classpathValue r.context :: rest := by
  rcases i.transform_cases d r q with ⟨e, r', heq⟩ | ⟨forms, r', hcontext, heq⟩
  · rw [heq] at h
    cases h
  · rw [heq] at h
    unfold concluded at h
    split at h
    · cases h
    · obtain rfl := Option.some.inj h
      rw [← hcontext]
      exact ⟨_, rfl⟩

/-- **The class path as one argument.** A process that is started is passed the class path behind the third
argument, `--classpath`. Between its colons the argument has the pieces of the paths of the locations, in
order. These pieces are the paths themselves exactly when no entry puts a colon into its location; and an
item of a path list spells none, so it is the other entries that may: those that are given one by one, the
core library, and the working directory of those that are relative. -/
theorem splitOn_classpathValue {env : Environment} {dependencies : List Path} {c : Context}
    (h : Context.build d env dependencies = .ok c) (hne : c.locations ≠ []) :
    (∀ (i : Instrumenter) (now : Disk) (r : Resolver) (q : Request) (args : List String), r.context = c →
      (i.transform now r q).started = some args →
        ∃ rest, args = "-jar" :: i.jar.text :: "--classpath" :: classpathValue c :: rest) ∧
      (classpathValue c).toList.splitOn ':' =
        c.locations.flatMap (fun l => l.path.text.toList.splitOn ':') ∧
      ((classpathValue c).toList.splitOn ':' = c.locations.map (·.path.text.toList) ↔
        ∀ p, IsEntry d env dependencies p → ¬ d.PutsColon p) ∧
      ∀ items raw p, raw ∈ splitList items → Spells (Text.trim raw.toList) p → ':' ∉ p.text.toList := by
  have hpaths : c.locations.map (·.path.text) ≠ [] := by simpa using hne
  refine ⟨?_, ?_, ?_, fun items raw p hraw hp => Location.colon_notMem_of_mem_splitList hraw hp⟩
  · rintro i now r q args rfl hstarted
    exact exists_of_started hstarted
  · unfold classpathValue
    rw [Text.splitOn_joinWith rfl hpaths, List.flatMap_map]
  · have hsep : ":".toList = [':'] := rfl
    have hiff := Text.splitOn_joinWith_eq_iff hsep hpaths
    rw [List.map_map] at hiff
    have hentries := not_congr (Classpath.exists_colon_mem_locations_iff h)
    simp only [not_exists, not_and] at hentries
    rw [← hentries]
    exact hiff.trans List.forall_mem_map

namespace Sample

open Classpath.Sample (bare nothing)

/-- What dependencies are read from: a line with an archive, and one with an archive that has a colon in
its name. -/
def listing : String := "/a.jar\n/b:c.jar\n"

/-- The class path that comes of it. -/
def context : Context :=
  ⟨[⟨⟨"file:///a.jar", ⟨"/a.jar"⟩, false⟩, none⟩, ⟨⟨"file:///b:c.jar", ⟨"/b:c.jar"⟩, false⟩, none⟩], none⟩

theorem build_listing :
    Context.build bare nothing ((CommandLine.Arguments.listedEntries listing).map Path.mk) = .ok context := by
  have hlisted : CommandLine.Arguments.listedEntries listing = ["/a.jar", "/b:c.jar"] := by decide
  rw [hlisted]
  rfl

/-- A form without references, and a class for it. -/
def request : Request := ⟨⟨"/z.form"⟩, ⟨some "C", [], .file ⟨"/z.form"⟩⟩, ⟨"/C.class"⟩, false⟩

def resolver : Resolver := ⟨[], context, ⟨"/o"⟩, []⟩

theorem started_listing :
    (Run.Sample.instrumenter.transform bare resolver request).started =
      some ["-jar", "instrumenter.jar", "--classpath", "/a.jar:/b:c.jar", "--form", "/z.form",
        "--class", "/C.class"] := by
  have hargs : Run.Sample.instrumenter.arguments resolver bare request [] = ["-jar", "instrumenter.jar",
      "--classpath", "/a.jar:/b:c.jar", "--form", "/z.form", "--class", "/C.class"] := by decide
  rw [transform_of_closure _ (Nested.closure_of_nil rfl), hargs]
  unfold concluded
  rw [Tool.launch_of_isSendable (by decide)]
  rfl

/-- Two locations of which one has a colon: the argument comes apart into three pieces. -/
theorem splitOn_classpathValue_listing :
    Context.build bare nothing ((CommandLine.Arguments.listedEntries listing).map Path.mk) = .ok context ∧
      context.locations ≠ [] ∧
      (∃ args rest, (Run.Sample.instrumenter.transform bare resolver request).started = some args ∧
        args = "-jar" :: "instrumenter.jar" :: "--classpath" :: classpathValue context :: rest) ∧
      (classpathValue context).toList.splitOn ':' =
        ["/a.jar".toList, "/b".toList, "c.jar".toList] ∧
      ∃ p, IsEntry bare nothing ((CommandLine.Arguments.listedEntries listing).map Path.mk) p ∧
        bare.PutsColon p := by
  have hne : context.locations ≠ [] := List.cons_ne_nil _ _
  obtain ⟨hargs, hpieces, hiff, -⟩ := splitOn_classpathValue build_listing hne
  have hsplit : (classpathValue context).toList.splitOn ':' =
      ["/a.jar".toList, "/b".toList, "c.jar".toList] := hpieces.trans (by decide)
  obtain ⟨rest, hrest⟩ := hargs _ _ _ _ _ rfl started_listing
  refine ⟨build_listing, hne, ⟨_, rest, started_listing, hrest⟩, hsplit, ?_⟩
  by_contra hnone
  have hpaths := hiff.mpr fun p hentry hputs => hnone ⟨p, hentry, hputs⟩
  rw [hsplit] at hpaths
  exact absurd hpaths (by decide)

/-- The argument does not always come apart into the paths of the locations. -/
theorem not_forall_splitOn_eq :
    ¬ ∀ (d : Disk) (env : Environment) (text : String) (c : Context),
      Context.build d env ((CommandLine.Arguments.listedEntries text).map Path.mk) = .ok c →
      c.locations ≠ [] →
      ∀ (i : Instrumenter) (now : Disk) (r : Resolver) (q : Request) (args : List String), r.context = c →
        (i.transform now r q).started = some args →
        ∃ value rest, args = "-jar" :: i.jar.text :: "--classpath" :: value :: rest ∧
          value.toList.splitOn ':' = c.locations.map (·.path.text.toList) := by
  intro hall
  obtain ⟨value, rest, hargs, hsplit⟩ := hall _ _ _ _ build_listing (List.cons_ne_nil _ _)
    Run.Sample.instrumenter bare resolver request _ rfl started_listing
  obtain rfl : "/a.jar:/b:c.jar" = value := by
    simp only [List.cons.injEq] at hargs
    exact hargs.2.2.2.1
  exact absurd hsplit (by decide)

end Sample

end Instrumenter

end FormWeaver
