import FormWeaver.Proofs.Classpath.ArchiveIndex

/-!
# More dependencies

Dependencies are considered last, so with more of them behind the others a class path keeps what it has,
each location with its index (`extendsTo_build_append`), and the new locations follow. They are asked
last. So what was found is found again, unless it was a resource of the platform, which is asked even
later.
-/

namespace FormWeaver.Classpath

variable {d : Disk} {c c' : Context} {env : Environment} {dependencies : List Path} {name : String}
  {bytes : ByteArray}

/-! ## The order in which is asked -/

/-- The platform is asked for a class before the locations. -/
theorem Context.findClass?_eq (c : Context) (d : Disk) (name : String) :
    c.findClass? d name = (c.inPlatform? d (Text.replaceChar '.' '/' name ++ ".class")).or
      (c.inLocations? d (Text.replaceChar '.' '/' name ++ ".class")) := by
  unfold Context.findClass?
  dsimp only
  cases c.inPlatform? d (Text.replaceChar '.' '/' name ++ ".class") <;> rfl

/-- The platform is asked for a resource after the locations. -/
theorem Context.findResource?_of_platform (c : Context) (hplatform : c.platform = none) (d : Disk)
    (name : String) :
    c.findResource? d name =
      if (String.ofList (name.toList.dropWhile (· == '/'))).isEmpty then none
      else c.inLocations? d (String.ofList (name.toList.dropWhile (· == '/'))) := by
  have hnone : ∀ entry, c.inPlatform? d entry = none := by
    intro entry
    unfold Context.inPlatform?
    rw [hplatform]
  unfold Context.findResource?
  simp only [hnone]
  cases c.inLocations? d (String.ofList (name.toList.dropWhile (· == '/'))) <;> rfl

/-! ## Longer class paths -/

/-- Whether a class path comes from another by further locations behind its own. -/
structure Context.ExtendsTo (c c' : Context) : Prop where
  indexed : c.indexed <+: c'.indexed
  platform : c'.platform = c.platform

namespace Context.ExtendsTo

theorem locations (h : c.ExtendsTo c') : c.locations <+: c'.locations := h.indexed.map _

theorem inPlatform? (h : c.ExtendsTo c') (d : Disk) (name : String) :
    c'.inPlatform? d name = c.inPlatform? d name := by
  unfold Context.inPlatform?
  rw [h.platform]

/-- Further locations are asked when the others have been. -/
theorem inLocations? (h : c.ExtendsTo c') (hfound : c.inLocations? d name = some bytes) :
    c'.inLocations? d name = some bytes := by
  obtain ⟨added, hadded⟩ := h.indexed
  unfold Context.inLocations? at hfound ⊢
  rw [← hadded, List.findSome?_append, hfound, Option.some_or]

theorem findClass? (h : c.ExtendsTo c') (hfound : c.findClass? d name = some bytes) :
    c'.findClass? d name = some bytes := by
  rw [findClass?_eq, Option.or_eq_some_iff] at hfound
  rw [findClass?_eq, h.inPlatform?]
  rcases hfound with hplatform | ⟨hnone, hlocation⟩
  · rw [hplatform, Option.some_or]
  · rw [hnone, Option.none_or, h.inLocations? hlocation]

/-- Without a platform a resource comes from a location. -/
theorem findResource? (h : c.ExtendsTo c') (hplatform : c.platform = none)
    (hfound : c.findResource? d name = some bytes) : c'.findResource? d name = some bytes := by
  rw [c.findResource?_of_platform hplatform] at hfound
  rw [c'.findResource?_of_platform (h.platform.trans hplatform)]
  split at hfound
  · cases hfound
  · next hname => rw [if_neg hname, h.inLocations? hfound]

end Context.ExtendsTo

/-! ## Dependencies behind others -/

/-- Locations behind others do not take the place of any. -/
theorem firsts_prefix_append (ls ls' : List Location) : firsts ls <+: firsts (ls ++ ls') := by
  rw [firsts_eq_foldl_keep (ls ++ ls'), List.foldl_append, ← firsts_eq_foldl_keep, foldl_keep]
  exact List.prefix_append _ _

theorem considered_append (d : Disk) (env : Environment) (dependencies more : List Path) :
    considered d env (dependencies ++ more) =
      considered d env dependencies ++ parseAll d (more.map (·.text)) := by
  unfold considered
  rw [List.map_append, parseAll_append, ← List.append_assoc]

theorem extendsTo_build_append (h : Context.build d env dependencies = .ok c) (more : List Path) :
    ∃ c', Context.build d env (dependencies ++ more) = .ok c' ∧ c.ExtendsTo c' := by
  cases hw : d.workingDirectory with
  | removed at_ =>
    unfold Context.build at h
    rw [hw] at h
    cases h
  | present here =>
    rw [build_of_present hw] at h
    obtain rfl := Except.ok.inj h
    refine ⟨_, build_of_present hw env _, ?_, rfl⟩
    rw [considered_append]
    exact (firsts_prefix_append _ _).map _

/-- **More dependencies change nothing that is found.** With dependencies behind others a class path can be
assembled when it can be without. It has the same locations, and perhaps others behind them. Every class
that was found is found as it was, whatever the disk has become, and so is every resource, if there is no
platform. -/
theorem build_append (d : Disk) (env : Environment) (dependencies more : List Path) :
    (∀ e, Context.build d env dependencies = .error e →
        Context.build d env (dependencies ++ more) = .error e) ∧
      ∀ c, Context.build d env dependencies = .ok c →
        ∃ c', Context.build d env (dependencies ++ more) = .ok c' ∧
          c.locations <+: c'.locations ∧
          (∀ d' name bytes, c.findClass? d' name = some bytes → c'.findClass? d' name = some bytes) ∧
          (c.platform = none → ∀ d' name bytes, c.findResource? d' name = some bytes →
            c'.findResource? d' name = some bytes) := by
  constructor
  · intro e h
    unfold Context.build at h ⊢
    split at h
    · exact h
    · cases h
  · intro c h
    obtain ⟨c', hc', hextends⟩ := extendsTo_build_append h more
    refine ⟨c', hc', hextends.locations, ?_, ?_⟩
    · intro d' name bytes hfound
      exact hextends.findClass? hfound
    · intro hplatform d' name bytes hfound
      exact hextends.findResource? hplatform hfound

namespace Sample

/-- A disk with an archive that cannot be listed, one with a class, and a directory with another class of
the same name. -/
def stock : Disk :=
  ⟨[(["l.jar"], .file lockedArchive 1), (["c.jar"], .file (archive [⟨"a.class", 0⟩]) 1),
    (["d"], .directory), (["d", "a.class"], .file "other".toUTF8 1)], .present [], 2⟩

/-- The archive with the class as a location. -/
def classJar : Location := ⟨"file:///c.jar", ⟨"/c.jar"⟩, false⟩

/-- The directory as a location. -/
def classDirectory : Location := ⟨"file:///d/", ⟨"/d"⟩, true⟩

/-- An environment that contributes nothing. -/
def silent : Environment := ⟨[], [], none, false, none⟩

/-- The class path of both archives. -/
def stocked : Context := ⟨[lockedJar, classJar].map (IndexedLocation.of stock), none⟩

theorem build_stock : Context.build stock silent [⟨"/l.jar"⟩, ⟨"/c.jar"⟩] = .ok stocked := by
  have hpresent : stock.workingDirectory = .present [] := rfl
  have hlocations : firsts (considered stock silent [⟨"/l.jar"⟩, ⟨"/c.jar"⟩]) = [lockedJar, classJar] := rfl
  rw [build_of_present hpresent, hlocations]
  rfl

/-- The directory comes behind the archives, and what is found is the class in the archive. A dependency
that is named again does not count. Without a working directory there is no class path, however many
dependencies are named. -/
theorem build_append_stock :
    (∃ c', Context.build stock silent ([⟨"/l.jar"⟩, ⟨"/c.jar"⟩] ++ [⟨"/c.jar"⟩, ⟨"/d"⟩]) = .ok c' ∧
        c'.locations = [lockedJar, classJar, classDirectory] ∧
        c'.findClass? stock "a" = some .empty ∧ c'.findResource? stock "/a.class" = some .empty) ∧
      Context.build { stock with workingDirectory := .removed [] } silent ([⟨"/l.jar"⟩] ++ [⟨"/d"⟩]) =
        .error (.workingDirectory .notFound) := by
  obtain ⟨-, hpresent⟩ := build_append stock silent [⟨"/l.jar"⟩, ⟨"/c.jar"⟩] [⟨"/c.jar"⟩, ⟨"/d"⟩]
  obtain ⟨c', hc', -, hclass, hresource⟩ := hpresent stocked build_stock
  obtain ⟨hremoved, -⟩ :=
    build_append { stock with workingDirectory := .removed [] } silent [⟨"/l.jar"⟩] [⟨"/d"⟩]
  have hlocations : c'.locations = [lockedJar, classJar, classDirectory] := by
    have hfirsts : firsts (considered stock silent
        ([⟨"/l.jar"⟩, ⟨"/c.jar"⟩] ++ [⟨"/c.jar"⟩, ⟨"/d"⟩])) = [lockedJar, classJar, classDirectory] := rfl
    rw [build_of_present (rfl : stock.workingDirectory = .present []), hfirsts] at hc'
    rw [← Except.ok.inj hc', locations_map_of]
  have hfound : stocked.findClass? stock "a" = some .empty := by decide +kernel
  have hfound' : stocked.findResource? stock "/a.class" = some .empty := by decide +kernel
  exact ⟨⟨c', hc', hlocations, hclass _ _ _ hfound, hresource rfl _ _ _ hfound'⟩, hremoved _ rfl⟩

end Sample

end FormWeaver.Classpath
