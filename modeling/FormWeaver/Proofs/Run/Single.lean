import FormWeaver.Proofs.Form.Tags
import FormWeaver.Proofs.Run.Verdict

/-!
# Runs over a single form

A run that finds one form takes one step, and it ends with what that step leaves (`run_of_single`). A
form that refers to no other and is not up to date is published when its process succeeds and the copy
can be made (`Step.published_of_succeeded`). A small world of this kind stands at the end, in which a
form is published to the directory of its source or to one beneath it.
-/

namespace FormWeaver

/-- Whether arguments can be passed to a program: they hold no NUL character and are short enough. -/
def Invocation.isSendable (inv : Invocation) : Bool :=
  isPassable inv.program && inv.arguments.all isPassable && inv.fits

theorem Tool.launch_of_isSendable {tool : Tool} {d : Disk} {inv : Invocation}
    (h : inv.isSendable = true) : tool.launch d inv = tool d inv := by
  unfold Invocation.isSendable at h
  rw [Bool.and_eq_true] at h
  unfold Tool.launch
  rw [h.1, h.2]
  rfl

namespace Run

open Instrumenter (Succeeded)

variable {d : Disk} {i : Instrumenter} {env : Environment} {o : Options}

/-- A run that takes one step, and attempts something in it, writes the cache that the step leaves. -/
theorem run_of_single {x : Step} (hx : steps d i env o = [x]) (hatt : x.isAttempt = true) :
    ∃ written, o.cacheFile.write x.after.disk x.after.cache = ((run d i env o).disk, written) ∧
      (run d i env o).report = .ok (.of [x.processed] written) := by
  rcases run_cases d i env o with ⟨-, -, hnone, -⟩ |
      ⟨s, hstart, -, ⟨hno, -, -⟩ | ⟨-, written, hwrite, hreport⟩⟩
  · simp [hx] at hnone
  · have := hno x (by simp [hx])
    rw [hatt] at this
    cases this
  · have hlast : (trace s.setup s.state s.descriptors).getLast? = some x := by
      rw [← steps_of_start hstart, hx]
      rfl
    rw [finish_eq_of_trace hlast] at hwrite
    rw [hx] at hreport
    exact ⟨written, hwrite, hreport⟩

theorem failures_of_published {p : Processed} {written : Bool} (h : p.verdict.isPublished = true) :
    (Report.of [p] written).failures = [] := by
  unfold Report.of issues
  cases hv : p.verdict with
  | published => simp [hv, Verdict.failures]
  | _ => simp [hv, Verdict.isPublished] at h

/-- A step for a form that refers to no other publishes it when its process succeeds and the copy can
be made. -/
theorem Step.published_of_succeeded {x : Step} {form : Form} {classFile : Path} {d' : Disk}
    {completion : Completion} (ha : x.asked = .ok (some (form, classFile)))
    (hc : x.isCurrent classFile = false) (hnested : form.nested = [])
    (hlaunch : x.setup.instrumenter.tool.launch x.before.disk
      ⟨x.setup.instrumenter.program, x.setup.instrumenter.arguments x.before.resolver x.before.disk
        ⟨x.descriptor, form, classFile, x.setup.scaling⟩ []⟩ = (d', .ok completion))
    (hsucceeded : Succeeded completion)
    (hcopy : (publish d' x.setup.source x.setup.output x.descriptor).2 = .ok ()) :
    x.verdict.isPublished = true ∧
      x.after.disk = (publish d' x.setup.source x.setup.output x.descriptor).1 ∧
      x.after.cache = (x.before.cache.erase x.descriptor classFile).insert
        (.capture x.after.disk x.descriptor classFile) := by
  have hl : x.launch? form classFile = some (d', .ok completion) := by
    unfold launch? invocation?
    rw [Nested.closure_of_nil hnested, Option.map_some, hlaunch]
  obtain ⟨hdisk, herrors⟩ := x.outcome_eq form classFile
  have he := herrors.mpr ⟨d', completion, hl, hsucceeded⟩
  rw [hl] at hdisk
  have hpublication : x.publication form classFile =
      publish d' x.setup.source x.setup.output x.descriptor := by
    unfold publication
    rw [hdisk]
    rfl
  obtain ⟨-, -, -, ⟨hne, -⟩ | ⟨-, hafter, ⟨e, hfail, -⟩ | ⟨-, hv, hcache⟩⟩⟩ := attempt_cases ha hc
  · exact absurd he hne
  · rw [hpublication, hcopy] at hfail
    simp at hfail
  · exact ⟨by rw [hv]; rfl, by rw [hafter, hpublication], hcache⟩

/-! ## A small world -/

namespace Sample

/-- A form that is bound to a class and refers to no other form. -/
def text : String := "<form bind-to-class=\"C\"/>"

/-- The form in a directory, with its class in that directory and in one beneath it. -/
def nodes : List (Place × Node) :=
  [(["s"], .directory), (["s", "z.form"], .file text.toUTF8 5), (["s", "C.class"], .file .empty 6),
    (["s", "o"], .directory), (["s", "o", "C.class"], .file .empty 7)]

/-- Two build directories: in one a link stands where the text of the cache is first put, and in the
other one where the cache is kept. -/
def links : List (Place × Node) :=
  [(["k"], .directory), (["k", "gui-forms.cache.tmp"], .link "gui-forms.cache"),
    (["t"], .directory), (["t", "gui-forms.cache"], .link "/u"), (["u"], .directory)]

def plain : Disk := ⟨nodes, .present [], 10⟩

def linked : Disk := ⟨nodes ++ links, .present [], 10⟩

def instrumenter : Instrumenter :=
  ⟨fun d _ => (d, .ok ⟨.code 0, .empty, .empty⟩), "java", ⟨"instrumenter.jar"⟩⟩

/-- Surroundings that contribute nothing. -/
def environment : Environment := ⟨[], [], none, false, none⟩

/-- A run that copies to one directory and keeps its cache in another. -/
def options (output build : String) : Options := ⟨⟨"/s"⟩, ⟨output⟩, ⟨build⟩, [], false⟩

def form : Form := ⟨some "C", [], .file ⟨"/s/z.form"⟩⟩

theorem tags_text :
    Form.tags text.toList = [⟨"form".toList, [("bind-to-class".toList, "C".toList)]⟩] := by
  -- The tag is cut out of the text, then its one attribute out of the tag.
  have ho : Text.dropPast? ['<'] text.toList = some (text.toList.drop 1) := by decide
  have hc : Form.construct? (text.toList.drop 1) =
      some (some "form bind-to-class=\"C\"/".toList, []) := by decide
  have hattributes : Form.attributes " bind-to-class=\"C\"".toList =
      [("bind-to-class".toList, "C".toList)] := by
    have he : Text.cut? ['='] (Text.trimStart " bind-to-class=\"C\"".toList) =
        some ("bind-to-class".toList, "\"C\"".toList) := by decide
    have hq : Text.trimStart "\"C\"".toList = '"' :: "C\"".toList := by decide
    have hv : Text.cut? ['"'] "C\"".toList = some ("C".toList, []) := by decide
    have hname : Text.trim "bind-to-class".toList = "bind-to-class".toList := by decide
    rw [Form.attributes_of_quoted he hq rfl hv, hname, Form.attributes_of_none (by decide)]
  have htag : Form.Tag.ofContents "form bind-to-class=\"C\"/".toList =
      ⟨"form".toList, Form.attributes " bind-to-class=\"C\"".toList⟩ := by
    have hinner : Text.trim ("form bind-to-class=\"C\"/".toList.reverse.dropWhile (· == '/')).reverse =
        "form bind-to-class=\"C\"".toList := by decide
    have hname : ("form bind-to-class=\"C\"".toList.takeWhile fun c => !Text.isBlank c) =
        "form".toList := by decide
    have hrest : ("form bind-to-class=\"C\"".toList.dropWhile fun c => !Text.isBlank c) =
        " bind-to-class=\"C\"".toList := by decide
    simp only [Form.Tag.ofContents, hinner, hname, hrest]
  rw [Form.tags, Form.tagContents_of_construct ho hc, Form.tagContents_of_none (by decide)]
  simp only [Option.toList_some, List.append_nil, List.map_cons, List.map_nil, htag, hattributes]

theorem parseFile_eq {d : Disk} {p : Path} (h : d.contents p = .ok text.toUTF8) :
    Form.parseFile d p = .ok ⟨some "C", [], .file p⟩ := by
  have hread : Form.readDocument text = .ok (some "C", []) := by
    unfold Form.readDocument
    rw [tags_text]
    decide
  exact Form.parseFile_of_readDocument h hread

def descriptor : Path := ⟨"/s/z.form"⟩

def classFile (output : String) : Path := ⟨output ++ "/C.class"⟩

/-- The directories to which the form may be copied. -/
def outputs : List String := ["/s", "/s/o", "/o"]

/-- Whether a run over a disk finds the form alone, bound to the class in the output directory. -/
structure Finds (d : Disk) (output : String) : Prop where
  known : output ∈ outputs
  working : d.workingDirectory = .present []
  directory : d.isDirectory ⟨"/s"⟩ = true
  found : Form.discover d ⟨"/s"⟩ = [descriptor]
  contents : d.contents descriptor = .ok text.toUTF8
  classFile : Classes.fileOf? d ⟨output⟩ "C" = some (classFile output)

def step (d : Disk) (output build : String) : Step :=
  ⟨⟨instrumenter, ⟨"/s"⟩, ⟨output⟩, false⟩,
    ⟨d, .new d [descriptor] ⟨[], none⟩ ⟨output⟩, (options output build).cacheFile.read d⟩, descriptor⟩

theorem absolute_eq (d : Disk) {p : String} (h : p ∈ outputs) : d.absolute ⟨p⟩ = .ok ⟨p⟩ := by
  have hplain : ∀ p ∈ outputs, p.isEmpty = false ∧ (Path.mk p).isAbsolute = true ∧
      Path.anchoredAt ⟨"/"⟩ ⟨p⟩ = ⟨p⟩ := by decide
  obtain ⟨hempty, habsolute, hp⟩ := hplain p h
  unfold Disk.absolute
  simp only [hempty, habsolute, hp, Bool.false_eq_true, if_false, if_true]

theorem absolute_options (d : Disk) {output : String} (h : output ∈ outputs) (build : String) :
    d.absolute (options output build).source = .ok ⟨"/s"⟩ ∧
      d.absolute (options output build).output = .ok ⟨output⟩ :=
  ⟨absolute_eq d (by decide), absolute_eq d h⟩

theorem launch_eq (d : Disk) (files : List Path) {output : String} (h : output ∈ outputs) :
    instrumenter.tool.launch d ⟨instrumenter.program,
      instrumenter.arguments (.new d files ⟨[], none⟩ ⟨output⟩) d
        ⟨descriptor, form, classFile output, false⟩ []⟩ = (d, .ok ⟨.code 0, .empty, .empty⟩) := by
  have hfits : ∀ output ∈ outputs, Invocation.isSendable ⟨"java", ["-jar", "instrumenter.jar",
      "--classpath", "", "--form", "/s/z.form", "--class", output ++ "/C.class"]⟩ = true := by
    decide
  exact Tool.launch_of_isSendable (hfits output h)

/-- A process that prints nothing and ends with zero has succeeded. -/
theorem succeeded : Succeeded ⟨.code 0, .empty, .empty⟩ := by
  have hnone : Text.lines (Text.lenient .empty).toList = [] := by decide
  refine ⟨rfl, ?_⟩
  simp [hnone]

theorem Finds.asked {d : Disk} {output : String} (h : Finds d output) (build : String) :
    (step d output build).asked = .ok (some (form, Sample.classFile output)) := by
  have hform : Form.parseFile (step d output build).before.disk (step d output build).descriptor =
      .ok form := parseFile_eq h.contents
  have hclass : Classes.fileOf? (step d output build).before.disk (step d output build).setup.output
      "C" = some (Sample.classFile output) := h.classFile
  exact bound?_of_fileOf? hform rfl hclass

theorem isCurrent_step {d : Disk} {output build : String} {c : Path} {e : CacheEntry}
    (h : ((options output build).cacheFile.read d).find? descriptor c = some e) :
    (step d output build).isCurrent c = e.isCurrent d descriptor c :=
  Step.isCurrent_of_find? h

theorem Finds.steps_eq {d : Disk} {output : String} (h : Finds d output) (build : String) :
    steps d instrumenter environment (options output build) = [step d output build] := by
  obtain ⟨hs, ho⟩ := absolute_options d h.known build
  have hc : Classpath.Context.build d environment (options output build).dependencies =
      .ok ⟨[], none⟩ := by
    unfold Classpath.Context.build
    rw [h.working]
    rfl
  rw [Run.steps_eq_trace hs ho hc, Run.found, h.directory, h.found]
  rfl

/-- The form is published, when there is no cache and the copy can be made. -/
theorem Finds.published {d : Disk} {output build : String} (h : Finds d output)
    (hcache : d.isFile (options output build).cacheFile.path = false)
    (hcopy : (publish d ⟨"/s"⟩ ⟨output⟩ descriptor).2 = .ok ()) :
    (step d output build).verdict.isPublished = true ∧
      (step d output build).after.disk = (publish d ⟨"/s"⟩ ⟨output⟩ descriptor).1 ∧
      (step d output build).after.cache =
        ⟨[.capture (publish d ⟨"/s"⟩ ⟨output⟩ descriptor).1 descriptor (Sample.classFile output)]⟩ := by
  have hread : (options output build).cacheFile.read d = .empty := CacheFile.read_of_not_isFile hcache
  have hstale : (step d output build).isCurrent (Sample.classFile output) = false := by
    show Cache.isUpToDate ((options output build).cacheFile.read d) _ _ _ = false
    rw [hread]
    rfl
  obtain ⟨hpublished, hdisk, hafter⟩ := Step.published_of_succeeded (x := step d output build)
    (h.asked build) hstale rfl (launch_eq d _ h.known) succeeded hcopy
  refine ⟨hpublished, hdisk, ?_⟩
  rw [hafter, hdisk]
  show ((Cache.erase ((options output build).cacheFile.read d) _ _).insert _) = _
  rw [hread]
  rfl

/-- The run then ends by writing a cache with the form's entry. -/
theorem Finds.run_eq {d : Disk} {output build : String} (h : Finds d output)
    (hcache : d.isFile (options output build).cacheFile.path = false)
    (hcopy : (publish d ⟨"/s"⟩ ⟨output⟩ descriptor).2 = .ok ()) :
    ∃ written, (options output build).cacheFile.write (publish d ⟨"/s"⟩ ⟨output⟩ descriptor).1
        ⟨[.capture (publish d ⟨"/s"⟩ ⟨output⟩ descriptor).1 descriptor (Sample.classFile output)]⟩ =
          ((run d instrumenter environment (options output build)).disk, written) ∧
      (run d instrumenter environment (options output build)).report =
        .ok (.of [(step d output build).processed] written) := by
  obtain ⟨hpublished, hdisk, hafter⟩ := h.published hcache hcopy
  obtain ⟨written, hwrite, hreport⟩ := run_of_single (h.steps_eq build)
    (Step.isAttempt_of_isPublished hpublished)
  rw [hdisk, hafter] at hwrite
  exact ⟨written, hwrite, hreport⟩

theorem Finds.pairs_eq {d : Disk} {output : String} (h : Finds d output) (build : String) :
    pairs d (options output build) = [(descriptor, Sample.classFile output)] := by
  have hstep : (step d output build).classFile? = some (Sample.classFile output) :=
    Step.classFile?_of_asked (h.asked build)
  have hclass : boundClass? d ⟨output⟩ descriptor = some (Sample.classFile output) := hstep
  obtain ⟨hs, ho⟩ := absolute_options d h.known build
  unfold pairs Run.found
  simp [hs, ho, h.directory, h.found, hclass]

theorem Finds.latest?_eq {d : Disk} {output build : String} (h : Finds d output)
    (hpublished : (step d output build).verdict.isPublished = true) :
    latest? (steps d instrumenter environment (options output build)) descriptor
      (Sample.classFile output) = some (step d output build) := by
  have hfor : (step d output build).isAttemptFor descriptor (Sample.classFile output) = true :=
    Step.isAttemptFor_iff.mpr ⟨Step.isAttempt_of_isPublished hpublished, _,
      Step.classFile?_of_asked (h.asked build), Path.same_iff.mpr rfl, Path.same_iff.mpr rfl⟩
  rw [h.steps_eq]
  simp [latest?, hfor]

/-- What the first run leaves, when the form is published to the directory of its source. -/
def afterFirst (d : Disk) (build : String) : Disk :=
  ((options "/s" build).cacheFile.write d ⟨[.capture d descriptor (classFile "/s")]⟩).1

theorem finds {d : Disk} (hd : d ∈ [plain, linked]) {output : String} (ho : output ∈ ["/s", "/s/o"]) :
    Finds d output := by
  have hfacts : ∀ d ∈ [plain, linked], d.isDirectory ⟨"/s"⟩ = true ∧
      Form.discover d ⟨"/s"⟩ = [descriptor] ∧ ∀ output ∈ ["/s", "/s/o"],
        Classes.fileOf? d ⟨output⟩ "C" = some (classFile output) := by decide +kernel
  have hwalk : ∀ d ∈ [plain, linked], d.workingDirectory = .present [] ∧
      d.walk true descriptor = .ok (.node ["s", "z.form"] (.file text.toUTF8 5)) := by
    intro d hd
    simp only [List.mem_cons, List.not_mem_nil, or_false] at hd
    rcases hd with rfl | rfl <;> exact ⟨rfl, rfl⟩
  obtain ⟨hdirectory, hfound, hclass⟩ := hfacts d hd
  obtain ⟨hworking, hw⟩ := hwalk d hd
  have hknown : ∀ output ∈ ["/s", "/s/o"], output ∈ outputs := by decide
  exact ⟨hknown output ho, hworking, hdirectory, hfound, Disk.contents_of_walk hw, hclass output ho⟩

/-- A run over the world publishes the form to the directory of its source, which changes nothing, and
writes its cache. -/
theorem Finds.first_run {d : Disk} (hfinds : Finds d "/s") {build : String}
    (hsame : samePlace d descriptor (target ⟨"/s"⟩ ⟨"/s"⟩ descriptor) = true)
    (hcache : d.isFile (options "/s" build).cacheFile.path = false)
    (hdone : ((options "/s" build).cacheFile.write d
      ⟨[.capture d descriptor (Sample.classFile "/s")]⟩).2 = true) :
    (step d "/s" build).verdict.isPublished = true ∧ (step d "/s" build).after.disk = d ∧
      (run d instrumenter environment (options "/s" build)).disk = afterFirst d build ∧
      (run d instrumenter environment (options "/s" build)).report =
        .ok (.of [(step d "/s" build).processed] true) := by
  have hcopy := publish_of_samePlace hsame
  obtain ⟨hpublished, hdisk, -⟩ := hfinds.published hcache (by rw [hcopy])
  obtain ⟨written, hwrite, hreport⟩ := hfinds.run_eq hcache (by rw [hcopy])
  rw [hcopy] at hwrite hdisk
  have hw : written = true := by rw [← hdone, hwrite]
  subst hw
  exact ⟨hpublished, hdisk, by rw [afterFirst, hwrite], hreport⟩

theorem isProper_plain : plain.IsProper := ⟨by decide, by decide⟩

theorem isClear_plain (f : CacheFile) : f.IsClear plain :=
  CacheFile.isClear_of_no_links (by decide)

theorem isProper_linked : linked.IsProper := ⟨by decide, by decide⟩

theorem finds_plain : Finds plain "/s" := finds (by simp) (by simp)

theorem finds_linked : Finds linked "/s" := finds (by simp) (by simp)

/-- Whether a second run finds what the first one found, with the same times. -/
structure FindsAgain (d : Disk) (build : String) : Prop where
  finds : Finds (afterFirst d build) "/s"
  proper : (afterFirst d build).IsProper
  descriptorTime : (afterFirst d build).modificationTime descriptor = d.modificationTime descriptor
  classTime : (afterFirst d build).modificationTime (classFile "/s") =
    d.modificationTime (classFile "/s")

theorem findsAgain {d : Disk} {build : String} (h : (d, build) ∈ [(plain, "/b"), (linked, "/k")]) :
    FindsAgain d build := by
  have hfacts : ∀ x ∈ [(plain, "/b"), (linked, "/k")], ∀ d' ∈ [afterFirst x.1 x.2],
      (d'.workingDirectory = .present [] ∧ d'.isDirectory ⟨"/s"⟩ = true ∧
        Form.discover d' ⟨"/s"⟩ = [descriptor] ∧ d'.contents descriptor = .ok text.toUTF8 ∧
        Classes.fileOf? d' ⟨"/s"⟩ "C" = some (classFile "/s")) ∧
      ((d'.nodes.map (·.1)).Nodup ∧ ∀ place ∈ d'.nodes.map (·.1), ∀ name ∈ place, Path.IsLegal name) ∧
      d'.modificationTime descriptor = x.1.modificationTime descriptor ∧
      d'.modificationTime (classFile "/s") = x.1.modificationTime (classFile "/s") := by
    decide +kernel
  obtain ⟨⟨hworking, hdirectory, hfound, hcontents, hclass⟩, ⟨hdistinct, hlegal⟩, htimes⟩ :=
    hfacts _ h _ (List.mem_singleton_self _)
  exact ⟨⟨by decide, hworking, hdirectory, hfound, hcontents, hclass⟩, ⟨hdistinct, hlegal⟩, htimes.1,
    htimes.2⟩

theorem findsAgain_plain : FindsAgain plain "/b" := findsAgain (by simp)

theorem findsAgain_linked : FindsAgain linked "/k" := findsAgain (by simp)

theorem first_run_plain :
    (step plain "/s" "/b").verdict.isPublished = true ∧ (step plain "/s" "/b").after.disk = plain ∧
      (run plain instrumenter environment (options "/s" "/b")).disk = afterFirst plain "/b" ∧
      (run plain instrumenter environment (options "/s" "/b")).report =
        .ok (.of [(step plain "/s" "/b").processed] true) :=
  finds_plain.first_run (by decide) (by decide) (by decide +kernel)

theorem keepsClear (f : CacheFile) : KeepsClear instrumenter.tool f := fun _ _ h => h

end Sample

end Run
end FormWeaver
