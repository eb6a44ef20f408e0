import FormWeaver.Cache.Store
import FormWeaver.Form.Discovery
import FormWeaver.Instrumenter.Transform
import FormWeaver.Run.Report

/-!
# A run

A run discovers the descriptors of the source directory and processes them one after the other in path
order. A descriptor whose form binds an existing class is skipped while the cache finds the pair up to
date. Otherwise the cache forgets the pair, the class is instrumented, and when that reports no error
the descriptor is copied to the same relative path of the output directory and the cache remembers the
pair as it then is. The cache is written once, at the end, if any class was to be instrumented.
-/

namespace FormWeaver.Run

/-- What a run works on. -/
structure Options where
  source : Path
  /-- The directory of the compiled classes, to which descriptors are copied. -/
  output : Path
  build : Path
  dependencies : List Path
  scaling : Bool

/-! ## Publishing -/

/-- Where a descriptor is copied to. -/
def target (source output descriptor : Path) : Path :=
  output.join ((descriptor.relativeTo? source).getD descriptor)

/-- Whether two paths lead to the same existing place. -/
def samePlace (d : Disk) (a b : Path) : Bool :=
  match d.canonical? a, d.canonical? b with
  | some a, some b => a == b
  | _, _ => false

/-- Copies a descriptor, making the directories on the way to the copy. A file is not copied onto
itself. -/
def publish (d : Disk) (source output descriptor : Path) : Disk × Except DescriptorError Unit :=
  let copy := target source output descriptor
  if samePlace d descriptor copy then (d, .ok ())
  else
    let (d, made) : Disk × Except SystemError Unit := match copy.parent? with
      | none => (d, .ok ())
      | some directory => d.makeDirectories directory
    match made with
    | .error cause => (d, .error (.unpublished descriptor copy cause))
    | .ok () =>
      match d.copyFile descriptor copy with
      | .error cause => (d, .error (.unpublished descriptor copy cause))
      | .ok d => (d, .ok ())

/-! ## One descriptor -/

/-- What stays the same during a run. -/
structure Setup where
  instrumenter : Instrumenter
  source : Path
  output : Path
  scaling : Bool

/-- What changes during a run. -/
structure State where
  disk : Disk
  resolver : Nested.Resolver
  cache : Cache

/-- Instruments the class of a descriptor and publishes the descriptor. -/
def instrument (s : Setup) (st : State) (descriptor : Path) (form : Form) (classFile : Path) :
    State × Processed :=
  let cache := st.cache.erase descriptor classFile
  let t := s.instrumenter.transform st.disk st.resolver ⟨descriptor, form, classFile, s.scaling⟩
  if !t.finding.errors.isEmpty then
    (⟨t.disk, t.resolver, cache⟩, ⟨descriptor, .rejected t.finding, t.started⟩)
  else
    match publish t.disk s.source s.output descriptor with
    | (d, .error e) => (⟨d, t.resolver, cache⟩, ⟨descriptor, .unpublished t.finding e, t.started⟩)
    | (d, .ok ()) =>
      (⟨d, t.resolver, cache.put d descriptor classFile⟩, ⟨descriptor, .published t.finding, t.started⟩)

/-- Processes a descriptor. -/
def process (s : Setup) (st : State) (descriptor : Path) : State × Processed :=
  match Form.parseFile st.disk descriptor with
  | .error e => (st, ⟨descriptor, .unusable e, none⟩)
  | .ok form =>
    match form.binding with
    | none => (st, ⟨descriptor, .unbound, none⟩)
    | some className =>
      match Classes.fileOf? st.disk s.output className with
      | none => (st, ⟨descriptor, .unusable (.classMissing className), none⟩)
      | some classFile =>
        if st.cache.isUpToDate st.disk descriptor classFile then (st, ⟨descriptor, .upToDate, none⟩)
        else instrument s st descriptor form classFile

/-- Processes descriptors one after the other. -/
def processAll (s : Setup) (st : State) : List Path → State × List Processed
  | [] => (st, [])
  | descriptor :: rest =>
    let (st, p) := process s st descriptor
    let (st, ps) := processAll s st rest
    (st, p :: ps)

/-! ## The whole run -/

/-- What a run leaves. -/
structure Result where
  disk : Disk
  /-- The report, or what kept the run from starting. -/
  report : Except SetupError Report
  processed : List Processed

/-- The arguments of the processes that were started, in order. -/
def Result.started (r : Result) : List (List String) := r.processed.filterMap (·.started)

/-- Processes the descriptors and writes the cache if a class was to be instrumented. -/
def conclude (s : Setup) (st : State) (file : CacheFile) (descriptors : List Path) : Result :=
  let (st, all) := processAll s st descriptors
  if anyTransformed all then
    let (d, written) := file.write st.disk st.cache
    ⟨d, .ok (Report.of all written), all⟩
  else ⟨st.disk, .ok (Report.of all false), all⟩

/-- Runs between absolute source and output directories. -/
def runBetween (d : Disk) (i : Instrumenter) (env : Environment) (o : Options) (source output : Path) :
    Result :=
  if !d.isDirectory source then ⟨d, .ok (Report.idle .sourceMissing), []⟩
  else
    let descriptors := Form.discover d source
    if descriptors.isEmpty then ⟨d, .ok (Report.idle .noDescriptors), []⟩
    else match Classpath.Context.build d env o.dependencies with
      | .error e => ⟨d, .error e, []⟩
      | .ok context =>
        let file := CacheFile.ofBuildDirectory o.build
        let resolver := Nested.Resolver.new d descriptors context output
        conclude ⟨i, source, output, o.scaling⟩ ⟨d, resolver, file.read d⟩ file descriptors

end Run

/-- Runs. -/
def run (d : Disk) (i : Instrumenter) (env : Environment) (o : Run.Options) : Run.Result :=
  match d.absolute o.source with
  | .error cause => ⟨d, .error (.workingDirectory cause), []⟩
  | .ok source =>
    match d.absolute o.output with
    | .error cause => ⟨d, .error (.workingDirectory cause), []⟩
    | .ok output => Run.runBetween d i env o source output

end FormWeaver
