import FormWeaver.Diagnostic
import FormWeaver.Form.Basic
import FormWeaver.Json.Printer

/-!
# What a run reports

Each discovered descriptor ends in one verdict. The report of a run is counted off the verdicts: how
many descriptors were found, had no binding, were up to date, were transformed and were published,
with the failures and warnings of all of them in order.
-/

namespace FormWeaver.Run

/-- How one descriptor fared. -/
inductive Verdict where
  /-- It cannot be read as a form, or its class file is missing. -/
  | unusable (error : DescriptorError)
  | unbound
  /-- Neither it nor its class file has changed. -/
  | upToDate
  /-- Its class could not be instrumented. -/
  | rejected (finding : Finding)
  /-- Its class was instrumented, but it could not be copied to the output directory. -/
  | unpublished (finding : Finding) (error : DescriptorError)
  /-- Its class was instrumented and it was copied to the output directory. -/
  | published (finding : Finding)

namespace Verdict

/-- Whether instrumenting the class was attempted. -/
def isTransformed : Verdict → Bool
  | .rejected _ | .unpublished _ _ | .published _ => true
  | _ => false

/-- Whether the descriptor is bound to no class. -/
def isUnbound : Verdict → Bool
  | .unbound => true
  | _ => false

/-- Whether the descriptor was skipped as up to date. -/
def isUpToDate : Verdict → Bool
  | .upToDate => true
  | _ => false

/-- Whether the descriptor was published. -/
def isPublished : Verdict → Bool
  | .published _ => true
  | _ => false

/-- The messages of what went wrong. -/
def failures : Verdict → List String
  | .unusable error => [error.message]
  | .rejected finding => finding.errors.map Diagnostic.display
  | .unpublished _ error => [error.message]
  | _ => []

/-- The messages of what the instrumenter warned of. -/
def warnings : Verdict → List String
  | .rejected finding | .unpublished finding _ | .published finding =>
    finding.warnings.map Diagnostic.display
  | _ => []

end Verdict

/-- A descriptor that has been processed. -/
structure Processed where
  descriptor : Path
  verdict : Verdict
  /-- The arguments of the process that was started for it, if one was. -/
  started : Option (List String)

/-- How a run ended. -/
inductive Outcome where
  | sourceMissing
  | noDescriptors
  | upToDate
  | instrumented
  deriving DecidableEq, Repr

/-- The word for an outcome. -/
def Outcome.word : Outcome → String
  | .sourceMissing => "source_missing"
  | .noDescriptors => "no_descriptors"
  | .upToDate => "up_to_date"
  | .instrumented => "instrumented"

/-- Something to say about a descriptor. -/
structure Issue where
  descriptor : Path
  message : String
  deriving DecidableEq

/-- What a run reports. -/
structure Report where
  outcome : Outcome
  discovered : Nat
  unbound : Nat
  upToDate : Nat
  transformed : Nat
  published : Nat
  failures : List Issue
  warnings : List Issue
  cacheWritten : Bool

/-- The issues that the processed descriptors have by a list of messages. -/
def issues (messages : Verdict → List String) (all : List Processed) : List Issue :=
  all.flatMap fun p => (messages p.verdict).map fun m => ⟨p.descriptor, m⟩

/-- Whether instrumenting a class was attempted. -/
def anyTransformed (all : List Processed) : Bool := all.any (·.verdict.isTransformed)

/-- The report of a run that processed these descriptors. -/
def Report.of (all : List Processed) (cacheWritten : Bool) : Report where
  outcome := if anyTransformed all then .instrumented else .upToDate
  discovered := all.length
  unbound := all.countP (·.verdict.isUnbound)
  upToDate := all.countP (·.verdict.isUpToDate)
  transformed := all.countP (·.verdict.isTransformed)
  published := all.countP (·.verdict.isPublished)
  failures := issues Verdict.failures all
  warnings := issues Verdict.warnings all
  cacheWritten := cacheWritten

/-- The report of a run that had nothing to process. -/
def Report.idle (outcome : Outcome) : Report := ⟨outcome, 0, 0, 0, 0, 0, [], [], false⟩

/-- Whether something went wrong. -/
def Report.hasErrors (r : Report) : Bool := !r.failures.isEmpty

/-- The issue as JSON. -/
def Issue.toJson (i : Issue) : Json :=
  .object [("descriptor", .string i.descriptor.text), ("message", .string i.message)]

/-- The report as JSON. -/
def Report.toJson (r : Report) : Json :=
  .object [
    ("outcome", .string r.outcome.word),
    ("discovered", .ofNat r.discovered),
    ("unbound", .ofNat r.unbound),
    ("up_to_date", .ofNat r.upToDate),
    ("transformed", .ofNat r.transformed),
    ("published", .ofNat r.published),
    ("failures", .array (r.failures.map Issue.toJson)),
    ("warnings", .array (r.warnings.map Issue.toJson)),
    ("cache_written", .bool r.cacheWritten)]

end FormWeaver.Run
