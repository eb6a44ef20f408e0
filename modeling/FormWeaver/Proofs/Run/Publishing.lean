import FormWeaver.Proofs.Run.Single

/-!
# When a descriptor is published

A descriptor whose class is to be instrumented is published exactly when nothing goes wrong: all forms
that it refers to are found, the process starts, ends well and reports no error, and the copy succeeds
(`published_iff`). Whatever else happens is told as a failure of the descriptor, and unless it is the
copy that fails, the program itself writes nothing.
-/

namespace FormWeaver.Run

open Instrumenter (Succeeded)

variable {d : Disk} {i : Instrumenter} {env : Environment} {o : Options}

/-- Whether a descriptor can be published: it is its own copy, or the directories on the way to the
copy can be made and the copy can be written. -/
def CanPublish (d : Disk) (source output descriptor : Path) : Prop :=
  samePlace d descriptor (target source output descriptor) = true ∨
    ∃ d', (match (target source output descriptor).parent? with
        | none => d' = d
        | some directory => d.makeDirectories directory = (d', .ok ())) ∧
      ∃ d'', d'.copyFile descriptor (target source output descriptor) = .ok d''

theorem publish_ok_iff (d : Disk) (source output descriptor : Path) :
    (publish d source output descriptor).2 = .ok () ↔ CanPublish d source output descriptor := by
  unfold publish CanPublish
  generalize target source output descriptor = copy
  simp only
  cases samePlace d descriptor copy with
  | true => simp
  | false =>
    cases copy.parent? with
    | none => cases hcopy : d.copyFile descriptor copy <;> simp [hcopy]
    | some directory =>
      cases hmade : d.makeDirectories directory with
      | mk d' made =>
        cases made with
        | error cause => simp [hmade]
        | ok u => cases hcopy : d'.copyFile descriptor copy <;> simp [hmade, hcopy]

/-- **When a descriptor is published.** A step of a run that attempts to instrument the class of its
descriptor publishes the descriptor exactly when all forms that are referred to are found, the process
starts, ends well and reports no error, and the descriptor can be published then. The report counts what
was published and has a failure of every other attempted descriptor. When it is not for the copy, the
disk is left as the process left it, or as it was when no process was started. -/
theorem published_iff {x : Step} (hx : x ∈ steps d i env o) (hatt : x.isAttempt = true) :
    ∃ report form classFile,
      (run d i env o).report = .ok report ∧ x.asked = .ok (some (form, classFile)) ∧
      (∃ source output, d.absolute o.source = .ok source ∧ d.absolute o.output = .ok output ∧
        x.setup = ⟨i, source, output, o.scaling⟩) ∧
      report.published = (steps d i env o).countP (·.verdict.isPublished) ∧
      (x.verdict.isPublished = true ↔
        x.Resolves form ∧
          ∃ d' completion, x.launch? form classFile = some (d', .ok completion) ∧
            completion.status = .code 0 ∧
            (∀ line ∈ Text.lines (Text.lenient completion.stdout).toList,
              ¬ "ERROR:".toList <+: Text.trim line) ∧
            CanPublish d' x.setup.source x.setup.output x.descriptor) ∧
      (x.verdict.isPublished = false →
        ∃ issue ∈ report.failures, issue.descriptor = x.descriptor) ∧
      ((¬ ∃ d' completion, x.launch? form classFile = some (d', .ok completion) ∧
          Succeeded completion) →
        x.after.disk = ((x.launch? form classFile).map (·.1)).getD x.before.disk) := by
  obtain ⟨form, c, ha, hc⟩ := Step.isAttempt_iff.mp hatt
  obtain ⟨written, hreport⟩ := report_of_mem_steps hx
  obtain ⟨hdisk, herrors⟩ := x.outcome_eq form c
  obtain ⟨hdescriptor, -, -, hcases⟩ := Step.attempt_cases ha hc
  refine ⟨_, form, c, hreport, ha, setup_of_mem_steps hx, (report_counts hreport).2.2, ?_, ?_, ?_⟩
  · constructor
    · intro hp
      rcases hcases with ⟨-, hv, -⟩ | ⟨he, -, ⟨e, -, hv, -⟩ | ⟨hok, -, -⟩⟩
      · simp [hv, Verdict.isPublished] at hp
      · simp [hv, Verdict.isPublished] at hp
      · obtain ⟨d', completion, hl, hstatus, hlines⟩ := herrors.mp he
        have hd' : (x.outcome form c).disk = d' := by rw [hdisk, hl]; rfl
        refine ⟨?_, d', completion, hl, hstatus, hlines, ?_⟩
        · -- A process was started, so nothing was left unresolved.
          by_contra hres
          rw [← x.invocation?_eq_none_iff form c] at hres
          simp [Step.launch?, hres] at hl
        · rw [← hd']
          exact (publish_ok_iff _ _ _ _).mp hok
    · -- That a process was started says already that everything was found.
      rintro ⟨-, d', completion, hl, hstatus, hlines, hcopy⟩
      have he := herrors.mpr ⟨d', completion, hl, hstatus, hlines⟩
      have hd' : (x.outcome form c).disk = d' := by rw [hdisk, hl]; rfl
      have hok : (x.publication form c).2 = .ok () := by
        unfold Step.publication
        rw [hd']
        exact (publish_ok_iff _ _ _ _).mpr hcopy
      rcases hcases with ⟨hne, -⟩ | ⟨-, -, ⟨e, hfail, -⟩ | ⟨-, hv, -⟩⟩
      · exact absurd he hne
      · rw [hok] at hfail
        simp at hfail
      · rw [hv]
        rfl
  · intro hp
    obtain ⟨message, hm⟩ := List.exists_mem_of_ne_nil _ (Step.failures_ne_nil hatt hp)
    exact ⟨_, mem_failures written (List.mem_map_of_mem hx) hm, hdescriptor⟩
  · intro hno
    rcases hcases with ⟨-, -, hafter, -⟩ | ⟨he, -⟩
    · rw [hafter, hdisk]
    · exact absurd (herrors.mp he) hno

open Sample in
/-- In the small world the form is published. -/
theorem published_iff_small :
    ∃ report form classFile,
      (run plain instrumenter environment (options "/s" "/b")).report = .ok report ∧
      (step plain "/s" "/b").asked = .ok (some (form, classFile)) ∧
      report.published = (steps plain instrumenter environment (options "/s" "/b")).countP
        (·.verdict.isPublished) ∧
      ((step plain "/s" "/b").verdict.isPublished = true ↔
        (step plain "/s" "/b").Resolves form ∧
          ∃ d' completion, (step plain "/s" "/b").launch? form classFile = some (d', .ok completion) ∧
            completion.status = .code 0 ∧
            (∀ line ∈ Text.lines (Text.lenient completion.stdout).toList,
              ¬ "ERROR:".toList <+: Text.trim line) ∧
            CanPublish d' ⟨"/s"⟩ ⟨"/s"⟩ descriptor) := by
  obtain ⟨hpublished, -⟩ := first_run_plain
  have hx : step plain "/s" "/b" ∈ steps plain instrumenter environment (options "/s" "/b") := by
    rw [finds_plain.steps_eq]
    exact List.mem_cons_self
  obtain ⟨report, form, classFile, hreport, ha, -, hcount, hiff, -⟩ :=
    published_iff hx (Step.isAttempt_of_isPublished hpublished)
  exact ⟨report, form, classFile, hreport, ha, hcount, hiff⟩

end FormWeaver.Run
