import FormWeaver.Proofs.Disk.Canonical
import FormWeaver.Proofs.Disk.Changes
import FormWeaver.Proofs.Instrumenter.ClassFile
import FormWeaver.Proofs.Run.Ending

/-!
# What a step changes

On a disk without links a step changes the class file that its process is given, the copy of its
descriptor if that is published, and makes directories on the way to the copy if it is to be published
(`Step.keepsAt`). What it publishes to another place has its bytes there (`Step.copied`).
-/

namespace FormWeaver

variable {d : Disk} {q : Place}

/-! ## The process -/

theorem Tool.launch_disk (tool : Tool) (d : Disk) (inv : Invocation) :
    (tool.launch d inv).1 = d ∨ (tool.launch d inv).1 = (tool d inv).1 := by
  unfold launch
  split
  · exact .inl rfl
  split
  · exact .inr rfl
  · split <;> exact .inl rfl

namespace Run

/-! ## Publishing -/

/-- **Publishing** changes the place of the copy, and only if it succeeds, and free places on the way
there. -/
theorem keepsAt_publish {source output descriptor : Path} (hd : d.LinkFree)
    (hq : (publish d source output descriptor).2 = .ok () →
      d.place? (target source output descriptor) ≠ some q) :
    Disk.KeepsAt (d.OnWay (target source output descriptor)) d
      (publish d source output descriptor).1 q := by
  have hmade := Disk.keepsAt_prepare hd (target source output descriptor) q
  have hg := d.grows_prepare (target source output descriptor)
  rcases publish_cases d source output descriptor with ⟨-, h⟩ | ⟨e, h⟩ | ⟨bytes, d', -, hw, h⟩
  · rw [h]
    exact .refl _ d q
  · rw [h]
    exact hmade
  · rw [h] at hq ⊢
    apply hmade.trans
    left
    apply Disk.node?_writeFile hw
    apply Disk.spot?_ne (hd.grows hg)
    rw [Disk.place?_congr hg.workingDirectory]
    exact hq rfl

/-- A descriptor that is published to another place has its bytes there. -/
theorem copied_of_publish {source output descriptor : Path} (hd : d.LinkFree)
    (hne : d.place? descriptor ≠ d.place? (target source output descriptor))
    (h : (publish d source output descriptor).2 = .ok ()) :
    ∃ p r bytes time time', d.place? descriptor = some p ∧
      d.place? (target source output descriptor) = some r ∧ d.node? p = some (.file bytes time) ∧
      (publish d source output descriptor).1.node? r = some (.file bytes time') := by
  have hg := d.grows_prepare (target source output descriptor)
  rcases publish_cases d source output descriptor with ⟨hsame, -⟩ | ⟨e, hfail⟩ | ⟨bytes, d', hb, hw, hok⟩
  · -- The copy would be the descriptor itself.
    unfold samePlace at hsame
    split at hsame
    · next a b ha hb =>
      rw [Disk.place?_of_canonical? hd ha, Disk.place?_of_canonical? hd hb] at hne
      exact absurd (congrArg some (eq_of_beq hsame)) hne
    · cases hsame
  · rw [hfail] at h
    cases h
  · obtain ⟨p, time, hp, hfile⟩ := Disk.contents_place? (hd.grows hg) hb
    rw [if_neg (Disk.identity?_ne_of_contents (hd.grows hg) hb fun heq => hne <| by
      rwa [Disk.place?_congr hg.workingDirectory, Disk.place?_congr hg.workingDirectory] at heq)] at hw
    obtain ⟨r, hr, hne', rfl⟩ := Disk.writeFile_place? (hd.grows hg) hw
    rw [Disk.place?_congr hg.workingDirectory] at hp hr
    have hbefore := (Disk.keepsAt_prepare hd _ p).file hfile
    have hafter := Disk.node?_store (d.prepare (target source output descriptor)) r r bytes hne'
    rw [if_pos rfl] at hafter
    rw [hok]
    exact ⟨p, r, bytes, time, _, hp, hr, hbefore, hafter⟩

/-! ## One step -/

namespace Step

variable {x : Step}

/-- Where the descriptor of a step is copied to. -/
def copy (x : Step) : Path := target x.setup.source x.setup.output x.descriptor

theorem exists_fileOf?_of_asked {form : Form} {c : Path} (h : x.asked = .ok (some (form, c))) :
    ∃ className, Classes.fileOf? x.before.disk x.setup.output className = some c := by
  rw [asked_eq] at h
  split at h
  · cases h
  · split at h
    · cases h
    · next className _ =>
      split at h
      · cases h
      · next c' hfile =>
        obtain ⟨-, rfl⟩ := Prod.mk.inj (Option.some.inj (Except.ok.inj h))
        exact ⟨className, hfile⟩

theorem endsWith_of_classFile? {c : Path} (hc : x.classFile? = some c) (hq : d.place? c = some q) :
    Disk.EndsWith q ".class" := by
  obtain ⟨form, ha⟩ := asked_of_classFile? hc
  obtain ⟨className, hfile⟩ := exists_fileOf?_of_asked ha
  exact Classes.endsWith_of_fileOf? hfile hq

/-- The class file of a step is the one that its process is given. -/
theorem classFile?_of_call? {inv : Invocation} (h : x.call? = some inv) :
    ∃ c, x.classFile? = some c ∧ inv.classFile? = some c := by
  unfold call? at h
  split at h
  · next form c ha =>
    split at h
    · cases h
    · refine ⟨c, classFile?_of_asked ha, ?_⟩
      obtain ⟨className, hfile⟩ := exists_fileOf?_of_asked ha
      obtain ⟨text, htext⟩ := Classes.exists_text_of_fileOf? hfile
      unfold invocation? at h
      split at h
      · cases h
      · obtain rfl := Option.some.inj h
        exact Instrumenter.classFile?_arguments _ _ _ htext _
  · cases h

/-- What the process leaves of the disk is what it found, or what the tool made of that. -/
theorem launchedDisk_cases (x : Step) :
    x.launchedDisk = x.before.disk ∨
      ∃ inv, x.call? = some inv ∧
        x.launchedDisk = (x.setup.instrumenter.tool x.before.disk inv).1 := by
  unfold launchedDisk launched?
  cases hcall : x.call? with
  | none => exact .inl rfl
  | some inv =>
    rcases x.setup.instrumenter.tool.launch_disk x.before.disk inv with h | h
    · exact .inl h
    · exact .inr ⟨inv, rfl, h⟩

theorem launchedDisk_of_tool (h : ∀ d inv, (x.setup.instrumenter.tool d inv).1 = d) :
    x.launchedDisk = x.before.disk := by
  rcases x.launchedDisk_cases with hsame | ⟨inv, -, hmade⟩
  · exact hsame
  · rw [hmade, h]

section Frame

variable (htool : x.setup.instrumenter.tool.KeepsToClassFile)

include htool

theorem node?_launchedDisk
    (hclass : ∀ c, x.classFile? = some c → x.before.disk.identity? c ≠ some q) :
    x.launchedDisk.node? q = x.before.disk.node? q := by
  rcases x.launchedDisk_cases with h | ⟨inv, hcall, h⟩
  · rw [h]
  · rw [h]
    apply htool.elsewhere
    intro c hc
    obtain ⟨c', hc', hinv⟩ := classFile?_of_call? hcall
    rw [hc] at hinv
    obtain rfl := Option.some.inj hinv
    exact hclass c hc'

theorem linkFree_launchedDisk (hd : x.before.disk.LinkFree) : x.launchedDisk.LinkFree := by
  rcases x.launchedDisk_cases with h | ⟨inv, -, h⟩
  · rwa [h]
  · rw [h]
    intro q target hq
    exact hd q target (htool.link _ _ q target hq)

theorem workingDirectory_launchedDisk :
    x.launchedDisk.workingDirectory = x.before.disk.workingDirectory := by
  rcases x.launchedDisk_cases with h | ⟨inv, -, h⟩
  · rw [h]
  · rw [h]
    exact htool.workingDirectory _ _

/-- **What a step keeps**: all but the class file, the copy if it is published, and free places on the
way to the copy if it is to be published. -/
theorem keepsAt (hd : x.before.disk.LinkFree)
    (hclass : x.isAttempt = true → ∀ c, x.classFile? = some c → x.before.disk.identity? c ≠ some q)
    (hcopy : x.ending = .published → x.before.disk.place? x.copy ≠ some q) :
    Disk.KeepsAt (fun q => (x.ending = .publishFailed ∨ x.ending = .published) ∧
      x.before.disk.OnWay x.copy q) x.before.disk x.after.disk q := by
  cases hatt : x.isAttempt with
  | false =>
    rw [after_of_not_isAttempt hatt]
    exact .refl _ _ q
  | true =>
    have hkept := node?_launchedDisk htool (hclass hatt)
    rcases disk_after hatt with ⟨-, hafter⟩ | ⟨hreached, hok, hafter⟩
    · rw [hafter]
      exact .inl hkept
    · have hpublish := keepsAt_publish (q := q) (linkFree_launchedDisk htool hd) fun h => by
        rw [Disk.place?_congr (workingDirectory_launchedDisk htool)]
        exact hcopy (hok.mpr h)
      rw [hafter]
      refine (Disk.KeepsAt.trans (.inl hkept) hpublish).mono ?_
      rintro ⟨r, hr, hq⟩
      rw [Disk.place?_congr (workingDirectory_launchedDisk htool)] at hq
      exact ⟨hreached, r, hr, hq⟩

/-- A descriptor that is published to another place has its bytes there. -/
theorem copied (hd : x.before.disk.LinkFree) (hp : x.ending = .published)
    (hne : x.before.disk.place? x.descriptor ≠ x.before.disk.place? x.copy)
    (hclass : ∀ c, x.classFile? = some c →
      x.before.disk.identity? c ≠ x.before.disk.place? x.descriptor) :
    ∃ p r bytes time time', x.before.disk.place? x.descriptor = some p ∧
      x.before.disk.place? x.copy = some r ∧ x.before.disk.node? p = some (.file bytes time) ∧
      x.after.disk.node? r = some (.file bytes time') := by
  have hatt : x.isAttempt = true := by
    rw [x.counted.2.2.2, hp]
    rfl
  have hwork := workingDirectory_launchedDisk htool
  rcases disk_after hatt with ⟨hfailed, -⟩ | ⟨-, hok, hafter⟩
  · rw [hp] at hfailed
    cases hfailed
  · rw [← Disk.place?_congr hwork, ← Disk.place?_congr hwork] at hne
    obtain ⟨p, r, bytes, time, time', hplace, hr, hfile, hcopy⟩ :=
      copied_of_publish (linkFree_launchedDisk htool hd) hne (hok.mp hp)
    rw [Disk.place?_congr hwork] at hplace hr
    refine ⟨p, r, bytes, time, time', hplace, hr, ?_, by rw [hafter]; exact hcopy⟩
    rw [← node?_launchedDisk htool, hfile]
    intro c hc
    rw [← hplace]
    exact hclass c hc

end Frame

end Step

end Run
end FormWeaver
