import FormWeaver.Diagnostic
import FormWeaver.Proofs.Text.Cut
import FormWeaver.Proofs.Text.Lines

/-!
# What the instrumenter says is heard

A transcript is an output of the instrumenter together with what is meant by it: lines that tell a
diagnostic, as far in as they may be, and other lines in between, each with a line end of either kind.
What such an output is read as (`Finding.ofOutput`) are the diagnostics that were told, none lost and
none made up, errors and warnings each in their order (`Transcript.ofOutput_text`).
-/

namespace FormWeaver

namespace Diagnostic

/-! ## Lines -/

/-- Whether a text has no blanks around it and no line break in it. -/
def IsOneLine (text : String) : Prop := Text.trim text.toList = text.toList ∧ '\n' ∉ text.toList

instance (text : String) : Decidable (IsOneLine text) := inferInstanceAs (Decidable (_ ∧ _))

/-- Whether a diagnostic can be told in one line: no bar stands in its message, and its cause, if it has
one, is not empty. -/
structure IsTellable (d : Diagnostic) : Prop where
  message : IsOneLine d.message
  noBar : '|' ∉ d.message.toList
  cause : ∀ cause ∈ d.cause, IsOneLine cause ∧ cause ≠ ""

/-- A diagnostic as it stands behind its heading. -/
def told (d : Diagnostic) : List Char :=
  match d.cause with
  | none => d.message.toList
  | some cause => d.message.toList ++ " | ".toList ++ cause.toList

/-- What stands in front of a diagnostic. -/
def Severity.heading : Severity → List Char
  | .error => "ERROR: ".toList
  | .warning => "WARNING: ".toList

/-- A line of an output, with what is meant by it. -/
inductive Line where
  | telling (indent : List Char) (severity : Severity) (d : Diagnostic)
      (isIndent : ∀ c ∈ indent, Text.isBlank c = true ∧ c ≠ '\n') (isTellable : d.IsTellable)
  /-- A line that tells nothing, since it begins with neither label. -/
  | other (chars : List Char) (isLine : '\n' ∉ chars) (noError : ¬ "ERROR:".toList <+: Text.trim chars)
      (noWarning : ¬ "WARNING:".toList <+: Text.trim chars)

/-- How a line ends. -/
inductive LineEnd where
  | feed
  | returnAndFeed
  deriving DecidableEq

def LineEnd.chars : LineEnd → List Char
  | feed => ['\n']
  | returnAndFeed => ['\r', '\n']

namespace Line

def chars : Line → List Char
  | telling indent severity d _ _ => indent ++ severity.heading ++ d.told
  | other chars _ _ _ => chars

/-- What a line tells. -/
def meant? : Line → Option (Severity × Diagnostic)
  | telling _ severity d _ _ => some (severity, d)
  | other .. => none

/-- The diagnostic of this severity that a line tells. -/
def meantAs? (severity : Severity) (l : Line) : Option Diagnostic :=
  l.meant?.bind fun (s, d) => if s = severity then some d else none

end Line

/-! ## Reading one line -/

variable {d : Diagnostic} {severity : Severity}

/-- A label begins and ends with no blank. -/
theorem Severity.label_shape (s : Severity) :
    (∃ c cs, s.label = c :: cs ∧ Text.isBlank c = false) ∧ ∃ cs, s.label = cs ++ [':'] := by
  cases s
  · exact ⟨⟨'E', "RROR:".toList, rfl, by decide⟩, "ERROR".toList, rfl⟩
  · exact ⟨⟨'W', "ARNING:".toList, rfl, by decide⟩, "WARNING".toList, rfl⟩

/-- Behind its indentation a label stays when the line is trimmed. -/
theorem trim_label {indent : List Char} (h : ∀ c ∈ indent, Text.isBlank c = true) (severity : Severity)
    (body : List Char) :
    Text.trim (indent ++ severity.label ++ body) = severity.label ++ Text.trimEnd body := by
  obtain ⟨⟨first, others, hfirst, hblank⟩, front, hfront⟩ := severity.label_shape
  have hstart : Text.trimStart (indent ++ severity.label ++ body) = severity.label ++ body := by
    rw [List.append_assoc, Text.trimStart_append_of_all h, hfirst]
    apply Text.trimStart_eq_self
    rintro c ⟨⟩
    exact hblank
  have hcolon : Text.isBlank ':' = false := by decide
  unfold Text.trim
  rw [hstart, hfront, List.append_assoc, List.append_assoc]
  exact Text.trimEnd_append_cons hcolon front body

/-- A line that begins with a label tells what is behind it. -/
theorem ofLine?_of_label {indent : List Char} (h : ∀ c ∈ indent, Text.isBlank c = true)
    (severity : Severity) (body : List Char) :
    ofLine? (indent ++ severity.label ++ body) = some (severity, ofBody (Text.trimEnd body)) := by
  have hlabel : severity.label <+: severity.label ++ Text.trimEnd body := List.prefix_append _ _
  unfold ofLine?
  rw [trim_label h]
  cases severity with
  | error =>
    rw [if_pos (List.isPrefixOf_iff_prefix.mpr hlabel), List.drop_left]
  | warning =>
    have hother : ¬ Severity.error.label <+: Severity.warning.label ++ Text.trimEnd body :=
      fun hp => absurd (List.cons_prefix_cons.mp hp).1 (by decide)
    rw [if_neg (mt List.isPrefixOf_iff_prefix.mp hother), if_pos (List.isPrefixOf_iff_prefix.mpr hlabel),
      List.drop_left]

/-- The separator does not stand in a text without bars, nor does it begin in one. -/
theorem not_infix_separator {cs : List Char} (h : '|' ∉ cs) :
    ¬ separator <:+: cs ++ separator.dropLast := by
  have hseparator : separator = [' ', '|'] ++ [' '] := by simp [separator]
  have hinside : ¬ [' ', '|'] ++ [' '] <:+: cs ++ [' '] := by
    intro hin
    have hbar : '|' ∈ cs ++ [' '] := hin.mem (by decide)
    simp [h] at hbar
  have hbehind := Text.not_infix_append (by decide : ' ' ∉ ['|']) hinside
  rw [List.append_assoc] at hbehind
  rw [hseparator]
  exact hbehind

/-- The diagnostic behind a label is the one that was told there. -/
theorem ofBody_told (h : d.IsTellable) : ofBody (Text.trimEnd (' ' :: d.told)) = d := by
  obtain ⟨message, cause⟩ := d
  have hmessage : Text.trim (' ' :: message.toList) = message.toList := by
    have hspace : ∀ c ∈ [' '], Text.isBlank c = true := List.forall_mem_singleton.mpr (by decide)
    have hstart := Text.trimStart_append_of_all hspace message.toList
    have htrimmed := h.message.1
    unfold Text.trim at htrimmed ⊢
    rw [← List.singleton_append, hstart, htrimmed]
  have hbar : '|' ∉ ' ' :: message.toList := by simp [h.noBar]
  cases cause with
  | none =>
    have hbar' : '|' ∉ Text.trimEnd (' ' :: message.toList) := by
      obtain ⟨blanks, -, hcs⟩ := Text.exists_eq_trimEnd_append (' ' :: message.toList)
      intro hmem
      exact hbar (hcs ▸ List.mem_append_left _ hmem)
    have hcut := Text.cut?_eq_none_of_notMem (by simp [separator] : '|' ∈ separator) hbar'
    unfold ofBody told
    simp only [hcut, Text.trim_trimEnd, hmessage, String.ofList_toList]
  | some cause =>
    -- The cause is not empty, so nothing behind the separator is trimmed.
    obtain ⟨⟨hcause, -⟩, hne⟩ := h.cause cause rfl
    have hne : cause.toList ≠ [] := fun he => hne (String.toList_eq_nil_iff.mp he)
    have htold : ' ' :: told ⟨message, some cause⟩ = ' ' :: message.toList ++ separator ++ cause.toList := rfl
    have hcut := Text.cut?_append (by simp [separator]) (not_infix_separator hbar) cause.toList
    rw [htold, Text.trimEnd_append_of_trimmed hcause hne, List.append_assoc]
    unfold ofBody
    simp only [hcut, hmessage, hcause, String.ofList_toList]

/-- A line is read as what is meant by it. -/
theorem ofLine?_chars (l : Line) : ofLine? l.chars = l.meant? := by
  cases l with
  | telling indent severity d isIndent isTellable =>
    have hheading : severity.heading ++ d.told = severity.label ++ ' ' :: d.told := by cases severity <;> rfl
    have hblank : ∀ c ∈ indent, Text.isBlank c = true := fun c hc => (isIndent c hc).1
    show ofLine? (indent ++ severity.heading ++ d.told) = some (severity, d)
    rw [List.append_assoc, hheading, ← List.append_assoc, ofLine?_of_label hblank, ofBody_told isTellable]
  | other chars isLine noError noWarning =>
    have hnone : ∀ s : Severity, ¬ s.label.isPrefixOf (Text.trim chars) = true := by
      intro s
      cases s with
      | error => exact mt List.isPrefixOf_iff_prefix.mp noError
      | warning => exact mt List.isPrefixOf_iff_prefix.mp noWarning
    show ofLine? chars = none
    unfold ofLine?
    dsimp only
    rw [if_neg (hnone .error), if_neg (hnone .warning)]

/-! ## Reading line by line -/

theorem newline_notMem_told (h : d.IsTellable) : '\n' ∉ d.told := by
  have hseparator : '\n' ∉ " | ".toList := by decide
  unfold told
  split
  · exact h.message.2
  · next cause hcause =>
    rw [List.mem_append, List.mem_append, not_or, not_or]
    exact ⟨⟨h.message.2, hseparator⟩, (h.cause cause hcause).1.2⟩

theorem Line.newline_notMem (l : Line) : '\n' ∉ l.chars := by
  cases l with
  | telling indent severity d isIndent isTellable =>
    have hheading : '\n' ∉ severity.heading := by cases severity <;> decide
    show '\n' ∉ indent ++ severity.heading ++ d.told
    rw [List.mem_append, List.mem_append, not_or, not_or]
    exact ⟨⟨fun hc => (isIndent _ hc).2 rfl, hheading⟩, newline_notMem_told isTellable⟩
  | other chars isLine => exact isLine

theorem ofLine?_append_of_all {blanks : List Char} (h : ∀ c ∈ blanks, Text.isBlank c = true)
    (cs : List Char) : ofLine? (cs ++ blanks) = ofLine? cs := by
  unfold ofLine?
  rw [Text.trim_append_of_all h]

theorem isBlank_return : ∀ c ∈ ['\r'], Text.isBlank c = true := List.forall_mem_singleton.mpr (by decide)

/-- A carriage return in front of a line feed does not count, nor does one that is left. -/
theorem ofLine?_chopLine (cs : List Char) : ofLine? (Text.chopLine (cs ++ ['\n'])) = ofLine? cs := by
  rcases Text.chopLine_cases cs with hself | ⟨front, rfl, hfront⟩
  · rw [hself]
  · rw [hfront, ofLine?_append_of_all isBlank_return]

/-- What is behind a line is read after it. -/
theorem filterMap_lines_append (l : Line) (e : LineEnd) (rest : List Char) :
    (Text.lines (l.chars ++ e.chars ++ rest)).filterMap ofLine? =
      l.meant?.toList ++ (Text.lines rest).filterMap ofLine? := by
  have hread : ∀ cs, '\n' ∉ cs → ofLine? cs = l.meant? →
      (Text.lines (cs ++ '\n' :: rest)).filterMap ofLine? =
        l.meant?.toList ++ (Text.lines rest).filterMap ofLine? := by
    intro cs hline hmeant
    rw [Text.lines_append_newline hline, List.filterMap_cons, ofLine?_chopLine, hmeant]
    cases l.meant? <;> rfl
  rw [List.append_assoc]
  cases e with
  | feed => exact hread l.chars l.newline_notMem (ofLine?_chars l)
  | returnAndFeed =>
    have hreturn :
        l.chars ++ (LineEnd.returnAndFeed.chars ++ rest) = (l.chars ++ ['\r']) ++ '\n' :: rest := by
      simp [LineEnd.chars]
    rw [hreturn]
    apply hread
    · simp [l.newline_notMem]
    · rw [ofLine?_append_of_all isBlank_return, ofLine?_chars]

theorem filterMap_lines (l : Line) : (Text.lines l.chars).filterMap ofLine? = l.meant?.toList := by
  rw [Text.lines_of_notMem l.newline_notMem, ← ofLine?_chars l]
  split
  · next hempty => rw [hempty]; rfl
  · rw [List.filterMap_cons]
    cases ofLine? l.chars <;> rfl

end Diagnostic

/-! ## Transcripts -/

open Diagnostic

/-- An output with what is meant by its lines. The last of them may lack a line end. -/
structure Transcript where
  ended : List (Line × LineEnd)
  last : Option Line

namespace Transcript

def text (t : Transcript) : String :=
  String.ofList (t.ended.flatMap (fun (l, e) => l.chars ++ e.chars) ++ t.last.elim [] Line.chars)

def lines (t : Transcript) : List Line := t.ended.map (·.1) ++ t.last.toList

theorem filterMap_lines_text (t : Transcript) :
    (Text.lines t.text.toList).filterMap ofLine? = t.lines.filterMap Line.meant? := by
  obtain ⟨ended, last⟩ := t
  unfold text lines
  rw [String.toList_ofList]
  induction ended with
  | nil =>
    cases last with
    | none => rfl
    | some l =>
      show (Text.lines l.chars).filterMap ofLine? = [l].filterMap Line.meant?
      rw [filterMap_lines, List.filterMap_cons]
      cases l.meant? <;> rfl
  | cons line ended ih =>
    obtain ⟨l, e⟩ := line
    rw [List.flatMap_cons, List.append_assoc, filterMap_lines_append, ih, List.map_cons, List.cons_append,
      List.filterMap_cons]
    cases l.meant? <;> rfl

/-- **What the instrumenter says is heard.** The diagnostics that an output is read as are those that its
lines tell: the errors in their order, and the warnings in theirs. -/
theorem ofOutput_text (t : Transcript) :
    Finding.ofOutput t.text =
      ⟨t.lines.filterMap (Line.meantAs? .error), t.lines.filterMap (Line.meantAs? .warning)⟩ := by
  unfold Finding.ofOutput
  dsimp only
  rw [filterMap_lines_text, List.filterMap_filterMap, List.filterMap_filterMap]
  rfl

/-- A line that tells nothing, a warning, and an error with a cause only. Each ends in another way. -/
def sample : Transcript where
  ended :=
    [(.other "INFO: patched".toList (by decide) (by decide) (by decide), .feed),
      (.telling [] .warning ⟨"deprecated layout", none⟩ nofun ⟨by decide, by decide, by decide⟩,
        .returnAndFeed)]
  last := some (.telling ['\t'] .error ⟨"", some "a | b"⟩ (List.forall_mem_singleton.mpr (by decide))
    ⟨by decide, by decide, by decide⟩)

example : sample.text = "INFO: patched\nWARNING: deprecated layout\r\n\tERROR:  | a | b" := by decide

end Transcript

end FormWeaver
