import FormWeaver.Form.Entity

/-!
# Tags

The scanner finds the start tags and empty-element tags of a document and passes over all else:
text, comments, character data, declarations, processing instructions and end tags. It stops at a
construct that is never closed. A tag is kept as its name and its attributes; a quoted attribute
value may hold any character but its quote, the closing angle bracket included.
-/

namespace FormWeaver.Form

/-! ## Finding the tags -/

/-- Cuts at the first `>` outside quotes; the first argument is the quote that is open. -/
def closeTag? : Option Char → List Char → Option (List Char × List Char)
  | _, [] => none
  | none, c :: cs =>
    if c = '>' then some ([], cs)
    else (closeTag? (if c = '"' || c = '\'' then some c else none) cs).map fun (t, r) => (c :: t, r)
  | some q, c :: cs => (closeTag? (if c = q then none else some q) cs).map fun (t, r) => (c :: t, r)

/-- The terminator of the construct that the text behind a `<` begins, when it is not a tag. -/
def terminator? (rest : List Char) : Option (List Char) :=
  if ['!', '-', '-'].isPrefixOf rest then some ['-', '-', '>']
  else if "![CDATA[".toList.isPrefixOf rest then some [']', ']', '>']
  else match rest with
    | '?' :: _ | '!' :: _ | '/' :: _ => some ['>']
    | _ => none

/-- The construct that the text behind a `<` begins: the contents of a tag, or nothing, and the
text behind it. A terminator may overlap the construct's own opening. -/
def construct? (rest : List Char) : Option (Option (List Char) × List Char) :=
  match terminator? rest with
  | some stop => (Text.dropPast? stop rest).map fun more => (none, more)
  | none => (closeTag? none rest).map fun (contents, more) => (some contents, more)

theorem length_closeTag?_le {q : Option Char} {cs t r : List Char} (h : closeTag? q cs = some (t, r)) :
    r.length ≤ cs.length := by
  induction cs generalizing q t with
  | nil => simp [closeTag?] at h
  | cons c cs ih =>
    cases q with
    | none =>
      unfold closeTag? at h
      split at h
      · simp only [Option.some.injEq, Prod.mk.injEq] at h
        obtain ⟨rfl, rfl⟩ := h
        simp
      · obtain ⟨⟨t', r'⟩, h', e⟩ := Option.map_eq_some_iff.mp h
        simp only [Prod.mk.injEq] at e
        obtain ⟨rfl, rfl⟩ := e
        exact Nat.le_succ_of_le (ih h')
    | some q =>
      unfold closeTag? at h
      obtain ⟨⟨t', r'⟩, h', e⟩ := Option.map_eq_some_iff.mp h
      simp only [Prod.mk.injEq] at e
      obtain ⟨rfl, rfl⟩ := e
      exact Nat.le_succ_of_le (ih h')

theorem length_dropPast?_le {sep cs r : List Char} (h : Text.dropPast? sep cs = some r) :
    r.length + sep.length ≤ cs.length := by
  obtain ⟨⟨b, a⟩, h', e⟩ := Option.map_eq_some_iff.mp h
  have := congrArg List.length (Text.eq_append_of_cut? h')
  simp only [List.length_append] at this
  simp only at e
  subst e
  omega

theorem length_construct?_le {rest more : List Char} {t : Option (List Char)}
    (h : construct? rest = some (t, more)) : more.length ≤ rest.length := by
  unfold construct? at h
  split at h
  · obtain ⟨r, h', e⟩ := Option.map_eq_some_iff.mp h
    simp only [Prod.mk.injEq] at e
    obtain ⟨-, rfl⟩ := e
    have := length_dropPast?_le h'
    omega
  · obtain ⟨⟨t', r⟩, h', e⟩ := Option.map_eq_some_iff.mp h
    simp only [Prod.mk.injEq] at e
    obtain ⟨-, rfl⟩ := e
    exact length_closeTag?_le h'

set_option linter.unusedVariables false in
/-- The contents of the start tags and empty-element tags, in order. -/
def tagContents (cs : List Char) : List (List Char) :=
  match ho : Text.dropPast? ['<'] cs with
  | none => []
  | some rest =>
    match hc : construct? rest with
    | none => []
    | some (contents, more) => contents.toList ++ tagContents more
termination_by cs.length
decreasing_by
  have h1 := length_dropPast?_le ho
  have h2 := length_construct?_le hc
  simp at h1
  omega

/-! ## Names and attributes -/

set_option linter.unusedVariables false in
/-- The attributes of a tag with their values as they are written, up to the first that is not
`name = "value"` or `name = 'value'`. -/
def attributes (cs : List Char) : List (List Char × List Char) :=
  match he : Text.cut? ['='] (Text.trimStart cs) with
  | none => []
  | some (before, after) =>
    match hq : Text.trimStart after with
    | [] => []
    | quote :: body =>
      if quote = '"' || quote = '\'' then
        match hv : Text.cut? [quote] body with
        | none => []
        | some (value, more) => (Text.trim before, value) :: attributes more
      else []
termination_by cs.length
decreasing_by
  have h0 : ∀ l : List Char, (Text.trimStart l).length ≤ l.length := fun l =>
    (List.dropWhile_suffix _).length_le
  have h1 := congrArg List.length (Text.eq_append_of_cut? he)
  have h2 := congrArg List.length (Text.eq_append_of_cut? hv)
  have h3 := congrArg List.length hq
  have h4 := h0 cs
  have h5 := h0 after
  simp only [List.length_append, List.length_cons, List.length_nil] at h1 h2 h3
  omega

/-- A start tag or empty-element tag. -/
structure Tag where
  /-- The element's name with its namespace prefix. -/
  name : List Char
  /-- The attributes, values as they are written. -/
  attributes : List (List Char × List Char)

/-- Reads the contents of a tag: without the slashes at its end and the blanks around it, the name
is what stands before the first blank. -/
def Tag.ofContents (contents : List Char) : Tag :=
  let inner := Text.trim (contents.reverse.dropWhile (· == '/')).reverse
  ⟨inner.takeWhile fun c => !Text.isBlank c, Form.attributes (inner.dropWhile fun c => !Text.isBlank c)⟩

/-- The name without its namespace prefix. -/
def Tag.localName (t : Tag) : String :=
  String.ofList (t.name.reverse.takeWhile (· != ':')).reverse

/-- The value of the first attribute of a name. -/
def Tag.attribute? (t : Tag) (name : String) : Option String :=
  (t.attributes.lookup name.toList).map fun raw => String.ofList (unescape raw)

/-- The start tags and empty-element tags of a document, in order. -/
def tags (cs : List Char) : List Tag := (tagContents cs).map Tag.ofContents

end FormWeaver.Form
