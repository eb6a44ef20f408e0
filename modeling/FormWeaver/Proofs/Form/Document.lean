import FormWeaver.Form.Parser
import FormWeaver.Text.Ranges
import Mathlib.Data.Bool.AllAny

/-!
# Documents

A grammar of the documents in which forms are written down, and what such a document says. A document
is kept as it is spelled: every blank, the quotes around each value and which of its characters are
escaped. What its text must keep to is part of its type, so every `Document` can be written out
(`Document.text`). What it says is read off the grammar and not off the text: the class that its root
is bound to (`Document.binding`) and the forms that it refers to (`Document.nested`).
-/

namespace FormWeaver.Form

/-! ## Names -/

/-- The characters with which a name may begin in XML 1.0, the colon left out. -/
def nameStartRanges : Array (Nat × Nat) :=
  #[(0x41, 0x5A), (0x5F, 0x5F), (0x61, 0x7A), (0xC0, 0xD6), (0xD8, 0xF6), (0xF8, 0x2FF), (0x370, 0x37D),
    (0x37F, 0x1FFF), (0x200C, 0x200D), (0x2070, 0x218F), (0x2C00, 0x2FEF), (0x3001, 0xD7FF),
    (0xF900, 0xFDCF), (0xFDF0, 0xFFFD), (0x10000, 0xEFFFF)]

/-- The characters that may stand in a name but not begin it. -/
def furtherNameRanges : Array (Nat × Nat) :=
  #[(0x2D, 0x2E), (0x30, 0x39), (0xB7, 0xB7), (0x300, 0x36F), (0x203F, 0x2040)]

def isNameStart (c : Char) : Bool := Text.inRanges nameStartRanges c.toNat

def isNameChar (c : Char) : Bool := isNameStart c || Text.inRanges furtherNameRanges c.toNat

/-- What has a meaning of its own in a tag stands in no name. -/
theorem isNameChar_eq_false : ∀ c ∈ ['!', '"', '\'', '/', ':', '>', '?'], isNameChar c = false := by
  rw [← List.all_iff_forall_prop]
  decide +kernel

/-- A name without a colon. -/
structure SimpleName where
  first : Char
  others : List Char
  isStart : isNameStart first = true
  areNameChars : ∀ c ∈ others, isNameChar c = true

def SimpleName.chars (n : SimpleName) : List Char := n.first :: n.others

/-- The name of an element, which may have a namespace in front. -/
structure ElementName where
  space : Option SimpleName
  part : SimpleName

def ElementName.chars (n : ElementName) : List Char :=
  match n.space with
  | none => n.part.chars
  | some space => space.chars ++ ':' :: n.part.chars

theorem SimpleName.notMem (n : SimpleName) {c : Char} (hc : isNameChar c = false) : c ∉ n.chars := by
  intro hmem
  rcases List.mem_cons.mp hmem with rfl | hmem
  · rw [isNameChar, n.isStart] at hc
    cases hc
  · rw [n.areNameChars c hmem] at hc
    cases hc

theorem ElementName.notMem (n : ElementName) {c : Char} (hc : isNameChar c = false) (hcolon : c ≠ ':') :
    c ∉ n.chars := by
  unfold chars
  split
  · exact n.part.notMem hc
  · next space _ =>
    rw [List.mem_append, List.mem_cons, not_or, not_or]
    exact ⟨space.notMem hc, hcolon, n.part.notMem hc⟩

theorem ElementName.exists_eq_cons (n : ElementName) :
    ∃ c cs, n.chars = c :: cs ∧ isNameStart c = true := by
  unfold chars
  split
  · exact ⟨_, _, rfl, n.part.isStart⟩
  · next space _ => exact ⟨_, _, rfl, space.isStart⟩

/-- There is one character that may stand in a name and is blank. -/
theorem eq_of_isNameChar_of_isBlank {c : Char} (hname : isNameChar c = true)
    (hblank : Text.isBlank c = true) : c = '\u1680' := by
  have hcodes : c.toNat ∈ (List.range' 9 5 ++ [0x20, 0x85, 0xA0, 0x1680] ++ List.range' 0x2000 11 ++
      [0x2028, 0x2029, 0x202F, 0x205F, 0x3000]) := by
    simp only [Text.isBlank, Bool.or_eq_true, Bool.and_eq_true, decide_eq_true_eq, beq_iff_eq] at hblank
    simp only [List.mem_append, List.mem_range'_1, List.mem_cons, List.not_mem_nil, or_false]
    omega
  have hnone : ∀ n ∈ (List.range' 9 5 ++ [0x20, 0x85, 0xA0, 0x1680] ++ List.range' 0x2000 11 ++
      [0x2028, 0x2029, 0x202F, 0x205F, 0x3000]), n = 0x1680 ∨
        (Text.inRanges nameStartRanges n || Text.inRanges furtherNameRanges n) = false := by decide +kernel
  rcases hnone _ hcodes with h | h
  · exact Char.toNat_inj.mp h
  · rw [isNameChar, isNameStart, h] at hname
    cases hname

/-! ## Attributes -/

/-- White space. -/
structure Blanks where
  chars : List Char
  areBlank : ∀ c ∈ chars, Text.isBlank c = true

/-- The two marks between which a value may stand. -/
inductive QuoteMark where
  | double | single
  deriving DecidableEq

namespace QuoteMark

def char : QuoteMark → Char
  | double => '"'
  | single => '\''

def entity : QuoteMark → Entity
  | double => .quote
  | single => .apostrophe

end QuoteMark

/-- One character of a value between two marks, as it is written: an ampersand and the mark itself must
be escaped, and other characters may be. -/
inductive Letter (mark : QuoteMark) where
  | plain (c : Char) (hamp : c ≠ '&') (hmark : c ≠ mark.char)
  | escaped (e : Entity)

namespace Letter

variable {mark : QuoteMark}

def char : Letter mark → Char
  | plain c _ _ => c
  | escaped e => e.char

def spelling : Letter mark → List Char
  | plain c _ _ => [c]
  | escaped e => e.spelling

/-- A character, escaped if it must be. -/
def ofChar (mark : QuoteMark) (c : Char) : Letter mark :=
  if hamp : c = '&' then escaped .ampersand
  else if hmark : c = mark.char then escaped mark.entity
  else plain c hamp hmark

theorem mark_notMem_spelling (l : Letter mark) : mark.char ∉ l.spelling := by
  cases l with
  | plain c _ hmark => simpa [spelling] using hmark.symm
  | escaped e => cases mark <;> cases e <;> decide

end Letter

/-- The characters that cannot stand in the name of an attribute, white space apart. -/
def attributeStops : List Char := ['=', '"', '\'', '<', '>', '/']

/-- An attribute with the white space before it and around its equals sign. -/
structure Attribute where
  gap : Blanks
  isApart : gap.chars ≠ []
  name : List Char
  isName : ∀ c ∈ name, Text.isBlank c = false ∧ c ∉ attributeStops
  before : Blanks
  after : Blanks
  mark : QuoteMark
  letters : List (Letter mark)

namespace Attribute

/-- The value as it is written. -/
def raw (a : Attribute) : List Char := a.letters.flatMap Letter.spelling

/-- The value that is meant. -/
def value (a : Attribute) : String := String.ofList (a.letters.map Letter.char)

def chars (a : Attribute) : List Char :=
  a.gap.chars ++ (a.name ++ (a.before.chars ++ '=' :: (a.after.chars ++
    a.mark.char :: (a.raw ++ [a.mark.char]))))

theorem mark_notMem_raw (a : Attribute) : a.mark.char ∉ a.raw := by
  intro hmem
  obtain ⟨l, -, hl⟩ := List.mem_flatMap.mp hmem
  exact l.mark_notMem_spelling hl

end Attribute

/-! ## Documents -/

/-- A start tag or an empty-element tag. -/
structure Markup where
  name : ElementName
  attributes : List Attribute
  /-- What stands before the end of the tag. -/
  trailing : Blanks
  isEmpty : Bool

namespace Markup

/-- What stands between the angle brackets. -/
def contents (m : Markup) : List Char :=
  m.name.chars ++ (m.attributes.flatMap Attribute.chars ++
    (m.trailing.chars ++ if m.isEmpty then ['/'] else []))

/-- The value of an attribute. Of two attributes of one name the first counts. -/
def value? (m : Markup) (name : String) : Option String :=
  (m.attributes.find? (·.name == name.toList)).map Attribute.value

/-- The name without its namespace. -/
def localName (m : Markup) : String := String.ofList m.name.part.chars

end Markup

/-- What a document is made of. -/
inductive Piece where
  | text (cs : List Char) (h : '<' ∉ cs)
  /-- A declaration or another instruction in angle brackets with a question mark. -/
  | instruction (cs : List Char) (h : '>' ∉ cs)
  | doctype (cs : List Char) (h : '>' ∉ cs)
  | endTag (cs : List Char) (h : '>' ∉ cs)
  | characterData (cs : List Char) (h : ¬ "]]>".toList <:+: cs)
  | tag (m : Markup)

namespace Piece

def chars : Piece → List Char
  | text cs _ => cs
  | instruction cs _ => '<' :: '?' :: (cs ++ ['>'])
  | doctype cs _ => '<' :: ("!DOCTYPE".toList ++ (cs ++ ['>']))
  | endTag cs _ => '<' :: '/' :: (cs ++ ['>'])
  | characterData cs _ => '<' :: ("![CDATA[".toList ++ (cs ++ "]]>".toList))
  | tag m => '<' :: (m.contents ++ ['>'])

def markup? : Piece → Option Markup
  | tag m => some m
  | _ => none

end Piece

/-- A document: what stands before the root, the root's start tag, and what follows. -/
structure Document where
  lead : List Piece
  noMarkup : ∀ p ∈ lead, p.markup? = none
  root : Markup
  isForm : root.localName = "form"
  rest : List Piece

namespace Document

def pieces (doc : Document) : List Piece := doc.lead ++ .tag doc.root :: doc.rest

def text (doc : Document) : String := String.ofList (doc.pieces.flatMap Piece.chars)

/-- The tags in the order in which they are written. -/
def markup (doc : Document) : List Markup := doc.root :: doc.rest.filterMap Piece.markup?

/-- The class that the form is bound to: what the root says without the blanks around it, unless that
is nothing. -/
def binding (doc : Document) : Option String :=
  ((doc.root.value? "bind-to-class").map Text.trimmed).filter (· != "")

/-- The forms that are referred to, each once, in the order of the first mention. -/
def nested (doc : Document) : List String :=
  ((doc.markup.filter (·.localName == "nested-form")).filterMap (·.value? "form-file")).eraseDups

end Document

end FormWeaver.Form
