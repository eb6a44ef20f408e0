import FormWeaver.Proofs.Form.Document
import FormWeaver.Proofs.Form.Escaping
import FormWeaver.Proofs.Form.Tags
import FormWeaver.Proofs.Text.Cut
import Mathlib.Data.Bool.AllAny

/-!
# Reading a document

Three scanners read a document: one finds the tags, one the end of a tag, one the attributes in it. Each
of them is followed over what the grammar of documents writes, piece by piece, letter by letter and
attribute by attribute; together they find what the document says (`parse_document`).

White space ends the name of an element, and one character is both blank and allowed in names. What the
documents say is found when no element has it in its name; `parse_ogham` shows that it is not otherwise.
-/

namespace FormWeaver.Form

/-! ## The end of a tag -/

/-- Whether the scanner for the end of a tag passes over a text, outside quotes before it and behind. -/
def Passes (cs : List Char) : Prop :=
  ∀ rest, closeTag? none (cs ++ rest) = (closeTag? none rest).map fun (t, r) => (cs ++ t, r)

theorem passes_nil : Passes [] := by
  intro rest
  rw [List.nil_append]
  cases closeTag? none rest <;> rfl

theorem Passes.append {cs cs' : List Char} (h : Passes cs) (h' : Passes cs') : Passes (cs ++ cs') := by
  intro rest
  rw [List.append_assoc, h, h', Option.map_map]
  simp only [Function.comp_def, List.append_assoc]

theorem passes_of_forall {cs : List Char} (h : ∀ c ∈ cs, c ≠ '>' ∧ c ≠ '"' ∧ c ≠ '\'') : Passes cs := by
  induction cs with
  | nil => exact passes_nil
  | cons c cs ih =>
    obtain ⟨hclose, hdouble, hsingle⟩ := h c List.mem_cons_self
    intro rest
    rw [List.cons_append, closeTag?, if_neg hclose, if_neg (by simp [hdouble, hsingle]),
      ih fun c hc => h c (List.mem_cons_of_mem _ hc), Option.map_map]
    rfl

/-- Inside quotes only the mark counts. -/
theorem closeTag?_quoted {q : Char} {cs : List Char} (h : q ∉ cs) (rest : List Char) :
    closeTag? (some q) (cs ++ q :: rest) =
      (closeTag? none rest).map fun (t, r) => (cs ++ q :: t, r) := by
  induction cs with
  | nil =>
    rw [List.nil_append, closeTag?, if_pos rfl]
    rfl
  | cons c cs ih =>
    rw [List.mem_cons, not_or] at h
    rw [List.cons_append, closeTag?, if_neg (Ne.symm h.1), ih h.2, Option.map_map]
    rfl

theorem passes_quoted (mark : QuoteMark) {cs : List Char} (h : mark.char ∉ cs) :
    Passes (mark.char :: (cs ++ [mark.char])) := by
  intro rest
  have hmark : mark.char ≠ '>' ∧ (mark.char = '"' || mark.char = '\'') = true := by
    cases mark <;> decide
  rw [List.cons_append, List.append_assoc, closeTag?, if_neg hmark.1, if_pos hmark.2]
  show ((closeTag? _ (cs ++ mark.char :: rest)).map _) = _
  rw [closeTag?_quoted h, Option.map_map]
  simp [Function.comp_def]

theorem Blanks.passes (b : Blanks) : Passes b.chars := by
  refine passes_of_forall fun c hc => ?_
  have hblank := b.areBlank c hc
  refine ⟨?_, ?_, ?_⟩ <;> (rintro rfl; revert hblank; decide)

theorem ElementName.passes (n : ElementName) : Passes n.chars := by
  have hno : ∀ stop : Char, isNameChar stop = false → stop ≠ ':' → ∀ c ∈ n.chars, c ≠ stop := by
    rintro stop hstop hcolon c hc rfl
    exact n.notMem hstop hcolon hc
  exact passes_of_forall fun c hc => ⟨hno _ (isNameChar_eq_false _ (by simp)) (by simp) c hc,
    hno _ (isNameChar_eq_false _ (by simp)) (by simp) c hc,
    hno _ (isNameChar_eq_false _ (by simp)) (by simp) c hc⟩

theorem Attribute.passes (a : Attribute) : Passes a.chars := by
  have hname : Passes a.name := by
    refine passes_of_forall fun c hc => ?_
    have hstops := (a.isName c hc).2
    simp only [attributeStops, List.mem_cons, not_or] at hstops
    exact ⟨hstops.2.2.2.2.1, hstops.2.1, hstops.2.2.1⟩
  have hequals : Passes ['='] := passes_of_forall (by simp)
  exact a.gap.passes.append (hname.append (a.before.passes.append
    (hequals.append (a.after.passes.append (passes_quoted a.mark a.mark_notMem_raw)))))

theorem Markup.passes (m : Markup) : Passes m.contents := by
  have hattributes : Passes (m.attributes.flatMap Attribute.chars) := by
    induction m.attributes with
    | nil => exact passes_nil
    | cons a as ih => exact a.passes.append ih
  have hslash : Passes (if m.isEmpty then ['/'] else []) := by
    split
    · exact passes_of_forall (by simp)
    · exact passes_nil
  exact m.name.passes.append (hattributes.append (m.trailing.passes.append hslash))

/-! ## The tags of a document -/

/-- What begins with none of the marks of other constructs is a tag. -/
theorem construct?_of_passes {cs : List Char} (h : Passes cs)
    (hfirst : ∀ c ∈ ['!', '?', '/'], cs.head? ≠ some c) (rest : List Char) :
    construct? (cs ++ '>' :: rest) = some (some cs, rest) := by
  have hterminator : terminator? (cs ++ '>' :: rest) = none := by
    cases cs with
    | nil => rfl
    | cons c cs =>
      have hno : ∀ mark ∈ ['!', '?', '/'], c ≠ mark := fun mark hmark hc =>
        hfirst mark hmark (congrArg some hc)
      unfold terminator?
      rw [List.cons_append, if_neg (by simp [(hno '!' (by simp)).symm]),
        if_neg (by simp [(hno '!' (by simp)).symm])]
      split
      · next heq => exact absurd (List.cons.inj heq).1 (hno '?' (by simp))
      · next heq => exact absurd (List.cons.inj heq).1 (hno '!' (by simp))
      · next heq => exact absurd (List.cons.inj heq).1 (hno '/' (by simp))
      · rfl
  unfold construct?
  rw [hterminator]
  simp only
  rw [h, closeTag?, if_pos rfl]
  simp

theorem Markup.construct?_eq (m : Markup) (rest : List Char) :
    construct? (m.contents ++ '>' :: rest) = some (some m.contents, rest) := by
  have hmarks : ∀ mark ∈ ['!', '?', '/'], isNameChar mark = false := by
    rw [← List.all_iff_forall_prop]
    decide +kernel
  refine construct?_of_passes m.passes (fun mark hmark => ?_) rest
  obtain ⟨c, cs, hname, hstart⟩ := m.name.exists_eq_cons
  rw [contents, hname, List.cons_append, List.head?_cons]
  intro h
  have hchar : isNameChar c = true := by rw [isNameChar, hstart, Bool.true_or]
  rw [Option.some.inj h, hmarks mark hmark] at hchar
  cases hchar

/-- A declaration, an instruction, a doctype or an end tag goes as far as the next closing bracket. -/
theorem construct?_of_terminator {cs rest : List Char} (h : '>' ∉ cs)
    (ht : terminator? (cs ++ '>' :: rest) = some ['>']) :
    construct? (cs ++ '>' :: rest) = some (none, rest) := by
  unfold construct?
  rw [ht]
  simp only
  rw [Text.dropPast?_append_of_notMem h, Option.map_some]

/-- Character data goes as far as its terminator, also when it ends in what that begins with. -/
theorem construct?_characterData {cs : List Char} (h : ¬ "]]>".toList <:+: cs) (rest : List Char) :
    construct? ("![CDATA[".toList ++ (cs ++ ("]]>".toList ++ rest))) = some (none, rest) := by
  have hends : ¬ [']', ']'] ++ ['>'] <:+: cs ++ [']', ']'] := Text.not_infix_append (by decide) h
  have hdrop : Text.dropPast? "]]>".toList (cs ++ ("]]>".toList ++ rest)) = some rest :=
    Text.dropPast?_append (by decide) hends rest
  have hskip : Text.dropPast? "]]>".toList ("![CDATA[".toList ++ (cs ++ ("]]>".toList ++ rest))) =
      some rest := by
    rw [← hdrop]
    exact Text.dropPast?_skip (by decide) _ _
  have hterminator : terminator? ("![CDATA[".toList ++ (cs ++ ("]]>".toList ++ rest))) =
      some "]]>".toList := rfl
  unfold construct?
  rw [hterminator]
  simp only
  rw [hskip, Option.map_some]

/-- **One piece of a document**: its tag, if it is one, comes before the tags of what follows. -/
theorem tagContents_piece (p : Piece) (rest : List Char) :
    tagContents (p.chars ++ rest) = (p.markup?.map Markup.contents).toList ++ tagContents rest := by
  have hopen : ∀ cs : List Char, Text.dropPast? ['<'] ('<' :: cs) = some cs :=
    fun cs => Text.dropPast?_append_of_notMem List.not_mem_nil cs
  cases p with
  | text cs h => exact tagContents_congr (Text.dropPast?_skip h [] rest)
  | instruction cs h =>
    have hchars : (Piece.instruction cs h).chars ++ rest = '<' :: ('?' :: cs ++ '>' :: rest) := by
      simp [Piece.chars]
    rw [hchars]
    exact tagContents_of_construct (hopen _) (construct?_of_terminator (by simpa using h) rfl)
  | doctype cs h =>
    have hchars : (Piece.doctype cs h).chars ++ rest =
        '<' :: (("!DOCTYPE".toList ++ cs) ++ '>' :: rest) := by simp [Piece.chars]
    rw [hchars]
    exact tagContents_of_construct (hopen _) (construct?_of_terminator (by simpa using h) rfl)
  | endTag cs h =>
    have hchars : (Piece.endTag cs h).chars ++ rest = '<' :: ('/' :: cs ++ '>' :: rest) := by
      simp [Piece.chars]
    rw [hchars]
    exact tagContents_of_construct (hopen _) (construct?_of_terminator (by simpa using h) rfl)
  | characterData cs h =>
    have hchars : (Piece.characterData cs h).chars ++ rest =
        '<' :: ("![CDATA[".toList ++ (cs ++ ("]]>".toList ++ rest))) := by simp [Piece.chars]
    rw [hchars]
    exact tagContents_of_construct (hopen _) (construct?_characterData h rest)
  | tag m =>
    have hchars : (Piece.tag m).chars ++ rest = '<' :: (m.contents ++ '>' :: rest) := by
      simp [Piece.chars]
    rw [hchars]
    exact tagContents_of_construct (hopen _) (m.construct?_eq rest)

/-! ## Names and attributes -/

/-- What stands in the attributes of a tag once it has been read. -/
def Attribute.written (a : Attribute) : List Char × List Char := (a.name, a.raw)

theorem QuoteMark.isBlank_char (mark : QuoteMark) : Text.isBlank mark.char = false := by
  cases mark <;> decide

theorem attributes_cons (a : Attribute) (rest : List Char) :
    attributes (a.chars ++ rest) = a.written :: attributes rest := by
  have hequals : '=' ∉ a.name ++ a.before.chars := by
    intro hmem
    rcases List.mem_append.mp hmem with hmem | hmem
    · exact (a.isName _ hmem).2 (by decide)
    · exact absurd (a.before.areBlank _ hmem) (by decide)
  have hname : Text.trim (Text.trimStart (a.name ++ a.before.chars)) = a.name := by
    have hblank : ∀ c ∈ a.name, Text.isBlank c = false := fun c hc => (a.isName c hc).1
    rw [Text.trim, Text.trimStart_trimStart]
    exact Text.trim_append (fun c hc => hblank c (List.mem_of_mem_head? hc))
      (fun c hc => hblank c (List.mem_of_getLast? hc)) a.before.areBlank
  have he : Text.cut? ['='] (Text.trimStart (a.chars ++ rest)) =
      some (Text.trimStart (a.name ++ a.before.chars),
        a.after.chars ++ a.mark.char :: (a.raw ++ a.mark.char :: rest)) := by
    have hchars : a.chars ++ rest = a.gap.chars ++ ((a.name ++ a.before.chars) ++
        '=' :: (a.after.chars ++ a.mark.char :: (a.raw ++ a.mark.char :: rest))) := by
      simp [Attribute.chars]
    rw [hchars, Text.trimStart_append_of_all a.gap.areBlank, Text.trimStart_append_cons (by decide)]
    exact Text.cut?_append_of_notMem (fun hmem => hequals ((List.dropWhile_sublist _).mem hmem)) _
  have hmark : (a.mark.char = '"' || a.mark.char = '\'') = true := by
    cases a.mark <;> decide
  have hq : Text.trimStart (a.after.chars ++ a.mark.char :: (a.raw ++ a.mark.char :: rest)) =
      a.mark.char :: (a.raw ++ a.mark.char :: rest) := by
    rw [Text.trimStart_append_of_all a.after.areBlank]
    exact Text.trimStart_eq_self fun c hc => by rw [← Option.some.inj hc]; exact a.mark.isBlank_char
  rw [attributes_of_quoted he hq hmark (Text.cut?_append_of_notMem a.mark_notMem_raw rest), hname]
  rfl

theorem attributes_flatMap (as : List Attribute) :
    attributes (as.flatMap Attribute.chars) = as.map Attribute.written := by
  induction as with
  | nil => exact attributes_of_none rfl
  | cons a as ih => rw [List.flatMap_cons, attributes_cons, ih, List.map_cons]

theorem ElementName.isBlank_eq_false (n : ElementName) (h : '\u1680' ∉ n.chars) {c : Char}
    (hc : c ∈ n.chars) : Text.isBlank c = false := by
  rw [← Bool.not_eq_true]
  intro hblank
  cases hname : isNameChar c with
  | true => exact h (eq_of_isNameChar_of_isBlank hname hblank ▸ hc)
  | false =>
    refine n.notMem hname ?_ hc
    rintro rfl
    revert hblank
    decide

/-- What stands in a tag once it has been read. -/
def Markup.toTag (m : Markup) : Tag := ⟨m.name.chars, m.attributes.map Attribute.written⟩

/-- A tag ends in its name or in a quotation mark. -/
theorem Markup.mem_of_getLast? (m : Markup) {c : Char}
    (h : (m.name.chars ++ m.attributes.flatMap Attribute.chars).getLast? = some c) :
    c ∈ m.name.chars ∨ ∃ mark : QuoteMark, c = mark.char := by
  rcases List.eq_nil_or_concat m.attributes with hnil | ⟨as, a, hlast⟩
  · rw [hnil, List.flatMap_nil, List.append_nil] at h
    exact .inl (List.mem_of_getLast? h)
  · refine .inr ⟨a.mark, ?_⟩
    have hchars : ∃ front, a.chars = front ++ [a.mark.char] :=
      ⟨a.gap.chars ++ (a.name ++ (a.before.chars ++ '=' :: (a.after.chars ++ a.mark.char :: a.raw))),
        by simp [Attribute.chars]⟩
    obtain ⟨front, hfront⟩ := hchars
    rw [hlast, List.concat_eq_append, List.flatMap_append, List.flatMap_singleton, hfront,
      ← List.append_assoc, ← List.append_assoc, List.getLast?_concat] at h
    exact (Option.some.inj h).symm

/-- White space comes first in what follows the name. -/
theorem isBlank_of_head?_flatMap {as : List Attribute} {c : Char}
    (h : (as.flatMap Attribute.chars).head? = some c) : Text.isBlank c = true := by
  cases as with
  | nil => cases h
  | cons a as =>
    obtain ⟨b, bs, hgap⟩ := List.exists_cons_of_ne_nil a.isApart
    have hc : b = c := by
      rw [List.flatMap_cons, Attribute.chars, hgap] at h
      exact Option.some.inj h
    exact a.gap.areBlank c (by rw [hgap, hc]; exact List.mem_cons_self)

theorem QuoteMark.char_ne_slash (mark : QuoteMark) : mark.char ≠ '/' := by
  cases mark <;> decide

theorem Blanks.slash_notMem (b : Blanks) : '/' ∉ b.chars :=
  fun h => absurd (b.areBlank '/' h) (by decide)

/-- A slash at the end of a tag is the one that says that it is empty. -/
theorem Markup.ne_slash_of_getLast? (m : Markup) {c : Char}
    (h : (m.name.chars ++ m.attributes.flatMap Attribute.chars ++ m.trailing.chars).getLast? = some c) :
    c ≠ '/' := by
  rintro rfl
  rcases List.eq_nil_or_concat m.trailing.chars with hnil | ⟨front, last, hend⟩
  · rw [hnil, List.append_nil] at h
    rcases m.mem_of_getLast? h with h | ⟨mark, h⟩
    · exact m.name.notMem (isNameChar_eq_false _ (by simp)) (by decide) h
    · exact mark.char_ne_slash h.symm
  · rw [hend, List.concat_eq_append, ← List.append_assoc, List.getLast?_concat] at h
    exact m.trailing.slash_notMem (by simp [hend, Option.some.inj h])

/-- What is left of a tag without its slash and the white space at its end. -/
theorem Markup.trim_contents (m : Markup) (hblank : ∀ c ∈ m.name.chars, Text.isBlank c = false) :
    Text.trim (m.contents.reverse.dropWhile (· == '/')).reverse =
      m.name.chars ++ m.attributes.flatMap Attribute.chars := by
  have hcontents : m.contents = (m.name.chars ++ m.attributes.flatMap Attribute.chars ++
      m.trailing.chars) ++ if m.isEmpty then ['/'] else [] := by simp [Markup.contents]
  rw [hcontents, Text.reverse_dropWhile_reverse_append]
  · apply Text.trim_append _ _ m.trailing.areBlank
    · intro c hc
      obtain ⟨first, others, hfirst, -⟩ := m.name.exists_eq_cons
      rw [hfirst] at hc
      exact hblank c (by rw [hfirst, Option.some.inj hc]; exact List.mem_cons_self)
    · intro c hc
      rcases m.mem_of_getLast? hc with hc | ⟨mark, rfl⟩
      · exact hblank c hc
      · exact mark.isBlank_char
  · intro c hc
    split at hc <;> simp_all
  · intro c hc
    exact beq_eq_false_iff_ne.mpr (m.ne_slash_of_getLast? hc)

/-- **One tag**: its name and its attributes are read as they are written. -/
theorem Markup.ofContents_contents (m : Markup) (hname : '\u1680' ∉ m.name.chars) :
    Tag.ofContents m.contents = m.toTag := by
  have hblank : ∀ c ∈ m.name.chars, Text.isBlank c = false := fun _ => m.name.isBlank_eq_false hname
  have hsplit : (m.attributes.flatMap Attribute.chars).takeWhile (fun c => !Text.isBlank c) = [] ∧
      (m.attributes.flatMap Attribute.chars).dropWhile (fun c => !Text.isBlank c) =
        m.attributes.flatMap Attribute.chars := by
    cases hchars : m.attributes.flatMap Attribute.chars with
    | nil => exact ⟨rfl, rfl⟩
    | cons c cs =>
      have hc := isBlank_of_head?_flatMap (c := c) (by rw [hchars, List.head?_cons])
      exact ⟨List.takeWhile_cons_of_neg (by simp [hc]), List.dropWhile_cons_of_neg (by simp [hc])⟩
  unfold Tag.ofContents
  simp only [m.trim_contents hblank]
  rw [List.takeWhile_append_of_pos (by simpa using hblank),
    List.dropWhile_append_of_pos (by simpa using hblank), hsplit.1, hsplit.2, List.append_nil,
    attributes_flatMap]
  rfl

theorem Markup.localName_toTag (m : Markup) : m.toTag.localName = m.localName := by
  have hcolon : ∀ n : SimpleName, ∀ c ∈ n.chars.reverse, (c != ':') = true := by
    intro n c hc
    rw [bne_iff_ne]
    rintro rfl
    exact n.notMem (isNameChar_eq_false _ (by simp)) (List.mem_reverse.mp hc)
  unfold Tag.localName Markup.localName toTag ElementName.chars
  simp only
  split
  · rw [← List.append_nil m.name.part.chars.reverse,
      List.takeWhile_append_of_pos (hcolon m.name.part)]
    simp
  · rw [List.reverse_append, List.reverse_cons, List.append_assoc,
      List.takeWhile_append_of_pos (hcolon m.name.part)]
    simp

theorem decode_flatMap_spelling {mark : QuoteMark} (letters : List (Letter mark)) :
    decode (letters.flatMap Letter.spelling) = letters.map Letter.char := by
  refine decode_flatMap (fun l cs => ?_) letters
  cases l with
  | plain c hamp _ => exact decode_cons hamp cs
  | escaped e => exact decode_append_entity e cs

theorem Markup.attribute?_toTag (m : Markup) (name : String) :
    m.toTag.attribute? name = m.value? name := by
  unfold Tag.attribute? value? toTag
  simp only
  induction m.attributes with
  | nil => rfl
  | cons a as ih =>
    rw [List.map_cons, Attribute.written, List.lookup_cons, List.find?_cons, BEq.comm]
    split
    · rw [Option.map_some, Option.map_some, unescape_eq_decode, Attribute.raw, decode_flatMap_spelling]
      rfl
    · exact ih

/-! ## What the tags tell -/

theorem bindingOf_toTag (m : Markup) :
    bindingOf m.toTag = ((m.value? "bind-to-class").map Text.trimmed).filter (· != "") := by
  rw [bindingOf, m.attribute?_toTag]

/-- The forms that some tags refer to, with repetitions. -/
def references (ms : List Markup) : List String :=
  (ms.filter (·.localName == "nested-form")).filterMap (·.value? "form-file")

theorem mentions_map_toTag (ms : List Markup) : mentions (ms.map Markup.toTag) = references ms := by
  rw [mentions, references, List.filter_map, List.filterMap_map]
  simp only [Function.comp_def, Markup.localName_toTag, Markup.attribute?_toTag]

/-! ## What a document says -/

theorem tagContents_flatMap (ps : List Piece) :
    tagContents (ps.flatMap Piece.chars) = (ps.filterMap Piece.markup?).map Markup.contents := by
  induction ps with
  | nil => exact tagContents_of_none rfl
  | cons p ps ih =>
    rw [List.flatMap_cons, tagContents_piece, ih, List.filterMap_cons]
    cases p.markup? <;> rfl

theorem tags_flatMap {ps : List Piece}
    (hname : ∀ m ∈ ps.filterMap Piece.markup?, '\u1680' ∉ m.name.chars) :
    tags (ps.flatMap Piece.chars) = (ps.filterMap Piece.markup?).map Markup.toTag := by
  rw [tags, tagContents_flatMap, List.map_map]
  exact List.map_congr_left fun m hm => m.ofContents_contents (hname m hm)

namespace Document

theorem filterMap_pieces (doc : Document) : doc.pieces.filterMap Piece.markup? = doc.markup := by
  have hlead : doc.lead.filterMap Piece.markup? = [] := List.filterMap_eq_nil_iff.mpr doc.noMarkup
  rw [pieces, List.filterMap_append, hlead, List.nil_append]
  rfl

theorem tags_text (doc : Document) (hname : ∀ m ∈ doc.markup, '\u1680' ∉ m.name.chars) :
    tags doc.text.toList = doc.markup.map Markup.toTag := by
  rw [← filterMap_pieces] at hname ⊢
  rw [text, String.toList_ofList]
  exact tags_flatMap hname

theorem readDocument_text (doc : Document) (hname : ∀ m ∈ doc.markup, '\u1680' ∉ m.name.chars) :
    readDocument doc.text = .ok (doc.binding, doc.nested) := by
  have hroot : Reading.add ⟨none, []⟩ doc.root.toTag = .ok ⟨some doc.binding, []⟩ := by
    rw [Reading.add, doc.root.localName_toTag, if_pos (by simp [doc.isForm]), bindingOf_toTag]
    rfl
  have hnested : (references (doc.rest.filterMap Piece.markup?)).foldl addOnce [] = doc.nested := by
    have hmarkup : references doc.markup = references (doc.rest.filterMap Piece.markup?) := by
      simp [references, markup, doc.isForm]
    rw [foldl_addOnce_nil, nested, ← references, hmarkup]
  unfold readDocument
  rw [doc.tags_text hname, markup, List.map_cons, Reading.addAll, hroot]
  simp only
  rw [Reading.addAll_behind, mentions_map_toTag, hnested]

/-- **Reading a document** gives what it says: the class that its root is bound to, if any, and the forms
that it refers to. -/
theorem parse_text (doc : Document) (hname : ∀ m ∈ doc.markup, '\u1680' ∉ m.name.chars)
    (origin : Origin) : parse doc.text.toUTF8 origin = .ok ⟨doc.binding, doc.nested, origin⟩ :=
  parse_of_readDocument (doc.readDocument_text hname) origin

end Document

/-! ## Documents -/

namespace Sample

theorem isBlank_space : ∀ c ∈ [' '], Text.isBlank c = true := by simp [Text.isBlank]

/-- An attribute as it is usually spelled. -/
def usual (name value : String)
    (h : ∀ c ∈ name.toList, Text.isBlank c = false ∧ c ∉ attributeStops) : Attribute :=
  ⟨⟨[' '], isBlank_space⟩, List.cons_ne_nil _ _, name.toList, h, ⟨[], nofun⟩, ⟨[], nofun⟩, .double,
    value.toList.map (.ofChar .double)⟩

theorem isName_reference : ∀ c ∈ "form-file".toList, Text.isBlank c = false ∧ c ∉ attributeStops :=
  List.all_iff_forall_prop.mp (by decide)

theorem isName_binding : ∀ c ∈ "bind-to-class".toList, Text.isBlank c = false ∧ c ∉ attributeStops :=
  List.all_iff_forall_prop.mp (by decide)

def tab : Blanks := ⟨['\t'], by simp [Text.isBlank]⟩

/-- An attribute with blanks around the equals sign and around the value. -/
def spacious : Attribute :=
  ⟨tab, List.cons_ne_nil _ _, "bind-to-class".toList, isName_binding, ⟨[' '], isBlank_space⟩,
    ⟨[' '], isBlank_space⟩, .single, " Order ".toList.map (.ofChar .single)⟩

def formName : SimpleName := ⟨'f', "orm".toList, by decide +kernel,
  List.all_iff_forall_prop.mp (by decide +kernel)⟩

def nestedName : SimpleName := ⟨'n', "ested-form".toList, by decide +kernel,
  List.all_iff_forall_prop.mp (by decide +kernel)⟩

def spaceName : SimpleName := ⟨'u', ['i'], by decide +kernel,
  List.all_iff_forall_prop.mp (by decide +kernel)⟩

/-- A tag that refers to a form whose name holds angle brackets. -/
def mention : Markup :=
  ⟨⟨none, nestedName⟩, [usual "form-file" "<a>.form" isName_reference], ⟨[], nofun⟩, true⟩

/-- A document with a declaration, namespaces, character data and a form that is referred to twice. -/
def order : Document where
  lead := [.instruction "xml version='1.0'?".toList (by decide +kernel), .text ['\n'] (by decide)]
  noMarkup := by simp [Piece.markup?]
  root := ⟨⟨some spaceName, formName⟩, [spacious], ⟨[], nofun⟩, false⟩
  isForm := by decide +kernel
  rest := [.tag mention, .characterData "]".toList (by decide +kernel), .tag mention,
    .endTag "ui:form".toList (by decide +kernel)]

theorem parse_text_order :
    (∀ m ∈ order.markup, '\u1680' ∉ m.name.chars) ∧
      order.text = "<?xml version='1.0'?>\n<ui:form\tbind-to-class = ' Order '>" ++
        "<nested-form form-file=\"<a>.form\"/><![CDATA[]]]>" ++
        "<nested-form form-file=\"<a>.form\"/></ui:form>" ∧
      parse order.text.toUTF8 (.resource "order.form") =
        .ok ⟨some "Order", ["<a>.form"], .resource "order.form"⟩ := by
  have hname : ∀ m ∈ order.markup, '\u1680' ∉ m.name.chars := by decide +kernel
  have hbinding : order.binding = some "Order" := by decide +kernel
  have hnested : order.nested = ["<a>.form"] := by decide +kernel
  refine ⟨hname, ?_, ?_⟩
  · rw [← String.ofList_append, ← String.ofList_append]
    apply congrArg String.ofList
    decide +kernel
  · rw [order.parse_text hname, hbinding, hnested]

/-- The name of another element, in which a blank follows what would be the name of a reference. -/
def oghamName : SimpleName :=
  ⟨'n', "ested-form\u1680".toList, by decide +kernel,
    List.all_iff_forall_prop.mp (by decide +kernel)⟩

def ogham : Document where
  lead := []
  noMarkup := nofun
  root := ⟨⟨none, formName⟩, [], ⟨[], nofun⟩, false⟩
  isForm := by decide +kernel
  rest := [.tag ⟨⟨none, oghamName⟩, [usual "form-file" "a" isName_reference], ⟨[], nofun⟩, true⟩,
    .endTag "form".toList (by decide +kernel)]

/-- A name with a blank in it is taken for the part before the blank. -/
theorem parse_ogham : ¬ ∀ (doc : Document) (origin : Origin),
    parse doc.text.toUTF8 origin = .ok ⟨doc.binding, doc.nested, origin⟩ := by
  intro h
  have hcontents : tagContents ogham.text.toList =
      ["form".toList, "nested-form\u1680 form-file=\"a\"/".toList] := by
    rw [Document.text, String.toList_ofList, tagContents_flatMap]
    decide +kernel
  -- Read as a gap, the blank belongs to the attribute.
  let apart : Attribute := { usual "form-file" "a" isName_reference with
    gap := ⟨['\u1680', ' '], by simp [Text.isBlank]⟩, isApart := List.cons_ne_nil _ _ }
  have hattributes : attributes "\u1680 form-file=\"a\"".toList = [apart.written] := by
    have hchars : "\u1680 form-file=\"a\"".toList = [apart].flatMap Attribute.chars := by decide +kernel
    rw [hchars, attributes_flatMap]
    rfl
  have htag : Tag.ofContents "nested-form\u1680 form-file=\"a\"/".toList =
      ⟨"nested-form".toList, [apart.written]⟩ := by
    have hinner : Text.trim
        ("nested-form\u1680 form-file=\"a\"/".toList.reverse.dropWhile (· == '/')).reverse =
          "nested-form\u1680 form-file=\"a\"".toList := by decide +kernel
    have hname : ("nested-form\u1680 form-file=\"a\"".toList.takeWhile fun c => !Text.isBlank c) =
        "nested-form".toList := by decide +kernel
    have hrest : ("nested-form\u1680 form-file=\"a\"".toList.dropWhile fun c => !Text.isBlank c) =
        "\u1680 form-file=\"a\"".toList := by decide +kernel
    simp only [Tag.ofContents, hinner, hname, hrest, hattributes]
  have hroot : Tag.ofContents "form".toList = ⟨"form".toList, []⟩ :=
    ogham.root.ofContents_contents (by decide +kernel)
  have hread : readDocument ogham.text = .ok (none, ["a"]) := by
    unfold readDocument
    rw [tags, hcontents, List.map_cons, List.map_cons, List.map_nil, htag, hroot]
    rfl
  have hparse := h ogham (.resource "x.form")
  rw [parse_of_readDocument hread] at hparse
  have hnested : ogham.nested = [] := by decide +kernel
  rw [hnested] at hparse
  cases hparse

/-- A document that is bound to a class and refers to another form. -/
def sharing : Document where
  lead := []
  noMarkup := nofun
  root := ⟨⟨none, formName⟩, [usual "bind-to-class" "C" isName_binding], ⟨[], nofun⟩, false⟩
  isForm := by decide +kernel
  rest := [.tag ⟨⟨none, nestedName⟩, [usual "form-file" "z.form" isName_reference], ⟨[], nofun⟩, true⟩,
    .endTag "form".toList (by decide +kernel)]

theorem readDocument_sharing : readDocument sharing.text = .ok (some "C", ["z.form"]) := by
  rw [sharing.readDocument_text (by decide +kernel)]
  rfl

theorem parseFile_sharing {d : Disk} {p : Path} (h : d.contents p = .ok sharing.text.toUTF8) :
    parseFile d p = .ok ⟨some "C", ["z.form"], .file p⟩ :=
  parseFile_of_readDocument h readDocument_sharing

end Sample

end FormWeaver.Form
