import FormWeaver.Proofs.Form.Extraction

/-!
# Comments and instructions

Comments and instructions say nothing of a form, and the scanner passes over them. It looks for the end
of a comment from its opening on, and takes any closing bracket for the end of an instruction. So a
comment that begins with a closing bracket, or with a hyphen and one, is over there for the scanner, and
so is an instruction at the first bracket in it; what follows is read as if it stood in the document
(`Remark.remainder`). Of all others (`Remark.IsPlain`) nothing remains.

A remark may stand wherever no construct is open. That is said of the scanner alone (`Closed`), and it
holds between the items of a document and within its text (`closed_items`).
-/

namespace FormWeaver.Form

/-! ## Between constructs -/

/-- Whether no construct is open at the end of a text: the scanner closes each one that it begins. -/
inductive Closed : List Char → Prop
  | text {cs : List Char} (h : '<' ∉ cs) : Closed cs
  | construct {cs rest more : List Char} {contents : Option (List Char)}
      (hopen : Text.dropPast? ['<'] cs = some rest) (hclose : construct? rest = some (contents, more))
      (h : Closed more) : Closed cs

variable {cs rest more t front back : List Char} {q : Option Char} {contents : Option (List Char)}

theorem closeTag?_append (h : closeTag? q cs = some (t, rest)) (back : List Char) :
    closeTag? q (cs ++ back) = some (t, rest ++ back) := by
  induction cs generalizing q t with
  | nil => simp [closeTag?] at h
  | cons c cs ih =>
    cases q with
    | none =>
      rw [closeTag?] at h
      rw [List.cons_append, closeTag?]
      split at h
      · next hc =>
        obtain ⟨rfl, rfl⟩ := Prod.mk.inj (Option.some.inj h)
        rw [if_pos hc]
      · next hc =>
        obtain ⟨⟨t', rest'⟩, hlater, heq⟩ := Option.map_eq_some_iff.mp h
        obtain ⟨rfl, rfl⟩ := Prod.mk.inj heq
        rw [if_neg hc, ih hlater]
        rfl
    | some mark =>
      rw [closeTag?] at h
      obtain ⟨⟨t', rest'⟩, hlater, heq⟩ := Option.map_eq_some_iff.mp h
      obtain ⟨rfl, rfl⟩ := Prod.mk.inj heq
      rw [List.cons_append, closeTag?, ih hlater]
      rfl

theorem bracket_mem_of_closeTag? (h : closeTag? q cs = some (t, rest)) : '>' ∈ cs := by
  induction cs generalizing q t rest with
  | nil => simp [closeTag?] at h
  | cons c cs ih =>
    cases q with
    | none =>
      rw [closeTag?] at h
      split at h
      · next hc => exact hc ▸ List.mem_cons_self
      · obtain ⟨⟨t', rest'⟩, hlater, -⟩ := Option.map_eq_some_iff.mp h
        exact List.mem_cons_of_mem _ (ih hlater)
    | some mark =>
      rw [closeTag?] at h
      obtain ⟨⟨t', rest'⟩, hlater, -⟩ := Option.map_eq_some_iff.mp h
      exact List.mem_cons_of_mem _ (ih hlater)

theorem bracket_mem_of_terminator? {stop : List Char} (h : terminator? rest = some stop) :
    '>' ∈ stop := by
  unfold terminator? at h
  split at h
  · obtain rfl := Option.some.inj h
    decide
  · split at h
    · obtain rfl := Option.some.inj h
      decide
    · split at h <;> cases h <;> decide

/-- Every construct ends in a closing bracket. -/
theorem bracket_mem_of_construct? (h : construct? rest = some (contents, more)) : '>' ∈ rest := by
  unfold construct? at h
  split at h
  · next stop hstop =>
    obtain ⟨_, hdrop, -⟩ := Option.map_eq_some_iff.mp h
    exact Text.mem_of_dropPast? hdrop (bracket_mem_of_terminator? hstop)
  · obtain ⟨_, htag, -⟩ := Option.map_eq_some_iff.mp h
    exact bracket_mem_of_closeTag? htag

/-- An opening without a closing bracket shows in a text that has one, or not at all. -/
theorem isPrefixOf_append {opening : List Char} (hopening : '>' ∉ opening) (h : '>' ∈ rest)
    (back : List Char) : opening.isPrefixOf (rest ++ back) = opening.isPrefixOf rest := by
  rw [Bool.eq_iff_iff, List.isPrefixOf_iff_prefix, List.isPrefixOf_iff_prefix]
  constructor
  · intro hlong
    rcases List.prefix_or_prefix_of_prefix hlong (List.prefix_append rest back) with hshort | hshort
    · exact hshort
    · exact absurd (hshort.subset h) hopening
  · intro hshort
    exact hshort.trans (List.prefix_append rest back)

/-- Of the marks for other constructs only the first character counts. -/
theorem terminator?_eq (rest : List Char) : terminator? rest =
    if ['!', '-', '-'].isPrefixOf rest then some ['-', '-', '>']
    else if "![CDATA[".toList.isPrefixOf rest then some [']', ']', '>']
    else if rest.head?.any (['?', '!', '/'].contains ·) then some ['>'] else none := by
  unfold terminator?
  split
  · rfl
  split
  · rfl
  split
  · rfl
  · rfl
  · rfl
  · next hquestion hbang hslash =>
    cases rest with
    | nil => rfl
    | cons c cs =>
      have hmark : ∀ mark ∈ ['?', '!', '/'], c ≠ mark := by
        rintro mark hmark rfl
        simp at hmark
        rcases hmark with rfl | rfl | rfl
        · exact hquestion cs rfl
        · exact hbang cs rfl
        · exact hslash cs rfl
      simpa using hmark

theorem terminator?_append (h : '>' ∈ rest) (back : List Char) :
    terminator? (rest ++ back) = terminator? rest := by
  have hhead : (rest ++ back).head? = rest.head? := by
    cases rest with
    | nil => cases h
    | cons c cs => rfl
  rw [terminator?_eq, terminator?_eq, isPrefixOf_append (by decide) h, isPrefixOf_append (by decide) h,
    hhead]

/-- What comes behind a construct that is closed does not change it. -/
theorem construct?_append (h : construct? rest = some (contents, more)) (back : List Char) :
    construct? (rest ++ back) = some (contents, more ++ back) := by
  have hbracket := bracket_mem_of_construct? h
  unfold construct? at h ⊢
  rw [terminator?_append hbracket]
  split at h
  · obtain ⟨more', hdrop, heq⟩ := Option.map_eq_some_iff.mp h
    obtain ⟨rfl, rfl⟩ := Prod.mk.inj heq
    rw [Text.dropPast?_append_right hdrop, Option.map_some]
  · obtain ⟨⟨t, more'⟩, htag, heq⟩ := Option.map_eq_some_iff.mp h
    obtain ⟨rfl, rfl⟩ := Prod.mk.inj heq
    rw [closeTag?_append htag, Option.map_some]

theorem dropPast?_opening (cs : List Char) : Text.dropPast? ['<'] ('<' :: cs) = some cs :=
  Text.dropPast?_append_of_notMem List.not_mem_nil cs

/-- **Behind a closed text** the scanner begins anew. -/
theorem Closed.tagContents_append (h : Closed front) (back : List Char) :
    tagContents (front ++ back) = tagContents front ++ tagContents back := by
  induction h with
  | @text cs h =>
    have hnone : tagContents cs = [] := by
      have hcongr := tagContents_congr (Text.dropPast?_skip h [] [])
      rw [List.append_nil] at hcongr
      rw [hcongr]
      exact tagContents_of_none rfl
    rw [hnone]
    exact tagContents_congr (Text.dropPast?_skip h [] back)
  | construct hopen hclose _ ih =>
    rw [tagContents_of_construct hopen hclose, List.append_assoc, ← ih]
    exact tagContents_of_construct (Text.dropPast?_append_right hopen back)
      (construct?_append hclose back)

theorem Closed.append (h : Closed front) (h' : Closed back) : Closed (front ++ back) := by
  induction h with
  | text h =>
    cases h' with
    | text h' => exact .text (by simp [h, h'])
    | construct hopen hclose h' => exact .construct ((Text.dropPast?_skip h [] _).trans hopen) hclose h'
  | construct hopen hclose _ ih =>
    exact .construct (Text.dropPast?_append_right hopen back) (construct?_append hclose back) ih

theorem closed_of_construct? (h : construct? rest = some (contents, [])) : Closed ('<' :: rest) :=
  .construct (dropPast?_opening rest) h (.text List.not_mem_nil)

/-! ## Remarks -/

/-- A comment or an instruction. -/
inductive Remark where
  | comment (cs : List Char) (hhyphens : ¬ "--".toList <:+: cs) (hlast : cs.getLast? ≠ some '-')
  | instruction (cs : List Char) (h : ¬ "?>".toList <:+: cs)

/-- What follows in the text of a comment on a closing bracket that belongs with the opening for the
scanner. -/
def pastEarlyEnd? : List Char → Option (List Char)
  | '>' :: cs => some cs
  | '-' :: '>' :: cs => some cs
  | _ => none

theorem pastEarlyEnd?_eq_none_iff : pastEarlyEnd? cs = none ↔ ¬ ['>'] <+: cs ∧ ¬ ['-', '>'] <+: cs := by
  unfold pastEarlyEnd?
  split
  · simp
  · simp
  · next hbracket hhyphen =>
    simp only [true_iff]
    constructor
    · rintro ⟨tail, rfl⟩
      exact hbracket tail rfl
    · rintro ⟨tail, rfl⟩
      exact hhyphen tail rfl

theorem dropPast?_bracket_eq_none_iff : Text.dropPast? ['>'] cs = none ↔ '>' ∉ cs := by
  constructor
  · intro h hmem
    obtain ⟨before, after, rfl, hbefore⟩ := List.eq_append_cons_of_mem hmem
    rw [Text.dropPast?_append_of_notMem hbefore] at h
    cases h
  · intro h
    cases hdrop : Text.dropPast? ['>'] cs with
    | none => rfl
    | some tail => exact absurd (Text.mem_of_dropPast? hdrop List.mem_cons_self) h

namespace Remark

def closing : Remark → List Char
  | comment _ _ _ => "-->".toList
  | instruction _ _ => "?>".toList

/-- What follows on the opening angle bracket. -/
def body (r : Remark) : List Char :=
  match r with
  | comment cs _ _ => "!--".toList ++ (cs ++ r.closing)
  | instruction cs _ => '?' :: (cs ++ r.closing)

def chars (r : Remark) : List Char := '<' :: r.body

/-- The text of a remark behind the first bracket in it that the scanner takes for its end. -/
def pastEnd? : Remark → Option (List Char)
  | comment cs _ _ => pastEarlyEnd? cs
  | instruction cs _ => Text.dropPast? ['>'] cs

/-- What the scanner reads as if it were no part of the remark. -/
def remainder (r : Remark) : List Char :=
  match r.pastEnd? with
  | some cs => cs ++ r.closing
  | none => []

/-- Whether there is no bracket in a remark that the scanner takes for its end. -/
def IsPlain : Remark → Prop
  | comment cs _ _ => ¬ ['>'] <+: cs ∧ ¬ ['-', '>'] <+: cs
  | instruction cs _ => '>' ∉ cs

theorem isPlain_iff (r : Remark) : r.IsPlain ↔ r.pastEnd? = none := by
  cases r with
  | comment cs _ _ => exact pastEarlyEnd?_eq_none_iff.symm
  | instruction cs _ => exact dropPast?_bracket_eq_none_iff.symm

theorem remainder_of_isPlain {r : Remark} (h : r.IsPlain) : r.remainder = [] := by
  unfold remainder
  rw [r.isPlain_iff.mp h]

/-- In a plain comment no end is found before its own, not even in part in the opening. -/
theorem end_notMem_comment {cs : List Char} (hhyphens : ¬ "--".toList <:+: cs)
    (hplain : ¬ ['>'] <+: cs ∧ ¬ ['-', '>'] <+: cs) :
    ¬ "-->".toList <:+: ("!--".toList ++ cs) ++ ['-', '-'] := by
  have hopening : ¬ ['-', '-'] ++ ['>'] <:+: "!--".toList ++ cs := by
    intro h
    rcases List.infix_cons_iff.mp h with h | h
    · exact absurd (List.cons_prefix_cons.mp h).1 (by decide)
    rcases List.infix_cons_iff.mp h with h | h
    · exact hplain.1 (List.cons_prefix_cons.mp (List.cons_prefix_cons.mp h).2).2
    rcases List.infix_cons_iff.mp h with h | h
    · exact hplain.2 (List.cons_prefix_cons.mp h).2
    · exact hhyphens ((List.prefix_append ['-', '-'] ['>']).isInfix.trans h)
  exact Text.not_infix_append (by decide) hopening

theorem dropPast?_comment {cs : List Char} (hhyphens : ¬ "--".toList <:+: cs) (back : List Char) :
    Text.dropPast? "-->".toList ("!--".toList ++ (cs ++ ("-->".toList ++ back))) =
      some (match pastEarlyEnd? cs with
        | some tail => tail ++ ("-->".toList ++ back)
        | none => back) := by
  cases hend : pastEarlyEnd? cs with
  | none =>
    have hplain := pastEarlyEnd?_eq_none_iff.mp hend
    rw [← List.append_assoc]
    exact Text.dropPast?_append (by decide) (end_notMem_comment hhyphens hplain) back
  | some tail =>
    unfold pastEarlyEnd? at hend
    split at hend
    · obtain rfl := Option.some.inj hend
      have hfirst : ¬ "-->".toList <:+: ['!'] ++ "-->".toList.dropLast := by decide
      exact Text.dropPast?_append (by decide) hfirst _
    · obtain rfl := Option.some.inj hend
      have hfirst : ¬ "-->".toList <:+: ['!', '-'] ++ "-->".toList.dropLast := by decide
      exact Text.dropPast?_append (by decide) hfirst _
    · cases hend

theorem dropPast?_instruction (cs back : List Char) :
    Text.dropPast? ['>'] ('?' :: (cs ++ ("?>".toList ++ back))) =
      some (match Text.dropPast? ['>'] cs with
        | some tail => tail ++ ("?>".toList ++ back)
        | none => back) := by
  cases hend : Text.dropPast? ['>'] cs with
  | none =>
    have hno : '>' ∉ '?' :: cs ++ ['?'] := by simp [dropPast?_bracket_eq_none_iff.mp hend]
    have hchars : '?' :: (cs ++ ("?>".toList ++ back)) = ('?' :: cs ++ ['?']) ++ '>' :: back := by simp
    rw [hchars]
    exact Text.dropPast?_append_of_notMem hno back
  | some tail =>
    have hskip := Text.dropPast?_skip (by decide : '>' ∉ ['?']) [] (cs ++ ("?>".toList ++ back))
    rw [List.singleton_append] at hskip
    rw [hskip]
    exact Text.dropPast?_append_right hend _

/-- **A remark** goes as far as its remainder. -/
theorem construct?_body (r : Remark) (back : List Char) :
    construct? (r.body ++ back) = some (none, r.remainder ++ back) := by
  cases r with
  | comment cs hhyphens hlast =>
    have hread : construct? ("!--".toList ++ (cs ++ ("-->".toList ++ back))) = _ :=
      congrArg (Option.map fun more => (none, more)) (dropPast?_comment hhyphens back)
    simp only [body, closing, remainder, pastEnd?, List.append_assoc]
    rw [hread]
    cases pastEarlyEnd? cs <;> simp
  | instruction cs h =>
    have hread : construct? ('?' :: (cs ++ ("?>".toList ++ back))) = _ :=
      congrArg (Option.map fun more => (none, more)) (dropPast?_instruction cs back)
    simp only [body, closing, remainder, pastEnd?, List.cons_append, List.append_assoc]
    rw [hread]
    cases Text.dropPast? ['>'] cs <;> simp

/-- A remark, and what remains of it, are alike for the scanner. -/
theorem tagContents_chars (r : Remark) (back : List Char) :
    tagContents (r.chars ++ back) = tagContents (r.remainder ++ back) :=
  tagContents_of_construct (dropPast?_opening _) (r.construct?_body back)

theorem closed {r : Remark} (h : r.IsPlain) : Closed r.chars := by
  have hbody := r.construct?_body []
  rw [remainder_of_isPlain h, List.append_nil] at hbody
  exact closed_of_construct? hbody

end Remark

/-! ## Items -/

/-- What may stand between the angle brackets of a tag, as far as these are concerned: each quotation
mark is closed, and no closing bracket stands outside of quotes. -/
inductive IsTagText : List Char → Prop
  | nil : IsTagText []
  | plain {c : Char} {cs : List Char} (hc : c ≠ '>' ∧ c ≠ '"' ∧ c ≠ '\'') (h : IsTagText cs) :
      IsTagText (c :: cs)
  | quoted (mark : QuoteMark) {value cs : List Char} (hvalue : mark.char ∉ value) (h : IsTagText cs) :
      IsTagText (mark.char :: (value ++ mark.char :: cs))

theorem IsTagText.passes (h : IsTagText cs) : Passes cs := by
  induction h with
  | nil => exact passes_nil
  | @plain c cs hc _ ih =>
    have hone : Passes [c] := passes_of_forall (List.forall_mem_singleton.mpr hc)
    exact hone.append ih
  | quoted mark hvalue _ ih =>
    have hchars := (passes_quoted mark hvalue).append ih
    simpa using hchars

/-- What a document is made of, up to what stands in its tags. -/
inductive Item where
  | text (cs : List Char) (h : '<' ∉ cs)
  | remark (r : Remark)
  | doctype (cs : List Char)
  | endTag (cs : List Char) (h : '>' ∉ cs)
  | characterData (cs : List Char) (h : ¬ "]]>".toList <:+: cs)
  | tag (cs : List Char) (hfirst : ∀ c ∈ ['!', '?', '/'], cs.head? ≠ some c) (h : IsTagText cs)

namespace Item

def chars : Item → List Char
  | text cs _ => cs
  | remark r => r.chars
  | doctype cs => '<' :: ("!DOCTYPE".toList ++ (cs ++ ['>']))
  | endTag cs _ => '<' :: '/' :: (cs ++ ['>'])
  | characterData cs _ => '<' :: ("![CDATA[".toList ++ (cs ++ "]]>".toList))
  | tag cs _ _ => '<' :: (cs ++ ['>'])

/-- Whether there is no bracket in a remark, or in the declaration of a document type, that the scanner
takes for its end. -/
def IsPlain : Item → Prop
  | remark r => r.IsPlain
  | doctype cs => '>' ∉ cs
  | _ => True

theorem closed {i : Item} (h : i.IsPlain) : Closed i.chars := by
  cases i with
  | text cs hcs => exact .text hcs
  | remark r => exact r.closed h
  | doctype cs =>
    have hcs : '>' ∉ "!DOCTYPE".toList ++ cs := by
      rw [List.mem_append, not_or]
      exact ⟨by decide, h⟩
    have hread : construct? ("!DOCTYPE".toList ++ cs ++ ['>']) = some (none, []) :=
      construct?_of_terminator hcs rfl
    rw [List.append_assoc] at hread
    exact closed_of_construct? hread
  | endTag cs hcs =>
    have hslash : '>' ∉ '/' :: cs := by simpa using hcs
    have hread : construct? ('/' :: cs ++ ['>']) = some (none, []) :=
      construct?_of_terminator hslash rfl
    exact closed_of_construct? hread
  | characterData cs hcs =>
    have hread := construct?_characterData hcs []
    rw [List.append_nil] at hread
    exact closed_of_construct? hread
  | tag cs hfirst hcs => exact closed_of_construct? (construct?_of_passes hcs.passes hfirst [])

end Item

/-- **Between the items of a document** no construct is open. -/
theorem closed_items {items : List Item} (h : ∀ i ∈ items, i.IsPlain) :
    Closed (items.flatMap Item.chars) := by
  induction items with
  | nil => exact .text List.not_mem_nil
  | cons i items ih =>
    rw [List.forall_mem_cons] at h
    rw [List.flatMap_cons]
    exact (Item.closed h.1).append (ih h.2)

/-! ## Documents with remarks -/

/-- What a document says hangs on its tags. -/
theorem parse_congr {cs cs' : List Char} (h : tagContents cs = tagContents cs') (origin : Origin) :
    parse (String.ofList cs).toUTF8 origin = parse (String.ofList cs').toUTF8 origin := by
  have hread : readDocument (String.ofList cs) = readDocument (String.ofList cs') := by
    unfold readDocument tags
    rw [String.toList_ofList, String.toList_ofList, h]
  unfold parse
  rw [Text.fromUTF8?_toUTF8, Text.fromUTF8?_toUTF8]
  simp only [hread]

/-- A remark in a document is as good as what remains of it. -/
theorem Closed.parse_remainder (h : Closed front) (r : Remark) (back : List Char) (origin : Origin) :
    parse (String.ofList (front ++ (r.chars ++ back))).toUTF8 origin =
      parse (String.ofList (front ++ (r.remainder ++ back))).toUTF8 origin := by
  apply parse_congr
  rw [h.tagContents_append, h.tagContents_append, r.tagContents_chars]

/-- **Remarks go unseen.** No construct is open between the items of a document, nor within its text,
which is an item before the place and begins what follows. Where none is open, a document with a plain
remark says what it says without, and one with any other remark says what it says with the remainder in
the place of the remark. What follows need not be a document at all. -/
theorem parse_remark (r : Remark) (back : List Char) (origin : Origin) :
    (∀ items : List Item, (∀ i ∈ items, i.IsPlain) → Closed (items.flatMap Item.chars)) ∧
      ∀ front : List Char, Closed front →
        (r.IsPlain → parse (String.ofList (front ++ (r.chars ++ back))).toUTF8 origin =
          parse (String.ofList (front ++ back)).toUTF8 origin) ∧
        parse (String.ofList (front ++ (r.chars ++ back))).toUTF8 origin =
          parse (String.ofList (front ++ (r.remainder ++ back))).toUTF8 origin := by
  refine ⟨fun items => closed_items, fun front hfront => ?_⟩
  refine ⟨fun hplain => ?_, hfront.parse_remainder r back origin⟩
  rw [hfront.parse_remainder, Remark.remainder_of_isPlain hplain, List.nil_append]

namespace Sample

theorem not_end_declaration : ¬ "?>".toList <:+: "xml version='1.0'".toList := by decide +kernel

theorem opening_notMem_newline : '<' ∉ ['\n'] := by decide

/-- What stands before the root of a document. -/
def prolog : List Item :=
  [.remark (.instruction "xml version='1.0'".toList not_end_declaration),
    .text ['\n'] opening_notMem_newline]

theorem isPlain_prolog : ∀ i ∈ prolog, i.IsPlain := by
  have hdeclaration : '>' ∉ "xml version='1.0'".toList := by decide +kernel
  exact List.forall_mem_cons.mpr ⟨hdeclaration, List.forall_mem_singleton.mpr trivial⟩

/-- A comment with a tag and a closing bracket in it. -/
def aside : Remark := .comment " > <form> ".toList (by decide +kernel) (by decide +kernel)

theorem isPlain_aside : aside.IsPlain := by
  have hbegin : ¬ ['>'] <+: " > <form> ".toList ∧ ¬ ['-', '>'] <+: " > <form> ".toList := by
    decide +kernel
  exact hbegin

/-- Between the prolog and the root of a document a comment goes unseen. -/
theorem parse_remark_order :
    (∀ i ∈ prolog, i.IsPlain) ∧ Closed (prolog.flatMap Item.chars) ∧ aside.IsPlain ∧
      parse (String.ofList (prolog.flatMap Item.chars ++
        (aside.chars ++ (order.pieces.drop 2).flatMap Piece.chars))).toUTF8 (.resource "order.form") =
          .ok ⟨some "Order", ["<a>.form"], .resource "order.form"⟩ := by
  obtain ⟨hitems, hremark⟩ := parse_remark aside ((order.pieces.drop 2).flatMap Piece.chars)
    (.resource "order.form")
  have hclosed := hitems prolog isPlain_prolog
  refine ⟨isPlain_prolog, hclosed, isPlain_aside, ?_⟩
  have hchars : prolog.flatMap Item.chars ++ (order.pieces.drop 2).flatMap Piece.chars =
      order.pieces.flatMap Piece.chars := by decide +kernel
  have hread : readDocument order.text = .ok (some "Order", ["<a>.form"]) := by
    have hbinding : order.binding = some "Order" := by decide +kernel
    have hnested : order.nested = ["<a>.form"] := by decide +kernel
    rw [order.readDocument_text (by decide +kernel), hbinding, hnested]
  rw [(hremark _ hclosed).1 isPlain_aside, hchars]
  exact parse_of_readDocument hread _

/-- The tag of a form without attributes. -/
def opening : Markup := { sharing.root with attributes := [] }

/-- A tag that refers to another form. -/
def reference : Markup := { mention with attributes := [usual "form-file" "z.form" isName_reference] }

theorem closed_opening : Closed (Piece.tag opening).chars :=
  closed_of_construct? (opening.construct?_eq [])

theorem bracket_notMem_form : '>' ∉ "form".toList := by decide +kernel

def ending : Piece := .endTag "form".toList bracket_notMem_form

/-- What remains of a remark is read, though it may hold a reference. -/
theorem parse_of_remainder {r : Remark} {tail : List Char} (htail : '<' ∉ tail)
    (hr : r.remainder = (Piece.tag reference).chars ++ tail) (origin : Origin) :
    parse (String.ofList ((Piece.tag opening).chars ++ (r.chars ++ ending.chars))).toUTF8 origin =
      .ok ⟨none, ["z.form"], origin⟩ := by
  have hpieces : (Piece.tag opening).chars ++ (r.remainder ++ ending.chars) =
      [.tag opening, .tag reference, .text tail htail, ending].flatMap Piece.chars := by
    rw [hr]
    simp [Piece.chars]
  have htags : tags ([.tag opening, .tag reference, .text tail htail, ending].flatMap Piece.chars) =
      [opening.toTag, reference.toTag] := 
    tags_flatMap (by decide +kernel : ∀ m ∈ [opening, reference], '\u1680' ∉ m.name.chars)
  have hread : readDocument (String.ofList
      ([.tag opening, .tag reference, .text tail htail, ending].flatMap Piece.chars)) =
        .ok (none, ["z.form"]) := by
    unfold readDocument
    rw [String.toList_ofList, htags]
    rfl
  rw [closed_opening.parse_remainder, hpieces, parse_of_readDocument hread]

theorem parse_without_remark (origin : Origin) :
    parse (String.ofList ((Piece.tag opening).chars ++ ending.chars)).toUTF8 origin =
      .ok ⟨none, [], origin⟩ := by
  have htags : tags ([.tag opening, ending].flatMap Piece.chars) = [opening.toTag] :=
    tags_flatMap (by decide +kernel : ∀ m ∈ [opening], '\u1680' ∉ m.name.chars)
  have hread : readDocument (String.ofList ([.tag opening, ending].flatMap Piece.chars)) =
      .ok (none, []) := by
    unfold readDocument
    rw [String.toList_ofList, htags]
    rfl
  rw [← parse_of_readDocument hread origin]
  simp only [List.flatMap_cons, List.flatMap_nil, List.append_nil]

/-- **Not all remarks go unseen.** A reference counts that stands in a comment behind a closing bracket
with which the comment begins, as in `<form><!--><nested-form form-file="z.form"/>--></form>`, and so does
one behind a closing bracket in an instruction. -/
theorem not_forall_unseen :
    (¬ ∀ cs hhyphens hlast, ∀ origin, parse (String.ofList ((Piece.tag opening).chars ++
        ((Remark.comment cs hhyphens hlast).chars ++ ending.chars))).toUTF8 origin =
          parse (String.ofList ((Piece.tag opening).chars ++ ending.chars)).toUTF8 origin) ∧
      ¬ ∀ cs h, ∀ origin, parse (String.ofList ((Piece.tag opening).chars ++
        ((Remark.instruction cs h).chars ++ ending.chars))).toUTF8 origin =
          parse (String.ofList ((Piece.tag opening).chars ++ ending.chars)).toUTF8 origin := by
  constructor
  · intro hall
    have hseen := hall "><nested-form form-file=\"z.form\"/>".toList (by decide +kernel)
      (by decide +kernel) (.resource "x.form")
    have hremainder : (Remark.comment "><nested-form form-file=\"z.form\"/>".toList (by decide +kernel)
        (by decide +kernel)).remainder = (Piece.tag reference).chars ++ "-->".toList := by decide +kernel
    rw [parse_of_remainder (by decide) hremainder, parse_without_remark] at hseen
    cases hseen
  · intro hall
    have hseen := hall "x ><nested-form form-file=\"z.form\"/>".toList (by decide +kernel)
      (.resource "x.form")
    have hremainder : (Remark.instruction "x ><nested-form form-file=\"z.form\"/>".toList
        (by decide +kernel)).remainder = (Piece.tag reference).chars ++ "?>".toList := by decide +kernel
    rw [parse_of_remainder (by decide) hremainder, parse_without_remark] at hseen
    cases hseen

end Sample

end FormWeaver.Form
