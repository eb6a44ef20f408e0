import FormWeaver.Proofs.Form.Extraction

/-!
# The root of a document

What a document tells hangs on the first of its tags that does more than refer to a form: if this is a
`form` tag it is the root, and if it is any other tag the document is no form (`Tells`). So bytes are a
form exactly when they are a text with such a root, and otherwise they are refused with the fault that
they have (`parse_iff_tells`). While the first tag of all does not refer to a form, it is the root that
counts. But `not_forall_first_is_root` shows a document whose outermost element refers to a form, and
which is a form nevertheless.
-/

namespace FormWeaver.Form

/-- What the tags of a document tell: a binding and the forms that are referred to, or a fault. -/
inductive Tells : List Tag → Except FormFault (Option String × List String) → Prop
  /-- Tags that refer to forms count also before the root. -/
  | form {before after : List Tag} {root : Tag} (hbefore : ∀ t ∈ before, t.localName = "nested-form")
      (hroot : root.localName = "form") : Tells (before ++ root :: after)
        (.ok (bindingOf root, (mentions (before ++ after)).eraseDups))
  | other {before after : List Tag} {t : Tag} (hbefore : ∀ t ∈ before, t.localName = "nested-form")
      (hform : t.localName ≠ "form") (hmention : t.localName ≠ "nested-form") :
      Tells (before ++ t :: after) (.error .otherRoot)
  | rootless {ts : List Tag} (h : ∀ t ∈ ts, t.localName = "nested-form") : Tells ts (.error .noRoot)

variable {text : String} {ts : List Tag} {result : Except FormFault (Option String × List String)}

/-- Tags tell something, whatever they are. -/
theorem exists_tells (ts : List Tag) : ∃ result, Tells ts result := by
  induction ts with
  | nil => exact ⟨_, .rootless (List.forall_mem_nil _)⟩
  | cons t ts ih =>
    by_cases hmention : t.localName = "nested-form"
    · have hcons : ∀ {before : List Tag}, (∀ t ∈ before, t.localName = "nested-form") →
          ∀ b ∈ t :: before, b.localName = "nested-form" := fun h => List.forall_mem_cons.mpr ⟨hmention, h⟩
      obtain ⟨result, h⟩ := ih
      cases h with
      | form hbefore hroot => exact ⟨_, .form (hcons hbefore) hroot⟩
      | other hbefore hform hother => exact ⟨_, .other (hcons hbefore) hform hother⟩
      | rootless h => exact ⟨_, .rootless (hcons h)⟩
    · by_cases hform : t.localName = "form"
      · exact ⟨_, .form (List.forall_mem_nil _) hform⟩
      · exact ⟨_, .other (List.forall_mem_nil _) hform hmention⟩

theorem readDocument_of_tells (h : Tells (tags text.toList) result) : readDocument text = result := by
  unfold readDocument
  generalize tags text.toList = ts at h
  cases h with
  | @form before after root hbefore hroot =>
    rw [Reading.addAll_mentions [] hbefore, Reading.addAll, Reading.add_root _ hroot]
    simp only
    rw [Reading.addAll_behind, ← List.foldl_append, ← mentions_append, foldl_addOnce_nil]
  | other hbefore hform hmention =>
    rw [Reading.addAll_mentions [] hbefore, Reading.addAll, Reading.add_other _ hform hmention]
  | rootless h =>
    have hread := Reading.addAll_mentions [] h []
    rw [List.append_nil] at hread
    rw [hread]
    rfl

/-- **What is read of a document** is what its tags tell. -/
theorem readDocument_iff_tells : readDocument text = result ↔ Tells (tags text.toList) result := by
  constructor
  · intro h
    obtain ⟨told, htold⟩ := exists_tells (tags text.toList)
    rwa [← h, readDocument_of_tells htold]
  · exact readDocument_of_tells

/-! ## What is a form -/

variable {bytes : ByteArray} {origin : Origin}

theorem parse_eq_ok_iff {form : Form} : parse bytes origin = .ok form ↔
    ∃ text binding nested, String.fromUTF8? bytes = some text ∧
      readDocument text = .ok (binding, nested) ∧ form = ⟨binding, nested, origin⟩ := by
  unfold parse
  cases String.fromUTF8? bytes with
  | none => simp
  | some text =>
    cases hread : readDocument text with
    | error fault => simp [hread]
    | ok told =>
      simp only [hread]
      constructor
      · intro h
        exact ⟨text, told.1, told.2, rfl, hread, (Except.ok.inj h).symm⟩
      · rintro ⟨text', binding, nested, htext, hread', rfl⟩
        rw [← Option.some.inj htext, hread] at hread'
        rw [Except.ok.inj hread']

theorem parse_eq_error_iff {e : DescriptorError} : parse bytes origin = .error e ↔
    (String.fromUTF8? bytes = none ∧ e = .malformed origin .notText) ∨
      ∃ text fault, String.fromUTF8? bytes = some text ∧ readDocument text = .error fault ∧
        e = .malformed origin fault := by
  unfold parse
  cases String.fromUTF8? bytes with
  | none => simp [eq_comm]
  | some text =>
    cases hread : readDocument text with
    | error fault => simp [hread, eq_comm]
    | ok told => simp [hread]

/-- The local name of the first tag, when the bytes are a text with a tag in it. -/
def firstName? (bytes : ByteArray) : Option String :=
  (String.fromUTF8? bytes).bind fun text => (tags text.toList).head?.map Tag.localName

/-- Unless the first tag refers to a form, it is the root that tags need. -/
theorem Tells.exists_ok_iff (h : Tells ts result) (hfirst : ts.head?.map Tag.localName ≠ some "nested-form") :
    (∃ told, result = .ok told) ↔ ts.head?.map Tag.localName = some "form" := by
  -- No tag comes before the one that decides, as it would refer to a form.
  have hbegin : ∀ {before : List Tag} (t : Tag) (after : List Tag), ts = before ++ t :: after →
      (∀ b ∈ before, b.localName = "nested-form") → ts.head? = some t := by
    rintro (_ | ⟨b, before⟩) t after rfl hbefore
    · rfl
    · exact absurd (congrArg some (hbefore b List.mem_cons_self)) hfirst
  cases h with
  | form hbefore hroot =>
    rw [hbegin _ _ rfl hbefore]
    simp [hroot]
  | other hbefore hform _ =>
    rw [hbegin _ _ rfl hbefore]
    simp [hform]
  | rootless h =>
    cases ts with
    | nil => simp
    | cons t ts => exact absurd (congrArg some (h t List.mem_cons_self)) hfirst

theorem exists_parse_iff (hfirst : firstName? bytes ≠ some "nested-form") :
    (∃ form, parse bytes origin = .ok form) ↔ firstName? bytes = some "form" := by
  simp only [parse_eq_ok_iff]
  unfold firstName? at hfirst ⊢
  cases htext : String.fromUTF8? bytes with
  | none => simp
  | some text =>
    rw [htext, Option.bind_some] at hfirst
    have hroot := (readDocument_iff_tells.mp rfl).exists_ok_iff hfirst
    rw [Option.bind_some, ← hroot]
    constructor
    · rintro ⟨_, text', binding, nested, htext', hread, -⟩
      exact ⟨_, Option.some.inj htext' ▸ hread⟩
    · rintro ⟨told, hread⟩
      exact ⟨_, text, told.1, told.2, rfl, hread, rfl⟩

/-- **What is a form.** Bytes are a form exactly when they are a text whose tags tell of one: tags that
refer to forms, the root, and any other tags. Otherwise they are malformed, with the fault of bytes that
are no text or the one that the tags tell of. Unless the first tag refers to a form, bytes are a form
exactly when the first tag is a `form` tag. -/
theorem parse_iff_tells (bytes : ByteArray) (origin : Origin) :
    (∀ form, parse bytes origin = .ok form ↔ ∃ text binding nested,
      String.fromUTF8? bytes = some text ∧ Tells (tags text.toList) (.ok (binding, nested)) ∧
        form = ⟨binding, nested, origin⟩) ∧
    (∀ e, parse bytes origin = .error e ↔
      (String.fromUTF8? bytes = none ∧ e = .malformed origin .notText) ∨
      ∃ text fault, String.fromUTF8? bytes = some text ∧ Tells (tags text.toList) (.error fault) ∧
        e = .malformed origin fault) ∧
    (firstName? bytes ≠ some "nested-form" →
      ((∃ form, parse bytes origin = .ok form) ↔ firstName? bytes = some "form")) := by
  simp only [← readDocument_iff_tells]
  exact ⟨fun form => parse_eq_ok_iff, fun e => parse_eq_error_iff, exists_parse_iff⟩

namespace Sample

/-- The usual document is a form, and its first tag is its root. -/
theorem parse_iff_tells_sharing : firstName? sharing.text.toUTF8 ≠ some "nested-form" ∧
    firstName? sharing.text.toUTF8 = some "form" ∧
    ∃ form, parse sharing.text.toUTF8 (.resource "x.form") = .ok form := by
  have hfirst : firstName? sharing.text.toUTF8 = some "form" := by
    rw [firstName?, Text.fromUTF8?_toUTF8, Option.bind_some, sharing.tags_text (by decide +kernel)]
    rfl
  have hother : firstName? sharing.text.toUTF8 ≠ some "nested-form" := by
    rw [hfirst]
    decide
  obtain ⟨-, -, hroot⟩ := parse_iff_tells sharing.text.toUTF8 (.resource "x.form")
  exact ⟨hother, hfirst, (hroot hother).mpr hfirst⟩

theorem bracket_notMem_nested : '>' ∉ "nested-form".toList := by decide +kernel

/-- An element that refers to a form, around what would be a form by itself. -/
def wrapped : List Piece :=
  [.tag { mention with attributes := [usual "form-file" "z.form" isName_reference], isEmpty := false },
    .tag { sharing.root with attributes := [], isEmpty := true },
    .endTag "nested-form".toList bracket_notMem_nested]

/-- Not only documents with a `form` tag at their beginning are forms: an element that refers to a form
may be around it, and this reference counts. -/
theorem not_forall_first_is_root :
    (¬ ∀ bytes origin, (∃ form, parse bytes origin = .ok form) ↔ firstName? bytes = some "form") ∧
      ¬ ∀ bytes origin form, parse bytes origin = .ok form → firstName? bytes ≠ some "form" →
        form.nested = [] := by
  have htags : tags (String.ofList (wrapped.flatMap Piece.chars)).toList =
      (wrapped.filterMap Piece.markup?).map Markup.toTag := by
    rw [String.toList_ofList]
    exact tags_flatMap (by decide +kernel)
  have hfirst : firstName? (String.ofList (wrapped.flatMap Piece.chars)).toUTF8 = some "nested-form" := by
    rw [firstName?, Text.fromUTF8?_toUTF8, Option.bind_some, htags]
    rfl
  have hread : readDocument (String.ofList (wrapped.flatMap Piece.chars)) = .ok (none, ["z.form"]) := by
    unfold readDocument
    rw [htags]
    rfl
  have hparse := parse_of_readDocument hread (.resource "x.form")
  constructor
  · intro hall
    have hform := (hall _ (.resource "x.form")).mp ⟨_, hparse⟩
    rw [hfirst] at hform
    revert hform
    decide
  · intro hall
    have hnone := hall _ _ _ hparse (by rw [hfirst]; decide)
    revert hnone
    decide

end Sample

end FormWeaver.Form
