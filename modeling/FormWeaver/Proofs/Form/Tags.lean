import FormWeaver.Form.Parser
import FormWeaver.Text.Utf8

/-!
# Tags and attributes one at a time

The scanner and the reader of attributes recur on what is left of a text. Each step of either is an
equation here, from what it cuts off to what it goes on with. So is each step over the tags, before the
root of a document and behind it (`Reading.addAll_mentions`, `Reading.addAll_behind`). What is read of a
text then is the form in the bytes of the text, and in a file of these bytes
(`parseFile_of_readDocument`).
-/

namespace FormWeaver.Form

theorem tagContents_of_none {cs : List Char} (ho : Text.dropPast? ['<'] cs = none) :
    tagContents cs = [] := by
  rw [tagContents]
  split
  · rfl
  · next rest h =>
    rw [ho] at h
    simp at h

theorem tagContents_of_open {cs rest : List Char} (ho : Text.dropPast? ['<'] cs = some rest)
    (hc : construct? rest = none) : tagContents cs = [] := by
  rw [tagContents]
  split
  · rfl
  · next rest' h =>
    rw [ho] at h
    obtain rfl := Option.some.inj h
    split
    · rfl
    · next h' =>
      rw [hc] at h'
      simp at h'

/-- A construct that is closed is passed over, and its contents are kept if it is a tag. -/
theorem tagContents_of_construct {cs rest more : List Char} {contents : Option (List Char)}
    (ho : Text.dropPast? ['<'] cs = some rest) (hc : construct? rest = some (contents, more)) :
    tagContents cs = contents.toList ++ tagContents more := by
  rw [tagContents]
  split
  · next h =>
    rw [ho] at h
    simp at h
  · next rest' h =>
    rw [ho] at h
    obtain rfl := Option.some.inj h
    split
    · next h' =>
      rw [hc] at h'
      simp at h'
    · next contents' more' h' =>
      rw [hc] at h'
      simp only [Option.some.injEq, Prod.mk.injEq] at h'
      obtain ⟨rfl, rfl⟩ := h'
      rfl

/-- Texts that go on alike behind their first angle bracket hold the same tags. -/
theorem tagContents_congr {cs cs' : List Char}
    (h : Text.dropPast? ['<'] cs = Text.dropPast? ['<'] cs') : tagContents cs = tagContents cs' := by
  cases ho : Text.dropPast? ['<'] cs with
  | none => rw [tagContents_of_none ho, tagContents_of_none (h.symm.trans ho)]
  | some rest =>
    cases hc : construct? rest with
    | none => rw [tagContents_of_open ho hc, tagContents_of_open (h.symm.trans ho) hc]
    | some found => rw [tagContents_of_construct ho hc, tagContents_of_construct (h.symm.trans ho) hc]

theorem attributes_of_none {cs : List Char} (he : Text.cut? ['='] (Text.trimStart cs) = none) :
    attributes cs = [] := by
  rw [attributes]
  split
  · rfl
  · next h =>
    rw [he] at h
    simp at h

/-- An attribute is a name, an equals sign and a value in quotes of either kind. -/
theorem attributes_of_quoted {cs before after body value more : List Char} {quote : Char}
    (he : Text.cut? ['='] (Text.trimStart cs) = some (before, after))
    (hq : Text.trimStart after = quote :: body) (hquote : (quote = '"' || quote = '\'') = true)
    (hv : Text.cut? [quote] body = some (value, more)) :
    attributes cs = (Text.trim before, value) :: attributes more := by
  rw [attributes]
  split
  · next h =>
    rw [he] at h
    simp at h
  · next before' after' h =>
    rw [he] at h
    simp only [Option.some.injEq, Prod.mk.injEq] at h
    obtain ⟨rfl, rfl⟩ := h
    split
    · next h' =>
      rw [hq] at h'
      simp at h'
    · next quote' body' h' =>
      rw [hq] at h'
      obtain ⟨rfl, rfl⟩ := List.cons.inj h'
      rw [if_pos hquote]
      split
      · next hv' =>
        rw [hv] at hv'
        simp at hv'
      · next value' more' hv' =>
        rw [hv] at hv'
        simp only [Option.some.injEq, Prod.mk.injEq] at hv'
        obtain ⟨rfl, rfl⟩ := hv'
        rfl

/-! ## What the tags tell -/

/-- The forms that some tags refer to, with repetitions. -/
def mentions (ts : List Tag) : List String :=
  (ts.filter (·.localName == "nested-form")).filterMap (·.attribute? "form-file")

theorem mentions_append (ts ts' : List Tag) : mentions (ts ++ ts') = mentions ts ++ mentions ts' := by
  rw [mentions, List.filter_append, List.filterMap_append]
  rfl

theorem mentions_of_ne {t : Tag} (h : t.localName ≠ "nested-form") (ts : List Tag) :
    mentions (t :: ts) = mentions ts := by
  rw [mentions, List.filter_cons_of_neg (by simpa using h)]
  rfl

/-- Adding each once keeps the first mention of each that is new. -/
theorem foldl_addOnce (acc xs : List String) :
    xs.foldl addOnce acc = acc ++ (xs.filter (!acc.contains ·)).eraseDups := by
  induction xs generalizing acc with
  | nil => simp
  | cons x xs ih =>
    rw [List.foldl_cons, ih, addOnce, List.filter_cons]
    cases hx : acc.contains x with
    | true => simp
    | false =>
      have hfilter : xs.filter (!(acc ++ [x]).contains ·) =
          (xs.filter (!acc.contains ·)).filter (fun b => !b == x) := by
        rw [List.filter_filter]
        refine List.filter_congr fun y _ => ?_
        rw [List.contains_append, Bool.not_or, Bool.and_comm, List.contains_cons,
          List.contains_nil, Bool.or_false]
      rw [if_neg (by simp), if_pos (by simp), List.eraseDups_cons, hfilter, List.append_assoc,
        List.singleton_append]

theorem foldl_addOnce_nil (xs : List String) : xs.foldl addOnce [] = xs.eraseDups := by
  rw [foldl_addOnce, List.filter_eq_self.mpr (by simp), List.nil_append]

namespace Reading

variable (binding : Option String) (nested : List String) {t : Tag}

theorem add_root (h : t.localName = "form") :
    add ⟨none, nested⟩ t = .ok ⟨some (bindingOf t), nested⟩ := by
  rw [add, if_pos (by simp [h])]

/-- A tag that refers to a form tells of it, before the root and behind it. -/
theorem add_mention (root : Option (Option String)) (h : t.localName = "nested-form") :
    add ⟨root, nested⟩ t = .ok ⟨root, (mentions [t]).foldl addOnce nested⟩ := by
  rw [add, if_neg (by simp [h]), if_pos h]
  cases hfile : t.attribute? "form-file" <;> simp [mentions, h, hfile]

/-- Any other tag before the root is a fault. -/
theorem add_other (hform : t.localName ≠ "form") (hmention : t.localName ≠ "nested-form") :
    add ⟨none, nested⟩ t = .error .otherRoot := by
  rw [add, if_neg (by simp [hform]), if_neg hmention]
  exact if_pos rfl

/-- Behind the root a tag tells of a form that is referred to, or of nothing. -/
theorem add_behind (t : Tag) :
    add ⟨some binding, nested⟩ t = .ok ⟨some binding, (mentions [t]).foldl addOnce nested⟩ := by
  by_cases h : t.localName = "nested-form"
  · exact add_mention nested (some binding) h
  · rw [add, if_neg (by simp), if_neg h, if_neg (by simp), mentions_of_ne h]
    rfl

theorem addAll_behind (ts : List Tag) :
    addAll ⟨some binding, nested⟩ ts = .ok ⟨some binding, (mentions ts).foldl addOnce nested⟩ := by
  induction ts generalizing nested with
  | nil => rfl
  | cons t ts ih =>
    have hcons : mentions (t :: ts) = mentions [t] ++ mentions ts := mentions_append [t] ts
    rw [addAll, add_behind, hcons, List.foldl_append]
    exact ih _

/-- Tags that refer to forms are read on before the root. -/
theorem addAll_mentions {before : List Tag} (h : ∀ t ∈ before, t.localName = "nested-form")
    (ts : List Tag) :
    addAll ⟨none, nested⟩ (before ++ ts) =
      addAll ⟨none, (mentions before).foldl addOnce nested⟩ ts := by
  induction before generalizing nested with
  | nil => rfl
  | cons t before ih =>
    rw [List.forall_mem_cons] at h
    have hcons : mentions (t :: before) = mentions [t] ++ mentions before := mentions_append [t] before
    rw [List.cons_append, addAll, add_mention nested none h.1, hcons, List.foldl_append]
    exact ih _ h.2

end Reading

/-! ## From text to form -/

variable {text : String} {binding : Option String} {nested : List String}

theorem parse_of_readDocument (h : readDocument text = .ok (binding, nested)) (origin : Origin) :
    parse text.toUTF8 origin = .ok ⟨binding, nested, origin⟩ := by
  unfold parse
  rw [Text.fromUTF8?_toUTF8]
  simp only [h]

theorem parseFile_of_readDocument {d : Disk} {p : Path} (hcontents : d.contents p = .ok text.toUTF8)
    (h : readDocument text = .ok (binding, nested)) :
    parseFile d p = .ok ⟨binding, nested, .file p⟩ := by
  unfold parseFile
  rw [hcontents]
  exact parse_of_readDocument h (.file p)

end FormWeaver.Form
