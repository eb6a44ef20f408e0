import FormWeaver.Text.Blank

/-!
# Cutting texts

Every reader of this library works by cutting: at the first occurrence of a separator (`cut?`),
after it (`dropPast?`), at each separator character (`List.splitOnP`) or at line ends (`lines`).
`replaceAll` is the one operation that changes a text: it substitutes from left to right and never looks
at what it has written.
-/

namespace FormWeaver.Text

/-- The text before the first occurrence of `sep` and the text after it. -/
def cut? (sep : List Char) : List Char → Option (List Char × List Char)
  | [] => if sep.isEmpty then some ([], []) else none
  | c :: cs =>
    if sep.isPrefixOf (c :: cs) then some ([], (c :: cs).drop sep.length)
    else (cut? sep cs).map fun (before, after) => (c :: before, after)

/-- The text after the first occurrence of `sep`. -/
def dropPast? (sep cs : List Char) : Option (List Char) := (cut? sep cs).map (·.2)

/-- A cut loses nothing but the separator. -/
theorem eq_append_of_cut? {sep cs before after : List Char} (h : cut? sep cs = some (before, after)) :
    cs = before ++ sep ++ after := by
  induction cs generalizing before with
  | nil =>
    unfold cut? at h
    split at h
    · next hs => simp_all
    · simp at h
  | cons c cs ih =>
    unfold cut? at h
    split at h
    · next hp =>
      obtain ⟨t, ht⟩ := List.isPrefixOf_iff_prefix.mp hp
      simp only [Option.some.injEq, Prod.mk.injEq] at h
      obtain ⟨rfl, rfl⟩ := h
      simp [← ht]
    · cases hc : cut? sep cs with
      | none => simp [hc] at h
      | some r =>
        obtain ⟨b, a⟩ := r
        simp only [hc, Option.map_some, Option.some.injEq, Prod.mk.injEq] at h
        obtain ⟨rfl, rfl⟩ := h
        simp [ih hc]

/-- Substitutes `new` for each occurrence of `old`, from left to right and without overlap; the
first argument counts the characters of an occurrence that are still to be passed over. -/
def replaceFrom (old new : List Char) : Nat → List Char → List Char
  | _, [] => []
  | skip + 1, _ :: cs => replaceFrom old new skip cs
  | 0, c :: cs =>
    if old.isPrefixOf (c :: cs) then new ++ replaceFrom old new (old.length - 1) cs
    else c :: replaceFrom old new 0 cs

/-- Substitutes `new` for each occurrence of the non-empty text `old`. -/
def replaceAll (old new cs : List Char) : List Char := replaceFrom old new 0 cs

/-- `replaceAll` of one character by another. -/
def replaceChar (old new : Char) (s : String) : String :=
  String.ofList (s.toList.map fun c => if c = old then new else c)

/-- Cuts behind each line feed, keeping it with its line. -/
def chunks : List Char → List (List Char)
  | [] => []
  | c :: cs =>
    if c = '\n' then [c] :: chunks cs
    else match chunks cs with
      | [] => [[c]]
      | line :: rest => (c :: line) :: rest

/-- A line without its line end, which is a line feed or a carriage return and a line feed. -/
def chopLine (line : List Char) : List Char :=
  match line.reverse with
  | '\n' :: '\r' :: rest => rest.reverse
  | '\n' :: rest => rest.reverse
  | _ => line

/-- The lines of a text without their line ends; what follows the last line feed is a line when
it is not empty, and keeps a carriage return that ends it. -/
def lines (cs : List Char) : List (List Char) := (chunks cs).map chopLine

/-- Cutting into lines loses no character. -/
theorem flatten_chunks (cs : List Char) : (chunks cs).flatten = cs := by
  induction cs with
  | nil => rfl
  | cons c cs ih =>
    unfold chunks
    split
    · simp [ih]
    · cases h : chunks cs with
      | nil => simp [h] at ih ⊢; exact ih
      | cons line rest => simp [h] at ih ⊢; exact ih

/-- Joins texts with a separator between neighbours. -/
def joinWith (sep : String) (items : List String) : String := sep.intercalate items

end FormWeaver.Text
