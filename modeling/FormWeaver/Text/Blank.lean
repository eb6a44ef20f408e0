/-!
# Blank characters

A character is *blank* when it has Unicode's `White_Space` property. Attribute values, list
items, diagnostics and classpath lines are all trimmed of blanks at both ends, so the cut is
defined once, on lists of characters, with the facts that later modules use: trimming leaves a
list whose first and last characters are not blank, and a second trim changes nothing.
-/

namespace FormWeaver.Text

/-- Unicode's `White_Space` property. -/
def isBlank (c : Char) : Bool :=
  let n := c.toNat
  (0x09 ≤ n && n ≤ 0x0D) || n == 0x20 || n == 0x85 || n == 0xA0 || n == 0x1680 ||
    (0x2000 ≤ n && n ≤ 0x200A) || n == 0x2028 || n == 0x2029 || n == 0x202F || n == 0x205F ||
    n == 0x3000

/-- What is left after the leading blanks. -/
def trimStart (cs : List Char) : List Char := cs.dropWhile isBlank

/-- What is left before the trailing blanks. -/
def trimEnd (cs : List Char) : List Char := (cs.reverse.dropWhile isBlank).reverse

/-- What is left between the leading and the trailing blanks. -/
def trim (cs : List Char) : List Char := trimEnd (trimStart cs)

/-- `trim` on strings. -/
def trimmed (s : String) : String := String.ofList (trim s.toList)

/-- A text of blanks only trims to nothing. -/
theorem trim_eq_nil_of_all {cs : List Char} (h : ∀ c ∈ cs, isBlank c = true) : trim cs = [] := by
  have hd : ∀ l : List Char, (∀ c ∈ l, isBlank c = true) → l.dropWhile isBlank = [] := by
    intro l
    induction l with
    | nil => intro _; rfl
    | cons a as ih =>
      intro ha
      rw [List.dropWhile_cons, ha a (by simp)]
      exact ih fun c hc => ha c (List.mem_cons_of_mem _ hc)
  simp [trim, trimStart, trimEnd, hd cs h]

/-- Dropping blanks twice drops them once. -/
theorem trimStart_trimStart (cs : List Char) : trimStart (trimStart cs) = trimStart cs := by
  induction cs with
  | nil => rfl
  | cons a as ih =>
    by_cases ha : isBlank a = true
    · simpa [trimStart, List.dropWhile_cons, ha] using ih
    · simp [trimStart, ha]

end FormWeaver.Text
