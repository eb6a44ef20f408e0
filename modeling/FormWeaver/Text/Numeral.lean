/-!
# Numerals

Numbers in texts are decimal, or pairs and runs of hexadecimal digits. Writing uses lower-case
digits; reading takes hexadecimal digits of either case. `decimalValue_toDigits` says that reading a
number that was written gives it back.
-/

namespace FormWeaver.Text

/-! ## Decimal -/

/-- A number in decimal digits. -/
def decimal (n : Nat) : String := String.ofList (Nat.toDigits 10 n)

/-- The number that decimal digits spell behind the digits of `n`. -/
def decimalFrom (n : Nat) (ds : List Char) : Nat :=
  ds.foldl (fun n c => n * 10 + (c.toNat - '0'.toNat)) n

/-- The number that decimal digits spell. -/
def decimalValue (ds : List Char) : Nat := decimalFrom 0 ds

theorem digitChar_sub_zero {d : Nat} (h : d < 10) : (Nat.digitChar d).toNat - '0'.toNat = d := by
  rw [Nat.toNat_digitChar_of_lt_ten h]
  have : '0'.toNat = 48 := rfl
  omega

theorem decimalValue_toDigits (n : Nat) : decimalValue (Nat.toDigits 10 n) = n := by
  induction n using Nat.strongRecOn with
  | ind n ih =>
    by_cases h : n < 10
    · rw [Nat.toDigits_of_lt_base h]
      simp only [decimalValue, decimalFrom, List.foldl_cons, List.foldl_nil, digitChar_sub_zero h]
      omega
    · have hd : Nat.toDigits 10 n = Nat.toDigits 10 (n / 10) ++ [Nat.digitChar (n % 10)] := by
        have := Nat.toDigits_append_toDigits (b := 10) (n := n / 10) (d := n % 10)
          (by decide) (by omega) (Nat.mod_lt n (by decide))
        rw [Nat.toDigits_of_lt_base (Nat.mod_lt n (by decide)), Nat.div_add_mod] at this
        exact this.symm
      have hq : decimalFrom 0 (Nat.toDigits 10 (n / 10)) = n / 10 := ih (n / 10) (by omega)
      unfold decimalFrom at hq
      rw [hd, decimalValue, decimalFrom, List.foldl_append, hq]
      simp only [List.foldl_cons, List.foldl_nil, digitChar_sub_zero (Nat.mod_lt n (by decide : 0 < 10))]
      omega

/-! ## Hexadecimal -/

/-- The value of a hexadecimal digit of either case. -/
def hexValue? (c : Char) : Option Nat :=
  if '0' ≤ c ∧ c ≤ '9' then some (c.toNat - '0'.toNat)
  else if 'a' ≤ c ∧ c ≤ 'f' then some (c.toNat - 'a'.toNat + 10)
  else if 'A' ≤ c ∧ c ≤ 'F' then some (c.toNat - 'A'.toNat + 10)
  else none

/-- The two lower-case hexadecimal digits of a number below 256. -/
def hexPair (n : Nat) : List Char := [Nat.digitChar (n / 16), Nat.digitChar (n % 16)]

theorem exists_digit_of_mem_hexPair {n : Nat} {c : Char} (h : n < 256) (hc : c ∈ hexPair n) :
    ∃ d < 16, c = Nat.digitChar d := by
  rcases List.mem_cons.mp hc with rfl | hc
  · exact ⟨n / 16, by omega, rfl⟩
  · exact ⟨n % 16, by omega, List.mem_singleton.mp hc⟩

/-- The lower-case hexadecimal digits of a number. -/
def hexDigits (n : Nat) : List Char := Nat.toDigits 16 n

end FormWeaver.Text
