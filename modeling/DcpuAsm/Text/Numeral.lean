/-!
Positional numerals: `numeralValue` reads a run of digits in any base up to sixteen, `hexNumeral`
writes a number in base sixteen, padded with zeros on the left. Reading is a fold over all digits with
no bound, so leading zeros and runs of any length are exact; `accumulate?` reads into a machine word
instead, with a check at each digit. Main statement: what `hexNumeral` writes reads back as the number
(`numeralValue_hexNumeral`).
-/

namespace DcpuAsm

/-- The value of a hexadecimal digit of either case. -/
def digitValue (c : Char) : Nat :=
  if c.isDigit then c.toNat - '0'.toNat
  else if c.isLower then c.toNat - 'a'.toNat + 10
  else c.toNat - 'A'.toNat + 10

/-- The number that a run of digits stands for in the given base, the most significant digit first. -/
def numeralValue (base : Nat) (digits : List Char) : Nat :=
  digits.foldl (fun value c => base * value + digitValue c) 0

/-- The digits of a number in base sixteen, in lower case and at least `width` of them. -/
def hexNumeral (width n : Nat) : List Char := (Nat.toDigits 16 n).leftpad width '0'

/-- A machine word with one more digit behind it. There is none if moving the digits up overflows, or
adding the new one does. -/
def pushDigit? (base : Nat) (word : UInt16) (c : Char) : Option UInt16 :=
  if UInt16.size ≤ word.toNat * base then none
  else if UInt16.size ≤ word.toNat * base + digitValue c then none
  else some (.ofNat (word.toNat * base + digitValue c))

/-- A run of digits, read into a machine word from the first digit on. -/
def accumulate? (base : Nat) (ds : List Char) : Option UInt16 := ds.foldlM (pushDigit? base) 0

/-! ### Reading what was written -/

theorem numeralValue_append_singleton (base : Nat) (ds : List Char) (c : Char) :
    numeralValue base (ds ++ [c]) = base * numeralValue base ds + digitValue c := by
  simp [numeralValue]

theorem digitValue_digitChar : ∀ d < 16, digitValue (Nat.digitChar d) = d := by decide

/-- In every base that has its digits, the digits of a number read back as the number. -/
theorem numeralValue_toDigits {base : Nat} (hbase : 1 < base) (hdigits : base ≤ 16) (n : Nat) :
    numeralValue base (Nat.toDigits base n) = n := by
  induction n using Nat.strongRecOn with
  | _ n ih =>
    rw [Nat.toDigits_eq_if hbase]
    split
    · next h => simp [numeralValue, digitValue_digitChar n (by omega)]
    · next h =>
      have hmod : n % base < base := Nat.mod_lt n (by omega)
      have hlt : n / base < n := Nat.div_lt_self (by omega) hbase
      rw [numeralValue_append_singleton, ih (n / base) hlt, digitValue_digitChar _ (by omega),
        Nat.div_add_mod]

theorem numeralValue_cons_zero (base : Nat) (ds : List Char) :
    numeralValue base ('0' :: ds) = numeralValue base ds := by
  have h : digitValue '0' = 0 := by decide
  simp [numeralValue, h]

theorem numeralValue_replicate_zero_append (base k : Nat) (ds : List Char) :
    numeralValue base (List.replicate k '0' ++ ds) = numeralValue base ds := by
  induction k with
  | zero => simp
  | succ k ih => rw [List.replicate_succ, List.cons_append, numeralValue_cons_zero, ih]

/-- Padding changes no value, so a written number reads back. -/
theorem numeralValue_hexNumeral (width n : Nat) : numeralValue 16 (hexNumeral width n) = n := by
  rw [hexNumeral, List.leftpad, numeralValue_replicate_zero_append,
    numeralValue_toDigits (by decide) (by decide)]

example : hexNumeral 4 0xBEEF = ['b', 'e', 'e', 'f'] := by decide

example : numeralValue 16 ['0', '0', 'F', 'f'] = 255 := by decide

end DcpuAsm
