import Mathlib.Data.List.TakeWhile
import Mathlib.Tactic.Common
import Mathlib.Tactic.IntervalCases

/-!
Numbers as C texts: `strtol` for `long` values of 32 bits, with its end pointer
as the suffix that is left, and `itoa` in base 10. What `itoa` writes `strtol`
reads back whole.
-/

namespace MarkitNode

namespace CNumber

/-- `isspace` in the C locale. -/
def isSpace (c : UInt8) : Bool := c == 32 || (9 ≤ c && c ≤ 13)

def digitVal (c : UInt8) : Option Nat :=
  if 48 ≤ c ∧ c ≤ 57 then some (c.toNat - 48)
  else if 65 ≤ c ∧ c ≤ 90 then some (c.toNat - 55)
  else if 97 ≤ c ∧ c ≤ 122 then some (c.toNat - 87)
  else none

def isDigit (base : Nat) (c : UInt8) : Bool := (digitVal c).any (· < base)

def magnitude (base : Nat) (digits : List UInt8) : Nat :=
  digits.foldl (fun n c => base * n + (digitVal c).getD 0) 0

/-- Whether the number is negative, and what follows the sign. -/
def skipSign : List UInt8 → Bool × List UInt8
  | 45 :: rest => (true, rest)
  | 43 :: rest => (false, rest)
  | s => (false, s)

/-- In base 16 an `0x` may stand before a digit. -/
def skipPrefix (base : Nat) : List UInt8 → List UInt8
  | 48 :: x :: c :: rest =>
      if base = 16 ∧ (x = 88 ∨ x = 120) ∧ isDigit 16 c then c :: rest else 48 :: x :: c :: rest
  | s => s

/-- `LONG_MIN` and `LONG_MAX` bound the value. -/
def clamp (n : Int) : Int := max (-2 ^ 31) (min n (2 ^ 31 - 1))

def strtol (base : Nat) (s : List UInt8) : Int × List UInt8 :=
  let (negative, body) := skipSign (s.dropWhile isSpace)
  let digits := skipPrefix base body
  let n := magnitude base (digits.takeWhile (isDigit base))
  if digits.takeWhile (isDigit base) = [] then (0, s)
  else (clamp (if negative then -n else n), digits.dropWhile (isDigit base))

def digitByte (d : Nat) : UInt8 := UInt8.ofNat d.digitChar.toNat

def decimal (n : Nat) : List UInt8 := (Nat.toDigits 10 n).map fun c => UInt8.ofNat c.toNat

def itoa (n : Int) : List UInt8 := if n < 0 then 45 :: decimal n.natAbs else decimal n.natAbs

theorem clamp_of_bounds {n : Int} (h : -2 ^ 31 ≤ n) (h' : n < 2 ^ 31) : clamp n = n := by
  rw [clamp]
  omega

theorem digitVal_digitByte {d : Nat} (h : d < 10) : digitVal (digitByte d) = some d := by
  interval_cases d <;> rfl

/-- The last digit comes off the end. -/
theorem decimal_eq (n : Nat) :
    decimal n =
      if n < 10 then [digitByte n] else decimal (n / 10) ++ [digitByte (n % 10)] := by
  rw [decimal, Nat.toDigits_eq_if (by omega)]
  split
  · rfl
  · rw [List.map_append]
    rfl

theorem magnitude_append (base : Nat) (digits : List UInt8) (c : UInt8) :
    magnitude base (digits ++ [c]) = base * magnitude base digits + (digitVal c).getD 0 := by
  rw [magnitude, List.foldl_append]
  rfl

theorem magnitude_decimal (n : Nat) : magnitude 10 (decimal n) = n := by
  induction n using Nat.strongRecOn with
  | ind n ih =>
    rw [decimal_eq]
    split
    · rename_i hn
      have hval := digitVal_digitByte hn
      simp [magnitude, hval]
    · have hval := digitVal_digitByte (Nat.mod_lt n (by omega : 0 < 10))
      rw [magnitude_append, ih (n / 10) (by omega), hval, Option.getD_some]
      omega

theorem isDigit_of_mem_decimal {n : Nat} {c : UInt8} (h : c ∈ decimal n) : isDigit 10 c := by
  induction n using Nat.strongRecOn with
  | ind n ih =>
    rw [decimal_eq] at h
    split at h
    · rename_i hn
      rw [List.mem_singleton.mp h, isDigit, digitVal_digitByte hn]
      exact decide_eq_true hn
    · rcases List.mem_append.mp h with hfront | hlast
      · exact ih (n / 10) (by omega) hfront
      · have hd := Nat.mod_lt n (by omega : 0 < 10)
        rw [List.mem_singleton.mp hlast, isDigit, digitVal_digitByte hd]
        exact decide_eq_true hd

theorem decimal_ne_nil (n : Nat) : decimal n ≠ [] := by
  intro h
  exact Nat.toDigits_ne_nil (List.map_eq_nil_iff.mp h)

theorem length_decimal_le {n k : Nat} (hk : 0 < k) (h : n < 10 ^ k) :
    (decimal n).length ≤ k := by
  rw [decimal, List.length_map]
  exact (Nat.length_toDigits_le_iff (by omega) hk).mpr h

theorem ge_of_isDigit {base : Nat} {c : UInt8} (h : isDigit base c) : 48 ≤ c.toNat := by
  rw [isDigit, digitVal] at h
  simp only [UInt8.le_iff_toNat_le, UInt8.reduceToNat] at h
  split at h
  · omega
  · split at h
    · omega
    · split at h
      · omega
      · simp at h

theorem not_isSpace_of_isDigit {base : Nat} {c : UInt8} (h : isDigit base c) :
    isSpace c = false := by
  have hge := ge_of_isDigit h
  simp only [isSpace, Bool.or_eq_false_iff, Bool.and_eq_false_iff, beq_eq_false_iff_ne,
    decide_eq_false_iff_not, UInt8.le_iff_toNat_le, UInt8.reduceToNat, ne_eq,
    ← UInt8.toNat_inj]
  omega

theorem zero_not_mem_itoa (n : Int) : 0 ∉ itoa n := by
  have hdecimal : 0 ∉ decimal n.natAbs := by
    intro h
    exact absurd (ge_of_isDigit (isDigit_of_mem_decimal h)) (by decide)
  unfold itoa
  split
  · intro h
    exact hdecimal (List.mem_of_ne_of_mem (by decide) h)
  · exact hdecimal

/-- Digits begin with neither a space nor a sign. -/
theorem skipSign_digits {base : Nat} {digits : List UInt8} (h : ∀ c ∈ digits, isDigit base c) :
    skipSign (digits.dropWhile isSpace) = (false, digits) := by
  cases digits with
  | nil => rfl
  | cons c rest =>
    have hc := h c List.mem_cons_self
    have hge := ge_of_isDigit hc
    rw [List.dropWhile_cons_of_neg (by rw [not_isSpace_of_isDigit hc]; nofun)]
    unfold skipSign
    split
    · rename_i heq
      rw [(List.cons.inj heq).1] at hge
      exact absurd hge (by decide)
    · rename_i heq
      rw [(List.cons.inj heq).1] at hge
      exact absurd hge (by decide)
    · rfl

/-- `strtol` on a sign, as `skipSign` leaves it, and digits up to the end. -/
theorem strtol_of_digits {base : Nat} {s digits : List UInt8} {negative : Bool}
    (h : skipSign (s.dropWhile isSpace) = (negative, digits))
    (hnoPrefix : skipPrefix base digits = digits) (hne : digits ≠ [])
    (hdigits : ∀ c ∈ digits, isDigit base c) :
    strtol base s =
      (clamp (if negative then -(magnitude base digits : Int) else magnitude base digits), []) := by
  have htake := List.takeWhile_eq_self_iff.mpr hdigits
  have hdrop := List.dropWhile_eq_nil_iff.mpr hdigits
  simp only [strtol, h, hnoPrefix, htake, hdrop, if_neg hne]

theorem skipPrefix_ten (s : List UInt8) : skipPrefix 10 s = s := by
  unfold skipPrefix
  split
  · rw [if_neg (by omega)]
  · rfl

theorem strtol_itoa {n : Int} (h : -2 ^ 31 ≤ n) (h' : n < 2 ^ 31) :
    strtol 10 (itoa n) = (n, []) := by
  have hdigits : ∀ c ∈ decimal n.natAbs, isDigit 10 c := fun c hc => isDigit_of_mem_decimal hc
  have hread : ∀ negative, skipSign ((itoa n).dropWhile isSpace) = (negative, decimal n.natAbs) →
      strtol 10 (itoa n) = (clamp (if negative then -(n.natAbs : Int) else n.natAbs), []) := by
    intro negative hsign
    rw [strtol_of_digits hsign (skipPrefix_ten _) (decimal_ne_nil _) hdigits, magnitude_decimal]
  by_cases hneg : n < 0
  · rw [hread true (by rw [itoa, if_pos hneg]; rfl), if_pos rfl,
      clamp_of_bounds (by omega) (by omega)]
    congr 1
    omega
  · rw [hread false (by rw [itoa, if_neg hneg]; exact skipSign_digits hdigits), if_neg nofun,
      clamp_of_bounds (by omega) (by omega)]
    congr 1
    omega

end CNumber

end MarkitNode
