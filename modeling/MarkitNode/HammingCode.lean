import Mathlib.Algebra.Group.Nat.Defs
import Mathlib.Tactic.Common

/-!
Hamming words of any length. The cells are numbered from 1, and check `k` adds
up the cells whose number has bit `k`. The checks together spell the exclusive
or of the numbers of the cells that are set: the syndrome, which is linear, so
that one flipped cell adds its own number to it.
-/

namespace MarkitNode

namespace HammingCode

/-- The exclusive or of the numbers of the cells that are set, the first of
which has number `pos`. -/
def syndromeFrom : Nat → List Bool → Nat
  | _, [] => 0
  | pos, b :: rest => (if b then pos else 0) ^^^ syndromeFrom (pos + 1) rest

def syndrome (word : List Bool) : Nat := syndromeFrom 1 word

/-- The parity of the cells whose number has bit `k`. -/
def checkFrom (k : Nat) : Nat → List Bool → Bool
  | _, [] => false
  | pos, b :: rest => (pos.testBit k && b) ^^ checkFrom k (pos + 1) rest

def check (k : Nat) (word : List Bool) : Bool := checkFrom k 1 word

def flip (word : List Bool) (i : Nat) : List Bool := word.modify i not

/-- The cell that the syndrome names, flipped back. -/
def correct (word : List Bool) : List Bool :=
  if syndrome word = 0 then word else flip word (syndrome word - 1)

theorem testBit_syndromeFrom (k pos : Nat) (word : List Bool) :
    (syndromeFrom pos word).testBit k = checkFrom k pos word := by
  induction word generalizing pos with
  | nil => exact Nat.zero_testBit k
  | cons b rest ih =>
    rw [syndromeFrom, Nat.testBit_xor, ih, checkFrom]
    cases b <;> simp

/-- Even parity everywhere means that the syndrome vanishes. -/
theorem syndrome_eq_zero_iff (word : List Bool) :
    syndrome word = 0 ↔ ∀ k, check k word = false := by
  constructor
  · intro h k
    rw [check, ← testBit_syndromeFrom, ← syndrome, h, Nat.zero_testBit]
  · intro h
    apply Nat.eq_of_testBit_eq
    intro k
    rw [Nat.zero_testBit, syndrome, testBit_syndromeFrom]
    exact h k

theorem syndromeFrom_lt {n : Nat} (pos : Nat) (word : List Bool)
    (h : pos + word.length ≤ 2 ^ n) : syndromeFrom pos word < 2 ^ n := by
  induction word generalizing pos with
  | nil => exact Nat.two_pow_pos n
  | cons b rest ih =>
    rw [List.length_cons] at h
    have hrest := ih (pos + 1) (by omega)
    apply Nat.xor_lt_two_pow
    · split <;> omega
    · exact hrest

/-- The checks up to the length of the numbers are enough. -/
theorem syndrome_eq_zero_of_checks {n : Nat} {word : List Bool} (hlen : word.length < 2 ^ n)
    (h : ∀ k < n, check k word = false) : syndrome word = 0 := by
  apply (syndrome_eq_zero_iff word).mpr
  intro k
  by_cases hk : k < n
  · exact h k hk
  · have hlt := syndromeFrom_lt 1 word (n := n) (by omega)
    rw [check, ← testBit_syndromeFrom]
    exact Nat.testBit_lt_two_pow
      (Nat.lt_of_lt_of_le hlt (Nat.pow_le_pow_right (by omega) (by omega)))

theorem syndromeFrom_zipWith (pos : Nat) {v w : List Bool} (h : v.length = w.length) :
    syndromeFrom pos (List.zipWith xor v w) = syndromeFrom pos v ^^^ syndromeFrom pos w := by
  induction v generalizing pos w with
  | nil =>
    obtain rfl := List.length_eq_zero_iff.mp h.symm
    exact (Nat.xor_self 0).symm
  | cons a v ih =>
    cases w with
    | nil => cases h
    | cons b w =>
      rw [List.zipWith_cons_cons, syndromeFrom, ih (pos + 1) (Nat.succ.inj h), syndromeFrom,
        syndromeFrom]
      apply Nat.eq_of_testBit_eq
      intro k
      simp only [Nat.testBit_xor]
      cases a <;> cases b <;> simp [Bool.xor_left_comm]

theorem syndrome_zipWith {v w : List Bool} (h : v.length = w.length) :
    syndrome (List.zipWith xor v w) = syndrome v ^^^ syndrome w :=
  syndromeFrom_zipWith 1 h

theorem syndromeFrom_flip (pos : Nat) {word : List Bool} {i : Nat} (h : i < word.length) :
    syndromeFrom pos (flip word i) = syndromeFrom pos word ^^^ (pos + i) := by
  induction word generalizing pos i with
  | nil => cases h
  | cons b rest ih =>
    cases i with
    | zero =>
      rw [flip, List.modify_zero_cons, syndromeFrom, syndromeFrom, Nat.add_zero]
      apply Nat.eq_of_testBit_eq
      intro k
      simp only [Nat.testBit_xor]
      cases b <;> simp [Bool.xor_comm]
    | succ i =>
      have hrest := ih (pos + 1) (Nat.lt_of_succ_lt_succ h)
      rw [flip] at hrest
      rw [flip, List.modify_succ_cons, syndromeFrom, hrest, syndromeFrom, Nat.xor_assoc]
      congr 2
      omega

/-- A flipped cell adds its number to the syndrome. -/
theorem syndrome_flip {word : List Bool} {i : Nat} (h : i < word.length) :
    syndrome (flip word i) = syndrome word ^^^ (i + 1) := by
  rw [syndrome, syndromeFrom_flip 1 h, syndrome, Nat.add_comm]

theorem flip_flip (word : List Bool) (i : Nat) : flip (flip word i) i = word := by
  rw [flip, flip, List.modify_modify_eq]
  have hnot : (not ∘ not) = id := funext Bool.not_not
  rw [hnot, List.modify_id]

/-- The words without a syndrome are those in which every flipped cell is found,
and one flipped cell that is found is enough. -/
theorem syndrome_flip_iff {word : List Bool} {i : Nat} (h : i < word.length) :
    syndrome (flip word i) = i + 1 ↔ syndrome word = 0 := by
  rw [syndrome_flip h]
  constructor
  · intro heq
    calc syndrome word = (syndrome word ^^^ (i + 1)) ^^^ (i + 1) := by
          rw [Nat.xor_assoc, Nat.xor_self, Nat.xor_zero]
      _ = 0 := by rw [heq, Nat.xor_self]
  · intro hzero
    rw [hzero, Nat.zero_xor]

theorem correct_flip {word : List Bool} (hzero : syndrome word = 0) {i : Nat}
    (h : i < word.length) : correct (flip word i) = word := by
  have hname := (syndrome_flip_iff h).mpr hzero
  rw [correct, if_neg (by omega), hname, Nat.add_sub_cancel, flip_flip]

theorem getElem?_flip (word : List Bool) (i p : Nat) :
    (flip word i)[p]? = if i = p then word[p]?.map not else word[p]? := by
  rw [flip, List.getElem?_modify]
  split <;> simp

/-- Two flipped cells are taken for another one, or for none of the word. -/
theorem correct_flip_flip_ne {word : List Bool} (hzero : syndrome word = 0) {i j : Nat}
    (hi : i < word.length) (hj : j < word.length) (hne : i ≠ j) :
    correct (flip (flip word i) j) ≠ word := by
  have hlen : (flip word i).length = word.length := List.length_modify ..
  have hsyndrome : syndrome (flip (flip word i) j) = (i + 1) ^^^ (j + 1) := by
    rw [syndrome_flip (by omega), syndrome_flip hi, hzero, Nat.zero_xor]
  have hname : syndrome (flip (flip word i) j) ≠ 0 := by
    rw [hsyndrome]
    intro h
    have hsame : i + 1 = j + 1 := by
      calc i + 1 = ((i + 1) ^^^ (j + 1)) ^^^ (j + 1) := by
            rw [Nat.xor_assoc, Nat.xor_self, Nat.xor_zero]
        _ = j + 1 := by rw [h, Nat.zero_xor]
    exact hne (Nat.succ.inj hsame)
  rw [correct, if_neg hname]
  generalize syndrome (flip (flip word i) j) - 1 = m
  have hentry : ∀ p, p < word.length → word[p]?.map not ≠ word[p]? := by
    intro p hp h
    rw [List.getElem?_eq_getElem hp, Option.map_some, Option.some.injEq] at h
    exact absurd h (by simp)
  intro heq
  by_cases hm : m = i
  · have hcell := congrArg (·[j]?) heq
    simp only [getElem?_flip, hm, if_neg hne, if_true] at hcell
    exact hentry j hj hcell
  · have hcell := congrArg (·[i]?) heq
    simp only [getElem?_flip, if_neg hm, if_neg hne.symm, if_true] at hcell
    exact hentry i hi hcell

end HammingCode

end MarkitNode
