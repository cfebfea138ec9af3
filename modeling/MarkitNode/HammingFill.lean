import MarkitNode.BlinkPattern
import MarkitNode.HammingCode

/-!
The array that `fill_u8_hamming` leaves, as a Hamming word of twelve cells. Each
parity cell is among the cells that are summed for it, so the checks of the word
are those of the old contents of the four cells.
-/

namespace MarkitNode

namespace HammingFill

open BlinkPattern HammingCode

/-- The word in the cells of the array. -/
def word (sendBuf : Vector UInt8 12) : List Bool := sendBuf.toList.map fun c => decide (c ≠ 0)

/-- The word of a number with even parity. -/
structure Carries (sendBuf : Vector UInt8 12) (seq : UInt8) : Prop where
  data : ∀ cell ∈ hammingIdx, sendBuf.get cell.1 = bitOf seq cell.2
  checks : ∀ k < 4, check k (word sendBuf) = false
  located : ∀ i < 12, syndrome (flip (word sendBuf) i) = i + 1

theorem length_word (sendBuf : Vector UInt8 12) : (word sendBuf).length = 12 := by
  rw [word, List.length_map, Vector.length_toList]

/-- The checks and the search for a flipped cell say the same. -/
theorem syndrome_word_of_checks {sendBuf : Vector UInt8 12}
    (h : ∀ k < 4, check k (word sendBuf) = false) : syndrome (word sendBuf) = 0 :=
  syndrome_eq_zero_of_checks (n := 4) (by rw [length_word]; omega) h

theorem syndrome_codeWord (seq : UInt8) : syndrome (codeWord seq) = 0 := by
  unfold codeWord
  generalize seq.toNat.testBit = d
  apply syndrome_eq_zero_of_checks (n := 4)
  · simp
  · intro k hk
    interval_cases k <;> simp [check, checkFrom, Nat.testBit]

/-- The old contents of the parity cells spell a number. -/
theorem syndrome_oldParity (sendBuf : Vector UInt8 12) :
    syndrome (oldParity sendBuf) = 0 ↔ oldParity sendBuf = List.replicate 12 false := by
  unfold oldParity
  generalize odd sendBuf[0].toNat = a
  generalize odd sendBuf[1].toNat = b
  generalize odd sendBuf[3].toNat = c
  generalize odd sendBuf[7].toNat = d
  revert a b c d
  decide

section Fill

variable (sendBuf : Vector UInt8 12) (seq : UInt8)

theorem word_fill :
    word (fillU8Hamming sendBuf seq) = List.zipWith xor (oldParity sendBuf) (codeWord seq) :=
  fillU8Hamming_bits sendBuf seq

theorem length_oldParity : (oldParity sendBuf).length = (codeWord seq).length := rfl

theorem syndrome_fill :
    syndrome (word (fillU8Hamming sendBuf seq)) = syndrome (oldParity sendBuf) := by
  rw [word_fill, syndrome_zipWith (length_oldParity sendBuf seq), syndrome_codeWord,
    Nat.xor_zero]

theorem fill_hammingIdx :
    ∀ cell ∈ hammingIdx, (fillU8Hamming sendBuf seq).get cell.1 = bitOf seq cell.2 := by
  obtain ⟨h2, h4, h5, h6, h8, h9, h10, h11⟩ := fill_data sendBuf seq
  simp only [hammingIdx, List.forall_mem_cons]
  exact ⟨h2, h4, h5, h6, h8, h9, h10, h11, List.forall_mem_nil _⟩

/-- Every cell holds one bit. -/
theorem fill_cell :
    (fillU8Hamming sendBuf seq).toList =
      (word (fillU8Hamming sendBuf seq)).map fun b => if b then 1 else 0 := by
  obtain ⟨h2, h4, h5, h6, h8, h9, h10, h11⟩ := fill_data sendBuf seq
  obtain ⟨h0, h1, h3, h7⟩ := fill_parity sendBuf seq
  have hbit : ∀ i, bitOf seq i = if decide (bitOf seq i ≠ 0) then 1 else 0 := by
    intro i
    unfold bitOf
    split <;> simp
  rw [word, toList_twelve]
  simp only [List.map_cons, List.map_nil, h0, h1, h2, h3, h4, h5, h6, h7, h8, h9, h10, h11,
    parity_ne_zero, ← hbit]
  simp only [odd, decide_eq_true_eq]
  simp only [← Nat.mod_two_ne_zero]

end Fill

/-- Adding the same word on one side is cancelled. -/
theorem zipWith_xor_cancel {u v w : List Bool} (hu : u.length = w.length)
    (hv : v.length = w.length) (h : List.zipWith xor u w = List.zipWith xor v w) : u = v := by
  induction w generalizing u v with
  | nil =>
    rw [List.length_eq_zero_iff.mp hu, List.length_eq_zero_iff.mp hv]
  | cons c w ih =>
    cases u with
    | nil => cases hu
    | cons a u =>
      cases v with
      | nil => cases hv
      | cons b v =>
        rw [List.zipWith_cons_cons, List.zipWith_cons_cons, List.cons.injEq] at h
        have hhead : a = b := by
          have hxor := h.1
          revert hxor
          cases a <;> cases b <;> cases c <;> simp
        rw [hhead, ih (Nat.succ.inj hu) (Nat.succ.inj hv) h.2]

theorem fill_eq_iff (sendBuf sendBuf' : Vector UInt8 12) (seq : UInt8) :
    fillU8Hamming sendBuf seq = fillU8Hamming sendBuf' seq ↔
      oldParity sendBuf = oldParity sendBuf' := by
  constructor
  · intro h
    have hword := congrArg word h
    rw [word_fill, word_fill] at hword
    exact zipWith_xor_cancel (length_oldParity sendBuf seq) (length_oldParity sendBuf' seq) hword
  · intro h
    apply Vector.toList_inj.mp
    rw [fill_cell, fill_cell sendBuf', word_fill, word_fill, h]

theorem carries_iff (sendBuf : Vector UInt8 12) (seq : UInt8) :
    Carries (fillU8Hamming sendBuf seq) seq ↔ EvenCells sendBuf := by
  rw [EvenCells, ← syndrome_oldParity, ← syndrome_fill sendBuf seq]
  constructor
  · intro h
    exact syndrome_word_of_checks h.checks
  · intro hzero
    refine ⟨fill_hammingIdx sendBuf seq, ?_, ?_⟩
    · intro k _
      exact (syndrome_eq_zero_iff _).mp hzero k
    · intro i hi
      exact (syndrome_flip_iff (by rw [length_word]; exact hi)).mpr hzero

/-- The array holds the word of the number exactly where the old contents of the
parity cells are even, and two arrays end up the same exactly where their old
contents have the same parities. -/
theorem fillU8Hamming_carries_iff (sendBuf sendBuf' : Vector UInt8 12) (seq : UInt8) :
    (Carries (fillU8Hamming sendBuf seq) seq ↔ EvenCells sendBuf) ∧
      (fillU8Hamming sendBuf seq = fillU8Hamming sendBuf' seq ↔
        oldParity sendBuf = oldParity sendBuf') :=
  ⟨carries_iff sendBuf seq, fill_eq_iff sendBuf sendBuf' seq⟩

/-- An array that happens to hold a 1 in its first cell. -/
def leftover : Vector UInt8 12 := #v[1, 0, 0, 0, 0, 0, 0, 0, 0, 0, 0, 0]

theorem leftover_carries_nothing :
    ¬ ∀ sendBuf sendBuf' seq, fillU8Hamming sendBuf seq = fillU8Hamming sendBuf' seq ∧
      Carries (fillU8Hamming sendBuf seq) seq := by
  intro h
  have hchecks := (h leftover leftover 0).2.checks 0 (by decide)
  revert hchecks
  decide +kernel

end HammingFill

end MarkitNode
