import Mathlib
import MarkitNode.ByteCodes

/-!
Words and byte lists as polynomials over the field with two elements, the first
bit of a message at its highest power. The division register of a cyclic
redundancy check holds the remainder of the message by the generator
`X ^ 16 + poly`, and a remainder of zero is never left by an error that fits
into 16 consecutive bits when the generator has a constant term.
-/

namespace MarkitNode

namespace CrcPoly

open Polynomial ByteCodes

/-- Bit `j` of a message, the top bit of each byte first. -/
def bitAt (bytes : List UInt8) (j : Nat) : Bool :=
  (bytes.getD (j / 8) 0).toBitVec.getMsbD (j % 8)

/-- A nonzero error that lies within 16 consecutive bits. -/
def Burst (error : List UInt8) : Prop :=
  (∃ j, bitAt error j = true) ∧
    ∃ first, ∀ j, bitAt error j = true → first ≤ j ∧ j < first + 16

noncomputable section

def bit (b : Bool) : ZMod 2 := if b then 1 else 0

theorem bit_xor (a b : Bool) : bit (a ^^ b) = bit a + bit b := by
  cases a <;> cases b <;> decide

theorem bit_eq_zero_iff {b : Bool} : bit b = 0 ↔ b = false := by
  cases b <;> decide

/-- The word with bit `i` at the power `i`. -/
def wordPoly {w : Nat} (v : BitVec w) : (ZMod 2)[X] :=
  ∑ i ∈ Finset.range w, monomial i (bit (v.getLsbD i))

/-- The message as one number: the first byte carries the highest powers. -/
def bytesPoly : List UInt8 → (ZMod 2)[X]
  | [] => 0
  | b :: rest => wordPoly b.toBitVec * X ^ (8 * rest.length) + bytesPoly rest

/-- The generator, whose leading term the register does not store. -/
def genPoly (poly : BitVec 16) : (ZMod 2)[X] := X ^ 16 + wordPoly poly

/-! ### Words -/

section Words

variable {w : Nat} (u v : BitVec w)

@[simp] theorem coeff_wordPoly (i : Nat) : (wordPoly v).coeff i = bit (v.getLsbD i) := by
  rw [wordPoly, finsetSum_coeff]
  simp only [coeff_monomial]
  rw [Finset.sum_ite_eq' _ i]
  by_cases h : i < w
  · rw [if_pos (Finset.mem_range.mpr h)]
  · rw [if_neg (by simpa using h), BitVec.getLsbD_of_ge v i (by omega)]
    rfl

theorem wordPoly_xor : wordPoly (u ^^^ v) = wordPoly u + wordPoly v := by
  ext i
  rw [coeff_add, coeff_wordPoly, coeff_wordPoly, coeff_wordPoly, BitVec.getLsbD_xor, bit_xor]

theorem degree_wordPoly_lt : (wordPoly v).degree < (w : WithBot Nat) := by
  apply (degree_lt_iff_coeff_zero _ _).mpr
  intro i hi
  rw [coeff_wordPoly, BitVec.getLsbD_of_ge v i hi]
  rfl

end Words

/-- A shift multiplies by `X`; the bit that falls out is the one at the top. -/
theorem wordPoly_shift (reg : BitVec 16) :
    wordPoly (reg <<< 1) = wordPoly reg * X + C (bit (reg.getLsbD 15)) * X ^ 16 := by
  ext i
  rw [coeff_wordPoly, coeff_add, coeff_C_mul_X_pow, BitVec.getLsbD_shiftLeft]
  cases i with
  | zero => simp [bit]
  | succ i =>
    rw [coeff_mul_X, coeff_wordPoly, Nat.add_sub_cancel]
    by_cases htop : i = 15
    · rw [htop, if_pos rfl, CharTwo.add_self_eq_zero]
      rfl
    · rw [if_neg (by omega), add_zero]
      by_cases hlow : i < 15
      · have hi : i + 1 < 16 := by omega
        simp [hi]
      · have hi : ¬ i + 1 < 16 := by omega
        rw [BitVec.getLsbD_of_ge reg i (by omega)]
        simp [hi]

/-- A byte enters at the upper half of the register. -/
theorem wordPoly_byte (b : UInt8) :
    wordPoly (b.toBitVec.setWidth 16 <<< 8) = wordPoly b.toBitVec * X ^ 8 := by
  ext i
  rw [coeff_wordPoly, coeff_mul_X_pow', coeff_wordPoly, BitVec.getLsbD_shiftLeft,
    BitVec.getLsbD_setWidth]
  by_cases hlow : i < 8
  · have hi : ¬ 8 ≤ i := by omega
    simp [hlow, hi, bit]
  · by_cases hhigh : i < 16
    · have hi : i - 8 < 16 := by omega
      have hle : 8 ≤ i := by omega
      simp [hhigh, hi, hle, hlow]
    · have hle : 8 ≤ i := by omega
      rw [if_pos hle, BitVec.getLsbD_of_ge _ (i - 8) (by omega)]
      simp [hhigh]

/-! ### The generator -/

section Generator

variable (poly : BitVec 16)

theorem monic_genPoly : (genPoly poly).Monic := monic_X_pow_add (degree_wordPoly_lt poly)

theorem degree_genPoly : (genPoly poly).degree = 16 := by
  have hlt : (wordPoly poly).degree < ((X : (ZMod 2)[X]) ^ 16).degree := by
    rw [degree_X_pow]
    exact degree_wordPoly_lt poly
  rw [genPoly, degree_add_eq_left_of_degree_lt hlt, degree_X_pow]
  rfl

variable {poly} in
theorem isCoprime_genPoly (h : poly.getLsbD 0 = true) (n : Nat) :
    IsCoprime (genPoly poly) (X ^ n) := by
  have hconst : (genPoly poly).coeff 0 = 1 := by
    rw [genPoly, coeff_add, coeff_wordPoly, h, coeff_X_pow]
    rfl
  have hsplit : divX (genPoly poly) * X + C 1 = genPoly poly := by
    rw [← hconst]
    exact divX_mul_X_add _
  apply IsCoprime.pow_right
  refine ⟨1, - divX (genPoly poly), ?_⟩
  rw [C_1] at hsplit
  linear_combination - hsplit

end Generator

/-! ### The register -/

section Register

variable (poly : BitVec 16)

/-- One step multiplies by `X` and takes the generator away from what overflows. -/
theorem wordPoly_crcBit (reg : BitVec 16) :
    wordPoly (crcBit poly reg) =
      wordPoly reg * X + C (bit (reg.getLsbD 15)) * genPoly poly := by
  rw [crcBit, genPoly]
  cases htop : reg.getLsbD 15 with
  | false =>
    rw [if_neg (by simp), wordPoly_shift, htop]
    simp [bit]
  | true =>
    rw [if_pos rfl, wordPoly_xor, wordPoly_shift, htop, mul_add, add_assoc]
    simp [bit]

theorem crcBits_dvd (n : Nat) (reg : BitVec 16) :
    genPoly poly ∣ wordPoly ((crcBit poly)^[n] reg) - wordPoly reg * X ^ n := by
  induction n generalizing reg with
  | zero => simp
  | succ n ih =>
    have hstep := ih (crcBit poly reg)
    rw [wordPoly_crcBit] at hstep
    rw [Function.iterate_succ_apply]
    have hsplit : wordPoly ((crcBit poly)^[n] (crcBit poly reg)) - wordPoly reg * X ^ (n + 1) =
        (wordPoly ((crcBit poly)^[n] (crcBit poly reg)) -
          (wordPoly reg * X + C (bit (reg.getLsbD 15)) * genPoly poly) * X ^ n) +
        genPoly poly * (C (bit (reg.getLsbD 15)) * X ^ n) := by
      ring
    rw [hsplit]
    exact dvd_add hstep (dvd_mul_right _ _)

theorem crcByte_dvd (reg : BitVec 16) (b : UInt8) :
    genPoly poly ∣ wordPoly (crcByte poly reg b) -
      (wordPoly reg * X ^ 8 + wordPoly b.toBitVec * X ^ 16) := by
  have hbits := crcBits_dvd poly 8 (reg ^^^ (b.toBitVec.setWidth 16 <<< 8))
  rw [wordPoly_xor, wordPoly_byte] at hbits
  have hin : wordPoly reg * X ^ 8 + wordPoly b.toBitVec * X ^ 16 =
      (wordPoly reg + wordPoly b.toBitVec * X ^ 8) * X ^ 8 := by
    ring
  rw [hin]
  exact hbits

theorem crcFold_dvd (bytes : List UInt8) (reg : BitVec 16) :
    genPoly poly ∣ wordPoly (bytes.foldl (crcByte poly) reg) -
      (wordPoly reg * X ^ (8 * bytes.length) + bytesPoly bytes * X ^ 16) := by
  induction bytes generalizing reg with
  | nil => simp [bytesPoly]
  | cons b rest ih =>
    have hrest := ih (crcByte poly reg b)
    have hfirst := (crcByte_dvd poly reg b).mul_right (X ^ (8 * rest.length))
    rw [List.foldl_cons]
    have hsplit := dvd_add hrest hfirst
    convert hsplit using 1
    rw [bytesPoly, List.length_cons]
    ring

/-- The register holds the remainder of the message behind the start value. -/
theorem wordPoly_crcFold (reg : BitVec 16) (bytes : List UInt8) :
    wordPoly (bytes.foldl (crcByte poly) reg) =
      (wordPoly reg * X ^ (8 * bytes.length) + bytesPoly bytes * X ^ 16) %ₘ genPoly poly := by
  obtain ⟨q, hq⟩ := crcFold_dvd poly bytes reg
  have hdeg : (wordPoly (bytes.foldl (crcByte poly) reg)).degree < (genPoly poly).degree := by
    rw [degree_genPoly]
    exact degree_wordPoly_lt _
  have hdiv : wordPoly (bytes.foldl (crcByte poly) reg) + genPoly poly * (- q) =
      wordPoly reg * X ^ (8 * bytes.length) + bytesPoly bytes * X ^ 16 := by
    linear_combination hq
  exact (div_modByMonic_unique _ _ (monic_genPoly poly) ⟨hdiv, hdeg⟩).2.symm

end Register

/-! ### Messages -/

theorem bitAt_cons (b : UInt8) (rest : List UInt8) (j : Nat) :
    bitAt (b :: rest) j = if j < 8 then b.toBitVec.getMsbD j else bitAt rest (j - 8) := by
  by_cases h : j < 8
  · rw [if_pos h, bitAt, Nat.div_eq_of_lt h, Nat.mod_eq_of_lt h]
    rfl
  · have hj : j = (j - 8) + 8 := by omega
    have hdiv : j / 8 = (j - 8) / 8 + 1 := by omega
    have hmod : j % 8 = (j - 8) % 8 := by omega
    rw [if_neg h, bitAt, hdiv, hmod]
    rfl

theorem coeff_bytesPoly (bytes : List UInt8) (i : Nat) :
    (bytesPoly bytes).coeff i =
      if i < 8 * bytes.length then bit (bitAt bytes (8 * bytes.length - 1 - i)) else 0 := by
  induction bytes with
  | nil => simp [bytesPoly]
  | cons b rest ih =>
    rw [bytesPoly, coeff_add, coeff_mul_X_pow', coeff_wordPoly, ih, bitAt_cons, List.length_cons]
    by_cases hlow : i < 8 * rest.length
    · have hidx : 8 * (rest.length + 1) - 1 - i - 8 = 8 * rest.length - 1 - i := by omega
      rw [if_neg (by omega), if_pos hlow, zero_add, if_pos (by omega), if_neg (by omega), hidx]
    · rw [if_pos (by omega), if_neg hlow, add_zero]
      by_cases htop : i < 8 * (rest.length + 1)
      · have hidx : 8 - 1 - (8 * (rest.length + 1) - 1 - i) = i - 8 * rest.length := by omega
        rw [if_pos htop, if_pos (by omega), BitVec.getMsbD_eq_getLsbD,
          decide_eq_true (by omega), Bool.true_and, hidx]
      · rw [if_neg htop, BitVec.getLsbD_of_ge _ _ (by omega)]
        rfl

theorem bytesPoly_xor {a b : List UInt8} (h : a.length = b.length) :
    bytesPoly (List.zipWith (· ^^^ ·) a b) = bytesPoly a + bytesPoly b := by
  induction a generalizing b with
  | nil =>
    have hb : b = [] := List.eq_nil_of_length_eq_zero h.symm
    simp [hb, bytesPoly]
  | cons x a ih =>
    cases b with
    | nil => cases h
    | cons y b =>
      have hlen : a.length = b.length := Nat.succ.inj h
      rw [List.zipWith_cons_cons, bytesPoly, bytesPoly, bytesPoly, ih hlen, UInt8.toBitVec_xor,
        wordPoly_xor, List.length_zipWith, hlen, Nat.min_self]
      ring

theorem lt_of_bitAt {bytes : List UInt8} {j : Nat} (h : bitAt bytes j = true) :
    j < 8 * bytes.length := by
  by_contra hge
  rw [bitAt, List.getD_eq_getElem?_getD, List.getElem?_eq_none (by omega)] at h
  simp at h

/-- A burst is a nonzero polynomial of degree below 16, moved up by some power. -/
theorem Burst.split {error : List UInt8} (h : Burst error) :
    ∃ k core, bytesPoly error = X ^ k * core ∧ core ≠ 0 ∧ core.degree < 16 := by
  obtain ⟨⟨j, hj⟩, first, hwindow⟩ := h
  have hlong : j < 8 * error.length := lt_of_bitAt hj
  -- below and above the window every coefficient is zero
  have hzero : ∀ i, i < 8 * error.length - (first + 16) ∨ 8 * error.length ≤ first + i →
      (bytesPoly error).coeff i = 0 := by
    intro i hi
    rw [coeff_bytesPoly]
    split
    · apply bit_eq_zero_iff.mpr
      apply Bool.eq_false_iff.mpr
      intro hset
      have hin := hwindow _ hset
      omega
    · rfl
  obtain ⟨core, hcore⟩ :
      X ^ (8 * error.length - (first + 16)) ∣ bytesPoly error :=
    X_pow_dvd_iff.mpr fun i hi => hzero i (Or.inl hi)
  refine ⟨_, core, hcore, ?_, ?_⟩
  · intro hnone
    have hcoeff := coeff_bytesPoly error (8 * error.length - 1 - j)
    have hidx : 8 * error.length - 1 - (8 * error.length - 1 - j) = j := by omega
    rw [hcore, hnone, mul_zero, if_pos (by omega), hidx, hj] at hcoeff
    exact absurd hcoeff (by simp [bit])
  · apply (degree_lt_iff_coeff_zero _ _).mpr
    intro d hd
    have hout : 16 ≤ d := hd
    have hcoeff := hzero (d + (8 * error.length - (first + 16))) (Or.inr (by omega))
    rwa [hcore, coeff_X_pow_mul] at hcoeff

/-- No multiple of the generator is a burst: the powers of `X` are coprime to it
and what is left is too short. -/
theorem not_dvd_of_burst {poly : BitVec 16} (hpoly : poly.getLsbD 0 = true)
    {error : List UInt8} (h : Burst error) :
    ¬ genPoly poly ∣ bytesPoly error * X ^ 16 := by
  intro hdvd
  obtain ⟨k, core, hsplit, hne, hdeg⟩ := h.split
  have herror : genPoly poly ∣ X ^ k * core := by
    rw [← hsplit]
    exact (isCoprime_genPoly hpoly 16).dvd_of_dvd_mul_right hdvd
  have hcore : genPoly poly ∣ core := (isCoprime_genPoly hpoly k).dvd_of_dvd_mul_left herror
  apply (monic_genPoly poly).not_dvd_of_degree_lt hne _ hcore
  rw [degree_genPoly]
  exact hdeg

/-- Two messages whose difference is a burst leave different registers. -/
theorem crcFold_ne {poly : BitVec 16} (hpoly : poly.getLsbD 0 = true) (reg : BitVec 16)
    {bytes error : List UInt8} (hlen : bytes.length = error.length) (h : Burst error) :
    (List.zipWith (· ^^^ ·) bytes error).foldl (crcByte poly) reg ≠
      bytes.foldl (crcByte poly) reg := by
  intro heq
  apply not_dvd_of_burst hpoly h
  have hboth := dvd_sub (crcFold_dvd poly bytes reg)
    (crcFold_dvd poly (List.zipWith (· ^^^ ·) bytes error) reg)
  rw [heq, bytesPoly_xor hlen, List.length_zipWith, ← hlen, Nat.min_self] at hboth
  convert hboth using 1
  ring

end

end CrcPoly

end MarkitNode
