import Mathlib.Data.List.FinRange
import Mathlib.Tactic.Common
import Mathlib.Tactic.IntervalCases

/-!
The pattern that flashes the identity: the eight bits of the number in a Hamming
word of twelve, then one pair of light levels for each bit, which the bit swaps
or leaves. `fill_u8_hamming` counts the old contents of its parity cells in, and
`blink_prepare_pattern` hands it an array it has not set.
-/

namespace MarkitNode

namespace BlinkPattern

/-! ### The code -/

/-- `_hamming_idx`, the cells of the bits from the highest on. -/
def hammingIdx : List (Fin 12 × Nat) :=
  [(2, 7), (4, 6), (5, 5), (6, 4), (8, 3), (9, 2), (10, 1), (11, 0)]

/-- `get_bit_from_byte_array` on one byte. -/
def bitOf (seq : UInt8) (i : Nat) : UInt8 := if seq.toNat.testBit i then 1 else 0

/-- The sum of the cells, modulo 2. -/
def parityOf (sendBuf : Vector UInt8 12) (cells : List (Fin 12)) : UInt8 :=
  if (cells.map fun i => sendBuf[i].toNat).sum % 2 ≠ 0 then 1 else 0

def fillU8Hamming (sendBuf : Vector UInt8 12) (seq : UInt8) : Vector UInt8 12 :=
  let buf := hammingIdx.foldl (fun buf cell => buf.set cell.1 (bitOf seq cell.2)) sendBuf
  let buf := buf.set 0 (parityOf buf [0, 2, 4, 6, 8, 10])
  let buf := buf.set 1 (parityOf buf [1, 2, 5, 6, 9, 10])
  let buf := buf.set 3 (parityOf buf [3, 4, 5, 6, 11])
  buf.set 7 (parityOf buf [7, 8, 9, 10, 11])

/-- One turn of the loop of `blink_prepare_pattern`: two more entries, each a
copy of one of the four before. -/
def addPair (pattern : List UInt8) (hamming : UInt8) : List UInt8 :=
  let first := pattern.length
  let pattern := pattern ++
    [if hamming ≠ 0 then pattern.getD (first - 1) 0 else pattern.getD (first - 2) 0]
  let second := pattern.length
  pattern ++ [if hamming ≠ 0 then pattern.getD (second - 3) 0 else pattern.getD (second - 2) 0]

def syncBits : List UInt8 := [255, 255, 255, 64]

/-- `blink_prepare_pattern`; `hammingSeq` is the array on the stack. -/
def blinkPreparePattern (hammingSeq : Vector UInt8 12) (seq : UInt8) : List UInt8 :=
  (fillU8Hamming hammingSeq seq).toList.foldl addPair syncBits

/-! ### The encoding -/

/-- The Hamming word of a number, with even parity. -/
def codeWord (seq : UInt8) : List Bool :=
  let d := seq.toNat.testBit
  [d 7 ^^ d 6 ^^ d 4 ^^ d 3 ^^ d 1, d 7 ^^ d 5 ^^ d 4 ^^ d 2 ^^ d 1, d 7,
    d 6 ^^ d 5 ^^ d 4 ^^ d 0, d 6, d 5, d 4, d 3 ^^ d 2 ^^ d 1 ^^ d 0, d 3, d 2, d 1, d 0]

/-- The pairs of levels behind the pair `(a, b)`: a bit that is set swaps them. -/
def levels : UInt8 × UInt8 → List Bool → List UInt8
  | _, [] => []
  | (a, b), true :: rest => b :: a :: levels (b, a) rest
  | (a, b), false :: rest => a :: b :: levels (a, b) rest

/-- The 28 entries that stand for a number. -/
def encoding (seq : UInt8) : List UInt8 := syncBits ++ levels (255, 64) (codeWord seq)

theorem levels_injective {a b : UInt8} (h : a ≠ b) {x y : List Bool} (hlen : x.length = y.length)
    (heq : levels (a, b) x = levels (a, b) y) : x = y := by
  induction x generalizing a b y with
  | nil => exact (List.length_eq_zero_iff.mp hlen.symm).symm
  | cons s x ih =>
    cases y with
    | nil => cases hlen
    | cons t y =>
      have hlen' : x.length = y.length := Nat.succ.inj hlen
      cases s <;> cases t <;> simp only [levels, List.cons.injEq] at heq
      · rw [ih h hlen' heq.2.2]
      · exact absurd heq.1 h
      · exact absurd heq.1.symm h
      · rw [ih (Ne.symm h) hlen' heq.2.2]

/-- The loop plays the levels of the bits it is given. -/
theorem foldl_addPair (cells : List UInt8) (pattern : List UInt8) (a b : UInt8) :
    cells.foldl addPair (pattern ++ [a, b]) =
      pattern ++ [a, b] ++ levels (a, b) (cells.map fun c => decide (c ≠ 0)) := by
  induction cells generalizing pattern a b with
  | nil => simp [levels]
  | cons c cells ih =>
    have hpair : addPair (pattern ++ [a, b]) c =
        (pattern ++ [a, b]) ++ if c ≠ 0 then [b, a] else [a, b] := by
      by_cases hc : c ≠ 0
      · simp [addPair, hc]
      · simp [addPair, hc]
    rw [List.foldl_cons, hpair]
    by_cases hc : c ≠ 0
    · rw [if_pos hc, ih, List.map_cons, decide_eq_true hc, levels]
      simp
    · rw [if_neg hc, ih, List.map_cons, decide_eq_false hc, levels]
      simp

def odd (n : Nat) : Bool := decide (n % 2 = 1)

theorem odd_add (m n : Nat) : odd (m + n) = (odd m ^^ odd n) := by
  rcases Nat.mod_two_eq_zero_or_one m with hm | hm <;>
    rcases Nat.mod_two_eq_zero_or_one n with hn | hn <;>
      simp [odd, Nat.add_mod, hm, hn]

theorem odd_bitOf (seq : UInt8) (i : Nat) : odd (bitOf seq i).toNat = seq.toNat.testBit i := by
  unfold bitOf
  split <;> simp_all [odd]

theorem bitOf_ne_zero (seq : UInt8) (i : Nat) :
    decide (bitOf seq i ≠ 0) = seq.toNat.testBit i := by
  unfold bitOf
  split <;> simp_all

theorem parity_ne_zero (n : Nat) :
    decide ((if n % 2 ≠ 0 then (1 : UInt8) else 0) ≠ 0) = odd n := by
  rcases Nat.mod_two_eq_zero_or_one n with hn | hn <;> simp [odd, hn]

/-- What the old contents of the cells add to their parities. -/
def oldParity (sendBuf : Vector UInt8 12) : List Bool :=
  [odd sendBuf[0].toNat, odd sendBuf[1].toNat, false, odd sendBuf[3].toNat, false, false, false,
    odd sendBuf[7].toNat, false, false, false, false]

theorem toList_twelve (v : Vector UInt8 12) :
    v.toList = [v[0], v[1], v[2], v[3], v[4], v[5], v[6], v[7], v[8], v[9], v[10], v[11]] := by
  apply List.ext_getElem
  · simp
  · intro i h _
    have hi : i < 12 := by simpa using h
    interval_cases i <;> simp

section Parity

variable (sendBuf : Vector UInt8 12) (seq : UInt8)

/-- The sum over one parity cell, as it was, and the bits it covers. -/
def coverSum (old : UInt8) (bits : List Nat) : Nat :=
  old.toNat + (bits.map fun i => (bitOf seq i).toNat).sum

theorem odd_coverSum (old : UInt8) (bits : List Nat) :
    odd (coverSum seq old bits) =
      (odd old.toNat ^^ bits.foldr (fun i p => seq.toNat.testBit i ^^ p) false) := by
  rw [coverSum, odd_add]
  congr 1
  induction bits with
  | nil => rfl
  | cons i bits ih => rw [List.map_cons, List.sum_cons, odd_add, odd_bitOf, ih, List.foldr_cons]

/-- The cells that the loop fills hold the bits. -/
theorem fill_data :
    (fillU8Hamming sendBuf seq)[2] = bitOf seq 7 ∧ (fillU8Hamming sendBuf seq)[4] = bitOf seq 6 ∧
      (fillU8Hamming sendBuf seq)[5] = bitOf seq 5 ∧
      (fillU8Hamming sendBuf seq)[6] = bitOf seq 4 ∧
      (fillU8Hamming sendBuf seq)[8] = bitOf seq 3 ∧
      (fillU8Hamming sendBuf seq)[9] = bitOf seq 2 ∧
      (fillU8Hamming sendBuf seq)[10] = bitOf seq 1 ∧
      (fillU8Hamming sendBuf seq)[11] = bitOf seq 0 := by
  simp [fillU8Hamming, hammingIdx]

theorem fill_parity :
    (fillU8Hamming sendBuf seq)[0] =
        (if coverSum seq sendBuf[0] [7, 6, 4, 3, 1] % 2 ≠ 0 then 1 else 0) ∧
      (fillU8Hamming sendBuf seq)[1] =
        (if coverSum seq sendBuf[1] [7, 5, 4, 2, 1] % 2 ≠ 0 then 1 else 0) ∧
      (fillU8Hamming sendBuf seq)[3] =
        (if coverSum seq sendBuf[3] [6, 5, 4, 0] % 2 ≠ 0 then 1 else 0) ∧
      (fillU8Hamming sendBuf seq)[7] =
        (if coverSum seq sendBuf[7] [3, 2, 1, 0] % 2 ≠ 0 then 1 else 0) := by
  simp [fillU8Hamming, hammingIdx, parityOf, coverSum]

theorem fillU8Hamming_bits :
    (fillU8Hamming sendBuf seq).toList.map (fun c => decide (c ≠ 0)) =
      List.zipWith xor (oldParity sendBuf) (codeWord seq) := by
  obtain ⟨h2, h4, h5, h6, h8, h9, h10, h11⟩ := fill_data sendBuf seq
  obtain ⟨h0, h1, h3, h7⟩ := fill_parity sendBuf seq
  rw [toList_twelve]
  simp only [List.map_cons, List.map_nil, h0, h1, h2, h3, h4, h5, h6, h7, h8, h9, h10, h11,
    parity_ne_zero, odd_coverSum, bitOf_ne_zero]
  simp [oldParity, codeWord]

end Parity

theorem codeWord_injective {seq seq' : UInt8} (h : codeWord seq = codeWord seq') :
    seq = seq' := by
  simp only [codeWord, List.cons.injEq] at h
  obtain ⟨_, _, h7, _, h6, h5, h4, _, h3, h2, h1, h0, _⟩ := h
  apply UInt8.toNat_inj.mp
  apply Nat.eq_of_testBit_eq
  intro i
  by_cases hi : i < 8
  · interval_cases i <;> assumption
  · have hlarge : ∀ b : UInt8, b.toNat.testBit i = false := by
      intro b
      apply Nat.testBit_lt_two_pow
      calc b.toNat < 2 ^ 8 := b.toNat_lt
        _ ≤ 2 ^ i := Nat.pow_le_pow_right (by omega) (by omega)
    rw [hlarge, hlarge]

theorem encoding_injective {seq seq' : UInt8} (h : encoding seq = encoding seq') : seq = seq' :=
  codeWord_injective (levels_injective (by decide) rfl (List.append_cancel_left h))

/-- The parity cells of the array are even before the fill. -/
def EvenCells (hammingSeq : Vector UInt8 12) : Prop :=
  oldParity hammingSeq = List.replicate 12 false

instance (hammingSeq : Vector UInt8 12) : Decidable (EvenCells hammingSeq) :=
  inferInstanceAs (Decidable (_ = _))

theorem zipWith_xor_eq_iff {old word : List Bool} (h : old.length = word.length) :
    List.zipWith xor old word = word ↔ old = List.replicate old.length false := by
  induction old generalizing word with
  | nil =>
    obtain rfl := List.length_eq_zero_iff.mp h.symm
    simp
  | cons o old ih =>
    cases word with
    | nil => cases h
    | cons w word =>
      have hrest := ih (Nat.succ.inj h)
      rw [List.zipWith_cons_cons, List.cons.injEq, hrest, List.length_cons, List.replicate_succ,
        List.cons.injEq]
      cases o <;> cases w <;> simp

/-- The pattern encodes the number exactly where the old parity cells are even. -/
theorem blinkPreparePattern_eq_iff (hammingSeq : Vector UInt8 12) (seq : UInt8) :
    blinkPreparePattern hammingSeq seq = encoding seq ↔ EvenCells hammingSeq := by
  have hplay := foldl_addPair (fillU8Hamming hammingSeq seq).toList [255, 255] 255 64
  have hword := zipWith_xor_eq_iff (show (oldParity hammingSeq).length = (codeWord seq).length
    from rfl)
  rw [fillU8Hamming_bits] at hplay
  rw [EvenCells, ← show (oldParity hammingSeq).length = 12 from rfl, ← hword,
    blinkPreparePattern, syncBits]
  constructor
  · intro h
    exact levels_injective (by decide) rfl (List.append_cancel_left (hplay.symm.trans h))
  · intro h
    rw [h] at hplay
    exact hplay

end BlinkPattern

end MarkitNode
