import MarkitNode.BlinkPattern
import Mathlib.Data.List.Rotate

/-!
The pattern as a camera sees it: a cycle that `blink_timeout` plays from any
entry on. The sync word can be read in one place of the cycle only, since every
pair behind it holds both levels and the word has three bright entries in a row.
So a receiver finds the start, and reads the bits off the pairs.
-/

namespace MarkitNode.BlinkSync

open BlinkPattern

/-- The loop of `blink_prepare_pattern` on a bit sequence of any length. -/
def seqPattern (hammingSeq : List UInt8) : List UInt8 := hammingSeq.foldl addPair syncBits

def seqBits (hammingSeq : List UInt8) : List Bool := hammingSeq.map fun c => decide (c ≠ 0)

/-- `(s_selected_pattern[s_blink_idx] * CONFIG_BLINK_MAX_DUTY) / 0x100` -/
def duty (level : UInt8) : Nat := level.toNat * 4000 / 0x100

/-- `blink_timeout`: the duty it sets, and `s_blink_idx` for the next time. -/
def blinkTimeout (sSelectedPattern : List UInt8) (sSelectedPatternLen : UInt8)
    (sBlinkIdx : Nat) : Nat × Nat :=
  let idx := if sBlinkIdx ≥ sSelectedPatternLen.toNat then 0 else sBlinkIdx
  (duty (sSelectedPattern.getD idx 0), idx + 1)

/-- The duties of the next ticks of the timer. -/
def played (pattern : List UInt8) (len : UInt8) (sBlinkIdx : Nat) : Nat → List Nat
  | 0 => []
  | ticks + 1 =>
      (blinkTimeout pattern len sBlinkIdx).1 ::
        played pattern len (blinkTimeout pattern len sBlinkIdx).2 ticks

/-! ### Reading a pattern -/

/-- Two entries of a pattern: the pairs 0 and 1 are the sync word. -/
def pairAt (pattern : List UInt8) (k : Nat) : Option UInt8 × Option UInt8 :=
  (pattern[2 * k]?, pattern[2 * k + 1]?)

/-- `word` stands at entry `i` of the pattern, read as a cycle. -/
def ReadsAt (word pattern : List UInt8) (i : Nat) : Prop :=
  ∀ j < word.length, pattern[(i + j) % pattern.length]? = word[j]?

theorem readsAt_rotate {word pattern : List UInt8} (h : word.length ≤ pattern.length)
    (i : Nat) : ReadsAt word pattern i ↔ ReadsAt word (pattern.rotate i) 0 := by
  have hread : ∀ j < word.length,
      (pattern.rotate i)[(0 + j) % (pattern.rotate i).length]? =
        pattern[(i + j) % pattern.length]? := by
    intro j hj
    rw [List.length_rotate, Nat.zero_add, Nat.mod_eq_of_lt (by omega),
      List.getElem?_rotate (by omega), Nat.add_comm j i]
  constructor
  · intro hreads j hj
    rw [hread j hj]
    exact hreads j hj
  · intro hreads j hj
    rw [← hread j hj]
    exact hreads j hj

@[simp] theorem pairAt_zero (a b : UInt8) (l : List UInt8) :
    pairAt (a :: b :: l) 0 = (some a, some b) := rfl

@[simp] theorem pairAt_succ (a b : UInt8) (l : List UInt8) (k : Nat) :
    pairAt (a :: b :: l) (k + 1) = pairAt l k := by
  have heven : 2 * (k + 1) = 2 * k + 1 + 1 := by omega
  simp only [pairAt, heven, List.getElem?_cons_succ]

theorem levels_length (p : UInt8 × UInt8) (bits : List Bool) :
    (levels p bits).length = 2 * bits.length := by
  induction bits generalizing p with
  | nil => rfl
  | cons bit rest ih =>
    cases bit with
    | false =>
      simp only [levels, List.length_cons, ih]
      omega
    | true =>
      simp only [levels, List.length_cons, ih]
      omega

/-- Each pair has both levels. -/
theorem levels_pair (a b : UInt8) (bits : List Bool) (k : Nat) (hk : k < bits.length) :
    pairAt (levels (a, b) bits) k = (some a, some b) ∨
      pairAt (levels (a, b) bits) k = (some b, some a) := by
  induction bits generalizing a b k with
  | nil => simp at hk
  | cons bit rest ih =>
    cases bit with
    | false =>
      cases k with
      | zero => exact Or.inl rfl
      | succ k =>
        rw [levels, pairAt_succ]
        exact ih a b k (by simpa using hk)
    | true =>
      cases k with
      | zero => exact Or.inr rfl
      | succ k =>
        rw [levels, pairAt_succ]
        exact (ih b a k (by simpa using hk)).symm

/-- A bit is set exactly where its pair differs from the pair before it. -/
theorem levels_bit {a b : UInt8} (hne : a ≠ b) (bits : List Bool) (k : Nat)
    (hk : k < bits.length) :
    bits[k]? = some (decide (pairAt (a :: b :: levels (a, b) bits) (k + 1) ≠
      pairAt (a :: b :: levels (a, b) bits) k)) := by
  induction bits generalizing a b k with
  | nil => simp at hk
  | cons bit rest ih =>
    cases bit with
    | false =>
      cases k with
      | zero => simp [levels]
      | succ k =>
        simp only [levels, List.getElem?_cons_succ, pairAt_succ a b _ (k + 1),
          pairAt_succ a b _ k]
        exact ih hne k (by simpa using hk)
    | true =>
      cases k with
      | zero => simp [levels, hne.symm]
      | succ k =>
        simp only [levels, List.getElem?_cons_succ, pairAt_succ a b _ (k + 1),
          pairAt_succ a b _ k]
        exact ih hne.symm k (by simpa using hk)

/-! ### The pattern of a bit sequence -/

section Pattern

variable (hammingSeq : List UInt8)

theorem seqPattern_eq :
    seqPattern hammingSeq = 255 :: 255 :: 255 :: 64 :: levels (255, 64) (seqBits hammingSeq) :=
  foldl_addPair hammingSeq [255, 255] 255 64

theorem seqPattern_length : (seqPattern hammingSeq).length = 4 + 2 * hammingSeq.length := by
  rw [seqPattern_eq]
  simp only [List.length_cons, levels_length, seqBits, List.length_map]
  omega

theorem seqPattern_sync :
    pairAt (seqPattern hammingSeq) 0 = (some 255, some 255) ∧
      pairAt (seqPattern hammingSeq) 1 = (some 255, some 64) := by
  rw [seqPattern_eq]
  exact ⟨rfl, rfl⟩

theorem seqPattern_pair (k : Nat) (hk : k < hammingSeq.length) :
    pairAt (seqPattern hammingSeq) (k + 2) = (some 255, some 64) ∨
      pairAt (seqPattern hammingSeq) (k + 2) = (some 64, some 255) := by
  rw [seqPattern_eq, pairAt_succ, pairAt_succ]
  apply levels_pair
  simpa [seqBits] using hk

theorem seqPattern_bit (k : Nat) (hk : k < hammingSeq.length) :
    (seqBits hammingSeq)[k]? = some (decide (pairAt (seqPattern hammingSeq) (k + 2) ≠
      pairAt (seqPattern hammingSeq) (k + 1))) := by
  rw [seqPattern_eq, pairAt_succ _ _ _ (k + 1), pairAt_succ _ _ _ k]
  apply levels_bit (by decide)
  simpa [seqBits] using hk

/-- Two bright entries in one pair are the start of the sync word. -/
theorem bright_pair {m : Nat} (hm : m < hammingSeq.length + 2)
    (hpair : pairAt (seqPattern hammingSeq) m = (some 255, some 255)) : m = 0 := by
  obtain ⟨_, hone⟩ := seqPattern_sync hammingSeq
  match m with
  | 0 => rfl
  | 1 => simp [hone] at hpair
  | k + 2 =>
    rcases seqPattern_pair hammingSeq k (by omega) with h | h
    · simp [h] at hpair
    · simp [h] at hpair

/-- The sync word can be read at the start and nowhere else. -/
theorem sync_readsAt_iff {i : Nat} (hi : i < (seqPattern hammingSeq).length) :
    ReadsAt syncBits (seqPattern hammingSeq) i ↔ i = 0 := by
  have hlen := seqPattern_length hammingSeq
  constructor
  · intro hreads
    have hread : ∀ j < 4, i + j < (seqPattern hammingSeq).length →
        (seqPattern hammingSeq)[i + j]? = syncBits[j]? := by
      intro j hj hin
      have hword := hreads j hj
      rwa [Nat.mod_eq_of_lt hin] at hword
    rcases Nat.even_or_odd' i with ⟨m, rfl | rfl⟩
    · have hpair : pairAt (seqPattern hammingSeq) m = (some 255, some 255) := by
        apply Prod.ext
        · exact hread 0 (by omega) (by omega)
        · exact hread 1 (by omega) (by omega)
      have hzero := bright_pair hammingSeq (by omega) hpair
      omega
    · by_cases hlast : m = hammingSeq.length + 1
      -- the word would wrap around, and its dark entry fall on a bright one
      · have hword := hreads 3 (by decide)
        have hwrap : (2 * m + 1 + 3) % (seqPattern hammingSeq).length = 2 := by
          rw [hlen, hlast, Nat.mod_eq_sub_mod (by omega), Nat.mod_eq_of_lt (by omega)]
          omega
        rw [hwrap, seqPattern_eq] at hword
        simp [syncBits] at hword
      · have hpair : pairAt (seqPattern hammingSeq) (m + 1) = (some 255, some 255) := by
          apply Prod.ext
          · exact hread 1 (by omega) (by omega)
          · exact hread 2 (by omega) (by omega)
        have hzero := bright_pair hammingSeq (by omega) hpair
        omega
  · rintro rfl j hj
    have hj4 : j < 4 := hj
    rw [Nat.zero_add, Nat.mod_eq_of_lt (by omega), seqPattern_eq]
    simp only [syncBits]
    interval_cases j <;> rfl

end Pattern

/-- Patterns that are rotations of each other have the same bits. -/
theorem seqBits_eq_of_isRotated {hammingSeq hammingSeq' : List UInt8}
    (h : seqPattern hammingSeq ~r seqPattern hammingSeq') :
    seqBits hammingSeq = seqBits hammingSeq' := by
  obtain ⟨k, hk⟩ := h
  have hlen := seqPattern_length hammingSeq
  rw [← List.rotate_mod] at hk
  have hin : k % (seqPattern hammingSeq).length < (seqPattern hammingSeq).length :=
    Nat.mod_lt _ (by omega)
  have hstart : ReadsAt syncBits (seqPattern hammingSeq') 0 := by
    rw [sync_readsAt_iff hammingSeq' (by rw [seqPattern_length]; omega)]
  rw [← hk, ← readsAt_rotate (by rw [hlen]; simp [syncBits]), sync_readsAt_iff _ hin] at hstart
  rw [hstart, List.rotate_zero, seqPattern_eq, seqPattern_eq] at hk
  simp only [List.cons.injEq, true_and] at hk
  have hbits : (seqBits hammingSeq).length = (seqBits hammingSeq').length := by
    have hlevels := congrArg List.length hk
    rw [levels_length, levels_length] at hlevels
    omega
  exact levels_injective (by decide) hbits hk

/-! ### The timer -/

theorem duty_injective : Function.Injective duty := by
  intro x y h
  unfold duty at h
  apply UInt8.toNat_inj.mp
  omega

section Timer

variable {pattern : List UInt8} {len : UInt8} (hlen : len.toNat = pattern.length)
include hlen

/-- The timer goes round the pattern from the entry it starts with. -/
theorem played_eq (hpos : 0 < pattern.length) (sBlinkIdx ticks : Nat) :
    played pattern len sBlinkIdx ticks = (List.range ticks).map fun j =>
      duty (pattern.getD
        (((if sBlinkIdx ≥ pattern.length then 0 else sBlinkIdx) + j) % pattern.length) 0) := by
  induction ticks generalizing sBlinkIdx with
  | zero => rfl
  | succ ticks ih =>
    rw [played, blinkTimeout, hlen, List.range_succ_eq_map, List.map_cons, List.map_map]
    generalize hstart : (if sBlinkIdx ≥ pattern.length then 0 else sBlinkIdx) = start
    have hin : start < pattern.length := by
      subst hstart
      by_cases h : sBlinkIdx ≥ pattern.length
      · rwa [if_pos h]
      · rw [if_neg h]
        omega
    have hhead : (start + 0) % pattern.length = start := Nat.mod_eq_of_lt hin
    have hnext : (if start + 1 ≥ pattern.length then 0 else start + 1) =
        (start + 1) % pattern.length := by
      by_cases h : start + 1 ≥ pattern.length
      · have hend : start + 1 = pattern.length := by omega
        rw [if_pos h, hend, Nat.mod_self]
      · rw [if_neg h, Nat.mod_eq_of_lt (by omega)]
    simp only [hhead, ih, hnext, List.cons.injEq, true_and]
    apply List.map_congr_left
    intro j _
    rw [Function.comp_apply, Nat.mod_add_mod, Nat.succ_eq_add_one, Nat.add_right_comm,
      Nat.add_assoc start j 1]

theorem played_period (sBlinkIdx : Nat) :
    played pattern len sBlinkIdx pattern.length ~r pattern.map duty := by
  rcases Nat.eq_zero_or_pos pattern.length with hnil | hpos
  · rw [hnil, List.length_eq_zero_iff.mp hnil]
    exact List.IsRotated.refl []
  · rw [played_eq hlen hpos]
    generalize (if sBlinkIdx ≥ pattern.length then 0 else sBlinkIdx) = start
    apply List.IsRotated.symm
    refine ⟨start, ?_⟩
    apply List.ext_getElem?
    intro j
    by_cases hj : j < pattern.length
    · have hin : (j + start) % pattern.length < pattern.length := Nat.mod_lt _ hpos
      rw [List.getElem?_rotate (by simpa using hj), List.length_map, List.getElem?_map,
        List.getElem?_map, List.getElem?_range hj, Option.map_some, Nat.add_comm start j,
        List.getD_eq_getElem?_getD, List.getElem?_eq_getElem hin]
      rfl
    · rw [List.getElem?_eq_none (by simpa using hj), List.getElem?_eq_none (by simpa using hj)]

end Timer

/-- Two markers whose bits differ never play rotations of each other. -/
theorem seqBits_eq_of_played {hammingSeq hammingSeq' : List UInt8} {len : UInt8}
    (hlength : hammingSeq'.length = hammingSeq.length)
    (hlen : len.toNat = (seqPattern hammingSeq).length) {i i' : Nat}
    (h : played (seqPattern hammingSeq) len i len.toNat ~r
      played (seqPattern hammingSeq') len i' len.toNat) :
    seqBits hammingSeq = seqBits hammingSeq' := by
  have hlen' : len.toNat = (seqPattern hammingSeq').length := by
    rw [hlen, seqPattern_length, seqPattern_length, hlength]
  have hplayed := played_period hlen i
  have hplayed' := played_period hlen' i'
  rw [← hlen] at hplayed
  rw [← hlen'] at hplayed'
  obtain ⟨k, hk⟩ := (hplayed.symm.trans h).trans hplayed'
  rw [← List.map_rotate] at hk
  apply seqBits_eq_of_isRotated
  exact ⟨k, List.map_injective_iff.mpr duty_injective hk⟩

/-- The sync word can be read at the start of the cycle and nowhere else, each
pair behind it has one bright and one dark entry, a bit is set where its pair
differs from the pair before, and neither the patterns of different bits nor
what the timer plays of them are rotations of each other. -/
theorem seqPattern_synchronises (hammingSeq : List UInt8) :
    (∀ i < (seqPattern hammingSeq).length,
      ReadsAt syncBits (seqPattern hammingSeq) i ↔ i = 0) ∧
    (∀ k < hammingSeq.length,
      pairAt (seqPattern hammingSeq) (k + 2) = (some 255, some 64) ∨
        pairAt (seqPattern hammingSeq) (k + 2) = (some 64, some 255)) ∧
    (∀ k < hammingSeq.length, (seqBits hammingSeq)[k]? =
      some (decide (pairAt (seqPattern hammingSeq) (k + 2) ≠
        pairAt (seqPattern hammingSeq) (k + 1)))) ∧
    ∀ hammingSeq' : List UInt8, hammingSeq'.length = hammingSeq.length →
      seqBits hammingSeq ≠ seqBits hammingSeq' →
        ¬ seqPattern hammingSeq ~r seqPattern hammingSeq' ∧
          ∀ (len : UInt8) (i i' : Nat), len.toNat = (seqPattern hammingSeq).length →
            ¬ played (seqPattern hammingSeq) len i len.toNat ~r
              played (seqPattern hammingSeq') len i' len.toNat := by
  refine ⟨?_, ?_, ?_, ?_⟩
  · intro i hi
    exact sync_readsAt_iff hammingSeq hi
  · intro k hk
    exact seqPattern_pair hammingSeq k hk
  · intro k hk
    exact seqPattern_bit hammingSeq k hk
  · intro hammingSeq' hlength hbits
    constructor
    · intro hrotated
      exact hbits (seqBits_eq_of_isRotated hrotated)
    · intro len i i' hlen hplayed
      exact hbits (seqBits_eq_of_played hlength hlen hplayed)

/-- `blink_prepare_pattern` fills twelve cells. -/
theorem blinkPreparePattern_eq (hammingSeq : Vector UInt8 12) (seq : UInt8) :
    blinkPreparePattern hammingSeq seq = seqPattern (fillU8Hamming hammingSeq seq).toList := rfl

/-- Markers that encode different numbers flash cycles that differ. -/
theorem encoding_isRotated_iff (seq seq' : UInt8) :
    encoding seq ~r encoding seq' ↔ seq = seq' := by
  have hcells : ∀ bits : List Bool,
      seqBits (bits.map fun bit => if bit then 1 else 0) = bits := by
    intro bits
    induction bits with
    | nil => rfl
    | cons bit rest ih =>
      rw [List.map_cons, seqBits, List.map_cons]
      exact congrArg₂ List.cons (by cases bit <;> rfl) ih
  have hpattern : ∀ seq : UInt8, encoding seq =
      seqPattern ((codeWord seq).map fun bit => if bit then 1 else 0) := by
    intro seq
    rw [seqPattern_eq, hcells]
    rfl
  constructor
  · intro h
    rw [hpattern, hpattern] at h
    have hbits := seqBits_eq_of_isRotated h
    rw [hcells, hcells] at hbits
    exact codeWord_injective hbits
  · rintro rfl
    exact List.IsRotated.refl _

end MarkitNode.BlinkSync
