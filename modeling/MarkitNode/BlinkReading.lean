import MarkitNode.BlinkTimer
import MarkitNode.HammingFill

/-!
What a camera makes of the flashes. It watches one round of the pattern from any tick on,
tells bright from dark by a threshold, finds the sync word, and reads each bit off a pair
and the pair before it. A pair read the wrong way round turns two bits, which is one more
than the Hamming word can tell.
-/

namespace MarkitNode

namespace BlinkReading

open BlinkPattern BlinkSync BlinkTimer HammingCode

/-- The level that an output is taken for. -/
def seen (threshold : Nat) : Output → UInt8
  | .level on => if on then 255 else 64
  | .duty value => if threshold < value then 255 else 64

/-- The frames from the sync word on. -/
def findStart (frames : List UInt8) : Option (List UInt8) :=
  (List.range frames.length).findSome? fun i =>
    if syncBits <+: frames.rotate i then some (frames.rotate i) else none

/-- The bits of the pairs behind the pair `p`. -/
def readPairs : UInt8 × UInt8 → List UInt8 → List Bool
  | p, a :: b :: rest => decide ((a, b) ≠ p) :: readPairs (a, b) rest
  | _, _ => []

def readWord (frames : List UInt8) : Option (List Bool) :=
  (findStart frames).map fun pattern => readPairs (255, 64) (pattern.drop 4)

/-- The number in the cells of a word. -/
def numberOf (word : List Bool) : UInt8 :=
  UInt8.ofNat (hammingIdx.map fun cell => (word.getD cell.1 false).toNat * 2 ^ cell.2).sum

/-! ### One round of a pattern -/

theorem readsAt_zero_iff {word pattern : List UInt8} (h : word.length ≤ pattern.length) :
    ReadsAt word pattern 0 ↔ word <+: pattern := by
  rw [List.prefix_iff_getElem?]
  refine forall₂_congr fun j hj => ?_
  rw [Nat.zero_add, Nat.mod_eq_of_lt (by omega), List.getElem?_eq_getElem hj]

theorem findStart_isRotated {frames : List UInt8} {hammingSeq : List UInt8}
    (h : seqPattern hammingSeq ~r frames) : findStart frames = some (seqPattern hammingSeq) := by
  have hlen : frames.length = (seqPattern hammingSeq).length := h.perm.length_eq.symm
  have hsync : syncBits.length ≤ (seqPattern hammingSeq).length := by
    rw [seqPattern_length]
    exact Nat.le_add_right 4 _
  have hpos : 0 < (seqPattern hammingSeq).length := Nat.lt_of_lt_of_le (by decide) hsync
  -- whatever is found is the pattern itself
  have hunique : ∀ i, syncBits <+: frames.rotate i →
      frames.rotate i = seqPattern hammingSeq := by
    intro i hi
    obtain ⟨k, rfl⟩ := h
    rw [List.rotate_rotate, ← List.rotate_mod] at hi ⊢
    have hlt := Nat.mod_lt (k + i) hpos
    rw [← readsAt_zero_iff (by rwa [List.length_rotate]), ← readsAt_rotate hsync,
      sync_readsAt_iff hammingSeq hlt] at hi
    rw [hi, List.rotate_zero]
  have hstart : syncBits <+: seqPattern hammingSeq := by
    rw [← readsAt_zero_iff hsync, sync_readsAt_iff hammingSeq hpos]
  rw [findStart]
  cases hfound : (List.range frames.length).findSome? fun i =>
      if syncBits <+: frames.rotate i then some (frames.rotate i) else none with
  | none =>
    obtain ⟨k, hk⟩ := h.symm
    rw [← List.rotate_mod] at hk
    have hmem := List.findSome?_eq_none_iff.mp hfound (k % frames.length)
      (List.mem_range.mpr (Nat.mod_lt _ (by omega)))
    rw [hk, if_pos hstart] at hmem
    cases hmem
  | some pattern =>
    obtain ⟨i, -, hi⟩ := List.exists_of_findSome?_eq_some hfound
    split_ifs at hi with hprefix
    rw [← Option.some.inj hi, hunique i hprefix]

theorem readPairs_levels {a b : UInt8} (hne : a ≠ b) (bits : List Bool) :
    readPairs (a, b) (levels (a, b) bits) = bits := by
  induction bits generalizing a b with
  | nil => rfl
  | cons bit rest ih =>
    cases bit with
    | false => simp only [levels, readPairs, ih hne, ne_eq, not_true_eq_false, decide_false]
    | true =>
      have hswapped : (b, a) ≠ (a, b) := fun h => hne (Prod.mk.inj h).2
      simp only [levels, readPairs, ih hne.symm, ne_eq, hswapped, not_false_eq_true, decide_true]

theorem readWord_isRotated {frames : List UInt8} {hammingSeq : List UInt8}
    (h : seqPattern hammingSeq ~r frames) : readWord frames = some (seqBits hammingSeq) := by
  rw [readWord, findStart_isRotated h, Option.map_some, seqPattern_eq]
  exact congrArg some (readPairs_levels (by decide) _)

theorem sum_bits (n : Nat) (h : n < 256) :
    (hammingIdx.map fun cell => (n.testBit cell.2).toNat * 2 ^ cell.2).sum = n := by
  have hall : ∀ m : Fin 256,
      (hammingIdx.map fun cell => (m.val.testBit cell.2).toNat * 2 ^ cell.2).sum = m.val := by
    decide +kernel
  exact hall ⟨n, h⟩

/-- The cells of the bits are filled whatever the array held. -/
theorem numberOf_fill (hammingSeq : Vector UInt8 12) (seq : UInt8) :
    numberOf (HammingFill.word (fillU8Hamming hammingSeq seq)) = seq := by
  have hcells : hammingIdx.map (fun cell =>
      ((HammingFill.word (fillU8Hamming hammingSeq seq)).getD cell.1 false).toNat * 2 ^ cell.2) =
      hammingIdx.map fun cell => (seq.toNat.testBit cell.2).toNat * 2 ^ cell.2 := by
    refine List.map_congr_left fun cell hcell => ?_
    have hget := HammingFill.fill_hammingIdx hammingSeq seq cell hcell
    have hword : (HammingFill.word (fillU8Hamming hammingSeq seq)).getD cell.1 false =
        decide ((fillU8Hamming hammingSeq seq).get cell.1 ≠ 0) := by
      rw [HammingFill.word, List.getD_eq_getElem?_getD, List.getElem?_map]
      simp [Vector.get]
    rw [hword, hget, bitOf_ne_zero]
  rw [numberOf, hcells, sum_bits _ seq.toNat_lt, UInt8.ofNat_toNat]

/-! ### The timer -/

/-- The outputs of the next ticks. -/
def watch : Nat → Blink → Option (List Output)
  | 0, _ => some []
  | ticks + 1, s => do
      let t ← s.blinkTimeout
      let rest ← watch ticks t
      return t.output :: rest

section Watch

variable {s : Blink}

theorem watch_eq (h : Good s) {pattern : Pattern} (hpattern : s.selectedPattern = some pattern)
    (ticks : Nat) :
    watch ticks s = some ((played (s.bytes pattern) s.selectedPatternLen s.blinkIdx ticks).map
      .duty) := by
  induction ticks generalizing s with
  | zero => rfl
  | succ ticks ih =>
    obtain ⟨t, ht, hgood⟩ := h.blinkTimeout
    obtain ⟨pattern', hpattern', hplayed, houtput⟩ := blinkTimeout_played ht
    obtain rfl := Option.some.inj (hpattern.symm.trans hpattern')
    have hkept : t.selectedPattern = some pattern ∧ t.bytes pattern = s.bytes pattern ∧
        t.selectedPatternLen = s.selectedPatternLen := by
      simp only [Blink.blinkTimeout, Option.bind_eq_bind, Option.bind_eq_some_iff,
        Option.pure_def, Option.some.injEq] at ht
      obtain ⟨_, _, _, _, rfl⟩ := ht
      exact ⟨hpattern, rfl, rfl⟩
    rw [watch, ht, played, hplayed]
    simp only [Option.bind_eq_bind, Option.bind_some, ih hgood hkept.1, hkept.2.1, hkept.2.2,
      houtput, Option.pure_def, List.map_cons]

theorem call_seqEncPattern {t : Blink} {c : Call} (h : call s c = some t) :
    t.seqEncPattern = s.seqEncPattern := by
  have hstart : ∀ own others pattern len period,
      (s.startPattern own others pattern len period).seqEncPattern = s.seqEncPattern := by
    intro own others pattern len period
    rw [Blink.startPattern]
    split
    · rfl
    · exact stopIn_seqEncPattern others
  cases c with
  | ledOff => exact Option.some.inj h ▸ stopIn_seqEncPattern _
  | ledOn => exact Option.some.inj h ▸ stopIn_seqEncPattern _
  | setDuty duty => exact Option.some.inj h ▸ stopIn_seqEncPattern _
  | fastFlash => exact Option.some.inj h ▸ hstart ..
  | fastBreath => exact Option.some.inj h ▸ hstart ..
  | slowBreath => exact Option.some.inj h ▸ hstart ..
  | seqEnc => exact Option.some.inj h ▸ hstart ..
  | timeout =>
    simp only [call, Blink.blinkTimeout, Option.bind_eq_bind, Option.bind_eq_some_iff,
      Option.pure_def, Option.some.injEq] at h
    obtain ⟨_, _, _, _, rfl⟩ := h
    rfl

/-- The pattern of the identity is the one of the initialisation in every state. -/
theorem run_good {hammingSeq : Vector UInt8 12} {seq : UInt8} {calls : List Call}
    (h : run hammingSeq seq calls = some s) :
    Good s ∧ s.seqEncPattern = blinkPreparePattern hammingSeq seq := by
  have hrun : ∀ {u : Blink}, Good u → u.seqEncPattern = blinkPreparePattern hammingSeq seq →
      calls.foldlM call u = some s →
        Good s ∧ s.seqEncPattern = blinkPreparePattern hammingSeq seq := by
    intro u hu hpattern hcalls
    clear h
    induction calls generalizing u with
    | nil => exact Option.some.inj hcalls ▸ ⟨hu, hpattern⟩
    | cons c rest ih =>
      obtain ⟨t, ht, hgood⟩ := hu.call c
      rw [List.foldlM_cons, ht] at hcalls
      exact ih hgood ((call_seqEncPattern ht).trans hpattern) hcalls
  refine hrun (good_blinkMspInit hammingSeq seq) ?_ h
  rw [blinkMspInit, Blink.blinkLedFastFlash, Blink.startPattern, if_neg (by simp)]
  exact stopIn_seqEncPattern _

end Watch

theorem seqPattern_levels {hammingSeq : List UInt8} {level : UInt8}
    (h : level ∈ seqPattern hammingSeq) : level = 255 ∨ level = 64 := by
  have hlevels : ∀ (a b : UInt8) (bits : List Bool), level ∈ levels (a, b) bits →
      level = a ∨ level = b := by
    intro a b bits
    induction bits generalizing a b with
    | nil => exact fun h => by cases h
    | cons bit rest ih =>
      cases bit with
      | false =>
        intro h
        simp only [levels, List.mem_cons] at h
        rcases h with h | h | h
        · exact .inl h
        · exact .inr h
        · exact ih a b h
      | true =>
        intro h
        simp only [levels, List.mem_cons] at h
        rcases h with h | h | h
        · exact .inr h
        · exact .inl h
        · exact (ih b a h).symm
  rw [seqPattern_eq] at h
  simp only [List.mem_cons] at h
  rcases h with h | h | h | h | h
  · exact .inl h
  · exact .inl h
  · exact .inl h
  · exact .inr h
  · exact hlevels 255 64 _ h

theorem seen_duty {threshold : Nat} (hdark : duty 64 ≤ threshold) (hbright : threshold < duty 255)
    {level : UInt8} (h : level = 255 ∨ level = 64) :
    seen threshold (.duty (duty level)) = level := by
  rcases h with rfl | rfl
  · rw [seen, if_pos hbright]
  · rw [seen, if_neg (Nat.not_lt.mpr hdark)]

/-- From any tick on, one round of the identity pattern reads back as the number that the
initialisation was given, whatever was in the array on its stack; the checks of the word
hold if the parity cells of that array were even. -/
theorem camera_reads {hammingSeq : Vector UInt8 12} {seq : UInt8} {calls : List Call} {s : Blink}
    (hrun : run hammingSeq seq calls = some s) (hseq : s.ledStatus = .seqEnc) {threshold : Nat}
    (hdark : duty 64 ≤ threshold) (hbright : threshold < duty 255) :
    ∃ outputs word, watch seqEncPatternLen s = some outputs ∧
      readWord (outputs.map (seen threshold)) = some word ∧ numberOf word = seq ∧
      (syndrome word = 0 ↔ EvenCells hammingSeq) := by
  obtain ⟨hgood, hpattern⟩ := run_good hrun
  obtain ⟨pattern, hselected, hlen, hown⟩ := hgood.selected
  obtain rfl := hown .seqEnc 50000 (by rw [hseq]; rfl)
  have hbytes : s.bytes .seqEnc = seqPattern (fillU8Hamming hammingSeq seq).toList := by
    rw [← blinkPreparePattern_eq, ← hpattern]
    rfl
  have hround : seqEncPatternLen = (s.bytes .seqEnc).length := by
    rw [bytes_length hgood.seqLen]
    rfl
  -- the frames are the pattern, from some entry on
  have hframes : s.bytes .seqEnc ~r (played (s.bytes .seqEnc) s.selectedPatternLen s.blinkIdx
      seqEncPatternLen).map (seen threshold ∘ Output.duty) := by
    obtain ⟨k, hk⟩ := (played_period hlen s.blinkIdx).symm
    refine ⟨k, ?_⟩
    rw [hround, ← hk, ← List.map_rotate, List.map_map]
    symm
    refine (List.map_congr_left fun level hlevel => ?_).trans (List.map_id _)
    rw [List.mem_rotate, hbytes] at hlevel
    exact seen_duty hdark hbright (seqPattern_levels hlevel)
  refine ⟨_, HammingFill.word (fillU8Hamming hammingSeq seq), watch_eq hgood hselected _, ?_,
    numberOf_fill hammingSeq seq, ?_⟩
  · rw [List.map_map]
    rw [hbytes] at hframes ⊢
    exact readWord_isRotated hframes
  · rw [HammingFill.syndrome_fill, HammingFill.syndrome_oldParity]
    exact Iff.rfl

/-- From the fourth tick on. -/
theorem camera_reads_fourthTick :
    ∃ s, run (Vector.replicate 12 1) 37 [.seqEnc, .timeout, .timeout, .timeout] = some s ∧
      ∃ outputs word, watch seqEncPatternLen s = some outputs ∧
        readWord (outputs.map (seen 2000)) = some word ∧ numberOf word = 37 ∧
        (syndrome word = 0 ↔ EvenCells (Vector.replicate 12 1)) := by
  have hstatus : (run (Vector.replicate 12 1) 37 [.seqEnc, .timeout, .timeout, .timeout]).map
      (·.ledStatus) = some .seqEnc := by decide +kernel
  obtain ⟨s, hs, hseq⟩ := Option.map_eq_some_iff.mp hstatus
  exact ⟨s, hs, camera_reads hs hseq (by decide) (by decide)⟩

/-- The pair `k` the wrong way round. -/
def swapPair : Nat → List UInt8 → List UInt8
  | 0, a :: b :: rest => b :: a :: rest
  | k + 1, a :: b :: rest => a :: b :: swapPair k rest
  | _, rest => rest

def misread (k : Nat) (pattern : List UInt8) : List UInt8 :=
  pattern.take 4 ++ swapPair k (pattern.drop 4)

/-- The pair turns its own bit and that of the next pair. -/
theorem swapPair_levels (a b : UInt8) {bits : List Bool} {k : Nat} (hk : k < bits.length) :
    swapPair k (levels (a, b) bits) = levels (a, b) (flip (flip bits k) (k + 1)) := by
  have hnext : ∀ (a b : UInt8) (rest : List Bool),
      levels (a, b) rest = levels (b, a) (flip rest 0) := by
    intro a b rest
    cases rest with
    | nil => rfl
    | cons bit rest => cases bit <;> rfl
  induction bits generalizing a b k with
  | nil => cases hk
  | cons bit rest ih =>
    cases k with
    | zero =>
      cases bit with
      | false => exact congrArg (fun l => b :: a :: l) (hnext a b rest)
      | true => exact congrArg (fun l => a :: b :: l) (hnext b a rest)
    | succ k =>
      have hrest := fun a b => ih a b (Nat.lt_of_succ_lt_succ hk)
      cases bit with
      | false => exact congrArg (fun l => a :: b :: l) (hrest a b)
      | true => exact congrArg (fun l => b :: a :: l) (hrest b a)

/-- Of the pairs that may be misread, the checks of the word only set the last one right. -/
theorem misread_corrected_iff {hammingSeq : Vector UInt8 12} (heven : EvenCells hammingSeq)
    (seq : UInt8) {k : Nat} (hk : k < 12) {frames : List UInt8}
    (hframes : misread k (blinkPreparePattern hammingSeq seq) ~r frames) :
    (readWord frames).map correct = some (codeWord seq) ↔ k = 11 := by
  have hlen : (codeWord seq).length = 12 := rfl
  have hcells : ∀ bits : List Bool,
      seqBits (bits.map fun bit => if bit then 1 else 0) = bits := by
    intro bits
    rw [seqBits, List.map_map]
    refine (List.map_congr_left fun bit _ => ?_).trans (List.map_id bits)
    cases bit <;> rfl
  have hmisread : misread k (blinkPreparePattern hammingSeq seq) =
      seqPattern ((flip (flip (codeWord seq) k) (k + 1)).map fun bit => if bit then 1 else 0) := by
    rw [(blinkPreparePattern_eq_iff hammingSeq seq).mpr heven, seqPattern_eq, hcells,
      ← swapPair_levels 255 64 (by rwa [hlen])]
    rfl
  rw [hmisread] at hframes
  rw [readWord_isRotated hframes, hcells, Option.map_some, Option.some.injEq]
  have hzero := HammingFill.syndrome_codeWord seq
  constructor
  · intro hcorrect
    by_contra hne
    exact correct_flip_flip_ne hzero (by omega) (by omega) (Nat.succ_ne_self k).symm hcorrect
  · rintro rfl
    have hend : HammingCode.flip (HammingCode.flip (codeWord seq) 11) 12 =
        HammingCode.flip (codeWord seq) 11 :=
      List.modify_eq_self (by rw [HammingCode.flip, List.length_modify, hlen])
    rw [hend]
    exact correct_flip hzero (by omega)

theorem misread_corrected_iff_third :
    (readWord (misread 3 (blinkPreparePattern (Vector.replicate 12 0) 37))).map correct ≠
      some (codeWord 37) :=
  mt (misread_corrected_iff (by decide) 37 (by decide) (List.IsRotated.refl _)).mp (by decide)

end BlinkReading

end MarkitNode
