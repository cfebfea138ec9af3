import MarkitNode.Hi229Serial

/-!
The frames of the IMU's stream, read from a whole byte list at once. A frame is
the pair `5A A5`, a little-endian length, a check over everything but itself,
and the payload. `scan` looks for the next pair, measures the frame that starts
there with `frameEnd` and goes on behind it; it has one result for each byte,
the one the byte-wise parser is to give for it.
-/

namespace MarkitNode

namespace Hi229Serial

open ByteCodes

abbrev maxPayload : Nat := maxRawLen - chHdrSize

def payloadLen (bytes : List UInt8) : Nat := ofLe ((bytes.drop 2).take 2)

def sentCrc (bytes : List UInt8) : BitVec 16 := BitVec.ofNat 16 (ofLe ((bytes.drop 4).take 2))

def CrcCorrect (frame : List UInt8) : Prop :=
  crc16 crcPoly (frame.take 4 ++ frame.drop chHdrSize) = sentCrc frame

instance (frame : List UInt8) : Decidable (CrcCorrect frame) :=
  inferInstanceAs (Decidable (_ = _))

def StartsSync (bytes : List UInt8) : Prop := bytes.take 2 = [chSync1, chSync2]

instance (bytes : List UInt8) : Decidable (StartsSync bytes) :=
  inferInstanceAs (Decidable (_ = _))

/-- Where the frame at the head of `bytes` ends and with which result, if it
ends among them. -/
def frameEnd (bytes : List UInt8) : Option (Nat × Status) :=
  if bytes.length < chHdrSize then none
  else if maxPayload < payloadLen bytes then some (chHdrSize, .errorMessage)
  else if bytes.length < payloadLen bytes + chHdrSize then none
  else
    let frame := bytes.take (payloadLen bytes + chHdrSize)
    some (frame.length, if CrcCorrect frame then .inputData else .errorMessage)

/-- The batch reading of a stream, one result for each byte. -/
def scan (bytes : List UInt8) : List Status :=
  match bytes with
  | [] => []
  | b :: rest =>
      if StartsSync (b :: rest) then
        match frameEnd (b :: rest) with
        | none => List.replicate (rest.length + 1) .noMessage
        | some (n, status) =>
            List.replicate (n - 1) .noMessage ++ status :: scan (rest.drop (n - 1))
      else .noMessage :: scan rest
termination_by bytes.length
decreasing_by all_goals simp only [List.length_cons, List.length_drop]; omega

/-- A complete frame whose check is right. -/
structure CrcFrame (frame : List UInt8) : Prop where
  starts : StartsSync frame
  short : payloadLen frame ≤ maxPayload
  length : frame.length = payloadLen frame + chHdrSize
  crc : CrcCorrect frame

/-! ### Measuring one frame -/

theorem payloadLen_append {p : List UInt8} (q : List UInt8) (h : 4 ≤ p.length) :
    payloadLen (p ++ q) = payloadLen p := by
  have hdrop : (p ++ q).drop 2 = p.drop 2 ++ q := List.drop_append_of_le_length (by omega)
  have htake : (p.drop 2 ++ q).take 2 = (p.drop 2).take 2 :=
    List.take_append_of_le_length (by simp only [List.length_drop]; omega)
  rw [payloadLen, hdrop, htake, payloadLen]

theorem sentCrc_append {p : List UInt8} (q : List UInt8) (h : chHdrSize ≤ p.length) :
    sentCrc (p ++ q) = sentCrc p := by
  have hdr : chHdrSize = 6 := rfl
  have hdrop : (p ++ q).drop 4 = p.drop 4 ++ q := List.drop_append_of_le_length (by omega)
  have htake : (p.drop 4 ++ q).take 2 = (p.drop 4).take 2 :=
    List.take_append_of_le_length (by simp only [List.length_drop]; omega)
  rw [sentCrc, hdrop, htake, sentCrc]

theorem startsSync_append {p : List UInt8} (q : List UInt8) (h : 2 ≤ p.length) :
    StartsSync (p ++ q) ↔ StartsSync p := by
  rw [StartsSync, List.take_append_of_le_length h, StartsSync]

theorem not_startsSync_of_ne {b : UInt8} (h : b ≠ chSync1) (rest : List UInt8) :
    ¬ StartsSync (b :: rest) := by
  intro hs
  rw [StartsSync, List.take_succ_cons] at hs
  exact h (List.cons.inj hs).1

theorem frameEnd_short {p : List UInt8} (h : p.length < chHdrSize) : frameEnd p = none := by
  rw [frameEnd, if_pos h]

theorem frameEnd_long {p : List UInt8} (h : chHdrSize ≤ p.length) (hl : maxPayload < payloadLen p) :
    frameEnd p = some (chHdrSize, .errorMessage) := by
  rw [frameEnd, if_neg (by omega), if_pos hl]

theorem frameEnd_open {p : List UInt8} (hl : payloadLen p ≤ maxPayload)
    (h : p.length < payloadLen p + chHdrSize) : frameEnd p = none := by
  by_cases hshort : p.length < chHdrSize
  · exact frameEnd_short hshort
  · rw [frameEnd, if_neg hshort, if_neg (by omega), if_pos h]

theorem frameEnd_exact {p : List UInt8} (hl : payloadLen p ≤ maxPayload)
    (h : p.length = payloadLen p + chHdrSize) :
    frameEnd p = some (p.length, if CrcCorrect p then .inputData else .errorMessage) := by
  have htake : p.take (payloadLen p + chHdrSize) = p := List.take_of_length_le (by omega)
  rw [frameEnd, if_neg (by omega), if_neg (by omega), if_neg (by omega)]
  simp only [htake]

/-- An unfinished frame leaves room in the buffer. -/
theorem length_of_frameEnd_none {p : List UInt8} (h : frameEnd p = none) :
    p.length < maxRawLen ∧
      (chHdrSize ≤ p.length → payloadLen p ≤ maxPayload ∧ p.length < payloadLen p + chHdrSize) := by
  unfold frameEnd at h
  split at h
  · rename_i hshort
    constructor
    · exact Nat.lt_trans hshort (by decide)
    · intro hle
      omega
  · split at h
    · cases h
    · split at h
      · rename_i hl hopen
        have hmax : maxPayload + chHdrSize = maxRawLen := rfl
        constructor
        · omega
        · intro _
          exact ⟨by omega, hopen⟩
      · cases h

theorem frameEnd_bounds {p : List UInt8} {n : Nat} {status : Status}
    (h : frameEnd p = some (n, status)) : chHdrSize ≤ n ∧ n ≤ maxRawLen ∧ n ≤ p.length := by
  have hmax : maxPayload + chHdrSize = maxRawLen := rfl
  unfold frameEnd at h
  split at h
  · cases h
  · split at h
    · simp only [Option.some.injEq, Prod.mk.injEq] at h
      omega
    · split at h
      · cases h
      · simp only [Option.some.injEq, Prod.mk.injEq, List.length_take] at h
        omega

theorem frameEnd_append {p : List UInt8} {n : Nat} {status : Status} (q : List UInt8)
    (h : frameEnd p = some (n, status)) : frameEnd (p ++ q) = some (n, status) := by
  have hlen : (p ++ q).length = p.length + q.length := List.length_append
  have h6 : ¬ p.length < chHdrSize := by
    intro hshort
    rw [frameEnd_short hshort] at h
    cases h
  have hdr : chHdrSize = 6 := rfl
  have hpay : payloadLen (p ++ q) = payloadLen p := payloadLen_append q (by omega)
  unfold frameEnd at h ⊢
  rw [if_neg h6] at h
  rw [if_neg (by omega), hpay]
  split at h
  · rename_i hl
    rw [if_pos hl]
    exact h
  · rename_i hl
    rw [if_neg hl]
    split at h
    · cases h
    · rw [if_neg (by omega), List.take_append_of_le_length (by omega)]
      exact h

/-! ### Reading the stream -/

theorem scan_skip {b : UInt8} {rest : List UInt8} (h : ¬ StartsSync (b :: rest)) :
    scan (b :: rest) = .noMessage :: scan rest := by
  rw [scan, if_neg h]

theorem scan_open {p : List UInt8} (hs : StartsSync p) (h : frameEnd p = none) :
    scan p = List.replicate p.length .noMessage := by
  cases p with
  | nil => simp [scan]
  | cons b rest =>
    rw [scan, if_pos hs, h]
    rfl

theorem scan_end {p : List UInt8} {n : Nat} {status : Status} (hs : StartsSync p)
    (h : frameEnd p = some (n, status)) :
    scan p = List.replicate (n - 1) .noMessage ++ status :: scan (p.drop n) := by
  cases p with
  | nil => simp [frameEnd] at h
  | cons b rest =>
    have hn := (frameEnd_bounds h).1
    have hdr : chHdrSize = 6 := rfl
    obtain ⟨k, rfl⟩ : ∃ k, n = k + 1 := ⟨n - 1, by omega⟩
    rw [scan, if_pos hs, h]
    rfl

theorem CrcFrame.frameEnd {frame : List UInt8} (h : CrcFrame frame) :
    frameEnd frame = some (frame.length, .inputData) := by
  rw [frameEnd_exact h.short h.length, if_pos h.crc]

theorem scan_frame {frame : List UInt8} (h : CrcFrame frame) (rest : List UInt8) :
    scan (frame ++ rest) =
      List.replicate (frame.length - 1) .noMessage ++ .inputData :: scan rest := by
  have hlen := h.length
  have hdr : chHdrSize = 6 := rfl
  have hs : StartsSync (frame ++ rest) := (startsSync_append rest (by omega)).mpr h.starts
  rw [scan_end hs (frameEnd_append rest h.frameEnd), List.drop_left]

/-- A frame that is open after `p` ends behind `p`. -/
theorem frameEnd_behind {p q : List UInt8} {n : Nat} {status : Status} (hopen : frameEnd p = none)
    (h : frameEnd (p ++ q) = some (n, status)) : p.length < n := by
  have hdr : chHdrSize = 6 := rfl
  have hn := (frameEnd_bounds h).1
  have hspan := (length_of_frameEnd_none hopen).2
  by_cases hfirst : chHdrSize ≤ p.length
  · obtain ⟨hl, hlt⟩ := hspan hfirst
    unfold frameEnd at h
    rw [payloadLen_append q (by omega)] at h
    split at h
    · cases h
    · rw [if_neg (by omega)] at h
      split at h
      · cases h
      · simp only [Option.some.injEq, Prod.mk.injEq, List.length_take] at h
        omega
  · omega

/-- The bytes of a frame that has not ended give no message. -/
theorem scan_held {p : List UInt8} (hs : StartsSync p) (htwo : 2 ≤ p.length)
    (hopen : frameEnd p = none) (q : List UInt8) :
    (scan (p ++ q)).take p.length = List.replicate p.length .noMessage := by
  have hs' : StartsSync (p ++ q) := (startsSync_append q htwo).mpr hs
  cases hend : frameEnd (p ++ q) with
  | none =>
    rw [scan_open hs' hend, List.take_replicate, List.length_append,
      Nat.min_eq_left (Nat.le_add_right _ _)]
  | some r =>
    obtain ⟨n, status⟩ := r
    have hn := frameEnd_behind hopen hend
    have hle : p.length ≤ (List.replicate (n - 1) Status.noMessage).length := by
      rw [List.length_replicate]
      omega
    rw [scan_end hs' hend, List.take_append_of_le_length hle, List.take_replicate,
      Nat.min_eq_left (by omega)]

/-- The byte that ends a frame has the frame's result. -/
theorem scan_closed {p : List UInt8} {status : Status} (hs : StartsSync p)
    (hend : frameEnd p = some (p.length, status)) (q : List UInt8) :
    (scan (p ++ q)).drop (p.length - 1) = status :: scan q := by
  have hn := (frameEnd_bounds hend).1
  have hdr : chHdrSize = 6 := rfl
  have hs' : StartsSync (p ++ q) := (startsSync_append q (by omega)).mpr hs
  rw [scan_end hs' (frameEnd_append q hend), List.drop_left]
  exact List.drop_left' List.length_replicate

theorem scan_first (b : UInt8) (rest : List UInt8) :
    scan (b :: rest) = .noMessage :: (scan (b :: rest)).drop 1 := by
  by_cases hs : StartsSync (b :: rest)
  · cases hend : frameEnd (b :: rest) with
    | none =>
      rw [scan_open hs hend]
      rfl
    | some r =>
      obtain ⟨n, status⟩ := r
      have hn := (frameEnd_bounds hend).1
      have hdr : chHdrSize = 6 := rfl
      obtain ⟨k, rfl⟩ : ∃ k, n = k + 2 := ⟨n - 2, by omega⟩
      rw [scan_end hs hend]
      rfl
  · rw [scan_skip hs]
    rfl

theorem crcFrame_of_frameEnd {p : List UInt8} {n : Nat} (hs : StartsSync p)
    (h : frameEnd p = some (n, .inputData)) : CrcFrame (p.take n) ∧ n ≤ p.length := by
  have hdr : chHdrSize = 6 := rfl
  obtain ⟨hn, _, hle⟩ := frameEnd_bounds h
  refine ⟨?_, hle⟩
  have hlen : (p.take n).length = n := by
    rw [List.length_take]
    omega
  have hpay : payloadLen (p.take n) = payloadLen p := by
    have happ := payloadLen_append (p.drop n) (p := p.take n) (by omega)
    rw [List.take_append_drop] at happ
    exact happ.symm
  have hstart : StartsSync (p.take n) := by
    apply (startsSync_append (p.drop n) (by omega)).mp
    rw [List.take_append_drop]
    exact hs
  unfold frameEnd at h
  split at h
  · cases h
  · split at h
    · cases h
    · split at h
      · cases h
      · rename_i hmax hopen
        simp only [Option.some.injEq, Prod.mk.injEq, List.length_take] at h
        obtain ⟨hnn, hcrc⟩ := h
        have hend : payloadLen p + chHdrSize = n := by omega
        rw [hend] at hcrc
        refine ⟨hstart, by omega, by omega, ?_⟩
        by_contra hbad
        rw [if_neg hbad] at hcrc
        cases hcrc

theorem length_scan (bytes : List UInt8) : (scan bytes).length = bytes.length := by
  fun_induction scan bytes with
  | case1 => rfl
  | case2 b rest hs hopen => simp
  | case3 b rest hs n status hend ih =>
    have hdr : chHdrSize = 6 := rfl
    obtain ⟨hn, _, hle⟩ := frameEnd_bounds hend
    simp only [List.length_cons] at hle
    simp only [List.length_append, List.length_replicate, List.length_cons, ih, List.length_drop]
    omega
  | case4 b rest hs ih => simp [ih]

/-- A message is reported at the last byte of a frame whose check is right. -/
theorem frame_of_inputData {bytes : List UInt8} {i : Nat}
    (h : (scan bytes)[i]? = some .inputData) :
    ∃ front frame, bytes.take (i + 1) = front ++ frame ∧ CrcFrame frame := by
  fun_induction scan bytes generalizing i with
  | case1 => simp at h
  | case2 b rest hs hopen => simp [List.getElem?_replicate] at h
  | case3 b rest hs n status hend ih =>
    have hdr : chHdrSize = 6 := rfl
    have hn := (frameEnd_bounds hend).1
    rcases Nat.lt_trichotomy i (n - 1) with hlt | heq | hgt
    · rw [List.getElem?_append_left (by simpa using hlt)] at h
      simp [List.getElem?_replicate] at h
    · rw [List.getElem?_append_right (by simp [heq])] at h
      obtain rfl : status = .inputData := by simpa [heq] using h
      refine ⟨[], (b :: rest).take n, ?_, (crcFrame_of_frameEnd hs hend).1⟩
      rw [heq, Nat.sub_add_cancel (by omega), List.nil_append]
    · obtain ⟨k, rfl⟩ : ∃ k, i = n + k := ⟨i - n, by omega⟩
      rw [List.getElem?_append_right (by simp; omega), List.length_replicate,
        show n + k - (n - 1) = k + 1 by omega, List.getElem?_cons_succ] at h
      obtain ⟨front, frame, htake, hframe⟩ := ih h
      refine ⟨(b :: rest).take n ++ front, frame, ?_, hframe⟩
      obtain ⟨m, rfl⟩ : ∃ m, n = m + 1 := ⟨n - 1, by omega⟩
      rw [Nat.add_sub_cancel] at htake
      rw [show m + 1 + k + 1 = m + 1 + (k + 1) by omega, List.take_add, List.drop_succ_cons,
        htake, List.append_assoc]
  | case4 b rest hs ih =>
    cases i with
    | zero => simp at h
    | succ i =>
      obtain ⟨front, frame, htake, hframe⟩ := ih (by simpa using h)
      exact ⟨b :: front, frame, by rw [List.take_succ_cons, htake]; rfl, hframe⟩

/-- 0 on each byte of the frame but the last, and 1 on that. -/
def delivered (frame : List UInt8) : List Status :=
  List.replicate (frame.length - 1) .noMessage ++ [.inputData]

theorem length_delivered {frame : List UInt8} (h : CrcFrame frame) :
    (delivered frame).length = frame.length := by
  have hlen := h.length
  have hdr : chHdrSize = 6 := rfl
  simp only [delivered, List.length_append, List.length_replicate, List.length_singleton]
  omega

theorem scan_delivered {frame : List UInt8} (h : CrcFrame frame) (rest : List UInt8) :
    scan (frame ++ rest) = delivered frame ++ scan rest := by
  rw [scan_frame h, delivered, List.append_assoc]
  rfl

/-! ### Building a frame -/

def frameHead (payload : List UInt8) : List UInt8 :=
  [chSync1, chSync2] ++ toLe 2 payload.length

/-- The frame around a payload. -/
def frameOf (payload : List UInt8) : List UInt8 :=
  frameHead payload ++ toLe 2 (crc16 crcPoly (frameHead payload ++ payload)).toNat ++ payload

theorem length_frameOf (payload : List UInt8) :
    (frameOf payload).length = payload.length + chHdrSize := by
  have hdr : chHdrSize = 6 := rfl
  simp only [frameOf, frameHead, List.length_append, length_toLe, List.length_cons,
    List.length_nil]
  omega

theorem drop_frameOf (payload : List UInt8) : (frameOf payload).drop chHdrSize = payload := by
  simp [frameOf, frameHead, toLe, chHdrSize]

theorem payloadLen_frameOf {payload : List UInt8} (h : payload.length ≤ maxPayload) :
    payloadLen (frameOf payload) = payload.length := by
  have hmax : maxPayload = 506 := rfl
  have hfield : ((frameOf payload).drop 2).take 2 = toLe 2 payload.length := by
    simp [frameOf, frameHead, toLe]
  rw [payloadLen, hfield, ofLe_toLe (by omega)]

theorem crcCorrect_frameOf (payload : List UInt8) : CrcCorrect (frameOf payload) := by
  have hhead : (frameOf payload).take 4 = frameHead payload := by
    simp [frameOf, frameHead, toLe]
  have hfield : ((frameOf payload).drop 4).take 2 =
      toLe 2 (crc16 crcPoly (frameHead payload ++ payload)).toNat := by
    simp [frameOf, frameHead, toLe]
  rw [CrcCorrect, hhead, drop_frameOf, sentCrc, hfield, ofLe_toLe (BitVec.isLt _),
    BitVec.ofNat_toNat, BitVec.setWidth_eq]

theorem crcFrame_frameOf {payload : List UInt8} (h : payload.length ≤ maxPayload) :
    CrcFrame (frameOf payload) where
  starts := by simp [StartsSync, frameOf, frameHead]
  short := by rwa [payloadLen_frameOf h]
  length := by rw [payloadLen_frameOf h, length_frameOf]
  crc := crcCorrect_frameOf payload

end Hi229Serial

end MarkitNode
