import Mathlib.Tactic.IntervalCases
import MarkitNode.CrcPoly
import MarkitNode.SerialScan

/-!
What the check of the serial frames guarantees. `crc16_update` works in a wider
register without a mask and still leaves the remainder of the message, so it can
be fed in parts, and a frame that was accepted is refused once its payload is
hit by an error of at most 16 consecutive bits.
-/

namespace MarkitNode

namespace Hi229Serial

open ByteCodes CrcPoly

/-- The frame with an error added to its payload. -/
def withError (p error : List UInt8) : List UInt8 :=
  p.take chHdrSize ++ List.zipWith (· ^^^ ·) (p.drop chHdrSize) error

/-- The check of the source is the 16-bit one of `poly`, the top bit first. -/
structure ComputesCrc (update : BitVec 16 → List UInt8 → BitVec 16) (poly : BitVec 16) :
    Prop where
  register : ∀ start bytes, update start bytes = bytes.foldl (crcByte poly) start
  remainder : ∀ start bytes, wordPoly (update start bytes) =
    (wordPoly start * Polynomial.X ^ (8 * bytes.length) +
      bytesPoly bytes * Polynomial.X ^ 16) %ₘ genPoly poly
  append : ∀ start front back,
    update (update start front) back = update start (front ++ back)

theorem crc16Update_computesCrc : ComputesCrc crc16Update crcPoly where
  register := crc16Update_eq
  remainder start bytes := by
    rw [crc16Update_eq]
    exact wordPoly_crcFold crcPoly start bytes
  append start front back := by
    rw [crc16Update_eq, crc16Update_eq, crc16Update_eq, List.foldl_append]

/-! ### A frame under an error -/

section WithError

variable {p error : List UInt8} (hp : chHdrSize ≤ p.length)

include hp

theorem length_head : (p.take chHdrSize).length = chHdrSize := by
  rw [List.length_take, Nat.min_eq_left hp]

theorem drop_withError :
    (withError p error).drop chHdrSize = List.zipWith (· ^^^ ·) (p.drop chHdrSize) error :=
  List.drop_left' (length_head hp)

theorem take_withError : (withError p error).take 4 = p.take 4 := by
  have hle : 4 ≤ (p.take chHdrSize).length := by
    rw [length_head hp]
    decide
  rw [withError, List.take_append_of_le_length hle, List.take_take]
  rfl

theorem payloadLen_withError : payloadLen (withError p error) = payloadLen p := by
  have hle : 4 ≤ (p.take chHdrSize).length := by
    rw [length_head hp]
    decide
  have hwhole := payloadLen_append (p.drop chHdrSize) hle
  rw [List.take_append_drop] at hwhole
  rw [withError, payloadLen_append _ hle, hwhole]

theorem sentCrc_withError : sentCrc (withError p error) = sentCrc p := by
  have hle : chHdrSize ≤ (p.take chHdrSize).length := Nat.le_of_eq (length_head hp).symm
  have hwhole := sentCrc_append (p.drop chHdrSize) hle
  rw [List.take_append_drop] at hwhole
  rw [withError, sentCrc_append _ hle, hwhole]

theorem not_crcCorrect_withError (hcrc : CrcCorrect p)
    (hlen : (p.drop chHdrSize).length = error.length) (h : Burst error) :
    ¬ CrcCorrect (withError p error) := by
  intro hcrc'
  rw [CrcCorrect, sentCrc_withError hp, take_withError hp, drop_withError hp, ← hcrc,
    crc16_append, crc16_append] at hcrc'
  exact crcFold_ne (by decide) _ hlen h hcrc'

end WithError

theorem filled_withError {frame : RawFrame} {p error : List UInt8} (h : Filled frame p)
    (hlen : error.length = payloadLen p) :
    Filled ⟨0, payloadLen p, bufOf (withError p error)⟩ (withError p error) := by
  have hp := h.head_le
  have hsame : payloadLen (withError p error) = payloadLen p := payloadLen_withError hp
  have hstarts : StartsSync (withError p error) := by
    have hle : 2 ≤ (p.take chHdrSize).length := by
      rw [length_head hp]
      decide
    apply (startsSync_append _ hle).mpr
    apply (startsSync_append (p.drop chHdrSize) hle).mp
    rw [List.take_append_drop]
    exact h.starts
  have hlength : (withError p error).length = payloadLen (withError p error) + chHdrSize := by
    rw [hsame, withError, List.length_append, length_head hp, List.length_zipWith,
      h.length_payload, hlen, Nat.min_self, Nat.add_comm]
  have hfilled := filled_bufOf hstarts (by rw [hsame]; exact h.short) hlength
  rwa [hsame] at hfilled

variable (parse : RawFrame → RawData → Option RawData) in
theorem crcCorrect_of_accepted {frame : RawFrame} {p : List UInt8} (h : Filled frame p)
    {data : RawData} {raw' : Raw}
    (haccept : decodeCh parse ⟨frame, data⟩ true = some (.inputData, raw')) : CrcCorrect p := by
  by_contra hcrc
  rw [decodeCh_filled h, if_neg hcrc] at haccept
  cases haccept

/-- The update is the 16-bit check, and no burst on the payload of an accepted
frame gets past it. -/
theorem crc16Update_detects_bursts :
    ComputesCrc crc16Update crcPoly ∧
      ∀ (parse : RawFrame → RawData → Option RawData) (frame : RawFrame) (p : List UInt8)
        (data : RawData) (raw' : Raw),
        Filled frame p → decodeCh parse ⟨frame, data⟩ true = some (.inputData, raw') →
        ∀ error : List UInt8, error.length = payloadLen p → Burst error →
        ∀ (frame' : RawFrame) (data' : RawData), Filled frame' (withError p error) →
          decodeCh parse ⟨frame', data'⟩ true = some (.errorMessage, ⟨frame', data'⟩) := by
  refine ⟨crc16Update_computesCrc, ?_⟩
  intro parse frame p data raw' h haccept error hlen hburst frame' data' h'
  have hp := h.head_le
  have hdrop : (p.drop chHdrSize).length = error.length := by
    rw [h.length_payload, hlen]
  have hcrc : CrcCorrect p := crcCorrect_of_accepted parse h haccept
  rw [decodeCh_filled h', if_neg (not_crcCorrect_withError hp hcrc hdrop hburst)]

/-- A payload of two filler bytes. -/
def fillers : List UInt8 := [0, 0]

/-- An error over the border of two bytes. -/
def twoBits : List UInt8 := [0x01, 0x80]

theorem burst_twoBits : Burst twoBits := by
  refine ⟨⟨7, by decide⟩, 0, ?_⟩
  intro j hj
  have hlt : j < 8 * twoBits.length := lt_of_bitAt hj
  exact ⟨Nat.zero_le j, by simpa [twoBits] using hlt⟩

def fillerFrame : RawFrame := ⟨0, 2, bufOf (frameOf fillers)⟩

theorem filled_fillerFrame : Filled fillerFrame (frameOf fillers) := by
  have hframe : CrcFrame (frameOf fillers) := crcFrame_frameOf (by decide)
  have hlen : payloadLen (frameOf fillers) = 2 := payloadLen_frameOf (by decide)
  have hfilled := filled_bufOf hframe.starts hframe.short hframe.length
  rwa [hlen] at hfilled

theorem parseLoop_fillers {ofs : Nat} (hofs : ofs < 2) (data : RawData) :
    parseLoop fillerFrame.buf 2 ofs data = parseLoop fillerFrame.buf 2 (ofs + 1) data := by
  have hcode : U1 fillerFrame.buf (chHdrSize + ofs) = some 0 := by
    interval_cases ofs <;> decide +kernel
  apply parseLoop_item hofs
  rw [parseItem, hcode]
  rfl

theorem accepted_fillers (data : RawData) :
    ∃ raw', decodeCh parseData ⟨fillerFrame, data⟩ true = some (.inputData, raw') := by
  have hparse : ∀ d, parseLoop fillerFrame.buf 2 0 d = some d := by
    intro d
    rw [parseLoop_fillers (Nat.zero_lt_succ 1), parseLoop_fillers (Nat.lt_succ_self 1)]
    exact parseLoop_done (Nat.le_refl 2) d
  have hdata := hparse { data with itemCode := Vector.replicate 8 0, nitemCode := 0 }
  rw [decodeCh_filled filled_fillerFrame, if_pos (crcCorrect_frameOf fillers), parseData,
    parseDataIn]
  exact ⟨_, congrArg _ hdata⟩

theorem crc16Update_detects_twoBits :
    decodeCh parseData ⟨⟨0, 2, bufOf (withError (frameOf fillers) twoBits)⟩, Raw.zeroed.data⟩
        true =
      some (.errorMessage,
        ⟨⟨0, 2, bufOf (withError (frameOf fillers) twoBits)⟩, Raw.zeroed.data⟩) := by
  have hlen : payloadLen (frameOf fillers) = 2 := payloadLen_frameOf (by decide)
  have htwo : twoBits.length = payloadLen (frameOf fillers) := hlen.symm
  have hfilled := filled_withError filled_fillerFrame htwo
  rw [hlen] at hfilled
  obtain ⟨raw', haccept⟩ := accepted_fillers Raw.zeroed.data
  exact crc16Update_detects_bursts.2 parseData _ _ _ raw' filled_fillerFrame haccept twoBits htwo
    burst_twoBits _ _ hfilled

end Hi229Serial

end MarkitNode
