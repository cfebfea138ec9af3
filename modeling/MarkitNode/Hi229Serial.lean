import MarkitNode.ByteCodes
import MarkitNode.Machine
import MarkitNode.MarkerPacket

/-!
The serial parser of the IMU: `raw_t` with its receive buffer, and
`ch_serial_input`, which takes one byte at a time. The framing fields and the
parsed data are separate records, since `parse_data` reads the former and
writes the latter only. Every access to an array is checked: a call whose
result is `none` has left the bounds of one.
-/

namespace MarkitNode

namespace Hi229Serial

open ByteCodes

abbrev maxRawLen : Nat := 512
abbrev maxNodeSize : Nat := 1
abbrev chSync1 : UInt8 := 0x5A
abbrev chSync2 : UInt8 := 0xA5
abbrev chHdrSize : Nat := 6

/-- What a call reports: −1, 0 and 1 in the source. -/
inductive Status
  | errorMessage
  | noMessage
  | inputData
  deriving DecidableEq, Repr

structure ChImuData where
  id : UInt32
  acc : Vector Float32Bits 3
  gyr : Vector Float32Bits 3
  mag : Vector Float32Bits 3
  eul : Vector Float32Bits 3
  quat : Vector Float32Bits 4
  pressure : Float32Bits
  timestamp : UInt32
  deriving DecidableEq

abbrev RawBuf := Vector UInt8 maxRawLen

/-- The fields of `raw_t` that frame the stream. -/
structure RawFrame where
  nbyte : Nat
  len : Nat
  buf : RawBuf
  deriving DecidableEq

/-- The fields of `raw_t` that hold what was parsed. -/
structure RawData where
  gwid : UInt8
  nimu : UInt8
  imu : Vector ChImuData maxNodeSize
  itemCode : Vector UInt8 8
  nitemCode : Nat
  deriving DecidableEq

structure Raw where
  frame : RawFrame
  data : RawData
  deriving DecidableEq

def zeroImu : ChImuData where
  id := 0
  acc := Vector.replicate 3 0
  gyr := Vector.replicate 3 0
  mag := Vector.replicate 3 0
  eul := Vector.replicate 3 0
  quat := Vector.replicate 4 0
  pressure := 0
  timestamp := 0

def Raw.zeroed : Raw where
  frame := ⟨0, 0, Vector.replicate maxRawLen 0⟩
  data := ⟨0, 0, Vector.replicate maxNodeSize zeroImu, Vector.replicate 8 0, 0⟩

/-! ### Checked memory -/

def store {α : Type} {n : Nat} (xs : Vector α n) (i : Nat) (x : α) : Option (Vector α n) :=
  if h : i < n then some (xs.set i x h) else none

/-- The bytes of the buffer that may be read, from `first` up to `last`. -/
structure Window where
  buf : RawBuf
  first : Nat
  last : Nat
  last_le : last ≤ maxRawLen

namespace Window

def whole (buf : RawBuf) : Window := ⟨buf, 0, maxRawLen, Nat.le_refl maxRawLen⟩

instance : Coe RawBuf Window := ⟨whole⟩

/-- The bytes behind the header, as far as the length goes. -/
def payload (frame : RawFrame) : Window :=
  ⟨frame.buf, chHdrSize, min (chHdrSize + frame.len) maxRawLen, Nat.min_le_right _ _⟩

end Window

/-- The `n` bytes from `ofs` on; a read outside of the window fails. -/
def load (mem : Window) (ofs n : Nat) : Option (List UInt8) :=
  if mem.first ≤ ofs ∧ ofs + n ≤ mem.last then some ((mem.buf.toList.drop ofs).take n) else none

def U1 (mem : Window) (ofs : Nat) : Option UInt8 :=
  if mem.first ≤ ofs ∧ ofs < mem.last then mem.buf[ofs]? else none

def I2 (mem : Window) (ofs : Nat) : Option Int16 :=
  (load mem ofs 2).map fun bytes => (UInt16.ofNat (ofLe bytes)).toInt16

def U2 (mem : Window) (ofs : Nat) : Option UInt16 :=
  (load mem ofs 2).map fun bytes => UInt16.ofNat (ofLe bytes)

def U4 (mem : Window) (ofs : Nat) : Option UInt32 :=
  (load mem ofs 4).map fun bytes => UInt32.ofNat (ofLe bytes)

/-- A float is copied as its bit pattern. -/
def R4 (mem : Window) (ofs : Nat) : Option Float32Bits := U4 mem ofs

/-- `(float)x / d`, as a bit pattern. -/
def scaled (x : Int16) (d : Int) : Float32Bits :=
  (Float32.ofInt x.toInt / Float32.ofInt d).toBits

/-! ### The checksum -/

/-- The inner loop's body: the register has 32 bits and is not masked. -/
def crcRound (crc : BitVec 32) : BitVec 32 :=
  let temp := crc <<< 1
  if crc &&& 0x8000#32 ≠ 0#32 then temp ^^^ 0x1021#32 else temp

def crcOuter (crc : BitVec 32) (byte : UInt8) : BitVec 32 :=
  crcRound^[8] (crc ^^^ (byte.toBitVec.setWidth 32 <<< 8))

def crc16Update (currectCrc : BitVec 16) (src : List UInt8) : BitVec 16 :=
  (src.foldl crcOuter (currectCrc.setWidth 32)).setWidth 16

abbrev crcPoly : BitVec 16 := 0x1021#16

theorem crcRound_narrow (crc : BitVec 32) :
    (crcRound crc).setWidth 16 = crcBit crcPoly (crc.setWidth 16) := by
  have hbit : crc &&& 0x8000#32 ≠ 0#32 ↔ (crc.setWidth 16).getLsbD 15 = true := by
    have hmask : crc &&& 0x8000#32 = if crc.getLsbD 15 then 0x8000#32 else 0#32 :=
      BitVec.and_twoPow crc 15
    rw [hmask, BitVec.getLsbD_setWidth]
    cases crc.getLsbD 15 <;> decide
  have hshift : (crc <<< 1).setWidth 16 = crc.setWidth 16 <<< 1 := by
    ext i hi
    simp [BitVec.getElem_setWidth, BitVec.getElem_shiftLeft]
  simp only [crcRound, crcBit, hbit]
  split
  · rw [BitVec.setWidth_xor, hshift]
    rfl
  · exact hshift

theorem crcRounds_narrow (n : Nat) (crc : BitVec 32) :
    (crcRound^[n] crc).setWidth 16 = (crcBit crcPoly)^[n] (crc.setWidth 16) := by
  induction n generalizing crc with
  | zero => rfl
  | succ n ih =>
    rw [Function.iterate_succ_apply, Function.iterate_succ_apply, ih, crcRound_narrow]

theorem crcOuter_narrow (crc : BitVec 32) (byte : UInt8) :
    (crcOuter crc byte).setWidth 16 = crcByte crcPoly (crc.setWidth 16) byte := by
  have hin : (byte.toBitVec.setWidth 32 <<< 8).setWidth 16 =
      byte.toBitVec.setWidth 16 <<< 8 := by
    ext i hi
    simp [BitVec.getElem_setWidth, BitVec.getElem_shiftLeft]
  rw [crcOuter, crcRounds_narrow, BitVec.setWidth_xor, hin, crcByte]

theorem crcFold_narrow (src : List UInt8) (crc : BitVec 32) :
    (src.foldl crcOuter crc).setWidth 16 = src.foldl (crcByte crcPoly) (crc.setWidth 16) := by
  induction src generalizing crc with
  | nil => rfl
  | cons b rest ih => rw [List.foldl_cons, List.foldl_cons, ih, crcOuter_narrow]

/-- The unmasked register computes the 16-bit check, since a round reads bit 15
and moves bits up only. -/
theorem crc16Update_eq (crc : BitVec 16) (src : List UInt8) :
    crc16Update crc src = src.foldl (crcByte crcPoly) crc := by
  rw [crc16Update, crcFold_narrow, BitVec.setWidth_setWidth_of_le _ (by omega), BitVec.setWidth_eq]

/-! ### The payload -/

abbrev kItemID : UInt8 := 0x90
abbrev kItemAccRaw : UInt8 := 0xA0
abbrev kItemGyrRaw : UInt8 := 0xB0
abbrev kItemMagRaw : UInt8 := 0xC0
abbrev kItemRotationEul : UInt8 := 0xD0
abbrev kItemRotationQuat : UInt8 := 0xD1
abbrev kItemPressure : UInt8 := 0xF0
abbrev kItemIMUSOL : UInt8 := 0x91
abbrev kItemGWSOL : UInt8 := 0x62

namespace RawData

/-- `item_code[nitem_code++] = code` -/
def addItem (data : RawData) (code : UInt8) : Option RawData :=
  (store data.itemCode data.nitemCode code).map fun codes =>
    { data with itemCode := codes, nitemCode := data.nitemCode + 1 }

/-- An assignment to fields of `imu[0]`, with `nimu` set to 1. -/
def setOnly (data : RawData) (f : ChImuData → ChImuData) : RawData :=
  { data with nimu := 1, imu := data.imu.set 0 (f data.imu[0]) }

end RawData

/-- Three signed 16-bit words, each divided by its own scale. -/
def scaled3 (mem : Window) (p : Nat) (d0 d1 d2 : Int) : Option (Vector Float32Bits 3) := do
  let x ← I2 mem p
  let y ← I2 mem (p + 2)
  let z ← I2 mem (p + 4)
  return #v[scaled x d0, scaled y d1, scaled z d2]

def float3 (mem : Window) (p : Nat) : Option (Vector Float32Bits 3) := do
  let x ← R4 mem p
  let y ← R4 mem (p + 4)
  let z ← R4 mem (p + 8)
  return #v[x, y, z]

def float4 (mem : Window) (p : Nat) : Option (Vector Float32Bits 4) := do
  let w ← R4 mem p
  let x ← R4 mem (p + 4)
  let y ← R4 mem (p + 8)
  let z ← R4 mem (p + 12)
  return #v[w, x, y, z]

/-- The block of 76 bytes that `KItemIMUSOL` and each node of `KItemGWSOL` have. -/
def imuSolAt (mem : Window) (p : Nat) : Option ChImuData := do
  let id ← U1 mem (p + 1)
  let pressure ← R4 mem (p + 4)
  let timestamp ← U4 mem (p + 8)
  let acc ← float3 mem (p + 12)
  let gyr ← float3 mem (p + 24)
  let mag ← float3 mem (p + 36)
  let eul ← float3 mem (p + 48)
  let quat ← float4 mem (p + 60)
  return ⟨id.toUInt32, acc, gyr, mag, eul, quat, pressure, timestamp⟩

/-- The loop over the nodes of a gateway packet; `count` nodes are left. -/
def parseNodes (mem : Window) : Nat → Nat → Nat → RawData → Option (Nat × RawData)
  | 0, _, ofs, data => some (ofs, data)
  | count + 1, i, ofs, data => do
      let sol ← imuSolAt mem (chHdrSize + ofs)
      let imu ← store data.imu i sol
      parseNodes mem count (i + 1) (ofs + 76) { data with imu := imu }

/-- One turn of the loop of `parse_data`: the next offset and the new data. -/
def parseItem (mem : Window) (ofs : Nat) (data : RawData) : Option (Nat × RawData) := do
  let p := chHdrSize + ofs
  let code ← U1 mem p
  if code = kItemID then
    let data ← data.addItem kItemID
    let id ← U1 mem (p + 1)
    return (ofs + 2, data.setOnly fun imu => { imu with id := id.toUInt32 })
  else if code = kItemAccRaw then
    let data ← data.addItem kItemAccRaw
    let acc ← scaled3 mem (p + 1) 1000 1000 1000
    return (ofs + 7, data.setOnly fun imu => { imu with acc := acc })
  else if code = kItemGyrRaw then
    let data ← data.addItem kItemGyrRaw
    let gyr ← scaled3 mem (p + 1) 10 10 10
    return (ofs + 7, data.setOnly fun imu => { imu with gyr := gyr })
  else if code = kItemMagRaw then
    let data ← data.addItem kItemMagRaw
    let mag ← scaled3 mem (p + 1) 10 10 10
    return (ofs + 7, data.setOnly fun imu => { imu with mag := mag })
  else if code = kItemRotationEul then
    let data ← data.addItem kItemRotationEul
    let eul ← scaled3 mem (p + 1) 100 100 10
    -- this item alone leaves `nimu` as it was
    return (ofs + 7, { data with imu := data.imu.set 0 { data.imu[0] with eul := eul } })
  else if code = kItemRotationQuat then
    let data ← data.addItem kItemRotationQuat
    let quat ← float4 mem (p + 1)
    return (ofs + 17, data.setOnly fun imu => { imu with quat := quat })
  else if code = kItemPressure then
    let data ← data.addItem kItemPressure
    let pressure ← R4 mem (p + 1)
    return (ofs + 5, data.setOnly fun imu => { imu with pressure := pressure })
  else if code = kItemIMUSOL then
    let data ← data.addItem kItemIMUSOL
    let sol ← imuSolAt mem p
    return (ofs + 76, data.setOnly fun _ => sol)
  else if code = kItemGWSOL then
    let data ← data.addItem kItemGWSOL
    let gwid ← U1 mem (p + 1)
    let nimu ← U1 mem (p + 2)
    parseNodes mem nimu.toNat 0 (ofs + 8) { data with gwid := gwid, nimu := nimu }
  else
    return (ofs + 1, data)

theorem parseNodes_offset {mem : Window} {count i ofs next : Nat} {data data' : RawData}
    (h : parseNodes mem count i ofs data = some (next, data')) : ofs ≤ next := by
  induction count generalizing i ofs data with
  | zero =>
    simp only [parseNodes, Option.some.injEq, Prod.mk.injEq] at h
    omega
  | succ count ih =>
    simp only [parseNodes, Option.bind_eq_bind, Option.bind_eq_some_iff] at h
    obtain ⟨sol, _, imu, _, hrest⟩ := h
    have hle := ih hrest
    omega

/-- A computation that moves the offset on, if it succeeds. -/
def Advances (ofs : Nat) (turn : Option (Nat × RawData)) : Prop :=
  ∀ next data, turn = some (next, data) → ofs < next

theorem Advances.pure {ofs next : Nat} (data : RawData) (h : ofs < next) :
    Advances ofs (pure (next, data)) := by
  intro n d hturn
  cases hturn
  exact h

theorem Advances.bind {α : Type} {ofs : Nat} (o : Option α) {f : α → Option (Nat × RawData)}
    (h : ∀ a, Advances ofs (f a)) : Advances ofs (o >>= f) := by
  intro n d hturn
  obtain ⟨a, _, hf⟩ := Option.bind_eq_some_iff.mp hturn
  exact h a n d hf

theorem Advances.ite {c : Prop} [Decidable c] {ofs : Nat} {x y : Option (Nat × RawData)}
    (hx : Advances ofs x) (hy : Advances ofs y) : Advances ofs (if c then x else y) := by
  by_cases hc : c
  · rw [if_pos hc]
    exact hx
  · rw [if_neg hc]
    exact hy

/-- An item of one value. -/
theorem Advances.item {α : Type} {ofs width : Nat} (hw : 0 < width) (o : Option RawData)
    (read : Option α) (f : RawData → α → RawData) :
    Advances ofs (o >>= fun data => read >>= fun a => Pure.pure (ofs + width, f data a)) := by
  refine Advances.bind o fun data => Advances.bind read fun a => Advances.pure _ ?_
  omega

/-- Every turn moves the offset on, so the loop ends. -/
theorem parseItem_advances (mem : Window) (ofs : Nat) (data : RawData) :
    Advances ofs (parseItem mem ofs data) := by
  refine Advances.bind _ fun code => ?_
  -- the eight items of one value
  iterate 8 refine Advances.ite (Advances.item (by decide) _ _ _) ?_
  refine Advances.ite ?_ (Advances.pure data (Nat.lt_succ_self ofs))
  refine Advances.bind _ fun data => Advances.bind _ fun gwid => Advances.bind _ fun nimu => ?_
  intro next data' hnodes
  have hle := parseNodes_offset hnodes
  omega

def parseLoop (mem : Window) (len ofs : Nat) (data : RawData) : Option RawData :=
  if ofs < len then
    match h : parseItem mem ofs data with
    | none => none
    | some (next, data') =>
        have := parseItem_advances _ _ _ next data' h
        parseLoop mem len next data'
  else some data
termination_by len - ofs

section Loop

variable {mem : Window} {len ofs next : Nat} {data data' : RawData}

theorem parseLoop_done (h : len ≤ ofs) (data : RawData) :
    parseLoop mem len ofs data = some data := by
  rw [parseLoop, if_neg (Nat.not_lt.mpr h)]

theorem parseLoop_item (h : ofs < len) (hitem : parseItem mem ofs data = some (next, data')) :
    parseLoop mem len ofs data = parseLoop mem len next data' := by
  rw [parseLoop, if_pos h]
  split
  · rename_i hnone
    rw [hnone] at hitem
    cases hitem
  · rename_i hsome
    rw [hsome] at hitem
    cases hitem
    rfl

theorem parseLoop_none (h : ofs < len) (hitem : parseItem mem ofs data = none) :
    parseLoop mem len ofs data = none := by
  rw [parseLoop, if_pos h]
  split
  · rfl
  · rename_i hsome
    rw [hitem] at hsome
    cases hsome

end Loop

/-- `parse_data` with the part of the buffer that it may read; it returns 1 in every case. -/
def parseDataIn (mem : Window) (len : Nat) (data : RawData) : Option RawData :=
  parseLoop mem len 0 { data with itemCode := Vector.replicate 8 0, nitemCode := 0 }

/-- `parse_data`, which has the whole buffer. -/
def parseData (frame : RawFrame) (data : RawData) : Option RawData :=
  parseDataIn frame.buf frame.len data

/-! ### The frame -/

section Input

-- what `parse_data` does with the frame
variable (parse : RawFrame → RawData → Option RawData)

def decodeCh (raw : Raw) (crcCheck : Bool) : Option (Status × Raw) := do
  let parsed := (parse raw.frame raw.data).map fun data => (.inputData, { raw with data := data })
  if !crcCheck then parsed
  else
    let header ← load raw.frame.buf 0 4
    let payload ← load raw.frame.buf 6 raw.frame.len
    let crc := crc16Update (crc16Update 0#16 header) payload
    let sent ← U2 raw.frame.buf 4
    if crc ≠ sent.toBitVec then return (.errorMessage, raw) else parsed

/-- The window moves on by one byte; the flag says whether it is a sync code. -/
def syncCh (buf : RawBuf) (data : UInt8) : RawBuf × Bool :=
  let buf := (buf.set 0 buf[1]).set 1 data
  (buf, buf[0] == chSync1 && buf[1] == chSync2)

def chSerialInput (raw : Raw) (data : UInt8) (crcCheck : Bool) : Option (Status × Raw) :=
  let frame := raw.frame
  if frame.nbyte = 0 then
    let (buf, synced) := syncCh frame.buf data
    if !synced then some (.noMessage, { raw with frame := { frame with buf := buf } })
    else some (.noMessage, { raw with frame := { frame with buf := buf, nbyte := 2 } })
  else do
    let buf ← store frame.buf frame.nbyte data
    let nbyte := frame.nbyte + 1
    -- before byte 6 the length is the one of the frame before
    let len ← if nbyte = chHdrSize then (U2 buf 2).map UInt16.toNat else some frame.len
    if nbyte = chHdrSize ∧ maxRawLen - chHdrSize < len then
      return (.errorMessage, { raw with frame := ⟨0, len, buf⟩ })
    else if nbyte < len + chHdrSize then
      return (.noMessage, { raw with frame := ⟨nbyte, len, buf⟩ })
    else decodeCh parse { raw with frame := ⟨0, len, buf⟩ } crcCheck

/-- What each call returns and leaves behind, over a stream. -/
def serialTrace (crcCheck : Bool) : Raw → List UInt8 → Option (List (Status × Raw))
  | _, [] => some []
  | raw, b :: rest => do
      let (status, raw') ← chSerialInput parse raw b crcCheck
      let later ← serialTrace crcCheck raw' rest
      return (status, raw') :: later

/-- The parser under calls with any byte and either setting of the check. -/
def serialMachine : Machine Raw (UInt8 × Bool) where
  Init raw := raw = Raw.zeroed
  step raw call := (chSerialInput parse raw call.1 call.2).map Prod.snd

end Input

end Hi229Serial

end MarkitNode
