import MarkitNode.SerialScan

/-!
Samples through the serial parser. A sample is sent as one item of 76 bytes in
a frame of its own; its 32-bit words stand behind each other from byte 4 of the
item on, so one lemma about the `i`-th word serves every offset that
`parse_data` reads. Over a stream of such frames the parser reports each sample
once, at the last byte of its frame, bit for bit.
-/

namespace MarkitNode

namespace Hi229Serial

open ByteCodes

structure ImuSample where
  id : UInt8
  pressure : UInt32
  timestamp : UInt32
  acc : Vector UInt32 3
  gyr : Vector UInt32 3
  mag : Vector UInt32 3
  eul : Vector UInt32 3
  quat : Vector UInt32 4

namespace ImuSample

/-- The sample as `imu[0]` is to hold it. -/
def imu (s : ImuSample) : ChImuData where
  id := s.id.toUInt32
  acc := s.acc
  gyr := s.gyr
  mag := s.mag
  eul := s.eul
  quat := s.quat
  pressure := s.pressure
  timestamp := s.timestamp

def words (s : ImuSample) : List UInt32 :=
  [s.pressure, s.timestamp, s.acc[0], s.acc[1], s.acc[2], s.gyr[0], s.gyr[1], s.gyr[2],
    s.mag[0], s.mag[1], s.mag[2], s.eul[0], s.eul[1], s.eul[2],
    s.quat[0], s.quat[1], s.quat[2], s.quat[3]]

end ImuSample

def wordBytes (w : UInt32) : List UInt8 := toLe 4 w.toNat

/-- The item of one sample; bytes 2 and 3 are reserved and may have any value. -/
def imuSolItem (reserved : UInt8 × UInt8) (s : ImuSample) : List UInt8 :=
  [kItemIMUSOL, s.id, reserved.1, reserved.2] ++ s.words.flatMap wordBytes

/-- The samples of a stream, each with the reserved bytes of its item. -/
abbrev SentSample := (UInt8 × UInt8) × ImuSample

def sampleFrame (s : SentSample) : List UInt8 := frameOf (imuSolItem s.1 s.2)

/-- What the parsed data is to be when the frame of a sample ends. -/
structure Decoded (data : RawData) (s : ImuSample) : Prop where
  imu : data.imu[0] = s.imu
  nimu : data.nimu = 1
  itemCode : data.itemCode = #v[kItemIMUSOL, 0, 0, 0, 0, 0, 0, 0]
  nitemCode : data.nitemCode = 1

/-! ### The words of an item -/

theorem length_wordBytes (w : UInt32) : (wordBytes w).length = 4 := length_toLe 4 w.toNat

theorem ofLe_wordBytes (w : UInt32) : UInt32.ofNat (ofLe (wordBytes w)) = w := by
  rw [wordBytes, ofLe_toLe w.toNat_lt, UInt32.ofNat_toNat]

theorem length_words_bytes (words : List UInt32) :
    (words.flatMap wordBytes).length = 4 * words.length := by
  induction words with
  | nil => rfl
  | cons w rest ih =>
    rw [List.flatMap_cons, List.length_append, length_wordBytes, ih, List.length_cons]
    omega

theorem word_at {words : List UInt32} {i : Nat} {w : UInt32} (h : words[i]? = some w) :
    ((words.flatMap wordBytes).drop (4 * i)).take 4 = wordBytes w := by
  induction words generalizing i with
  | nil => simp at h
  | cons v rest ih =>
    rw [List.flatMap_cons]
    cases i with
    | zero =>
      obtain rfl : v = w := by simpa using h
      exact List.take_left' (length_wordBytes v)
    | succ i =>
      have hdrop : 4 * (i + 1) = (wordBytes v).length + 4 * i := by
        rw [length_wordBytes]
        omega
      rw [hdrop, ← List.drop_drop, List.drop_left]
      exact ih (by simpa using h)

theorem length_words (s : ImuSample) : s.words.length = 18 := rfl

theorem length_imuSolItem (reserved : UInt8 × UInt8) (s : ImuSample) :
    (imuSolItem reserved s).length = 76 := by
  rw [imuSolItem, List.length_append, length_words_bytes, length_words]
  rfl

theorem crcFrame_sampleFrame (s : SentSample) : CrcFrame (sampleFrame s) :=
  crcFrame_frameOf (by rw [length_imuSolItem]; decide)

theorem length_sampleFrame (s : SentSample) : (sampleFrame s).length = 82 := by
  rw [sampleFrame, length_frameOf, length_imuSolItem]
  rfl

theorem drop_sampleFrame (s : SentSample) :
    (sampleFrame s).drop chHdrSize = imuSolItem s.1 s.2 := by
  rw [sampleFrame, drop_frameOf]

section Item

variable {frame : RawFrame} {s : SentSample} (h : Filled frame (sampleFrame s))

include h

theorem U1_item {k : Nat} {b : UInt8} (hb : (imuSolItem s.1 s.2)[k]? = some b) :
    U1 frame.buf (chHdrSize + k) = some b := by
  have hk : (sampleFrame s)[chHdrSize + k]? = some b := by
    rw [← List.getElem?_drop, drop_sampleFrame, hb]
  have hlt := (List.getElem?_eq_some_iff.mp hk).1
  have hlen : (sampleFrame s).length ≤ maxRawLen := by
    rw [length_sampleFrame]
    decide
  rw [U1_kept h.kept hlen hlt, hk]

theorem U4_item {i : Nat} {w : UInt32} (hw : s.2.words[i]? = some w) :
    U4 frame.buf (chHdrSize + (4 + 4 * i)) = some w := by
  have hi := (List.getElem?_eq_some_iff.mp hw).1
  have hlen := length_sampleFrame s
  have hdr : chHdrSize = 6 := rfl
  have hmax : maxRawLen = 512 := rfl
  rw [length_words] at hi
  have hbytes : ((sampleFrame s).drop (chHdrSize + (4 + 4 * i))).take 4 = wordBytes w := by
    rw [← List.drop_drop, drop_sampleFrame, ← List.drop_drop, imuSolItem]
    exact word_at hw
  rw [U4, load_kept h.kept (by omega) (by omega), hbytes, Option.map_some, ofLe_wordBytes]

theorem float3_item {i : Nat} {v : Vector UInt32 3} (h0 : s.2.words[i]? = some v[0])
    (h1 : s.2.words[i + 1]? = some v[1]) (h2 : s.2.words[i + 2]? = some v[2]) :
    float3 frame.buf (chHdrSize + (4 + 4 * i)) = some v := by
  have hv : #v[v[0], v[1], v[2]] = v := by
    ext k hk
    have hcases : k = 0 ∨ k = 1 ∨ k = 2 := by omega
    rcases hcases with rfl | rfl | rfl <;> rfl
  have e1 := U4_item h h1
  have e2 := U4_item h h2
  rw [show chHdrSize + (4 + 4 * (i + 1)) = chHdrSize + (4 + 4 * i) + 4 by omega] at e1
  rw [show chHdrSize + (4 + 4 * (i + 2)) = chHdrSize + (4 + 4 * i) + 8 by omega] at e2
  simp only [float3, R4, U4_item h h0, e1, e2, Option.bind_eq_bind, Option.bind_some,
    Option.pure_def, hv]

theorem float4_item {i : Nat} {v : Vector UInt32 4} (h0 : s.2.words[i]? = some v[0])
    (h1 : s.2.words[i + 1]? = some v[1]) (h2 : s.2.words[i + 2]? = some v[2])
    (h3 : s.2.words[i + 3]? = some v[3]) :
    float4 frame.buf (chHdrSize + (4 + 4 * i)) = some v := by
  have hv : #v[v[0], v[1], v[2], v[3]] = v := by
    ext k hk
    have hcases : k = 0 ∨ k = 1 ∨ k = 2 ∨ k = 3 := by omega
    rcases hcases with rfl | rfl | rfl | rfl <;> rfl
  have e1 := U4_item h h1
  have e2 := U4_item h h2
  have e3 := U4_item h h3
  rw [show chHdrSize + (4 + 4 * (i + 1)) = chHdrSize + (4 + 4 * i) + 4 by omega] at e1
  rw [show chHdrSize + (4 + 4 * (i + 2)) = chHdrSize + (4 + 4 * i) + 8 by omega] at e2
  rw [show chHdrSize + (4 + 4 * (i + 3)) = chHdrSize + (4 + 4 * i) + 12 by omega] at e3
  simp only [float4, R4, U4_item h h0, e1, e2, e3, Option.bind_eq_bind, Option.bind_some,
    Option.pure_def, hv]

theorem imuSolAt_item : imuSolAt frame.buf chHdrSize = some s.2.imu := by
  have hid : U1 frame.buf (chHdrSize + 1) = some s.2.id := U1_item h (k := 1) rfl
  have hpressure : R4 frame.buf (chHdrSize + 4) = some s.2.pressure := U4_item h (i := 0) rfl
  have htimestamp : U4 frame.buf (chHdrSize + 8) = some s.2.timestamp := U4_item h (i := 1) rfl
  have hacc : float3 frame.buf (chHdrSize + 12) = some s.2.acc :=
    float3_item h (i := 2) rfl rfl rfl
  have hgyr : float3 frame.buf (chHdrSize + 24) = some s.2.gyr :=
    float3_item h (i := 5) rfl rfl rfl
  have hmag : float3 frame.buf (chHdrSize + 36) = some s.2.mag :=
    float3_item h (i := 8) rfl rfl rfl
  have heul : float3 frame.buf (chHdrSize + 48) = some s.2.eul :=
    float3_item h (i := 11) rfl rfl rfl
  have hquat : float4 frame.buf (chHdrSize + 60) = some s.2.quat :=
    float4_item h (i := 14) rfl rfl rfl rfl
  simp only [imuSolAt, hid, hpressure, htimestamp, hacc, hgyr, hmag, heul, hquat,
    Option.bind_eq_bind, Option.bind_some, Option.pure_def]
  rfl

/-- The payload of one item is parsed in one turn of the loop. -/
theorem parseData_item (data : RawData) :
    ∃ data', parseData frame data = some data' ∧ Decoded data' s.2 := by
  have hcode : U1 frame.buf (chHdrSize + 0) = some kItemIMUSOL := U1_item h (k := 0) rfl
  have hlen : frame.len = 76 := by
    have hdr : chHdrSize = 6 := rfl
    have hl := h.length
    rw [length_sampleFrame] at hl
    rw [h.len]
    omega
  let start : RawData := { data with itemCode := Vector.replicate 8 0, nitemCode := 0 }
  let noted : RawData :=
    { data with itemCode := #v[kItemIMUSOL, 0, 0, 0, 0, 0, 0, 0], nitemCode := 1 }
  have hnoted : start.addItem kItemIMUSOL = some noted := rfl
  have hitem : parseItem frame.buf 0 start = some (76, noted.setOnly fun _ => s.2.imu) := by
    simp only [parseItem, hcode, Option.bind_eq_bind, Option.bind_some]
    rw [if_neg (by decide), if_neg (by decide), if_neg (by decide), if_neg (by decide),
      if_neg (by decide), if_neg (by decide), if_neg (by decide), if_pos trivial]
    simp only [hnoted, Nat.add_zero, imuSolAt_item h, Option.bind_some, Option.pure_def]
  refine ⟨noted.setOnly fun _ => s.2.imu, ?_, ?_⟩
  · rw [parseData, parseDataIn, parseLoop_item (by omega) hitem, parseLoop_done (by omega)]
  · exact ⟨by simp [RawData.setOnly], rfl, rfl, rfl⟩

end Item

/-! ### The trace of a frame -/

section Trace

variable {parse : RawFrame → RawData → Option RawData}

theorem serialTrace_length {crcCheck : Bool} {raw : Raw} {bytes : List UInt8}
    {trace : List (Status × Raw)} (h : serialTrace parse crcCheck raw bytes = some trace) :
    trace.length = bytes.length := by
  induction bytes generalizing raw trace with
  | nil =>
    cases h
    rfl
  | cons b rest ih =>
    cases hcall : chSerialInput parse raw b crcCheck with
    | none => simp [serialTrace, hcall] at h
    | some entry =>
      rw [serialTrace_cons hcall] at h
      obtain ⟨later, hlater, rfl⟩ := Option.map_eq_some_iff.mp h
      rw [List.length_cons, List.length_cons, ih hlater]

theorem serialTrace_append {crcCheck : Bool} {raw : Raw} {front back : List UInt8}
    {earlier : List (Status × Raw)} {last : Status × Raw}
    (h : serialTrace parse crcCheck raw front = some (earlier ++ [last])) :
    serialTrace parse crcCheck raw (front ++ back) =
      (serialTrace parse crcCheck last.2 back).map (earlier ++ [last] ++ ·) := by
  induction front generalizing raw earlier with
  | nil =>
    have hlen := serialTrace_length h
    simp at hlen
  | cons b rest ih =>
    cases hcall : chSerialInput parse raw b crcCheck with
    | none => simp [serialTrace, hcall] at h
    | some entry =>
      rw [serialTrace_cons hcall] at h
      obtain ⟨later, hlater, hcons⟩ := Option.map_eq_some_iff.mp h
      rw [List.cons_append, serialTrace_cons hcall]
      cases earlier with
      | nil =>
        obtain ⟨rfl, rfl⟩ := List.cons.inj hcons
        obtain rfl : rest = [] := List.length_eq_zero_iff.mp (serialTrace_length hlater).symm
        rfl
      | cons first earlier =>
        obtain ⟨rfl, rfl⟩ := List.cons.inj hcons
        rw [ih hlater, Option.map_map]
        rfl

variable (parse)

/-- What is left of a frame whose beginning the parser holds. -/
theorem trace_rest {p q : List UInt8} (hframe : CrcFrame (p ++ q)) (hq : q ≠ []) (raw : Raw)
    (hholds : Holds raw.frame p) :
    ∃ earlier frame, Filled frame (p ++ q) ∧
      earlier.map Prod.fst = List.replicate (q.length - 1) .noMessage ∧
      ∀ data, parse frame raw.data = some data →
        serialTrace parse true raw q = some (earlier ++ [(.inputData, ⟨frame, data⟩)]) := by
  induction q generalizing p raw with
  | nil => exact absurd rfl hq
  | cons b rest ih =>
    have happ : p ++ b :: rest = (p ++ [b]) ++ rest := by rw [List.append_assoc]; rfl
    rw [happ] at hframe ⊢
    by_cases hrest : rest = []
    · subst hrest
      rw [List.append_nil] at hframe ⊢
      obtain ⟨frame, hcall, hfilled⟩ :=
        input_end parse hholds hframe.short hframe.length true
      refine ⟨[], frame, hfilled, rfl, ?_⟩
      intro data hdata
      rw [decodeCh_filled hfilled, if_pos hframe.crc, hdata, Option.map_some] at hcall
      rw [serialTrace_cons hcall]
      rfl
    · have hopen : frameEnd (p ++ [b]) = none := by
        cases hend : frameEnd (p ++ [b]) with
        | none => rfl
        | some r =>
          obtain ⟨n, status⟩ := r
          have hsame := (frameEnd_append rest hend).symm.trans hframe.frameEnd
          have hle := (frameEnd_bounds hend).2.2
          have hpos := List.length_pos_iff.mpr hrest
          simp only [Option.some.injEq, Prod.mk.injEq, List.length_append] at hsame hle
          omega
      obtain ⟨frame, hcall, hnext⟩ := input_open parse hholds hopen true
      obtain ⟨earlier, frame', hfilled, hstatus, htrace⟩ :=
        ih hframe hrest ⟨frame, raw.data⟩ hnext
      refine ⟨(.noMessage, ⟨frame, raw.data⟩) :: earlier, frame', hfilled, ?_, ?_⟩
      · have hpos := List.length_pos_iff.mpr hrest
        obtain ⟨k, hk⟩ : ∃ k, rest.length = k + 1 := ⟨rest.length - 1, by omega⟩
        rw [List.map_cons, hstatus, List.length_cons, hk]
        rfl
      · intro data hdata
        rw [serialTrace_cons hcall, htrace data hdata]
        rfl

/-- A whole frame, from any state in which the parser searches. -/
theorem trace_frame {f : List UInt8} (hframe : CrcFrame f) {raw : Raw}
    (hn : raw.frame.nbyte = 0) :
    ∃ earlier frame, Filled frame f ∧
      earlier.map Prod.fst = List.replicate (f.length - 1) .noMessage ∧
      ∀ data, parse frame raw.data = some data →
        serialTrace parse true raw f = some (earlier ++ [(.inputData, ⟨frame, data⟩)]) := by
  have hlen := hframe.length
  have hdr : chHdrSize = 6 := rfl
  obtain ⟨rest, rfl⟩ : ∃ rest, f = [chSync1, chSync2] ++ rest :=
    ⟨f.drop 2, by rw [← hframe.starts, List.take_append_drop]⟩
  have hrest : rest ≠ [] := by
    rintro rfl
    simp only [List.append_nil, List.length_cons, List.length_nil] at hlen
    omega
  obtain ⟨first, hfirst, hsearch⟩ := input_searching parse
    (show Searching raw.frame _ from ⟨hn, rfl⟩) chSync1 true
  rw [if_neg (by intro h; exact absurd (List.cons.inj (List.cons.inj h).2).1 (by decide))]
    at hsearch
  obtain ⟨second, hsecond, hholds⟩ := input_searching parse
    (show Searching (Raw.mk first raw.data).frame _ from hsearch) chSync2 true
  rw [if_pos (show StartsSync [chSync1, chSync2] from rfl)] at hholds
  obtain ⟨earlier, frame, hfilled, hstatus, htrace⟩ :=
    trace_rest parse hframe hrest ⟨second, raw.data⟩ hholds
  refine ⟨(.noMessage, ⟨first, raw.data⟩) :: (.noMessage, ⟨second, raw.data⟩) :: earlier, frame,
    hfilled, ?_, ?_⟩
  · have hpos := List.length_pos_iff.mpr hrest
    obtain ⟨k, hk⟩ : ∃ k, rest.length = k + 1 := ⟨rest.length - 1, by omega⟩
    rw [List.map_cons, List.map_cons, hstatus, List.length_append, hk,
      show [chSync1, chSync2].length + (k + 1) - 1 = k + 2 from Nat.add_comm 2 k]
    rfl
  · intro data hdata
    rw [List.cons_append, List.cons_append, List.nil_append, serialTrace_cons hfirst,
      serialTrace_cons hsecond, htrace data hdata]
    rfl

end Trace

/-- The calls that report a message. -/
def messages (trace : List (Status × Raw)) : List (Status × Raw) :=
  trace.filter fun entry => entry.1 = .inputData

theorem messages_frame {earlier : List (Status × Raw)} {n : Nat}
    (h : earlier.map Prod.fst = List.replicate n .noMessage) (raw : Raw) :
    messages (earlier ++ [(.inputData, raw)]) = [(.inputData, raw)] := by
  have hquiet : earlier.filter (fun entry => entry.1 = .inputData) = [] := by
    apply List.filter_eq_nil_iff.mpr
    intro entry hentry hinput
    have hmem : entry.1 ∈ earlier.map Prod.fst := List.mem_map_of_mem hentry
    rw [h] at hmem
    rw [List.eq_of_mem_replicate hmem] at hinput
    cases of_decide_eq_true hinput
  rw [messages, List.filter_append, hquiet]
  rfl

/-- Each sample of a stream is reported once, at the last byte of its frame, and
stands then in `imu[0]` bit for bit. -/
theorem imuSol_stream_decodes {raw : Raw} (h : raw.frame.nbyte = 0)
    (samples : List SentSample) :
    ∃ trace, serialTrace parseData true raw (samples.flatMap sampleFrame) = some trace ∧
      trace.map Prod.fst = samples.flatMap (fun s => delivered (sampleFrame s)) ∧
      List.Forall₂ (fun entry s => Decoded entry.2.data s.2) (messages trace) samples := by
  induction samples generalizing raw with
  | nil => exact ⟨[], rfl, rfl, List.Forall₂.nil⟩
  | cons s rest ih =>
    obtain ⟨earlier, frame, hfilled, hstatus, htrace⟩ :=
      trace_frame parseData (crcFrame_sampleFrame s) h
    obtain ⟨data, hparse, hdecoded⟩ := parseData_item hfilled raw.data
    obtain ⟨later, hlater, hlaterStatus, hsamples⟩ := ih
      (show (Raw.mk frame data).frame.nbyte = 0 from hfilled.nbyte)
    refine ⟨earlier ++ [(.inputData, ⟨frame, data⟩)] ++ later, ?_, ?_, ?_⟩
    · rw [List.flatMap_cons, serialTrace_append (htrace data hparse), hlater, Option.map_some]
    · rw [List.map_append, List.map_append, hstatus, hlaterStatus, List.flatMap_cons]
      rfl
    · have hfirst := messages_frame hstatus ⟨frame, data⟩
      have happ : messages (earlier ++ [(.inputData, ⟨frame, data⟩)] ++ later) =
          (.inputData, ⟨frame, data⟩) :: messages later := by
        rw [messages, List.filter_append]
        exact congrArg (· ++ messages later) hfirst
      rw [happ]
      exact List.Forall₂.cons hdecoded hsamples

/-- A sample whose words all differ, for the parser as it starts. -/
def countingSample : SentSample :=
  ((0, 0), ⟨7, 1, 2, #v[3, 4, 5], #v[6, 7, 8], #v[9, 10, 11], #v[12, 13, 14], #v[15, 16, 17, 18]⟩)

theorem imuSol_stream_decodes_counting :
    ∃ trace, serialTrace parseData true Raw.zeroed
        ([countingSample, countingSample].flatMap sampleFrame) = some trace ∧
      trace.map Prod.fst = [countingSample, countingSample].flatMap
        (fun s => delivered (sampleFrame s)) ∧
      List.Forall₂ (fun entry s => Decoded entry.2.data s.2) (messages trace)
        [countingSample, countingSample] :=
  imuSol_stream_decodes rfl [countingSample, countingSample]

end Hi229Serial

end MarkitNode
