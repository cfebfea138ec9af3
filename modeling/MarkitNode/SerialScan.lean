import MarkitNode.FrameScan

/-!
The byte-wise parser against the batch reading. Between two calls the parser is
either searching, and then only the last byte it saw matters, or it holds the
first bytes of a frame that has not ended (`Holds`). The length field counts
from byte 6 on; before that it may be the one of an earlier frame, which no
call of fewer bytes can reach. One step lemma for each case gives the results
over a stream (`trace_eq_scan`).
-/

namespace MarkitNode

namespace Hi229Serial

open ByteCodes

structure Searching (frame : RawFrame) (last : UInt8) : Prop where
  nbyte : frame.nbyte = 0
  last : frame.buf[1] = last

/-- The buffer holds the bytes `p` of a frame that has not ended. -/
structure Holds (frame : RawFrame) (p : List UInt8) : Prop where
  nbyte : frame.nbyte = p.length
  starts : StartsSync p
  two : 2 ≤ p.length
  kept : frame.buf.toList.take p.length = p
  opened : frameEnd p = none
  len : chHdrSize ≤ p.length → frame.len = payloadLen p

/-- The buffer holds a frame that was taken whole, and the parser searches again. -/
structure Filled (frame : RawFrame) (p : List UInt8) : Prop where
  nbyte : frame.nbyte = 0
  starts : StartsSync p
  kept : frame.buf.toList.take p.length = p
  short : payloadLen p ≤ maxPayload
  length : p.length = payloadLen p + chHdrSize
  len : frame.len = payloadLen p

/-! ### The buffer -/

theorem take_succ_set {l : List UInt8} {n : Nat} (b : UInt8) (h : n < l.length) :
    (l.set n b).take (n + 1) = l.take n ++ [b] := by
  rw [List.take_add_one, List.take_set_of_le (Nat.le_refl n), List.getElem?_set_self h]
  rfl

theorem store_kept {buf : RawBuf} {p : List UInt8} (b : UInt8)
    (hkept : buf.toList.take p.length = p) (h : p.length < maxRawLen) :
    ∃ buf', store buf p.length b = some buf' ∧
      buf'.toList.take (p ++ [b]).length = p ++ [b] := by
  refine ⟨buf.set p.length b, dif_pos h, ?_⟩
  rw [Vector.toList_set, List.length_append, List.length_singleton,
    take_succ_set b (by simpa using h), hkept]

theorem load_kept {buf : RawBuf} {p : List UInt8} {ofs n : Nat}
    (hkept : buf.toList.take p.length = p) (hp : p.length ≤ maxRawLen)
    (h : ofs + n ≤ p.length) : load buf ofs n = some ((p.drop ofs).take n) := by
  have hin : (Window.whole buf).first ≤ ofs ∧ ofs + n ≤ (Window.whole buf).last :=
    ⟨Nat.zero_le ofs, Nat.le_trans h hp⟩
  rw [load, if_pos hin, ← hkept, List.drop_take, List.take_take, Window.whole]
  congr 2
  omega

theorem U1_kept {buf : RawBuf} {p : List UInt8} {i : Nat} (hkept : buf.toList.take p.length = p)
    (hp : p.length ≤ maxRawLen) (h : i < p.length) : U1 buf i = p[i]? := by
  have hin : (Window.whole buf).first ≤ i ∧ i < (Window.whole buf).last :=
    ⟨Nat.zero_le i, Nat.lt_of_lt_of_le h hp⟩
  have htake : (buf.toList.take p.length)[i]? = buf.toList[i]? := List.getElem?_take_of_lt h
  rw [U1, if_pos hin, ← Vector.getElem?_toList, Window.whole, ← htake, hkept]

theorem Filled.head_le {frame : RawFrame} {p : List UInt8} (h : Filled frame p) :
    chHdrSize ≤ p.length := by
  rw [h.length]
  exact Nat.le_add_left _ _

theorem Filled.length_payload {frame : RawFrame} {p : List UInt8} (h : Filled frame p) :
    (p.drop chHdrSize).length = payloadLen p := by
  rw [List.length_drop, h.length, Nat.add_sub_cancel]

/-- A buffer with the bytes of a frame, and zeros behind them. -/
def bufOf (p : List UInt8) : RawBuf := Vector.ofFn fun i => p.getD i 0

theorem filled_bufOf {p : List UInt8} (hstarts : StartsSync p) (hshort : payloadLen p ≤ maxPayload)
    (hlength : p.length = payloadLen p + chHdrSize) : Filled ⟨0, payloadLen p, bufOf p⟩ p where
  nbyte := rfl
  starts := hstarts
  kept := by
    have hmax : maxPayload + chHdrSize = maxRawLen := rfl
    apply List.ext_getElem
    · rw [List.length_take, Vector.length_toList]
      omega
    · intro i hi hp
      simp [bufOf, List.getElem?_eq_getElem hp]
  short := hshort
  length := hlength
  len := rfl

theorem getElem_of_kept {buf : RawBuf} {p : List UInt8} {i : Nat} (hi : i < maxRawLen)
    (hkept : buf.toList.take p.length = p) (h : i < p.length) : buf[i] = p[i] := by
  have hget : buf.toList[i]? = some buf[i] := by simp [hi]
  have htake : (buf.toList.take p.length)[i]? = buf.toList[i]? := List.getElem?_take_of_lt h
  rw [hkept, hget, List.getElem?_eq_getElem h, Option.some.injEq] at htake
  exact htake.symm

theorem last_of_kept {buf : RawBuf} {p : List UInt8} (hs : StartsSync p)
    (hkept : buf.toList.take p.length = p) : buf[1] = chSync2 := by
  have hlen : 2 ≤ p.length := by
    have htake := congrArg List.length hs
    simp only [List.length_take, List.length_cons, List.length_nil] at htake
    omega
  have hp : p[1]? = some chSync2 := by
    rw [← List.getElem?_take_of_lt (by omega : 1 < 2), hs]
    rfl
  rw [getElem_of_kept (by decide) hkept (by omega)]
  rw [List.getElem?_eq_getElem (by omega), Option.some.injEq] at hp
  exact hp

theorem U2_len {buf : RawBuf} {p : List UInt8} (hkept : buf.toList.take p.length = p)
    (hp : p.length ≤ maxRawLen) (h : 4 ≤ p.length) :
    (U2 buf 2).map UInt16.toNat = some (payloadLen p) := by
  have hlen : ((p.drop 2).take 2).length = 2 := by
    rw [List.length_take, List.length_drop]
    omega
  have hlt := ofLe_lt ((p.drop 2).take 2)
  rw [hlen] at hlt
  rw [U2, load_kept hkept hp (by omega), Option.map_some, Option.map_some, payloadLen]
  simp only [Option.some.injEq, UInt16.toNat_ofNat']
  omega

theorem Filled.searching {frame : RawFrame} {p : List UInt8} (h : Filled frame p) :
    Searching frame chSync2 :=
  ⟨h.nbyte, last_of_kept h.starts h.kept⟩

/-! ### One byte -/

variable (parse : RawFrame → RawData → Option RawData)

theorem input_searching {raw : Raw} {last : UInt8} (h : Searching raw.frame last) (b : UInt8)
    (crcCheck : Bool) :
    ∃ frame, chSerialInput parse raw b crcCheck = some (.noMessage, ⟨frame, raw.data⟩) ∧
      if StartsSync [last, b] then Holds frame [last, b] else Searching frame b := by
  obtain ⟨hn, rfl⟩ := h
  by_cases hs : StartsSync [raw.frame.buf[1], b]
  · have hcons := hs
    simp only [StartsSync, List.take_succ_cons, List.take_zero, List.cons.injEq, and_true] at hcons
    refine ⟨⟨2, raw.frame.len, (syncCh raw.frame.buf b).1⟩, ?_, ?_⟩
    · simp [chSerialInput, hn, syncCh, hcons]
    · rw [if_pos hs]
      refine ⟨rfl, hs, Nat.le_refl 2, ?_, frameEnd_short (Nat.le_add_left 3 3), ?_⟩
      · apply List.ext_getElem
        · rw [List.length_take, Vector.length_toList]
          rfl
        · intro i h1 h2
          have hi : i = 0 ∨ i = 1 := by
            simp only [List.length_cons, List.length_nil] at h2
            omega
          rcases hi with rfl | rfl <;> simp [syncCh]
      · intro hle
        exact absurd hle (Nat.not_succ_le_self 2 ∘ Nat.le_trans (Nat.le_add_right 3 3))
  · refine ⟨⟨0, raw.frame.len, (syncCh raw.frame.buf b).1⟩, ?_, ?_⟩
    · have hne : raw.frame.buf[1] = chSync1 → ¬ b = chSync2 := by
        intro h1 h2
        exact hs (by rw [h1, h2]; rfl)
      by_cases h1 : raw.frame.buf[1] = chSync1
      · simp [chSerialInput, hn, syncCh, hne h1, h1]
      · simp [chSerialInput, hn, syncCh, h1]
    · rw [if_neg hs]
      exact ⟨rfl, by simp [syncCh]⟩

/-- The call for one more byte `b` of a frame, with the length it goes by. -/
theorem input_holds {raw : Raw} {p : List UInt8} (h : Holds raw.frame p) (b : UInt8)
    (crcCheck : Bool) :
    ∃ buf len, buf.toList.take (p ++ [b]).length = p ++ [b] ∧
      (chHdrSize ≤ (p ++ [b]).length → len = payloadLen (p ++ [b])) ∧
      chSerialInput parse raw b crcCheck =
        if (p ++ [b]).length = chHdrSize ∧ maxPayload < len then
          some (.errorMessage, ⟨⟨0, len, buf⟩, raw.data⟩)
        else if (p ++ [b]).length < len + chHdrSize then
          some (.noMessage, ⟨⟨(p ++ [b]).length, len, buf⟩, raw.data⟩)
        else decodeCh parse ⟨⟨0, len, buf⟩, raw.data⟩ crcCheck := by
  have hdr : chHdrSize = 6 := rfl
  have hroom := (length_of_frameEnd_none h.opened).1
  have htwo := h.two
  have hq : (p ++ [b]).length = p.length + 1 := List.length_append
  obtain ⟨buf, hstore, hkept⟩ := store_kept b h.kept hroom
  have hn : ¬ p.length = 0 := by omega
  by_cases hsix : p.length + 1 = chHdrSize
  · have hlen := U2_len hkept (by omega) (by omega)
    refine ⟨buf, payloadLen (p ++ [b]), hkept, fun _ => rfl, ?_⟩
    simp only [chSerialInput, h.nbyte, if_neg hn, hstore, hq, hsix, if_true, hlen,
      Option.bind_eq_bind, Option.bind_some, Option.pure_def]
  · refine ⟨buf, raw.frame.len, hkept, ?_, ?_⟩
    · intro hle
      rw [h.len (by omega), payloadLen_append [b] (by omega)]
    · simp only [chSerialInput, h.nbyte, if_neg hn, hstore, hq, hsix, if_false, false_and,
        Option.bind_eq_bind, Option.bind_some, Option.pure_def]

/-- The frame goes on. -/
theorem input_open {raw : Raw} {p : List UInt8} (h : Holds raw.frame p) {b : UInt8}
    (hopen : frameEnd (p ++ [b]) = none) (crcCheck : Bool) :
    ∃ frame, chSerialInput parse raw b crcCheck = some (.noMessage, ⟨frame, raw.data⟩) ∧
      Holds frame (p ++ [b]) := by
  have hdr : chHdrSize = 6 := rfl
  have hq : (p ++ [b]).length = p.length + 1 := List.length_append
  have htwo := h.two
  have hspan := (length_of_frameEnd_none hopen).2
  obtain ⟨buf, len, hkept, hlen, hcall⟩ := input_holds parse h b crcCheck
  have hshort : ¬ ((p ++ [b]).length = chHdrSize ∧ maxPayload < len) := by
    rintro ⟨hsix, hlong⟩
    rw [hlen (by omega)] at hlong
    have := (hspan (by omega)).1
    omega
  have hmore : (p ++ [b]).length < len + chHdrSize := by
    by_cases hle : chHdrSize ≤ (p ++ [b]).length
    · rw [hlen hle]
      exact (hspan hle).2
    · omega
  refine ⟨⟨(p ++ [b]).length, len, buf⟩, ?_, ?_⟩
  · rw [hcall, if_neg hshort, if_pos hmore]
  · exact ⟨rfl, (startsSync_append [b] htwo).mpr h.starts, by omega, hkept, hopen, hlen⟩

/-- The length is out of range: the call that completes the header drops the frame. -/
theorem input_long {raw : Raw} {p : List UInt8} (h : Holds raw.frame p) {b : UInt8}
    (hsix : (p ++ [b]).length = chHdrSize) (hl : maxPayload < payloadLen (p ++ [b]))
    (crcCheck : Bool) :
    ∃ frame, chSerialInput parse raw b crcCheck = some (.errorMessage, ⟨frame, raw.data⟩) ∧
      Searching frame chSync2 := by
  obtain ⟨buf, len, hkept, hlen, hcall⟩ := input_holds parse h b crcCheck
  have hs := (startsSync_append [b] h.two).mpr h.starts
  refine ⟨⟨0, len, buf⟩, ?_, rfl, last_of_kept hs hkept⟩
  rw [hcall, hlen (Nat.le_of_eq hsix.symm), if_pos ⟨hsix, hl⟩]

/-- The byte completes the frame. -/
theorem input_end {raw : Raw} {p : List UInt8} (h : Holds raw.frame p) {b : UInt8}
    (hl : payloadLen (p ++ [b]) ≤ maxPayload)
    (hfull : (p ++ [b]).length = payloadLen (p ++ [b]) + chHdrSize) (crcCheck : Bool) :
    ∃ frame, chSerialInput parse raw b crcCheck = decodeCh parse ⟨frame, raw.data⟩ crcCheck ∧
      Filled frame (p ++ [b]) := by
  obtain ⟨buf, len, hkept, hlen, hcall⟩ := input_holds parse h b crcCheck
  obtain rfl := hlen (by omega)
  refine ⟨⟨0, payloadLen (p ++ [b]), buf⟩, ?_, ?_⟩
  · rw [hcall, if_neg (by omega), if_neg (by omega)]
  · exact ⟨rfl, (startsSync_append [b] h.two).mpr h.starts, hkept, hl, hfull, rfl⟩

/-- The three ways a frame can go on. -/
theorem holds_next {frame : RawFrame} {p : List UInt8} (h : Holds frame p) (b : UInt8) :
    frameEnd (p ++ [b]) = none ∨
      ((p ++ [b]).length = chHdrSize ∧ maxPayload < payloadLen (p ++ [b])) ∨
      (payloadLen (p ++ [b]) ≤ maxPayload ∧
        (p ++ [b]).length = payloadLen (p ++ [b]) + chHdrSize) := by
  have hq : (p ++ [b]).length = p.length + 1 := List.length_append
  have hspan := (length_of_frameEnd_none h.opened).2
  have hdr : chHdrSize = 6 := rfl
  by_cases hsix : (p ++ [b]).length < chHdrSize
  · exact Or.inl (frameEnd_short hsix)
  by_cases hl : payloadLen (p ++ [b]) ≤ maxPayload
  · by_cases hmore : (p ++ [b]).length < payloadLen (p ++ [b]) + chHdrSize
    · exact Or.inl (frameEnd_open hl hmore)
    · refine Or.inr (Or.inr ⟨hl, ?_⟩)
      by_cases hfirst : chHdrSize ≤ p.length
      · have hpay := payloadLen_append [b] (p := p) (by omega)
        have := (hspan hfirst).2
        omega
      · omega
  · refine Or.inr (Or.inl ⟨?_, by omega⟩)
    by_contra hne
    have hpay := payloadLen_append [b] (p := p) (by omega)
    have := (hspan (by omega)).1
    omega

variable {parse} in
theorem decodeCh_filled {frame : RawFrame} {p : List UInt8} (h : Filled frame p)
    (data : RawData) :
    decodeCh parse ⟨frame, data⟩ true =
      if CrcCorrect p then
        (parse frame data).map fun data' => (.inputData, ⟨frame, data'⟩)
      else some (.errorMessage, ⟨frame, data⟩) := by
  have hdr : chHdrSize = 6 := rfl
  have hmax : maxPayload + chHdrSize = maxRawLen := rfl
  have hlen := h.length
  have hp : p.length ≤ maxRawLen := by
    have := h.short
    omega
  have hpayload : (p.drop 6).take (payloadLen p) = p.drop 6 := by
    apply List.take_of_length_le
    rw [List.length_drop]
    omega
  have hsent : (UInt16.ofNat (ofLe ((p.drop 4).take 2))).toBitVec = sentCrc p := rfl
  have hcrc : crc16Update (crc16Update 0#16 ((p.drop 0).take 4)) (p.drop 6) =
      crc16 crcPoly (p.take 4 ++ p.drop chHdrSize) := by
    rw [crc16Update_eq, crc16Update_eq, crc16_append]
    rfl
  rw [decodeCh, load_kept h.kept hp (by omega), h.len, load_kept h.kept hp (by omega), hpayload, U2,
    load_kept h.kept hp (by omega)]
  simp only [Option.bind_eq_bind, Option.bind_some, Option.map_some, hcrc, hsent, CrcCorrect,
    Bool.not_true, Bool.false_eq_true, if_false, ne_eq, ite_not, Option.pure_def]
  rfl

/-! ### A stream -/

variable {parse}

theorem serialTrace_cons {raw raw' : Raw} {b : UInt8} {status : Status} {crcCheck : Bool}
    (h : chSerialInput parse raw b crcCheck = some (status, raw')) (rest : List UInt8) :
    serialTrace parse crcCheck raw (b :: rest) =
      (serialTrace parse crcCheck raw' rest).map ((status, raw') :: ·) := by
  simp only [serialTrace, h, Option.bind_eq_bind, Option.bind_some, Option.pure_def]
  rw [Option.map_eq_bind]
  rfl

/-- What the calls return, with the check on. -/
def serialResults (parse : RawFrame → RawData → Option RawData) (raw : Raw)
    (bytes : List UInt8) : Option (List Status) :=
  (serialTrace parse true raw bytes).map (List.map Prod.fst)

theorem serialResults_nil (raw : Raw) : serialResults parse raw [] = some [] := rfl

theorem serialResults_cons {raw raw' : Raw} {b : UInt8} {status : Status}
    (h : chSerialInput parse raw b true = some (status, raw')) (rest : List UInt8) :
    serialResults parse raw (b :: rest) =
      (serialResults parse raw' rest).map (status :: ·) := by
  rw [serialResults, serialTrace_cons h, serialResults, Option.map_map, Option.map_map]
  rfl

theorem drop_replicate_head {l : List Status} {n : Nat} {status : Status}
    (h : l.take (n + 1) = List.replicate (n + 1) status) : l.drop n = status :: l.drop (n + 1) := by
  have hget : l[n]? = some status := by
    rw [← List.getElem?_take_of_lt (Nat.lt_succ_self n), h, List.getElem?_replicate,
      if_pos (Nat.lt_succ_self n)]
  obtain ⟨hn, rfl⟩ := List.getElem?_eq_some_iff.mp hget
  exact List.drop_eq_getElem_cons hn

/-- `parse_data` returns 1 and changes the parsed data only. -/
def alwaysParses (parse : RawFrame → RawData → RawData) : RawFrame → RawData → Option RawData :=
  fun frame data => some (parse frame data)

/-- From a state between two calls the results are those of the batch reading
of the bytes still held and the bytes that follow. -/
structure MatchesScan (parse : RawFrame → RawData → RawData) (bytes : List UInt8)
    (raw : Raw) : Prop where
  searching : ∀ last, Searching raw.frame last →
    serialResults (alwaysParses parse) raw bytes = some ((scan (last :: bytes)).drop 1)
  held : ∀ p, Holds raw.frame p →
    serialResults (alwaysParses parse) raw bytes = some ((scan (p ++ bytes)).drop p.length)

section Step

variable {parse : RawFrame → RawData → RawData} {rest : List UInt8}

/-- No frame starts with the second sync byte. -/
theorem MatchesScan.fresh {raw : Raw} (h : MatchesScan parse rest raw)
    (hs : Searching raw.frame chSync2) :
    serialResults (alwaysParses parse) raw rest = some (scan rest) := by
  have hno : ¬ StartsSync (chSync2 :: rest) := not_startsSync_of_ne (by decide) rest
  rw [h.searching chSync2 hs, scan_skip hno]
  rfl

/-- One byte into a search. -/
theorem results_searching (ih : ∀ raw, MatchesScan parse rest raw) {raw : Raw} {last : UInt8}
    (hsearch : Searching raw.frame last) (b : UInt8) :
    serialResults (alwaysParses parse) raw (b :: rest) =
      some ((scan (last :: b :: rest)).drop 1) := by
  obtain ⟨frame, hcall, hnext⟩ := input_searching (alwaysParses parse) hsearch b true
  rw [serialResults_cons hcall]
  by_cases hs : StartsSync [last, b]
  · rw [if_pos hs] at hnext
    have hheld := scan_held hs (Nat.le_refl 2) hnext.opened rest
    rw [(ih ⟨frame, raw.data⟩).held _ hnext]
    exact congrArg some (drop_replicate_head (n := 1) hheld).symm
  · rw [if_neg hs] at hnext
    have hno : ¬ StartsSync (last :: b :: rest) := by
      intro h
      exact hs ((startsSync_append (p := [last, b]) rest (Nat.le_refl 2)).mp h)
    rw [(ih ⟨frame, raw.data⟩).searching _ hnext, scan_skip hno]
    exact congrArg some (scan_first b rest).symm

/-- One byte into a frame: it stays open, claims too much, or ends. -/
theorem results_held (ih : ∀ raw, MatchesScan parse rest raw) {raw : Raw} {p : List UInt8}
    (hholds : Holds raw.frame p) (b : UInt8) :
    serialResults (alwaysParses parse) raw (b :: rest) =
      some ((scan (p ++ b :: rest)).drop p.length) := by
  have hq : (p ++ [b]).length = p.length + 1 := List.length_append
  have hsync := (startsSync_append [b] hholds.two).mpr hholds.starts
  have happ : p ++ b :: rest = (p ++ [b]) ++ rest := by rw [List.append_assoc]; rfl
  rw [happ]
  rcases holds_next hholds b with hopen | ⟨hsix, hlong⟩ | ⟨hshort, hfull⟩
  · obtain ⟨frame, hcall, hnext⟩ := input_open (alwaysParses parse) hholds hopen true
    have hheld := scan_held hsync hnext.two hopen rest
    rw [hq] at hheld
    rw [serialResults_cons hcall, (ih ⟨frame, raw.data⟩).held _ hnext, hq]
    exact congrArg some (drop_replicate_head hheld).symm
  · obtain ⟨frame, hcall, hnext⟩ := input_long (alwaysParses parse) hholds hsix hlong true
    have hend := frameEnd_long (Nat.le_of_eq hsix.symm) hlong
    rw [← hsix] at hend
    have hclosed := scan_closed hsync hend rest
    rw [hq, Nat.add_sub_cancel] at hclosed
    rw [serialResults_cons hcall, (ih _).fresh hnext, hclosed]
    rfl
  · obtain ⟨frame, hcall, hnext⟩ := input_end (alwaysParses parse) hholds hshort hfull true
    have hclosed := scan_closed hsync (frameEnd_exact hshort hfull) rest
    rw [hq, Nat.add_sub_cancel] at hclosed
    rw [decodeCh_filled hnext] at hcall
    rw [hclosed]
    by_cases hcrc : CrcCorrect (p ++ [b])
    · rw [if_pos hcrc] at hcall ⊢
      rw [serialResults_cons hcall, (ih _).fresh hnext.searching]
      rfl
    · rw [if_neg hcrc] at hcall ⊢
      rw [serialResults_cons hcall, (ih _).fresh hnext.searching]
      rfl

end Step

theorem results_between (parse : RawFrame → RawData → RawData) (bytes : List UInt8) :
    ∀ raw, MatchesScan parse bytes raw := by
  induction bytes with
  | nil =>
    intro raw
    constructor
    · intro last _
      rw [serialResults_nil, List.drop_of_length_le (by simp [length_scan])]
    · intro p _
      rw [serialResults_nil, List.drop_of_length_le (by simp [length_scan])]
  | cons b rest ih =>
    intro raw
    exact ⟨fun _ hsearch => results_searching ih hsearch b, fun _ h => results_held ih h b⟩

theorem zeroed_searching : Searching Raw.zeroed.frame 0 := ⟨rfl, by simp [Raw.zeroed]⟩

/-- Byte by byte the parser gives the results of the batch reading, it never
leaves its buffer, and it reports a message only at the end of a frame whose
check is right. -/
theorem chSerialInput_matches_scan (parse : RawFrame → RawData → RawData) (bytes : List UInt8) :
    serialResults (alwaysParses parse) Raw.zeroed bytes = some (scan bytes) ∧
      ∀ i, (scan bytes)[i]? = some .inputData →
        ∃ front frame, bytes.take (i + 1) = front ++ frame ∧ CrcFrame frame := by
  constructor
  · have hno : ¬ StartsSync (0 :: bytes) := not_startsSync_of_ne (by decide) bytes
    rw [(results_between parse bytes Raw.zeroed).searching 0 zeroed_searching, scan_skip hno]
    rfl
  · intro i hi
    exact frame_of_inputData hi

end Hi229Serial

end MarkitNode
