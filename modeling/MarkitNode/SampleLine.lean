import MarkitNode.ImuSolFrames

/-!
The line from the IMU after `hi229_buffer_reset`: the rest of a frame that was cut off,
and then whole frames with samples. What the parser will report of the bytes still to
come is a property of its state, which one call keeps.
-/

namespace MarkitNode

namespace Hi229Serial

/-- The sync codes do not stand behind each other in what is left of the cut frame. -/
def SyncFree (noise : List UInt8) : Prop := ∀ j, ¬ StartsSync (noise.drop j)

instance (noise : List UInt8) : Decidable (SyncFree noise) :=
  decidable_of_iff (∀ j < noise.length, ¬ StartsSync (noise.drop j)) <| by
    refine ⟨fun h j hsync => ?_, fun h j _ => h j⟩
    by_cases hj : j < noise.length
    · exact h j hj hsync
    · rw [StartsSync, List.drop_of_length_le (Nat.le_of_not_lt hj)] at hsync
      cases hsync

/-- `imu[0]` -/
def imuOf (data : RawData) : ChImuData := (data.imu[0]?).getD zeroImu

/-- From here on the parser reports the samples, each once and in order. -/
def Expects (raw : Raw) (line : List UInt8) (samples : List SentSample) : Prop :=
  ∃ trace, serialTrace parseData true raw line = some trace ∧
    (messages trace).map (fun entry => imuOf entry.2.data) = samples.map fun s => s.2.imu

theorem messages_append (front back : List (Status × Raw)) :
    messages (front ++ back) = messages front ++ messages back := List.filter_append ..

theorem imuOf_decoded {data : RawData} {s : ImuSample} (h : Decoded data s) :
    imuOf data = s.imu := by
  rw [imuOf, Vector.getElem?_eq_getElem Nat.zero_lt_one, Option.getD_some, h.imu]

/-- The next call of the parser. -/
theorem Expects.input {raw : Raw} {b : UInt8} {line : List UInt8} {samples : List SentSample}
    (h : Expects raw (b :: line) samples) :
    ∃ status raw', chSerialInput parseData raw b true = some (status, raw') ∧
      if status = .inputData then
        ∃ s rest, samples = s :: rest ∧ imuOf raw'.data = s.2.imu ∧ Expects raw' line rest
      else Expects raw' line samples := by
  obtain ⟨trace, htrace, hsamples⟩ := h
  cases hcall : chSerialInput parseData raw b true with
  | none => simp [serialTrace, hcall] at htrace
  | some entry =>
    obtain ⟨status, raw'⟩ := entry
    rw [serialTrace_cons hcall] at htrace
    obtain ⟨later, hlater, rfl⟩ := Option.map_eq_some_iff.mp htrace
    refine ⟨status, raw', rfl, ?_⟩
    split_ifs with hstatus
    · rw [messages, List.filter_cons_of_pos (by simp [hstatus]), List.map_cons] at hsamples
      obtain ⟨s, rest, rfl, himu, hrest⟩ := List.map_eq_cons_iff.mp hsamples.symm
      exact ⟨s, rest, rfl, himu.symm, later, hlater, hrest.symm⟩
    · rw [messages, List.filter_cons_of_neg (by simp [hstatus])] at hsamples
      exact ⟨later, hlater, hsamples⟩

/-- Frames one behind the other, from any state in which the parser searches. -/
theorem expects_frames {raw : Raw} (h : raw.frame.nbyte = 0) (samples : List SentSample) :
    Expects raw (samples.flatMap sampleFrame) samples := by
  induction samples generalizing raw with
  | nil => exact ⟨[], rfl, rfl⟩
  | cons s rest ih =>
    obtain ⟨earlier, frame, hfilled, hstatus, htrace⟩ :=
      trace_frame parseData (crcFrame_sampleFrame s) h
    obtain ⟨data, hparse, hdecoded⟩ := parseData_item hfilled raw.data
    obtain ⟨later, hlater, hrest⟩ : Expects ⟨frame, data⟩ (rest.flatMap sampleFrame) rest :=
      ih hfilled.nbyte
    refine ⟨earlier ++ [(.inputData, ⟨frame, data⟩)] ++ later, ?_, ?_⟩
    · rw [List.flatMap_cons, serialTrace_append (htrace data hparse), hlater, Option.map_some]
    · rw [messages_append, messages_frame hstatus, List.map_append, hrest, List.map_singleton,
        imuOf_decoded hdecoded]
      rfl

/-- A call that reports no sample leaves the others to come. -/
theorem Expects.quiet {raw raw' : Raw} {b : UInt8} {line : List UInt8}
    {samples : List SentSample}
    (hcall : chSerialInput parseData raw b true = some (.noMessage, raw'))
    (h : Expects raw' line samples) : Expects raw (b :: line) samples := by
  obtain ⟨trace, htrace, hsamples⟩ := h
  refine ⟨(.noMessage, raw') :: trace, ?_, ?_⟩
  · rw [serialTrace_cons hcall, htrace, Option.map_some]
  · rw [messages, List.filter_cons_of_neg (by simp)]
    exact hsamples

/-- The rest of a cut frame is passed over. -/
theorem expects_searching {noise : List UInt8} {raw : Raw} {last : UInt8}
    (hsearch : Searching raw.frame last) (hfree : SyncFree (last :: noise))
    (samples : List SentSample) :
    Expects raw (noise ++ samples.flatMap sampleFrame) samples := by
  induction noise generalizing raw last with
  | nil => exact expects_frames hsearch.nbyte samples
  | cons b noise ih =>
    obtain ⟨frame, hcall, hnext⟩ := input_searching parseData hsearch b true
    have hpair : ¬ StartsSync [last, b] := hfree 0
    rw [if_neg hpair] at hnext
    have hlater : Expects ⟨frame, raw.data⟩ (noise ++ samples.flatMap sampleFrame) samples :=
      ih hnext fun j => hfree (j + 1)
    exact hlater.quiet hcall

/-- The line after a reset. -/
theorem expects_zeroed {noise : List UInt8} (hfree : SyncFree noise)
    (samples : List SentSample) :
    Expects Raw.zeroed (noise ++ samples.flatMap sampleFrame) samples := by
  refine expects_searching zeroed_searching (fun j => ?_) samples
  cases j with
  | zero =>
    rw [List.drop_zero, StartsSync, List.take_succ_cons]
    exact fun h => absurd (List.cons.inj h).1 (by decide)
  | succ j => exact hfree j

end Hi229Serial

end MarkitNode
