import Mathlib.Data.List.Induction
import MarkitNode.SerialScan

/-!
Resynchronisation of the serial parser. A state between two calls either
searches or holds the beginning of a frame, which may be a phantom: a pair
`5A A5` that was no frame start. Whatever length the phantom claims, it is over
after 510 more bytes, and then the parser searches from scratch. In a stream of
frames whose pairs stand at frame starts only, the next pair it finds is one.
-/

namespace MarkitNode

namespace Hi229Serial

/-- A state between two calls. -/
def Between (frame : RawFrame) : Prop :=
  (∃ last, Searching frame last) ∨ ∃ p, Holds frame p

section Reachable

variable {parse : RawFrame → RawData → RawData}

theorem decodeCh_alwaysParses_frame {frame : RawFrame} {p : List UInt8} (h : Filled frame p)
    (data : RawData) (crcCheck : Bool) :
    ∃ status data', decodeCh (alwaysParses parse) ⟨frame, data⟩ crcCheck =
      some (status, ⟨frame, data'⟩) := by
  cases crcCheck with
  | false => exact ⟨.inputData, parse frame data, rfl⟩
  | true =>
    rw [decodeCh_filled h]
    split
    · exact ⟨.inputData, parse frame data, rfl⟩
    · exact ⟨.errorMessage, data, rfl⟩

variable (parse) in
/-- Every call succeeds and leaves a state between two calls. -/
theorem input_between {raw : Raw} (h : Between raw.frame) (b : UInt8) (crcCheck : Bool) :
    ∃ status raw', chSerialInput (alwaysParses parse) raw b crcCheck = some (status, raw') ∧
      Between raw'.frame := by
  rcases h with ⟨last, hsearch⟩ | ⟨p, hholds⟩
  · obtain ⟨frame, hcall, hnext⟩ :=
      input_searching (alwaysParses parse) hsearch b crcCheck
    refine ⟨.noMessage, ⟨frame, raw.data⟩, hcall, ?_⟩
    split at hnext
    · exact Or.inr ⟨_, hnext⟩
    · exact Or.inl ⟨_, hnext⟩
  · rcases holds_next hholds b with hopen | ⟨hsix, hlong⟩ | ⟨hshort, hfull⟩
    · obtain ⟨frame, hcall, hnext⟩ :=
        input_open (alwaysParses parse) hholds hopen crcCheck
      exact ⟨.noMessage, ⟨frame, raw.data⟩, hcall, Or.inr ⟨_, hnext⟩⟩
    · obtain ⟨frame, hcall, hnext⟩ :=
        input_long (alwaysParses parse) hholds hsix hlong crcCheck
      exact ⟨.errorMessage, ⟨frame, raw.data⟩, hcall, Or.inl ⟨_, hnext⟩⟩
    · obtain ⟨frame, hcall, hnext⟩ :=
        input_end (alwaysParses parse) hholds hshort hfull crcCheck
      obtain ⟨status, data', hdecode⟩ := decodeCh_alwaysParses_frame hnext raw.data crcCheck
      exact ⟨status, ⟨frame, data'⟩, hcall.trans hdecode, Or.inl ⟨_, hnext.searching⟩⟩

theorem reach_between {raw : Raw}
    (h : (serialMachine (alwaysParses parse)).Reach Machine.anyStep raw) : Between raw.frame := by
  refine Machine.Reach.invariant (I := fun raw => Between raw.frame) ?_ ?_ h
  · rintro raw rfl
    exact Or.inl ⟨0, zeroed_searching⟩
  · intro raw call raw' hbetween _ hstep
    obtain ⟨status, next, hcall, hnext⟩ :=
      input_between parse hbetween call.1 call.2
    simp only [serialMachine, hcall, Option.map_some, Option.some.injEq] at hstep
    rw [← hstep]
    exact hnext

end Reachable

/-! ### Streams of frames -/

/-- The pair `5A A5` occurs in the stream at the starts of its frames only. -/
def SyncAtStarts (frames : List (List UInt8)) : Prop :=
  ∀ j, StartsSync (frames.flatten.drop j) →
    ∃ front back, frames = front ++ back ∧ front.flatten.length = j

theorem startsSync_ne_nil {bytes : List UInt8} (h : StartsSync bytes) : bytes ≠ [] := by
  rintro rfl
  cases h

/-- From the start of a frame to a later one there is room for the first. -/
theorem next_start {front front' back back' : List (List UInt8)} {frame : List UInt8}
    (h : front ++ frame :: back = front' ++ back')
    (hlt : front.flatten.length < front'.flatten.length) :
    front.flatten.length + frame.length ≤ front'.flatten.length := by
  rcases List.append_eq_append_iff.mp h with ⟨more, rfl, hmore⟩ | ⟨more, rfl, _⟩
  · cases more with
    | nil => simp at hlt
    | cons f more =>
      obtain ⟨rfl, _⟩ := List.cons.inj hmore
      simp only [List.flatten_append, List.flatten_cons, List.length_append]
      omega
  · simp only [List.flatten_append, List.length_append] at hlt
    omega

/-- A reading that begins anywhere has found its feet at the next frame start,
and keeps them at all later ones. -/
theorem scan_resync {frames : List (List UInt8)} (hframes : ∀ f ∈ frames, CrcFrame f)
    (hsync : SyncAtStarts frames) {front back : List (List UInt8)} (hsplit : frames = front ++ back)
    (gap : Nat) : ∀ start, start + gap = front.flatten.length →
      (scan (frames.flatten.drop start)).drop gap = scan back.flatten := by
  induction gap using Nat.strongRecOn with
  | ind gap ih =>
    intro start hstart
    have hflat : frames.flatten = front.flatten ++ back.flatten := by
      rw [hsplit, List.flatten_append]
    by_cases hzero : gap = 0
    · subst hzero
      rw [hflat, show start = front.flatten.length by omega, List.drop_left]
      rfl
    by_cases hpair : StartsSync (frames.flatten.drop start)
    · obtain ⟨earlier, later, hearlier, hlen⟩ := hsync start hpair
      cases later with
      | nil =>
        rw [List.append_nil] at hearlier
        rw [hearlier, ← hlen, List.drop_length] at hpair
        exact absurd rfl (startsSync_ne_nil hpair)
      | cons frame later =>
        have hframe : CrcFrame frame := hframes frame (by rw [hearlier]; simp)
        have hroom := next_start (hearlier.symm.trans hsplit) (by omega)
        have hdrop : frames.flatten.drop start = frame ++ later.flatten := by
          rw [hearlier, List.flatten_append, ← hlen, List.drop_left, List.flatten_cons]
        have hnext : frames.flatten.drop (start + frame.length) = later.flatten := by
          rw [← List.drop_drop, hdrop, List.drop_left]
        have hpos := hframe.length
        have hdr : chHdrSize = 6 := rfl
        have hrest := ih (gap - frame.length) (by omega) (start + frame.length) (by omega)
        rw [hnext] at hrest
        rw [hdrop, scan_delivered hframe, List.drop_append, length_delivered hframe, hrest,
          List.drop_of_length_le (by rw [length_delivered hframe]; omega), List.nil_append]
    · have hin : start < frames.flatten.length := by
        rw [hflat, List.length_append]
        omega
      obtain ⟨k, rfl⟩ : ∃ k, gap = k + 1 := ⟨gap - 1, by omega⟩
      rw [List.drop_eq_getElem_cons hin] at hpair ⊢
      rw [scan_skip hpair, List.drop_succ_cons]
      exact ih k (Nat.lt_succ_self k) (start + 1) (by omega)

/-- Held bytes are forgotten after at most 510 more: from there on the results
are those of a reading that begins in the stream itself. -/
theorem scan_forgets {p stream : List UInt8} (hs : StartsSync p) (htwo : 2 ≤ p.length)
    (hopen : frameEnd p = none) (hlong : 510 ≤ stream.length) :
    ∃ start, start ≤ 510 ∧ ∀ k, start ≤ k →
      ((scan (p ++ stream)).drop p.length).drop k =
        (scan (stream.drop start)).drop (k - start) := by
  have hs' : StartsSync (p ++ stream) := (startsSync_append stream htwo).mpr hs
  cases hend : frameEnd (p ++ stream) with
  | none =>
    have hlt := (length_of_frameEnd_none hend).1
    have hmax : maxRawLen = 512 := rfl
    rw [List.length_append] at hlt
    omega
  | some r =>
    obtain ⟨n, status⟩ := r
    have hbehind := frameEnd_behind hopen hend
    have hn := (frameEnd_bounds hend).2.1
    have hmax : maxRawLen = 512 := rfl
    refine ⟨n - p.length, by omega, ?_⟩
    intro k hk
    have hdrop : (p ++ stream).drop n = stream.drop (n - p.length) := by
      rw [List.drop_append, List.drop_of_length_le (by omega), List.nil_append]
    have hhead : (List.replicate (n - 1) Status.noMessage ++ [status]).length = n := by
      rw [List.length_append, List.length_replicate, List.length_singleton]
      omega
    rw [scan_end hs' hend, List.drop_drop, List.append_cons, List.drop_append, hhead, hdrop,
      List.drop_of_length_le (by omega), List.nil_append]
    congr 1
    omega

/-- A stream that begins with a frame is read from there by a searching parser. -/
theorem scan_searching {frames : List (List UInt8)} (hframes : ∀ f ∈ frames, CrcFrame f)
    (last : UInt8) : (scan (last :: frames.flatten)).drop 1 = scan frames.flatten := by
  have hno : ¬ StartsSync (last :: frames.flatten) := by
    intro h
    cases frames with
    | nil => cases h
    | cons frame back =>
      have hstart := (hframes frame List.mem_cons_self).starts
      have hsecond : (frame ++ back.flatten).take 1 = [chSync2] := (List.cons.inj h).2
      have hfirst : (frame ++ back.flatten).take 1 = [chSync1] := by
        have hlen := (hframes frame List.mem_cons_self).length
        have hdr : chHdrSize = 6 := rfl
        rw [List.take_append_of_le_length (by omega), ← Nat.min_eq_left (Nat.le_succ 1),
          ← List.take_take, hstart]
        rfl
      rw [hfirst] at hsecond
      exact absurd hsecond (by decide)
  rw [scan_skip hno]
  rfl

/-- After 510 bytes of a stream of frames every frame that starts is delivered,
whatever state the parser was in. -/
theorem chSerialInput_resynchronises (parse : RawFrame → RawData → RawData) {raw : Raw}
    (hreach : (serialMachine (alwaysParses parse)).Reach Machine.anyStep raw)
    {frames : List (List UInt8)} (hframes : ∀ frame ∈ frames, CrcFrame frame)
    (hsync : SyncAtStarts frames) :
    ∃ results, serialResults (alwaysParses parse) raw frames.flatten = some results ∧
      ∀ front frame back, frames = front ++ frame :: back → 510 ≤ front.flatten.length →
        (results.drop front.flatten.length).take frame.length = delivered frame := by
  have hfollow : ∃ results, serialResults (alwaysParses parse) raw frames.flatten = some results ∧
      (510 ≤ frames.flatten.length → ∃ start, start ≤ 510 ∧ ∀ k, start ≤ k →
        results.drop k = (scan (frames.flatten.drop start)).drop (k - start)) := by
    rcases reach_between hreach with ⟨last, hsearch⟩ | ⟨p, hholds⟩
    · refine ⟨_, (results_between parse frames.flatten raw).searching last hsearch, ?_⟩
      intro _
      exact ⟨0, by omega, fun k _ => by rw [scan_searching hframes]; rfl⟩
    · refine ⟨_, (results_between parse frames.flatten raw).held p hholds, ?_⟩
      intro hlong
      exact scan_forgets hholds.starts hholds.two hholds.opened hlong
  obtain ⟨results, hresults, hafter⟩ := hfollow
  refine ⟨results, hresults, ?_⟩
  intro front frame back hsplit hfar
  have hframe : CrcFrame frame := hframes frame (by rw [hsplit]; simp)
  have hlong : 510 ≤ frames.flatten.length := by
    rw [hsplit, List.flatten_append, List.length_append]
    omega
  obtain ⟨start, hstart, hdrop⟩ := hafter hlong
  rw [hdrop _ (by omega), scan_resync hframes hsync hsplit _ start (by omega), List.flatten_cons,
    scan_delivered hframe, List.take_left' (length_delivered hframe)]

/-- A frame of full length and an empty one behind it. -/
def fullThenEmpty : List (List UInt8) := [frameOf (List.replicate 506 0), frameOf []]

def fullHead : List UInt8 := [0x5A, 0xA5, 0xFA, 0x01, 0x93, 0x86]

def emptyFrame : List UInt8 := [0x5A, 0xA5, 0x00, 0x00, 0xFC, 0x4B]

theorem first_of_startsSync {bytes : List UInt8} {j : Nat} (h : StartsSync (bytes.drop j)) :
    bytes[j]? = some chSync1 := by
  have htake : ((bytes.drop j).take 2)[0]? = some chSync1 := by
    rw [h]
    rfl
  rwa [List.getElem?_take_of_lt (by omega), List.getElem?_drop, Nat.add_zero] at htake

/-- Between two short lists that begin a frame each there are zeros only. -/
theorem fullThenEmpty_pairs {j : Nat}
    (h : StartsSync ((fullHead ++ (List.replicate 506 0 ++ emptyFrame)).drop j)) :
    j = 0 ∨ j = 512 := by
  have hget := first_of_startsSync h
  rcases Nat.lt_or_ge j fullHead.length with hlow | hhigh
  · have hhead : ∀ i < fullHead.length, fullHead[i]? = some chSync1 → i = 0 := by decide
    rw [List.getElem?_append_left hlow] at hget
    exact Or.inl (hhead j hlow hget)
  · rw [List.getElem?_append_right hhigh] at hget
    have hsix : fullHead.length = 6 := rfl
    by_cases hzero : j - fullHead.length < 506
    · rw [List.getElem?_append_left (by rwa [List.length_replicate]), List.getElem?_replicate,
        if_pos hzero] at hget
      exact absurd hget (by decide)
    · rw [List.getElem?_append_right (by rw [List.length_replicate]; omega),
        List.length_replicate] at hget
      have hlt := (List.getElem?_eq_some_iff.mp hget).1
      have hhead : ∀ i < emptyFrame.length, emptyFrame[i]? = some chSync1 → i = 0 := by decide
      have := hhead _ hlt hget
      omega

set_option maxRecDepth 4000 in
theorem fullThenEmpty_syncAtStarts : SyncAtStarts fullThenEmpty := by
  have hstream : fullThenEmpty.flatten =
      fullHead ++ (List.replicate 506 0 ++ emptyFrame) := by
    decide +kernel
  intro j hj
  rw [hstream] at hj
  rcases fullThenEmpty_pairs hj with rfl | rfl
  · exact ⟨[], fullThenEmpty, rfl, rfl⟩
  · refine ⟨[frameOf (List.replicate 506 0)], [frameOf []], rfl, ?_⟩
    rw [List.flatten_singleton, length_frameOf, List.length_replicate]
    rfl

theorem reach_input {parse : RawFrame → RawData → Option RawData} {raw raw' : Raw} {b : UInt8}
    {status : Status} (h : (serialMachine parse).Reach Machine.anyStep raw)
    (hcall : chSerialInput parse raw b true = some (status, raw')) :
    (serialMachine parse).Reach Machine.anyStep raw' :=
  Machine.Reach.step (a := (b, true)) h trivial (congrArg (Option.map Prod.snd) hcall)

/-- Whatever beginning of a frame has come, the parser can hold it. -/
theorem reach_holds (parse : RawFrame → RawData → RawData) {p : List UInt8} (hstarts : StartsSync p)
    (hopen : frameEnd p = none) :
    ∃ raw, (serialMachine (alwaysParses parse)).Reach Machine.anyStep raw ∧
      Holds raw.frame p := by
  induction p using List.reverseRecOn with
  | nil => cases hstarts
  | append_singleton p b ih =>
    rcases Nat.lt_or_ge p.length 2 with hshort | htwo
    · obtain ⟨rfl, rfl⟩ : p = [chSync1] ∧ b = chSync2 := by
        cases p with
        | nil => cases hstarts
        | cons a p =>
          obtain rfl : p = [] := List.length_eq_zero_iff.mp (by
            rw [List.length_cons] at hshort
            omega)
          simpa [StartsSync] using hstarts
      obtain ⟨frame, hfirst, hlast⟩ := input_searching (alwaysParses parse) zeroed_searching
        chSync1 true
      have hsearching : Searching (Raw.mk frame Raw.zeroed.data).frame chSync1 := hlast
      obtain ⟨frame', hsecond, hholds⟩ := input_searching (alwaysParses parse) hsearching
        chSync2 true
      exact ⟨_, reach_input (reach_input (Machine.Reach.init rfl) hfirst) hsecond, hholds⟩
    · have hspan := length_of_frameEnd_none hopen
      rw [List.length_append, List.length_singleton] at hspan
      have hfront : frameEnd p = none := by
        rcases Nat.lt_or_ge p.length chHdrSize with hhead | hhead
        · exact frameEnd_short hhead
        · obtain ⟨hpayload, hmore⟩ := hspan.2 (by omega)
          rw [payloadLen_append [b] (Nat.le_trans (by decide) hhead)] at hpayload hmore
          exact frameEnd_open hpayload (by omega)
      obtain ⟨raw, hreach, hholds⟩ := ih ((startsSync_append [b] htwo).mp hstarts) hfront
      obtain ⟨frame, hcall, hnext⟩ := input_open (alwaysParses parse) hholds hopen true
      exact ⟨_, reach_input hreach hcall, hnext⟩

/-- A phantom: the pair, a length of 506, and three bytes more. -/
def phantomHead : List UInt8 := [0x5A, 0xA5, 0xFA, 0x01, 0x00, 0x00, 0x07]

theorem chSerialInput_resynchronises_after_full :
    ∃ raw : Raw, Holds raw.frame phantomHead ∧
      ∃ results, serialResults (alwaysParses fun _ data => data) raw
          fullThenEmpty.flatten = some results ∧
        ∀ front frame back, fullThenEmpty = front ++ frame :: back →
          510 ≤ front.flatten.length →
          (results.drop front.flatten.length).take frame.length = delivered frame := by
  obtain ⟨raw, hreach, hholds⟩ := reach_holds (fun _ data => data) (p := phantomHead)
    (by decide) (by decide)
  refine ⟨raw, hholds, chSerialInput_resynchronises _ hreach (fun frame hframe => ?_)
    fullThenEmpty_syncAtStarts⟩
  rcases List.mem_cons.mp hframe with rfl | hrest
  · exact crcFrame_frameOf (by decide +kernel)
  · rw [List.mem_singleton.mp hrest]
    exact crcFrame_frameOf (Nat.zero_le _)

end Hi229Serial

end MarkitNode
