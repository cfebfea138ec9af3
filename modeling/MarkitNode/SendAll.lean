import Mathlib.Algebra.Group.Nat.Defs
import Mathlib.Data.List.TakeDrop
import Mathlib.Tactic.Common

/-!
The macro `send_all`. The number of bytes that are left goes down by what a call
of `send` has sent, but the pointer stays at the start of the string, so what
follows a partial send is the start of the string again.
-/

namespace MarkitNode

namespace SendAll

/-- How the loop stands: waiting for `send`, left after an error, or at its end. -/
inductive Outcome
  | waiting
  | failed
  | done
  deriving DecidableEq, Repr

/-- The loop of `send_all` for the results of `send`, with `toWrite` bytes left: what
it puts on the stream, and how it stands then. -/
def sendLoop (buf : List UInt8) : Int → List Int → List UInt8 × Outcome
  | toWrite, [] => ([], if 0 < toWrite then .waiting else .done)
  | toWrite, written :: rest =>
      if 0 < toWrite then
        if written < 0 then ([], .failed)
        else
          let (stream, outcome) := sendLoop buf (toWrite - written) rest
          (buf.take written.toNat ++ stream, outcome)
      else ([], .done)

/-- `int to_write = strlen(buf)` -/
def toWriteOf (buf : List UInt8) : Int := (buf.length : Int).bmod (2 ^ 32)

def sendAll (buf : List UInt8) (results : List Int) : List UInt8 × Outcome :=
  sendLoop buf (toWriteOf buf) results

/-- Each result is an error or a number of bytes up to that asked for. -/
def Valid : Int → List Int → Prop
  | _, [] => True
  | toWrite, written :: rest =>
      0 < toWrite → 0 ≤ written → 1 ≤ written ∧ written ≤ toWrite ∧ Valid (toWrite - written) rest

/-- The stream is the string up to some place, and the whole of it at the end. -/
structure Delivers (buf : List UInt8) (results : List Int) : Prop where
  start : (sendAll buf results).1 <+: buf
  whole : (sendAll buf results).2 = .done → (sendAll buf results).1 = buf

/-- What each call sends is the start of the string, and it has to be what stands
behind the `ofs` bytes that were sent before. -/
def Repeats (buf : List UInt8) : Nat → List Int → Prop
  | _, [] => True
  | ofs, written :: rest =>
      ofs < buf.length → 0 ≤ written →
        buf.take written.toNat = (buf.drop ofs).take written.toNat ∧
          Repeats buf (ofs + written.toNat) rest

section Loop

variable {buf : List UInt8}

theorem sendLoop_end {toWrite : Int} (h : toWrite ≤ 0) (results : List Int) :
    sendLoop buf toWrite results = ([], .done) := by
  cases results with
  | nil => rw [sendLoop, if_neg (by omega)]
  | cons written rest => rw [sendLoop, if_neg (by omega)]

theorem sendLoop_sent {toWrite written : Int} (hmore : 0 < toWrite) (hsent : 0 ≤ written)
    (rest : List Int) :
    sendLoop buf toWrite (written :: rest) =
      (buf.take written.toNat ++ (sendLoop buf (toWrite - written) rest).1,
        (sendLoop buf (toWrite - written) rest).2) := by
  rw [sendLoop, if_pos hmore, if_neg (by omega)]

/-- Calls that succeed bring the loop to its end. -/
theorem sendLoop_ends {toWrite : Int} {results : List Int} (hvalid : Valid toWrite results)
    (hall : ∀ written ∈ results, 0 ≤ written) (henough : toWrite ≤ results.length) :
    (sendLoop buf toWrite results).2 = .done := by
  induction results generalizing toWrite with
  | nil => rw [sendLoop_end (by simpa using henough)]
  | cons written rest ih =>
    by_cases hmore : 0 < toWrite
    · obtain ⟨hone, hle, hrest⟩ := hvalid hmore (hall _ List.mem_cons_self)
      rw [sendLoop_sent hmore (by omega)]
      apply ih hrest (fun w hw => hall w (List.mem_cons_of_mem _ hw))
      rw [List.length_cons] at henough
      omega
    · rw [sendLoop_end (by omega)]

theorem sendLoop_whole {ofs : Nat} (h : buf.length ≤ ofs) (results : List Int) :
    buf.take ofs ++ (sendLoop buf (buf.length - ofs) results).1 = buf := by
  rw [sendLoop_end (by omega), List.append_nil, List.take_of_length_le h]

/-- What is put behind a part of the string has to be what stands there. -/
theorem take_eq_drop {ofs w : Nat} {stream : List UInt8} (hw : ofs + w ≤ buf.length)
    (h : buf.take ofs ++ (buf.take w ++ stream) <+: buf) :
    buf.take w = (buf.drop ofs).take w := by
  have hdrop : buf.take w ++ stream <+: buf.drop ofs := by
    rw [← List.prefix_append_right_inj (buf.take ofs), List.take_append_drop]
    exact h
  have htake := List.prefix_iff_eq_take.mp ((List.prefix_append _ stream).trans hdrop)
  rwa [List.length_take, Nat.min_eq_left (by omega)] at htake

/-- From the offset on, the stream goes on as the string does exactly if each call
finds there what it sends. -/
theorem sendLoop_iff {ofs : Nat} (hofs : ofs ≤ buf.length) {results : List Int}
    (hvalid : Valid (buf.length - ofs) results) :
    (buf.take ofs ++ (sendLoop buf (buf.length - ofs) results).1 <+: buf ∧
      ((sendLoop buf (buf.length - ofs) results).2 = .done →
        buf.take ofs ++ (sendLoop buf (buf.length - ofs) results).1 = buf)) ↔
      Repeats buf ofs results := by
  induction results generalizing ofs with
  | nil =>
    by_cases hmore : ofs < buf.length
    · rw [sendLoop, if_pos (by omega), List.append_nil]
      exact iff_of_true ⟨List.take_prefix ofs buf, nofun⟩ trivial
    · rw [sendLoop_whole (by omega)]
      exact iff_of_true ⟨List.prefix_rfl, fun _ => rfl⟩ trivial
  | cons written rest ih =>
    by_cases hmore : ofs < buf.length
    · by_cases hsent : 0 ≤ written
      · obtain ⟨hone, hle, hrest⟩ := hvalid (by omega) hsent
        obtain ⟨w, rfl⟩ := Int.eq_ofNat_of_zero_le hsent
        have hnext : (buf.length : Int) - ofs - w = buf.length - (ofs + w : Nat) := by omega
        rw [hnext] at hrest
        rw [sendLoop_sent (by omega) hsent, hnext]
        simp only [Repeats, hmore, hsent, Int.toNat_natCast, true_implies]
        by_cases hsame : buf.take w = (buf.drop ofs).take w
        · have htake : buf.take ofs ++ buf.take w = buf.take (ofs + w) := by
            rw [hsame, List.take_add]
          rw [← List.append_assoc, htake, and_iff_right hsame]
          exact ih (by omega) hrest
        · refine iff_of_false ?_ (fun h => hsame h.1)
          intro h
          exact hsame (take_eq_drop (by omega) h.1)
      · rw [sendLoop, if_pos (by omega), if_pos (by omega), List.append_nil]
        exact iff_of_true ⟨List.take_prefix ofs buf, nofun⟩ (fun _ h => absurd h hsent)
    · rw [sendLoop_whole (by omega)]
      exact iff_of_true ⟨List.prefix_rfl, fun _ => rfl⟩ (fun h => absurd h hmore)

end Loop

section Macro

variable {buf : List UInt8}

theorem bmod_small {n : Nat} (h : n < 2 ^ 31) : (n : Int).bmod (2 ^ 32) = n := by
  rw [Int.bmod_eq_of_le (by omega) (by omega)]

theorem bmod_large {n : Nat} (h : 2 ^ 31 ≤ n) (h' : n < 2 ^ 32) : (n : Int).bmod (2 ^ 32) ≤ 0 := by
  rw [Int.bmod_def]
  split
  · omega
  · omega

/-- A length that is negative as an `int` ends the loop at once. -/
theorem sendAll_long (h : 2 ^ 31 ≤ buf.length) (h' : buf.length < 2 ^ 32) (results : List Int) :
    sendAll buf results = ([], .done) :=
  sendLoop_end (bmod_large h h') results

/-- The string is delivered exactly if it fits an `int` and each call that succeeds
sends what stands at its place. -/
theorem sendAll_delivers_iff (hlen : buf.length < 2 ^ 32) {results : List Int}
    (hvalid : Valid (toWriteOf buf) results) :
    Delivers buf results ↔ buf.length < 2 ^ 31 ∧ Repeats buf 0 results := by
  by_cases hsmall : buf.length < 2 ^ 31
  · have hstart : toWriteOf buf = buf.length - (0 : Nat) := by
      exact (bmod_small hsmall).trans (Int.sub_zero _).symm
    rw [hstart] at hvalid
    have hloop := sendLoop_iff (Nat.zero_le buf.length) hvalid
    rw [List.take_zero, List.nil_append, ← hstart] at hloop
    rw [and_iff_right hsmall, ← hloop]
    exact ⟨fun h => ⟨h.start, h.whole⟩, fun h => ⟨h.1, h.2⟩⟩
  · refine iff_of_false ?_ (fun h => hsmall h.1)
    intro h
    have hwhole := h.whole
    rw [sendAll_long (Nat.not_lt.mp hsmall) hlen] at hwhole
    have hnil := congrArg List.length (hwhole rfl)
    rw [List.length_nil] at hnil
    omega

end Macro

theorem delivers_abab : Delivers [97, 98, 97, 98] [2, 2] ↔
    [97, 98, 97, 98].length < 2 ^ 31 ∧ Repeats [97, 98, 97, 98] 0 [2, 2] := by
  apply sendAll_delivers_iff (by decide)
  intro _ _
  exact ⟨by decide, by decide, fun _ _ => ⟨by decide, by decide, trivial⟩⟩

/-- Of `ab`, sent byte by byte, the first byte goes out twice. -/
theorem sends_start_again : ¬ ∀ buf results, buf.length < 2 ^ 32 →
    Valid (toWriteOf buf) results → Delivers buf results := by
  intro h
  have hvalid : Valid (toWriteOf [97, 98]) [1, 1] := by
    intro _ _
    exact ⟨by decide, by decide, fun _ _ => ⟨by decide, by decide, trivial⟩⟩
  have hwhole := (h [97, 98] [1, 1] (by decide) hvalid).whole
  revert hwhole
  decide

end SendAll

end MarkitNode
