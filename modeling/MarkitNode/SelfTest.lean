import Mathlib.Data.List.GetD
import Mathlib.Tactic.Common
import MarkitNode.StatusCodes

/-!
The self test of the IMU: `hi229_self_test` reads up to 512 bytes from the UART
and counts the frame headers 5A A5 among them, up to four. Behind each 5A it looks
at the next byte before anything else. In an array that is full that byte does
not exist.
-/

namespace MarkitNode

namespace SelfTest

/-- `CONFIG_HI299_MAX_READ_NUM` -/
abbrev maxReadNum : Nat := 512

/-- `CONFIG_HI229_SELF_TEST_RETRY` -/
abbrev selfTestRetry : Nat := 4

/-- The headers that have been found. -/
structure Logged where
  indexLogged : Vector Nat selfTestRetry
  indexCursor : Nat

/-- `index_logged[index_cursor++] = idx`, while there is room. -/
def Logged.add (s : Logged) (idx : Nat) : Logged :=
  if h : s.indexCursor < selfTestRetry then
    ⟨s.indexLogged.set s.indexCursor idx, s.indexCursor + 1⟩
  else s

/-- The array `data`: what was received, and zeros. -/
def dataOf (received : List UInt8) : List UInt8 :=
  received ++ List.replicate (maxReadNum - received.length) 0

/-- One turn of the loop; `none` is a read outside the array. -/
def turn (data : List UInt8) (s : Logged) (idx : Nat) : Option Logged := do
  let first ← data[idx]?
  if first = 0x5A then
    let second ← data[idx + 1]?
    return if second = 0xA5 then s.add idx else s
  else return s

def loop (data : List UInt8) (len : Nat) : Option Logged :=
  (List.range len).foldlM (turn data) ⟨Vector.replicate selfTestRetry 0, 0⟩

/-- The code that is returned, and the status that is set. -/
def hi229SelfTest (received : List UInt8) : Option (EspErr × ImuStatus) := do
  let s ← loop (dataOf received) received.length
  return if s.indexCursor = selfTestRetry then (.ok, .ready) else (.fail, .fail)

/-- There is a header at the index. -/
def headerAt (received : List UInt8) (idx : Nat) : Bool :=
  received[idx]? == some 0x5A && received[idx + 1]? == some 0xA5

def headers (received : List UInt8) : Nat :=
  (List.range received.length).countP (headerAt received)

/-- No read is outside the array, and the result goes by the number of headers. -/
def Tests (received : List UInt8) : Prop :=
  hi229SelfTest received =
    some (if selfTestRetry ≤ headers received then (.ok, .ready) else (.fail, .fail))

section Turn

variable {received : List UInt8} {idx : Nat}

theorem dataOf_received (h : idx < received.length) :
    (dataOf received)[idx]? = received[idx]? := by
  rw [dataOf, List.getElem?_append_left h]

/-- Behind what was received there are zeros up to the end of the array. -/
theorem dataOf_next (h : received.length ≤ maxReadNum) (hidx : idx < maxReadNum) :
    ∃ b, (dataOf received)[idx]? = some b ∧
      (received[idx]? = some b ∨ received[idx]? = none ∧ b = 0) := by
  by_cases hin : idx < received.length
  · refine ⟨received[idx], ?_, Or.inl ?_⟩
    · rw [dataOf_received hin, List.getElem?_eq_getElem hin]
    · exact List.getElem?_eq_getElem hin
  · refine ⟨0, ?_, Or.inr ⟨List.getElem?_eq_none (by omega), rfl⟩⟩
    rw [dataOf, List.getElem?_append_right (by omega), List.getElem?_replicate_of_lt (by omega)]

/-- A turn that does not end at the end of the array logs a header. -/
theorem turn_eq (h : received.length ≤ maxReadNum) (hidx : idx < received.length)
    (hnext : idx + 1 < maxReadNum ∨ received[idx]? ≠ some 0x5A) (s : Logged) :
    turn (dataOf received) s idx = some (if headerAt received idx then s.add idx else s) := by
  have hfirst := dataOf_received hidx
  rw [List.getElem?_eq_getElem hidx] at hfirst
  simp only [turn, hfirst, headerAt, List.getElem?_eq_getElem hidx, Option.bind_eq_bind,
    Option.bind_some]
  by_cases hsync : received[idx] = 0x5A
  · have hlt : idx + 1 < maxReadNum := by
      apply hnext.resolve_right
      rw [List.getElem?_eq_getElem hidx, hsync]
      exact fun hne => hne rfl
    obtain ⟨b, hb, hreceived⟩ := dataOf_next h hlt
    rw [if_pos hsync, hb, hsync]
    rcases hreceived with hb' | ⟨hnone, rfl⟩
    · rw [hb']
      by_cases hsecond : b = 0xA5 <;> simp [hsecond]
    · rw [hnone]
      simp
  · rw [if_neg hsync]
    simp [hsync]

/-- At the end of a full array the byte behind a 5A does not exist. -/
theorem turn_outside (h : received.length = maxReadNum) (hidx : idx + 1 = maxReadNum)
    (hsync : received[idx]? = some 0x5A) (s : Logged) : turn (dataOf received) s idx = none := by
  have hfirst : (dataOf received)[idx]? = some 0x5A := by
    rw [dataOf_received (by omega), hsync]
  have hsecond : (dataOf received)[idx + 1]? = none := by
    apply List.getElem?_eq_none
    rw [dataOf, List.length_append, List.length_replicate]
    omega
  simp [turn, hfirst, hsecond]

theorem add_indexCursor {s : Logged} (h : s.indexCursor ≤ selfTestRetry) (idx : Nat) :
    (s.add idx).indexCursor = min selfTestRetry (s.indexCursor + 1) := by
  rw [Logged.add]
  split
  · dsimp only
    omega
  · omega

end Turn

section Loop

variable {received : List UInt8}

theorem loop_succ (data : List UInt8) (k : Nat) :
    loop data (k + 1) = (loop data k).bind fun s => turn data s k := by
  rw [loop, loop, List.range_succ, List.foldlM_append]
  simp only [List.foldlM_cons, List.foldlM_nil, Option.bind_eq_bind, Option.pure_def,
    Option.bind_fun_some]

/-- The first turns count the headers up to four. -/
theorem loop_eq (h : received.length ≤ maxReadNum) {k : Nat} (hk : k ≤ received.length)
    (hnext : ∀ idx < k, idx + 1 < maxReadNum ∨ received[idx]? ≠ some 0x5A) :
    ∃ s, loop (dataOf received) k = some s ∧
      s.indexCursor = min selfTestRetry ((List.range k).countP (headerAt received)) := by
  induction k with
  | zero => exact ⟨_, rfl, rfl⟩
  | succ k ih =>
    obtain ⟨s, hs, hcursor⟩ := ih (by omega) (fun idx hidx => hnext idx (by omega))
    have hturn := turn_eq h (by omega : k < received.length) (hnext k (by omega)) s
    rw [loop_succ, hs, Option.bind_some, hturn]
    refine ⟨_, rfl, ?_⟩
    rw [List.range_succ, List.countP_append, List.countP_singleton]
    split
    · rw [add_indexCursor (by omega), hcursor]
      omega
    · exact hcursor

/-- A full array that ends in the middle of a pair is read past its end. -/
theorem hi229SelfTest_outside (h : received.length = maxReadNum)
    (hlast : received.getLast? = some 0x5A) : hi229SelfTest received = none := by
  have hlen : received.length = 511 + 1 := h
  obtain ⟨s, hs, _⟩ := loop_eq (Nat.le_of_eq h) (by omega : 511 ≤ received.length)
    (fun idx _ => Or.inl (by omega))
  rw [List.getLast?_eq_getElem?, hlen] at hlast
  have hturn := turn_outside h rfl hlast s
  rw [hi229SelfTest, hlen, loop_succ, hs, Option.bind_some, hturn]
  rfl

/-- The test is right unless a full array ends with a 5A. -/
theorem tests_iff (h : received.length ≤ maxReadNum) :
    Tests received ↔ ¬ (received.length = maxReadNum ∧ received.getLast? = some 0x5A) := by
  constructor
  · rintro htests ⟨hfull, hlast⟩
    rw [Tests, hi229SelfTest_outside hfull hlast] at htests
    cases htests
  · intro hend
    rw [List.getLast?_eq_getElem?] at hend
    have hnext : ∀ idx < received.length,
        idx + 1 < maxReadNum ∨ received[idx]? ≠ some 0x5A := by
      intro idx hidx
      by_cases hin : idx + 1 < maxReadNum
      · exact Or.inl hin
      · right
        intro hsync
        have hlast : received.length - 1 = idx := by omega
        exact hend ⟨by omega, hlast ▸ hsync⟩
    obtain ⟨s, hs, hcursor⟩ := loop_eq h (Nat.le_refl _) hnext
    have henough : s.indexCursor = selfTestRetry ↔ selfTestRetry ≤ headers received := by
      rw [hcursor, headers]
      omega
    rw [Tests, hi229SelfTest, hs]
    simp only [henough, Option.bind_eq_bind, Option.bind_some, Option.pure_def]

end Loop

/-- A header of each of four frames. -/
def fourHeaders : List UInt8 :=
  [0x5A, 0xA5, 0x4C, 0x00, 0x5A, 0xA5, 0x4C, 0x00, 0x5A, 0xA5, 0x4C, 0x00, 0x5A, 0xA5, 0x4C, 0x00]

theorem tests_fourHeaders : hi229SelfTest fourHeaders = some (.ok, .ready) := by
  have htests : Tests fourHeaders := (tests_iff (by decide)).mpr (by decide)
  rwa [Tests, if_pos (by decide)] at htests

/-- A reading of 512 bytes that is cut behind a 5A. -/
theorem fails_full : ¬ ∀ received, received.length ≤ maxReadNum → Tests received := by
  intro h
  have hlen : (List.replicate 511 0 ++ [0x5A] : List UInt8).length = maxReadNum := by
    rw [List.length_append, List.length_replicate, List.length_singleton]
  have htests := h (List.replicate 511 0 ++ [0x5A]) (Nat.le_of_eq hlen)
  rw [Tests, hi229SelfTest_outside hlen (List.getLast?_concat ..)] at htests
  cases htests

end SelfTest

end MarkitNode
