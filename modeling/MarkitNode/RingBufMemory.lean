import MarkitNode.Machine
import MarkitNode.MemoryBlock
import MarkitNode.RingBuf
import MarkitNode.StatusCodes

/-!
The ring buffer in its bytes, from `ring_buf_init` on. The struct has a block of
`size * item_width` bytes and an access outside of it has no result. While the
write position is inside, the operations are those on slots; the position is
inside in every run if there are two slots, and right after the init it is not
if there is one.
-/

namespace MarkitNode.RingBufMemory

open MemoryBlock CircularSlots

abbrev Item (itemWidth : ℕ) := Block UInt8 itemWidth

structure RingMem (size itemWidth : ℕ) where
  buf : Block UInt8 (size * itemWidth)
  staticBuf : Bool
  _head : ℕ
  head : ℤ

section Code

variable {size itemWidth : ℕ}

/-- `allocated` is what `malloc` returns for `size * item_width` bytes. -/
def ringBufInit (size itemWidth : ℕ) (buf : Option (Block UInt8 (size * itemWidth)))
    (staticBuf : Bool) (allocated : Option (Block UInt8 (size * itemWidth))) :
    Except EspErr (RingMem size itemWidth) :=
  if size = 0 ∨ itemWidth = 0 then .error .invalidArg
  else
    match buf with
    | none =>
        if staticBuf then .error .invalidArg
        else
          match allocated with
          | none => .error .noMem
          | some block => .ok ⟨block, staticBuf, 1, 1⟩
    | some block => if staticBuf then .ok ⟨block, staticBuf, 1, 1⟩ else .error .invalidArg

def ringBufReset (rb : RingMem size itemWidth) : RingMem size itemWidth :=
  { rb with head := 1, _head := 1 }

def ringBufPush (rb : RingMem size itemWidth) (item : Item itemWidth) :
    Option (RingMem size itemWidth) :=
  (writeAt rb.buf (rb._head * itemWidth) item).map fun buf =>
    { rb with buf := buf, _head := (rb._head + 1) % size, head := rb.head + 1 }

/-- What a peek returns and leaves in its two outputs. -/
structure Peeked (itemWidth : ℕ) where
  err : EspErr
  item : Item itemWidth
  indexOut : ℤ

/-- `out` is what the outputs hold before the call. -/
def ringBufPeek (rb : RingMem size itemWidth) (index : ℤ) (out : Item itemWidth × ℤ) :
    Option (Peeked itemWidth) :=
  if index ≥ rb.head then some ⟨.invalidArg, out.1, out.2⟩
  else
    let index := if index < 0 ∨ index ≤ rb.head - size then rb.head - 1 else index
    let place := index.tmod size
    if place < 0 then none
    else (readAt rb.buf (place.toNat * itemWidth) itemWidth).map fun item => ⟨.ok, item, index⟩

end Code

/-! ### Runs -/

inductive Op (itemWidth : ℕ)
  | push (item : Item itemWidth)
  | reset

section Runs

variable (size itemWidth : ℕ)

/-- A buffer just initialised, over any memory. -/
def machine : Machine (RingMem size itemWidth) (Op itemWidth) where
  Init rb := ∃ buf staticBuf allocated, ringBufInit size itemWidth buf staticBuf allocated = .ok rb
  step
    | rb, .push item => ringBufPush rb item
    | rb, .reset => some (ringBufReset rb)

end Runs

/-- The items pushed since the last reset, before which there were `items`. -/
def pushedFrom {itemWidth : ℕ} : List (Item itemWidth) → List (Op itemWidth) → List (Item itemWidth)
  | items, [] => items
  | items, .push item :: rest => pushedFrom (items ++ [item]) rest
  | _, .reset :: rest => pushedFrom [] rest

/-- The items pushed since the init or the last reset. -/
def pushedSince {itemWidth : ℕ} (run : List (Op itemWidth)) : List (Item itemWidth) :=
  pushedFrom [] run

/-! ### The slots -/

section Slots

variable {size itemWidth : ℕ} {rb rb' : RingMem size itemWidth}

/-- The buffer as the struct of slots. -/
def RingMem.ring (rb : RingMem size itemWidth) : RingBuf (Item itemWidth) where
  size := size
  itemWidth := itemWidth
  buf := slots rb.buf
  staticBuf := rb.staticBuf
  _head := rb._head
  head := rb.head

theorem init_eq (h : (machine size itemWidth).Init rb) :
    1 ≤ size ∧ 1 ≤ itemWidth ∧ rb._head = 1 ∧ rb.head = 1 := by
  obtain ⟨buf, staticBuf, allocated, hinit⟩ := h
  unfold ringBufInit at hinit
  by_cases hzero : size = 0 ∨ itemWidth = 0
  · rw [if_pos hzero] at hinit
    cases hinit
  · rw [if_neg hzero] at hinit
    refine ⟨by omega, by omega, ?_⟩
    cases buf with
    | none =>
      cases staticBuf with
      | true => cases hinit
      | false =>
        cases allocated with
        | none => cases hinit
        | some block =>
          cases hinit
          exact ⟨rfl, rfl⟩
    | some block =>
      cases staticBuf with
      | true =>
        cases hinit
        exact ⟨rfl, rfl⟩
      | false => cases hinit

theorem push_ring (h : rb._head < size) (item : Item itemWidth) :
    ∃ rb', ringBufPush rb item = some rb' ∧ rb'.ring = MarkitNode.ringBufPush rb.ring item := by
  obtain ⟨buf, hwrite, hslots⟩ := writeAt_slot rb.buf h item
  refine ⟨{ rb with buf := buf, _head := (rb._head + 1) % size, head := rb.head + 1 }, ?_, ?_⟩
  · rw [ringBufPush, hwrite]
    rfl
  · simp only [RingMem.ring, MarkitNode.ringBufPush, hslots]

theorem reset_ring (rb : RingMem size itemWidth) :
    (ringBufReset rb).ring = MarkitNode.ringBufReset rb.ring := rfl

/-- The answer of the slots as the function returns it. -/
def Peeked.ofSlots (out : Item itemWidth × ℤ) :
    Except RingErr (Item itemWidth × ℤ) → Option (Peeked itemWidth)
  | .error .invalidArg => some ⟨.invalidArg, out.1, out.2⟩
  | .error .outOfBounds => none
  | .ok found => some ⟨.ok, found.1, found.2⟩

theorem peek_ring (hsize : 0 < size) (hhead : 1 ≤ rb.head) (index : ℤ)
    (out : Item itemWidth × ℤ) :
    ringBufPeek rb index out = Peeked.ofSlots out (MarkitNode.ringBufPeek rb.ring index) := by
  by_cases hlarge : index ≥ rb.head
  · rw [ringBufPeek, if_pos hlarge, MarkitNode.ringBufPeek,
      if_pos (show index ≥ rb.ring.head from hlarge)]
    rfl
  · have hindex : 0 ≤ peekIndex rb.ring index := by
      unfold peekIndex
      split
      · show 0 ≤ rb.head - 1
        omega
      · omega
    have hplace : ¬ (peekIndex rb.ring index).tmod size < 0 :=
      Int.not_lt.mpr (Int.tmod_nonneg size hindex)
    have hlt : ((peekIndex rb.ring index).tmod size).toNat < size := by
      have := Int.tmod_lt_of_pos (peekIndex rb.ring index) (by omega : (0 : ℤ) < size)
      omega
    have hbytes : ringBufPeek rb index out =
        (readAt rb.buf (((peekIndex rb.ring index).tmod size).toNat * itemWidth) itemWidth).map
          fun item => ⟨.ok, item, peekIndex rb.ring index⟩ := by
      rw [ringBufPeek, if_neg hlarge]
      exact if_neg hplace
    obtain ⟨item, hitem⟩ : ∃ item,
        (slots rb.buf)[((peekIndex rb.ring index).tmod size).toNat]? = some item :=
      ⟨_, List.getElem?_eq_getElem (by rwa [length_slots])⟩
    rw [hbytes, readAt_slot rb.buf hlt, hitem, ringBufPeek_found (Int.not_le.mp hlarge) hitem]
    rfl

end Slots

end MarkitNode.RingBufMemory
