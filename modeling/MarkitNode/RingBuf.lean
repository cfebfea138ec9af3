import Mathlib.Tactic.Common
import MarkitNode.CircularSlots

/-!
The frame buffer of `lib/ring_buf`, one slot an item. `head` counts the items
ever pushed since the last reset, plus one; `_head` is the slot the next item
goes to. `RingBuf` is the struct as the code has it and `SlotRing` the buffers
that a reset has made consistent; `Holds` relates a ring to the list of items
pushed since that reset.
-/

namespace MarkitNode

open CircularSlots

variable {α : Type*}

/-- What an access can answer besides success. `outOfBounds` marks an access
outside the slots of `buf`, which `SlotRing` excludes. -/
inductive RingErr
  | invalidArg
  | outOfBounds
  deriving DecidableEq, Repr

structure RingBuf (α : Type*) where
  size : ℕ
  itemWidth : ℕ
  buf : List α
  staticBuf : Bool
  _head : ℕ
  head : ℤ
  deriving DecidableEq, Repr

def ringBufReset (rb : RingBuf α) : RingBuf α :=
  { rb with head := 1, _head := 1 }

def ringBufPush (rb : RingBuf α) (item : α) : RingBuf α :=
  { rb with
    buf := rb.buf.set rb._head item
    _head := (rb._head + 1) % rb.size
    head := rb.head + 1 }

/-- The index a peek really reads: an overwritten or negative one is replaced
by the newest. -/
def peekIndex (rb : RingBuf α) (index : ℤ) : ℤ :=
  if index < 0 ∨ index ≤ rb.head - rb.size then rb.head - 1 else index

/-- The item found and the index it was found at (`index_out`). -/
def ringBufPeek (rb : RingBuf α) (index : ℤ) : Except RingErr (α × ℤ) :=
  if index ≥ rb.head then .error .invalidArg
  else
    let index := peekIndex rb index
    let place := index.tmod rb.size
    match rb.buf[place.toNat]? with
    | some item => .ok (item, index)
    | none => .error .outOfBounds

theorem ringBufPeek_found {rb : RingBuf α} {index : ℤ} {item : α} (h : index < rb.head)
    (hget : rb.buf[((peekIndex rb index).tmod rb.size).toNat]? = some item) :
    ringBufPeek rb index = .ok (item, peekIndex rb index) := by
  rw [ringBufPeek, if_neg (Int.not_le.mpr h)]
  simp only [hget]

/-- A peek whose index stays positive finds the item that it names. -/
theorem peek_of_remembers {rb : RingBuf α} {history : List α} (hsize : 2 ≤ rb.size)
    (hhead : rb.head = history.length + 1) (hslots : Remembers rb.size rb.buf history) {index : ℤ}
    (hpos : 0 < peekIndex rb index) (hlt : index < rb.head) :
    ∃ k, ∃ hk : k < history.length, (k : ℤ) + 1 = peekIndex rb index ∧
      ringBufPeek rb index = .ok (history[k], (k : ℤ) + 1) := by
  have hrange : rb.head - rb.size < peekIndex rb index ∧ peekIndex rb index < rb.head := by
    unfold peekIndex
    split <;> omega
  obtain ⟨k, hk⟩ : ∃ k : ℕ, peekIndex rb index = k + 1 :=
    ⟨(peekIndex rb index - 1).toNat, by omega⟩
  refine ⟨k, by omega, hk.symm, ?_⟩
  have hplace : (((k : ℤ) + 1).tmod rb.size).toNat = (k + 1) % rb.size := by
    rw [Int.tmod_eq_emod_of_nonneg (by omega)]
    exact Int.toNat_natCast ((k + 1) % rb.size)
  have hread := remembers_read hslots (k := k) (by omega) (by omega)
  rw [← hk]
  refine ringBufPeek_found hlt ?_
  rw [hk, hplace, hread]

/-- Buffers of at least two slots whose write position agrees with `head`. -/
structure SlotRing (α : Type*) extends RingBuf α where
  two_le_size : 2 ≤ size
  size_lt : size < 65536
  length_buf : buf.length = size
  head_pos : 1 ≤ head
  head_slot : (_head : ℤ) = head % size

namespace SlotRing

def reset (r : SlotRing α) : SlotRing α where
  toRingBuf := ringBufReset r.toRingBuf
  two_le_size := r.two_le_size
  size_lt := r.size_lt
  length_buf := r.length_buf
  head_pos := le_refl 1
  head_slot := by
    have hsize : (2 : ℤ) ≤ r.size := by exact_mod_cast r.two_le_size
    exact (Int.emod_eq_of_lt (by omega) (by omega : (1 : ℤ) < r.size)).symm

def push (r : SlotRing α) (item : α) : SlotRing α where
  toRingBuf := ringBufPush r.toRingBuf item
  two_le_size := r.two_le_size
  size_lt := r.size_lt
  length_buf := by simpa only [ringBufPush, List.length_set] using r.length_buf
  head_pos := by
    have hpos := r.head_pos
    simp only [ringBufPush]
    omega
  head_slot := by
    simp only [ringBufPush]
    rw [Int.natCast_mod, Int.natCast_add, r.head_slot, Int.natCast_one, Int.emod_add_emod]

/-- A static buffer just initialised, every slot still reading `item`. -/
def filled (size itemWidth : ℕ) (item : α) (hsize : 2 ≤ size) (hlt : size < 65536) :
    SlotRing α where
  size := size
  itemWidth := itemWidth
  buf := List.replicate size item
  staticBuf := true
  _head := 1
  head := 1
  two_le_size := hsize
  size_lt := hlt
  length_buf := List.length_replicate
  head_pos := le_refl 1
  head_slot := (Int.emod_eq_of_lt (by omega) (by omega : (1 : ℤ) < size)).symm

@[simp] theorem head_reset (r : SlotRing α) : r.reset.head = 1 := rfl

@[simp] theorem head_push (r : SlotRing α) (item : α) : (r.push item).head = r.head + 1 := rfl

/-- The ring stores the items `history`, pushed since the last reset. -/
structure Holds (r : SlotRing α) (history : List α) : Prop where
  head_eq : r.head = history.length + 1
  remembers : Remembers r.size r.buf history

theorem holds_reset (r : SlotRing α) : Holds r.reset [] where
  head_eq := rfl
  remembers := remembers_nil _ _

theorem holds_push {r : SlotRing α} {history : List α} (h : Holds r history) (item : α) :
    Holds (r.push item) (history ++ [item]) where
  head_eq := by
    rw [head_push, h.head_eq, List.length_append, List.length_singleton]
    omega
  remembers := by
    have hslot : r._head = (history.length + 1) % r.size := by
      have hcast := r.head_slot
      rw [h.head_eq] at hcast
      exact_mod_cast hcast
    have hpush := remembers_push (by have := r.two_le_size; omega) r.length_buf h.remembers item
    rw [← hslot] at hpush
    exact hpush

/-- A peek finds the item its index names, or the newest once that item has
been overwritten. -/
theorem peek_of_holds {r : SlotRing α} {history : List α} (h : Holds r history) {index : ℤ}
    (hpos : 0 < index) (hlt : index < r.head) :
    ∃ k, ∃ hk : k < history.length, (k : ℤ) + 1 = peekIndex r.toRingBuf index ∧
      ringBufPeek r.toRingBuf index = .ok (history[k], (k : ℤ) + 1) := by
  have hsize := r.two_le_size
  have hzero : 0 < peekIndex r.toRingBuf index := by
    unfold peekIndex
    split <;> omega
  exact peek_of_remembers hsize h.head_eq h.remembers hzero hlt

end SlotRing

end MarkitNode
