import MarkitNode.RingBufMemory
import Mathlib.Data.Fin.VecNotation

/-!
What a peek delivers, after any pushes and resets. The slots remember the newest
items since the last reset, as long as the write position follows `head`. An
index that stays positive finds the item it names or the newest one. Index zero
is the slot of no item yet, and an empty buffer has no newest item: there a peek
delivers what the memory held before.
-/

namespace MarkitNode.RingBufMemory

open MemoryBlock CircularSlots

variable {size itemWidth : ℕ} {rb rb₀ : RingMem size itemWidth}

/-- The buffer stores the items pushed since the last reset. -/
structure Stores (rb : RingMem size itemWidth) (items : List (Item itemWidth)) : Prop where
  head_eq : rb.head = items.length + 1
  slot_eq : rb._head = (items.length + 1) % size
  remembers : Remembers size (slots rb.buf) items

/-- The write position of an empty buffer is right if there are two slots. -/
theorem stores_nil (hsize : 2 ≤ size) (hhead : rb.head = 1) (hslot : rb._head = 1) :
    Stores rb [] where
  head_eq := hhead
  slot_eq := hslot.trans (Nat.mod_eq_of_lt hsize).symm
  remembers := remembers_nil _ _

theorem stores_push (hsize : 2 ≤ size) {items : List (Item itemWidth)} (h : Stores rb items)
    (item : Item itemWidth) :
    ∃ rb', ringBufPush rb item = some rb' ∧ Stores rb' (items ++ [item]) := by
  have hlt : rb._head < size := by
    rw [h.slot_eq]
    exact Nat.mod_lt _ (by omega)
  obtain ⟨rb', hpush, hring⟩ := push_ring hlt item
  have hhead : rb'.head = rb.head + 1 := congrArg RingBuf.head hring
  have hslot : rb'._head = (rb._head + 1) % size := congrArg RingBuf._head hring
  have hbuf : slots rb'.buf = (slots rb.buf).set rb._head item := congrArg RingBuf.buf hring
  refine ⟨rb', hpush, ?_, ?_, ?_⟩
  · rw [hhead, h.head_eq, List.length_append, List.length_singleton]
    omega
  · rw [hslot, h.slot_eq, List.length_append, List.length_singleton, Nat.mod_add_mod]
  · rw [hbuf, h.slot_eq]
    exact remembers_push (by omega) (length_slots rb.buf) h.remembers item

/-- From any buffer that stores its items every run goes on, and ends with a
buffer that stores those pushed since the last reset. -/
theorem stores_exec (hsize : 2 ≤ size) {items : List (Item itemWidth)} (h : Stores rb items)
    (run : List (Op itemWidth)) :
    ∃ rb', (machine size itemWidth).exec rb run = some rb' ∧ Stores rb' (pushedFrom items run) := by
  induction run generalizing rb items with
  | nil => exact ⟨rb, rfl, h⟩
  | cons op rest ih =>
    cases op with
    | push item =>
      obtain ⟨rb', hpush, hstores⟩ := stores_push hsize h item
      rw [Machine.exec_cons_of_step (show (machine size itemWidth).step rb (.push item) = _
        from hpush)]
      exact ih hstores
    | reset =>
      rw [Machine.exec_cons_of_step (show (machine size itemWidth).step rb .reset = _ from rfl)]
      exact ih (stores_nil hsize rfl rfl)

theorem stores_run (hsize : 2 ≤ size) (h : (machine size itemWidth).Init rb₀)
    (run : List (Op itemWidth)) :
    ∃ rb, (machine size itemWidth).exec rb₀ run = some rb ∧ Stores rb (pushedSince run) := by
  obtain ⟨_, _, hslot, hhead⟩ := init_eq h
  exact stores_exec hsize (stores_nil hsize hhead hslot) run

/-! ### What a peek finds -/

/-- What a peek has to answer on `items`, numbered from 1. -/
inductive PeekSpec (size : ℕ) (items : List (Item itemWidth)) (index : ℤ)
    (out : Item itemWidth × ℤ) : Peeked itemWidth → Prop
  | fails : items.length < index → PeekSpec size items index out ⟨.invalidArg, out.1, out.2⟩
  | named (k : ℕ) (hk : k < items.length) : index = k + 1 →
      items.length + 1 - size < index → PeekSpec size items index out ⟨.ok, items[k], index⟩
  | newest (h : items ≠ []) : index ≤ items.length →
      ¬ (1 ≤ index ∧ items.length + 1 - size < index) →
      PeekSpec size items index out ⟨.ok, items.getLast h, items.length⟩

namespace Stores

variable {items : List (Item itemWidth)} {index : ℤ}

theorem head_pos (h : Stores rb items) : 1 ≤ rb.head := by
  rw [h.head_eq]
  omega

theorem peek_fails (h : Stores rb items) (hindex : items.length < index)
    (out : Item itemWidth × ℤ) :
    ringBufPeek rb index out = some ⟨.invalidArg, out.1, out.2⟩ := by
  have hlarge : index ≥ rb.head := by
    rw [h.head_eq]
    omega
  rw [ringBufPeek, if_pos hlarge]

theorem peek_item (hsize : 2 ≤ size) (h : Stores rb items)
    (hpos : 0 < peekIndex rb.ring index) (hindex : index ≤ items.length)
    (out : Item itemWidth × ℤ) :
    ∃ k, ∃ hk : k < items.length, (k : ℤ) + 1 = peekIndex rb.ring index ∧
      ringBufPeek rb index out = some ⟨.ok, items[k], (k : ℤ) + 1⟩ := by
  have hlt : index < rb.ring.head := by
    show index < rb.head
    rw [h.head_eq]
    omega
  obtain ⟨k, hk, hindex, hpeek⟩ := peek_of_remembers hsize h.head_eq h.remembers hpos hlt
  refine ⟨k, hk, hindex, ?_⟩
  rw [peek_ring (by omega) h.head_pos, hpeek]
  rfl

theorem peekIndex_eq (h : Stores rb items) (index : ℤ) :
    peekIndex rb.ring index =
      if index < 0 ∨ index ≤ items.length + 1 - size then (items.length : ℤ) else index := by
  show (if index < 0 ∨ index ≤ rb.head - size then rb.head - 1 else index) = _
  rw [h.head_eq, Int.add_sub_cancel]

end Stores

/-- After any pushes and resets a peek answers as it has to, if there is an item
and the index is not zero. -/
theorem peek_meets_spec (hsize : 2 ≤ size) (h : (machine size itemWidth).Init rb₀)
    (run : List (Op itemWidth)) (hpushed : pushedSince run ≠ []) {index : ℤ} (hindex : index ≠ 0)
    (out : Item itemWidth × ℤ) :
    ∃ rb found, (machine size itemWidth).exec rb₀ run = some rb ∧
      ringBufPeek rb index out = some found ∧
      PeekSpec size (pushedSince run) index out found := by
  obtain ⟨rb, hrun, hstores⟩ := stores_run hsize h run
  have hsome : 0 < (pushedSince run).length := List.length_pos_iff.mpr hpushed
  by_cases hlarge : (pushedSince run).length < index
  · exact ⟨rb, _, hrun, hstores.peek_fails hlarge out, .fails hlarge⟩
  · have heq := hstores.peekIndex_eq index
    by_cases hnewest : index < 0 ∨ index ≤ (pushedSince run).length + 1 - size
    · rw [if_pos hnewest] at heq
      obtain ⟨k, hk, hk', hpeek⟩ := hstores.peek_item hsize (by omega) (Int.not_lt.mp hlarge) out
      refine ⟨rb, _, hrun, hpeek, ?_⟩
      have hlast : (pushedSince run)[k] = (pushedSince run).getLast hpushed := by
        rw [List.getLast_eq_getElem]
        congr 1
        omega
      rw [hlast, hk', heq]
      exact .newest hpushed (Int.not_lt.mp hlarge) (by omega)
    · rw [if_neg hnewest] at heq
      obtain ⟨k, hk, hk', hpeek⟩ := hstores.peek_item hsize (by omega) (Int.not_lt.mp hlarge) out
      refine ⟨rb, _, hrun, hpeek, ?_⟩
      rw [hk', heq]
      exact .named k hk (by omega) (by omega)

/-- Two items in a buffer of three slots: by its number, the newest, and none. -/
def twoItems : List (Op 1) := [.push ![7], .reset, .push ![8], .push ![9]]

def freshRing : RingMem 3 1 := ⟨![1, 2, 3], true, 1, 1⟩

theorem freshRing_init : (machine 3 1).Init freshRing := ⟨some ![1, 2, 3], true, none, rfl⟩

theorem peek_meets_spec_twoItems :
    ∃ rb found, (machine 3 1).exec freshRing twoItems = some rb ∧
      ringBufPeek rb (-1) (![0], 0) = some found ∧
      PeekSpec 3 (pushedSince twoItems) (-1) (![0], 0) found :=
  peek_meets_spec (by decide) freshRing_init twoItems (by decide) (by decide) _

/-! ### Where a peek delivers no item -/

/-- A peek that succeeds delivers one of the items. -/
def Delivers (rb : RingMem size itemWidth) (items : List (Item itemWidth)) (index : ℤ) : Prop :=
  ∀ out found, ringBufPeek rb index out = some found → found.err = .ok → found.item ∈ items

/-- The index is past the head, or there is an item and the index is not the
zero of a buffer whose slot 0 is still unused. -/
def Covered (size pushed : ℕ) (index : ℤ) : Prop :=
  pushed < index ∨ 0 < pushed ∧ (index ≠ 0 ∨ size ≤ pushed + 1)

instance (size pushed : ℕ) (index : ℤ) : Decidable (Covered size pushed index) :=
  inferInstanceAs (Decidable (_ ∨ _))

theorem Stores.peek_covered (hsize : 2 ≤ size) {items : List (Item itemWidth)}
    (h : Stores rb items) {index : ℤ} (hcovered : Covered size items.length index) :
    Delivers rb items index := by
  intro out found hpeek hok
  by_cases hlarge : items.length < index
  · rw [h.peek_fails hlarge] at hpeek
    obtain rfl := Option.some.inj hpeek
    cases hok
  · have hpos : 0 < peekIndex rb.ring index := by
      rw [h.peekIndex_eq]
      rcases hcovered with hfail | ⟨hsome, hindex⟩
      · exact absurd hfail hlarge
      · split <;> omega
    obtain ⟨k, hk, _, hitem⟩ := h.peek_item hsize hpos (Int.not_lt.mp hlarge) out
    rw [hitem] at hpeek
    obtain rfl := Option.some.inj hpeek
    exact List.getElem_mem hk

/-- Otherwise the peek reads slot 0, which no item has gone to. -/
theorem Stores.peek_uncovered {items : List (Item itemWidth)}
    (h : Stores rb items) {index : ℤ} (hcovered : ¬ Covered size items.length index)
    (out : Item itemWidth × ℤ) :
    ringBufPeek rb index out =
      (readAt rb.buf 0 itemWidth).map fun item => ⟨.ok, item, 0⟩ := by
  unfold Covered at hcovered
  have hsmall : ¬ index ≥ rb.head := by
    rw [h.head_eq]
    omega
  have hzero : (if index < 0 ∨ index ≤ rb.head - size then rb.head - 1 else index) = 0 := by
    rw [h.head_eq]
    split <;> omega
  rw [ringBufPeek, if_neg hsmall]
  simp only [hzero, Int.zero_tmod, Int.toNat_zero, Nat.zero_mul, lt_irrefl, if_false]

/-- A peek that succeeds delivers an item pushed since the last reset exactly
where it is covered, or the start of the memory happens to hold such an item. -/
theorem delivers_iff (hsize : 2 ≤ size) (h : (machine size itemWidth).Init rb₀)
    (run : List (Op itemWidth)) (index : ℤ) :
    ∃ rb, (machine size itemWidth).exec rb₀ run = some rb ∧
      (Delivers rb (pushedSince run) index ↔ Covered size (pushedSince run).length index ∨
        ∃ item ∈ pushedSince run, readAt rb.buf 0 itemWidth = some item) := by
  obtain ⟨rb, hrun, hstores⟩ := stores_run hsize h run
  refine ⟨rb, hrun, ?_⟩
  by_cases hcovered : Covered size (pushedSince run).length index
  · exact iff_of_true (hstores.peek_covered hsize hcovered) (Or.inl hcovered)
  · have hpeek := hstores.peek_uncovered hcovered
    have hread : ∃ item, readAt rb.buf 0 itemWidth = some item := by
      have hslot := slot_end (k := 0) (by omega : 0 < size) itemWidth
      rw [Nat.zero_mul] at hslot
      exact ⟨_, dif_pos hslot⟩
    obtain ⟨item, hitem⟩ := hread
    rw [hitem, Option.map_some] at hpeek
    constructor
    · intro hdelivers
      exact Or.inr ⟨item, hdelivers (item, 0) _ (hpeek _) rfl, hitem⟩
    · rintro (hyes | ⟨old, hold, hread⟩)
      · exact absurd hyes hcovered
      · intro out found hfound _
        rw [hpeek] at hfound
        obtain rfl := Option.some.inj hfound
        obtain rfl := Option.some.inj (hitem.symm.trans hread)
        exact hold

theorem delivers_newest :
    ∃ rb, (machine 3 1).exec freshRing twoItems = some rb ∧
      (Delivers rb (pushedSince twoItems) (-1) ↔ Covered 3 (pushedSince twoItems).length (-1) ∨
        ∃ item ∈ pushedSince twoItems, readAt rb.buf 0 1 = some item) :=
  delivers_iff (by decide) freshRing_init twoItems (-1)

/-- A peek at the newest item of a buffer just initialised. -/
theorem empty_peek_succeeds :
    ¬ ∀ rb, (machine 3 1).Init rb → ∀ run rb', (machine 3 1).exec rb run = some rb' →
      ∀ index, Delivers rb' (pushedSince run) index := by
  intro h
  exact absurd (h freshRing freshRing_init [] freshRing rfl (-1) (![0], 0) _ rfl rfl)
    List.not_mem_nil

/-! ### The write position -/

/-- The write position follows `head` and a push stays in the block. -/
structure InPlace (rb : RingMem size itemWidth) : Prop where
  head_lt : rb._head < size
  head_mod : (rb._head : ℤ) = rb.head % size
  inside : ∀ item, (ringBufPush rb item).isSome

theorem Stores.inPlace (hsize : 2 ≤ size) {items : List (Item itemWidth)} (h : Stores rb items) :
    InPlace rb where
  head_lt := by
    rw [h.slot_eq]
    exact Nat.mod_lt _ (by omega)
  head_mod := by
    rw [h.slot_eq, h.head_eq]
    exact Int.natCast_mod _ _
  inside item := by
    obtain ⟨rb', hpush, _⟩ := stores_push hsize h item
    rw [hpush]
    rfl

/-- The write position stays in the buffer in every run exactly if there are two slots. -/
theorem inPlace_iff (hsize : 1 ≤ size) (hwidth : 1 ≤ itemWidth) :
    (∀ rb₀, (machine size itemWidth).Init rb₀ → ∀ run, ∃ rb,
      (machine size itemWidth).exec rb₀ run = some rb ∧ InPlace rb) ↔ 2 ≤ size := by
  constructor
  · intro h
    have hinit : (machine size itemWidth).Init ⟨fun _ => 0, true, 1, 1⟩ := by
      refine ⟨some fun _ => 0, true, none, ?_⟩
      rw [ringBufInit, if_neg (by omega)]
      rfl
    obtain ⟨rb, hrun, hplace⟩ := h _ hinit []
    obtain rfl := Option.some.inj hrun
    exact hplace.head_lt
  · intro htwo rb₀ hinit run
    obtain ⟨rb, hrun, hstores⟩ := stores_run htwo hinit run
    exact ⟨rb, hrun, hstores.inPlace htwo⟩

theorem inPlace_three :
    (∀ rb₀, (machine 3 1).Init rb₀ → ∀ run, ∃ rb,
      (machine 3 1).exec rb₀ run = some rb ∧ InPlace rb) ↔ 2 ≤ 3 :=
  inPlace_iff (by decide) (by decide)

/-- A buffer of one slot: the first push goes to the slot after it. -/
theorem one_slot_outside :
    ¬ ∀ size itemWidth, 1 ≤ size → 1 ≤ itemWidth → ∀ rb₀, (machine size itemWidth).Init rb₀ →
      ∀ run, ∃ rb, (machine size itemWidth).exec rb₀ run = some rb ∧ InPlace rb := by
  intro h
  obtain ⟨rb, hrun, hplace⟩ := h 1 1 (by decide) (by decide) ⟨![0], true, 1, 1⟩
    ⟨some ![0], true, none, rfl⟩ [.push ![5]]
  cases hrun

end MarkitNode.RingBufMemory
