import MarkitNode.ConfigBounds

/-!
The age of the bytes in the UART buffer. The product of a million and the number
of bytes has 32 bits, and the buffer holds 5120 bytes: the product of 4295 wraps.
-/

namespace MarkitNode

namespace BufferDelay

open ConfigBounds

/-- `CONFIG_HI229_UART_RX_BUF_LEN` -/
abbrev uartRxBufLen : Nat := 5120

/-- What `hi229_read` stores as `buffer_delay_us`, by the same expression. -/
def hi229ReadBufferDelay (baud : Int) (uartBufferLen : Nat) : Option Int :=
  hi229GetBufferDelay baud uartBufferLen

/-- The time in µs, rounded down. -/
def exactDelay (baud : Int) (uartBufferLen : Nat) : Int := 1000000 * uartBufferLen / baud

/-- Both delays are the exact one. -/
structure Exact (baud : Int) (uartBufferLen : Nat) : Prop where
  read : hi229ReadBufferDelay baud uartBufferLen = some (exactDelay baud uartBufferLen)
  get : hi229GetBufferDelay baud uartBufferLen = some (exactDelay baud uartBufferLen)

/-- Taking off a multiple that is more than the divisor shows in the quotient. -/
theorem mod_div_lt {x m b : Nat} (hb : 0 < b) (hbm : b ≤ m) (hx : m ≤ x) :
    x % m / b < x / b := by
  have hle : x % m + b ≤ x := by
    have hmod := Nat.mod_add_div x m
    have hquot : 1 ≤ x / m := (Nat.one_le_div_iff (by omega)).mpr hx
    have hmul : m * 1 ≤ m * (x / m) := Nat.mul_le_mul_left m hquot
    omega
  calc x % m / b < x % m / b + 1 := Nat.lt_succ_self _
    _ = (x % m + b) / b := (Nat.add_div_right _ hb).symm
    _ ≤ x / b := Nat.div_le_div_right hle

section Delay

variable {baud : Int}

/-- The cast to `int32_t` keeps every quotient by a rate in these bounds. -/
theorem getBufferDelay_eq (h : 9600 ≤ baud) (h' : baud ≤ 921600) (n : Nat) :
    hi229GetBufferDelay baud n =
      some ((1000000 * n % 2 ^ 32 / baud.toNat : Nat) : Int) := by
  obtain ⟨b, rfl⟩ := Int.eq_ofNat_of_zero_le (by omega : 0 ≤ baud)
  have hb : ((b : Int) % 2 ^ 32).toNat = b := by omega
  have hbound : 1000000 * n % 2 ^ 32 / b < 2 ^ 31 := by
    have hmod := Nat.mod_lt (1000000 * n) (by decide : 0 < 2 ^ 32)
    apply Nat.div_lt_of_lt_mul
    have hmul : 9600 * 2 ^ 31 ≤ b * 2 ^ 31 := Nat.mul_le_mul_right _ (by omega)
    omega
  have hcast : 1000000 * (n : Int) % 2 ^ 32 / (b : Int) =
      ((1000000 * n % 2 ^ 32 / b : Nat) : Int) := by norm_cast
  simp only [hi229GetBufferDelay, hb, Int.toNat_natCast]
  rw [if_neg (by omega), hcast]
  generalize 1000000 * n % 2 ^ 32 / b = q at hbound ⊢
  rw [Int.bmod_eq_of_le (by omega) (by omega)]

/-- The delays are exact exactly where the product does not wrap. -/
theorem exact_iff (h : 9600 ≤ baud) (h' : baud ≤ 921600) (n : Nat) :
    Exact baud n ↔ n ≤ 4294 := by
  have hvalue := getBufferDelay_eq h h' n
  obtain ⟨b, rfl⟩ := Int.eq_ofNat_of_zero_le (by omega : 0 ≤ baud)
  have hexact : exactDelay b n = ((1000000 * n / b : Nat) : Int) := by
    rw [exactDelay]
    norm_cast
  rw [Int.toNat_natCast] at hvalue
  constructor
  · intro hall
    by_contra hlarge
    have hlt : 1000000 * n % 2 ^ 32 / b < 1000000 * n / b :=
      mod_div_lt (by omega) (by omega) (by omega)
    have hget := hall.get
    rw [hvalue, hexact, Option.some.injEq] at hget
    omega
  · intro hsmall
    have hmod : 1000000 * n % 2 ^ 32 = 1000000 * n := Nat.mod_eq_of_lt (by omega)
    rw [hmod, ← hexact] at hvalue
    exact ⟨hvalue, hvalue⟩

end Delay

theorem exact_half_full : Exact 115200 2560 ↔ 2560 ≤ 4294 :=
  exact_iff (by decide) (by decide) 2560

/-- The least number of bytes whose product wraps. -/
theorem wraps_at_4295 :
    ¬ ∀ baud n, 9600 ≤ baud → baud ≤ 921600 → n ≤ uartRxBufLen → Exact baud n := by
  intro h
  have hget := (h 115200 4295 (by decide) (by decide) (by decide)).get
  revert hget
  decide +kernel

end BufferDelay

end MarkitNode
