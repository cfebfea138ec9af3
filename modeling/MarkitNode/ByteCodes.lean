import Mathlib.Algebra.Group.Nat.Defs
import Mathlib.Logic.Function.Iterate
import Mathlib.Tactic.Common

/-!
Numbers and checksums over byte lists: little-endian words of any width, and
the cyclic redundancy check of 16 bits for any polynomial, given by one step of
the division register for each bit.
-/

namespace MarkitNode

namespace ByteCodes

/-- The number with these bytes, the least significant first. -/
def ofLe : List UInt8 → Nat
  | [] => 0
  | b :: rest => b.toNat + 256 * ofLe rest

/-- The lowest `width` bytes of a number. -/
def toLe : Nat → Nat → List UInt8
  | 0, _ => []
  | width + 1, n => UInt8.ofNat n :: toLe width (n / 256)

@[simp] theorem length_toLe (width n : Nat) : (toLe width n).length = width := by
  induction width generalizing n with
  | zero => rfl
  | succ width ih => simp [toLe, ih]

theorem ofLe_toLe {width n : Nat} (h : n < 256 ^ width) : ofLe (toLe width n) = n := by
  induction width generalizing n with
  | zero =>
    have hn : n = 0 := by simpa using h
    simp [toLe, ofLe, hn]
  | succ width ih =>
    have hd : n / 256 < 256 ^ width := by
      apply Nat.div_lt_of_lt_mul
      simpa [Nat.pow_succ, Nat.mul_comm] using h
    have hlow : (UInt8.ofNat n).toNat = n % 256 := by simp
    simp only [toLe, ofLe, ih hd, hlow]
    omega

theorem ofLe_lt (bytes : List UInt8) : ofLe bytes < 256 ^ bytes.length := by
  induction bytes with
  | nil => simp [ofLe]
  | cons b rest ih =>
    have hb : b.toNat < 256 := b.toNat_lt
    simp only [ofLe, List.length_cons, Nat.pow_succ]
    omega

section Crc

variable (poly : BitVec 16)

/-- One bit of the division. -/
def crcBit (reg : BitVec 16) : BitVec 16 :=
  if reg.getLsbD 15 then (reg <<< 1) ^^^ poly else reg <<< 1

/-- A byte enters at the top of the register and is divided out bit by bit. -/
def crcByte (reg : BitVec 16) (b : UInt8) : BitVec 16 :=
  (crcBit poly)^[8] (reg ^^^ (b.toBitVec.setWidth 16 <<< 8))

def crc16 (bytes : List UInt8) : BitVec 16 :=
  bytes.foldl (crcByte poly) 0#16

theorem crc16_append (front back : List UInt8) :
    crc16 poly (front ++ back) = back.foldl (crcByte poly) (crc16 poly front) :=
  List.foldl_append

end Crc

end ByteCodes

end MarkitNode
