import MarkitNode.NvsVars
import MarkitNode.StatusCodes

/-!
`sys_get_nvs_var` as a whole: its status, the data it hands out and the text it
leaves in the buffer. It ignores what the calls of the flash return, so a
variable that is not stored, or a blob that is longer than the length it happens
to pass, leaves what its locals held before.
-/

namespace MarkitNode

namespace NvsGet

open CNumber CString NvsVars

/-- The table of the flash, with blobs of any length. -/
structure Flash where
  int32 : McuVar → Option Int
  blob : McuVar → Option (List UInt8)

def Flash.ofNvs (nvs : Nvs) : Flash := ⟨nvs.int32, fun v => (nvs.blob v).map Vector.toList⟩

/-- `mcu_var_data_t`, as far as the types of the table use it; the string is the
buffer. -/
inductive VarData
  | int32 (n : Int)
  | str
  deriving DecidableEq, Repr

/-- What a call leaves; `none` for an argument it does not write to. -/
structure GetResult (size : Nat) where
  status : EspErr
  out : Option VarData
  valueBuffer : Option (Vector UInt8 size)
  deriving DecidableEq

/-- A call that fails leaves its output as it was. -/
def nvsGetI32 (flash : Flash) (v : McuVar) (out : Int) : Int := (flash.int32 v).getD out

/-- The call fails if `length` is less than the length of the blob. -/
def nvsGetBlob {size : Nat} (flash : Flash) (v : McuVar) (out : Vector UInt8 size)
    (length : Nat) : Option (Vector UInt8 size) :=
  match flash.blob v with
  | none => some out
  | some b => if length < b.length then some out else memcpy out b

/-- `stack` is what the locals `data` and `tmp` hold; `none` if the call writes
past the buffer. -/
def sysGetNvsVar {size : Nat} (flash : Flash) (v : McuVar) (stack : GetStack)
    (valueBuffer : Option (Vector UInt8 size)) : Option (GetResult size) :=
  match valueBuffer with
  | none => some ⟨.invalidArg, none, none⟩
  | some buffer =>
      match v.type with
      | .int32 => do
          let data := nvsGetI32 flash v stack.int32
          let buffer ← memcpy buffer ((itoa data).take (varStrMaxLen - 1) ++ [0])
          return ⟨.ok, some (.int32 data), some buffer⟩
      | .str => do
          let buffer ← nvsGetBlob flash v buffer stack.tmp
          return ⟨.ok, some .str, some buffer⟩

/-! ### What it should do -/

/-- The variable is stored, and the data and the text are its value. -/
def Delivers {size : Nat} (flash : Flash) (v : McuVar) (r : GetResult size) : Prop :=
  match v.type with
  | .int32 => ∃ n buffer, flash.int32 v = some n ∧ r.out = some (.int32 n) ∧
      r.valueBuffer = some buffer ∧ text buffer.toList = (itoa n).take (varStrMaxLen - 1)
  | .str => ∃ b buffer, flash.blob v = some b ∧ r.out = some .str ∧
      r.valueBuffer = some buffer ∧ b <+: buffer.toList

/-- A success delivers the value, and nothing depends on what the locals held. -/
structure Sound {size : Nat} (flash : Flash) (v : McuVar)
    (valueBuffer : Option (Vector UInt8 size)) : Prop where
  delivers : ∀ stack, ∃ r, sysGetNvsVar flash v stack valueBuffer = some r ∧
    (r.status = .ok → Delivers flash v r)
  same : ∀ stack stack', sysGetNvsVar flash v stack valueBuffer =
    sysGetNvsVar flash v stack' valueBuffer

/-- A number is stored; or a string that the buffer begins with already. -/
def Settled {size : Nat} (flash : Flash) (v : McuVar) (buffer : Vector UInt8 size) : Prop :=
  match v.type with
  | .int32 => (flash.int32 v).isSome
  | .str => ∃ b, flash.blob v = some b ∧ b <+: buffer.toList

/-! ### The two types -/

/-- Bytes that are there already. -/
theorem memcpy_unchanged {size : Nat} {dst : Vector UInt8 size} {src : List UInt8}
    (h : src <+: dst.toList) : memcpy dst src = some dst := by
  have hlen : src.length ≤ size := by
    have hle := h.length_le
    rwa [Vector.length_toList] at hle
  rw [memcpy, dif_pos hlen, Option.some.injEq]
  apply Vector.toList_inj.mp
  rw [Vector.toList_mk]
  obtain ⟨rest, hrest⟩ := h
  rw [← hrest, List.drop_left]

section Int32

variable {extra : Nat} {flash : Flash} {v : McuVar}

/-- The text of a number fits every buffer that is long enough for a string. -/
theorem get_int32 (hv : v.type = .int32) (flash : Flash) (stack : GetStack)
    (buffer : Vector UInt8 (varStrMaxLen + extra)) :
    ∃ out, text out.toList =
        (itoa (nvsGetI32 flash v stack.int32)).take (varStrMaxLen - 1) ∧
      sysGetNvsVar flash v stack (some buffer) =
        some ⟨.ok, some (.int32 (nvsGetI32 flash v stack.int32)), some out⟩ := by
  have hlen : ((itoa (nvsGetI32 flash v stack.int32)).take (varStrMaxLen - 1)).length <
      varStrMaxLen + extra := by
    have hmax : varStrMaxLen = 64 := rfl
    rw [List.length_take, hmax]
    omega
  obtain ⟨out, hout, _, htext⟩ := memcpy_nul buffer hlen
  refine ⟨out, ?_, ?_⟩
  · rw [htext]
    apply text_of_not_mem
    intro hmem
    exact zero_not_mem_itoa _ (List.mem_of_mem_take hmem)
  · simp only [sysGetNvsVar, hv, hout, Option.bind_eq_bind, Option.bind_some, Option.pure_def]

theorem sound_int32_iff (hv : v.type = .int32) (buffer : Vector UInt8 (varStrMaxLen + extra)) :
    Sound flash v (some buffer) ↔ (flash.int32 v).isSome := by
  constructor
  · intro h
    obtain ⟨r, hr, hdelivers⟩ := h.delivers ⟨0, 0⟩
    obtain ⟨out, _, hget⟩ := get_int32 hv flash ⟨0, 0⟩ buffer
    rw [hget, Option.some.injEq] at hr
    have hstored := hdelivers (by rw [← hr])
    rw [Delivers, hv] at hstored
    obtain ⟨n, _, hn, _⟩ := hstored
    rw [hn]
    rfl
  · intro h
    obtain ⟨n, hn⟩ := Option.isSome_iff_exists.mp h
    have hdata : ∀ stack : GetStack, nvsGetI32 flash v stack.int32 = n := by
      intro stack
      rw [nvsGetI32, hn, Option.getD_some]
    constructor
    · intro stack
      obtain ⟨out, htext, hget⟩ := get_int32 hv flash stack buffer
      rw [hdata] at htext hget
      refine ⟨_, hget, fun _ => ?_⟩
      rw [Delivers, hv]
      exact ⟨n, out, hn, rfl, rfl, htext⟩
    · intro stack stack'
      simp only [sysGetNvsVar, hv, hdata]

end Int32

section Str

variable {size : Nat} {flash : Flash} {v : McuVar}

theorem sound_str_iff (hv : v.type = .str) (buffer : Vector UInt8 size) :
    Sound flash v (some buffer) ↔ ∃ b, flash.blob v = some b ∧ b <+: buffer.toList := by
  constructor
  · intro h
    obtain ⟨r, hr, hdelivers⟩ := h.delivers ⟨0, 0⟩
    -- with a length of 0 the call copies nothing that the buffer lacks
    have hkept : nvsGetBlob flash v buffer 0 = some buffer := by
      unfold nvsGetBlob
      split
      · rfl
      · rename_i b _
        split
        · rfl
        · have hnil : b = [] := List.length_eq_zero_iff.mp (by omega)
          rw [hnil]
          exact memcpy_unchanged List.nil_prefix
    simp only [sysGetNvsVar, hv, hkept, Option.bind_eq_bind, Option.bind_some, Option.pure_def,
      Option.some.injEq] at hr
    have hstored := hdelivers (by rw [← hr])
    rw [Delivers, hv, ← hr] at hstored
    obtain ⟨b, out, hb, _, hout, hprefix⟩ := hstored
    rw [Option.some.inj hout]
    exact ⟨b, hb, hprefix⟩
  · rintro ⟨b, hb, hprefix⟩
    have hget : ∀ stack, sysGetNvsVar flash v stack (some buffer) =
        some ⟨.ok, some .str, some buffer⟩ := by
      intro stack
      have hcopy : nvsGetBlob flash v buffer stack.tmp = some buffer := by
        rw [nvsGetBlob, hb]
        simp only [memcpy_unchanged hprefix, ite_self]
      simp only [sysGetNvsVar, hv, hcopy, Option.bind_eq_bind, Option.bind_some, Option.pure_def]
    constructor
    · intro stack
      refine ⟨_, hget stack, fun _ => ?_⟩
      rw [Delivers, hv]
      exact ⟨b, buffer, hb, rfl, rfl, hprefix⟩
    · intro stack stack'
      rw [hget, hget]

end Str

/-- The calls of the load, which pass a buffer of 64 bytes. -/
theorem sysGetNvsVar_ofNvs (nvs : Nvs) (v : McuVar) (stack : GetStack)
    (buffer : Vector UInt8 varStrMaxLen) :
    ∃ r, sysGetNvsVar (.ofNvs nvs) v stack (some buffer) = some r ∧
      match v.type with
      | .int32 => r.out = some (.int32 (sysGetNvsInt32 nvs v stack))
      | .str => r.valueBuffer = some (sysGetNvsStr nvs v stack buffer) := by
  cases hv : v.type with
  | int32 =>
    obtain ⟨out, _, hget⟩ := get_int32 hv (.ofNvs nvs) stack
      (show Vector UInt8 (varStrMaxLen + 0) from buffer)
    exact ⟨_, hget, rfl⟩
  | str =>
    have hcopy : nvsGetBlob (.ofNvs nvs) v buffer stack.tmp =
        some (sysGetNvsStr nvs v stack buffer) := by
      have hflash : (Flash.ofNvs nvs).blob v = (nvs.blob v).map Vector.toList := rfl
      rw [nvsGetBlob, hflash, sysGetNvsStr]
      cases nvs.blob v with
      | none => rfl
      | some b =>
        simp only [Option.map_some, Vector.length_toList]
        by_cases hlen : varStrMaxLen ≤ stack.tmp
        · have hall : memcpy buffer b.toList = some b := by
            rw [memcpy, dif_pos (Nat.le_of_eq Vector.length_toList), Option.some.injEq]
            apply Vector.toList_inj.mp
            rw [Vector.toList_mk, Vector.length_toList, List.drop_of_length_le (by simp),
              List.append_nil]
          rw [if_neg (Nat.not_lt.mpr hlen), if_pos hlen, hall]
        · rw [if_pos (Nat.not_le.mp hlen), if_neg hlen]
    refine ⟨⟨.ok, some .str, some (sysGetNvsStr nvs v stack buffer)⟩, ?_, rfl⟩
    simp only [sysGetNvsVar, hv, hcopy, Option.bind_eq_bind, Option.bind_some, Option.pure_def]

/-- A call does what it should exactly for a number that is stored and for a
string that need not be copied. -/
theorem sysGetNvsVar_sound_iff {extra : Nat} (flash : Flash) (v : McuVar)
    (valueBuffer : Option (Vector UInt8 (varStrMaxLen + extra))) :
    Sound flash v valueBuffer ↔ ∀ buffer ∈ valueBuffer, Settled flash v buffer := by
  cases valueBuffer with
  | none =>
    constructor
    · intro _ buffer hbuffer
      cases hbuffer
    · intro _
      exact ⟨fun _ => ⟨_, rfl, nofun⟩, fun _ _ => rfl⟩
  | some buffer =>
    have hiff : Sound flash v (some buffer) ↔ Settled flash v buffer := by
      unfold Settled
      cases hv : v.type with
      | int32 => exact sound_int32_iff hv buffer
      | str => exact sound_str_iff hv buffer
    rw [hiff]
    simp

def erasedFlash : Flash := ⟨fun _ => none, fun _ => none⟩

/-- Two calls for a number that is not stored. -/
theorem absent_targetFps :
    ¬ ∀ (flash : Flash) (v : McuVar) (buffer : Vector UInt8 (varStrMaxLen + 1)),
      Sound flash v (some buffer) := by
  intro h
  have hsame := (h erasedFlash .targetFps (Vector.replicate _ 0)).same ⟨0, 7⟩ ⟨0, 8⟩
  revert hsame
  decide +kernel

end NvsGet

end MarkitNode
