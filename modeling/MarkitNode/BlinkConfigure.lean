import MarkitNode.NvsVars
import MarkitNode.UrlLookup

/-!
The identity that the marker flashes, as `POST /v1/blink/configure` sets it. One
number goes three ways: into `g_mcu.seq`, through a text of four bytes into the
flash and from there through the limits of the load at boot, and into the report
of `GET`. They agree on the remainders 0 to 99 only.
-/

namespace MarkitNode

namespace BlinkConfigure

open CString CNumber NvsVars UrlQuery

/-- What the handler works on: the fields of `g_mcu`, the flash, and what it has
asked of the LED. -/
structure Conf where
  seq : Int
  ledManual : Bool
  nvs : Nvs
  evLedStatusChanged : Bool
  ledOff : Bool

inductive PostStatus
  | ok
  | invalidMode
  | invalidSeq
  deriving DecidableEq, Repr

def PostStatus.text : PostStatus → String
  | .ok => "ok"
  | .invalidMode => "invalid mode value"
  | .invalidSeq => "invalid seq value"

/-- The text in the buffer of the handler after the call, whose error it ignores. -/
def paramText (read : KvRead) (uri : List UInt8) : Option (List UInt8) :=
  (parseUrlKvPair uri read.key (Vector.replicate read.size 0)).map fun
    | .error _ => []
    | .ok value => text value.toList

def configureMode (c : Conf) (mode : List UInt8) : Option Conf :=
  if mode = [] then some c
  else if mode = ascii "auto" then some { c with ledManual := false, evLedStatusChanged := true }
  else if mode = ascii "manual" then some { c with ledManual := true, evLedStatusChanged := true }
  else if mode = ascii "off" then some { c with ledManual := true, ledOff := true }
  else none

/-- `seqStr` is the array on the stack; `none` if the text does not fit. -/
def storeSeq (calls : NvsCalls) (c : Conf) (seqStr : Vector UInt8 4) (n : Int) :
    Option Conf := do
  let seq := n.tmod 256
  let written ← memcpy seqStr (itoa seq ++ [0])
  let v ← sysFindVar (ascii "SEQ") 3
  let nvs ← sysSetNvsVar calls c.nvs v written.toList
  return { c with nvs := nvs, seq := seq }

/-- The handler on a `POST`. -/
def blinkConfigurePost (calls : NvsCalls) (c : Conf) (seqStr : Vector UInt8 4)
    (uri : List UInt8) : Option (PostStatus × Conf) := do
  let mode ← paramText .blinkMode uri
  match configureMode c mode with
  | none => return (.invalidMode, c)
  | some c =>
      let seq ← paramText .blinkSeq uri
      if seq = [] then return (.ok, c)
      else if (strtol 10 seq).2 = [] then
        let c ← storeSeq calls c seqStr (strtol 10 seq).1
        return (.ok, c)
      else return (.invalidSeq, c)

/-- The `seq` that a `GET` reports: `g_mcu.seq % 100U`. -/
def reportedSeq (c : Conf) : Int := c.seq % 2 ^ 32 % 100

/-! ### The number stored -/

theorem tmod_bounds (n : Int) : -256 < n.tmod 256 ∧ n.tmod 256 < 256 := by
  rcases Int.le_total 0 n with h | h
  · rw [Int.tmod_eq_emod_of_nonneg h]
    omega
  · obtain ⟨m, rfl⟩ : ∃ m, n = -m := ⟨-n, by omega⟩
    rw [Int.neg_tmod, Int.tmod_eq_emod_of_nonneg (by omega)]
    omega

theorem tmod_range_iff (n : Int) :
    (0 ≤ n.tmod 256 ∧ n.tmod 256 < 100) ↔ (0 ≤ n ∨ n % 256 = 0) ∧ n % 256 < 100 := by
  rcases Int.le_total 0 n with h | h
  · rw [Int.tmod_eq_emod_of_nonneg h]
    omega
  · obtain ⟨m, rfl⟩ : ∃ m, n = -m := ⟨-n, by omega⟩
    rw [Int.neg_tmod, Int.tmod_eq_emod_of_nonneg (by omega)]
    omega

/-- A text that fits its array is read back as the same number. -/
theorem storeSeq_eq (calls : NvsCalls) (c : Conf) (seqStr : Vector UInt8 4) (n : Int) :
    storeSeq calls c seqStr n =
      if (itoa (n.tmod 256)).length + 1 ≤ 4 then
        some { c with nvs := calls.setI32 c.nvs .seq (n.tmod 256), seq := n.tmod 256 }
      else none := by
  have hbounds := tmod_bounds n
  have hfind : sysFindVar (ascii "SEQ") 3 = some .seq := by decide
  have hlen : (itoa (n.tmod 256) ++ [0]).length = (itoa (n.tmod 256)).length + 1 := by
    rw [List.length_append, List.length_singleton]
  by_cases hfits : (itoa (n.tmod 256)).length + 1 ≤ 4
  · rw [if_pos hfits]
    simp only [storeSeq, memcpy, hlen, dif_pos hfits, Option.bind_eq_bind, Option.bind_some, hfind,
      sysSetNvsVar, McuVar.type, Vector.toList_mk, List.append_assoc, List.singleton_append,
      text_append_nul, text_of_not_mem (zero_not_mem_itoa _), Option.pure_def]
    rw [strtol_itoa (by omega) (by omega), if_pos (by simp)]
    rfl
  · rw [if_neg hfits]
    simp only [storeSeq, memcpy, hlen, dif_neg hfits, Option.bind_eq_bind, Option.bind_none]

/-- The number is the same wherever it is found. -/
structure SeqAgrees (c : Conf) : Prop where
  /-- with its NUL, in `seq_str` -/
  fits : (itoa c.seq).length + 1 ≤ 4
  range : 0 ≤ c.seq ∧ c.seq ≤ 255
  restored : ∀ stack, (sysLoadNvsConfiguration c.nvs stack).seq = c.seq
  reported : reportedSeq c = c.seq

/-- The request is accepted, and `n` is the value of its `seq` text. -/
structure Accepts (c : Conf) (uri : List UInt8) (n : Int) : Prop where
  mode : ∃ mode, paramText .blinkMode uri = some mode ∧ configureMode c mode ≠ none
  seq : ∃ seq, paramText .blinkSeq uri = some seq ∧ seq ≠ [] ∧ strtol 10 seq = (n, [])

theorem configureMode_seq {c c' : Conf} {mode : List UInt8}
    (h : configureMode c mode = some c') : c'.seq = c.seq := by
  unfold configureMode at h
  repeat' split at h
  all_goals first | cases h; rfl | cases h

/-- An accepted request stores its number. -/
theorem post_of_accepts {c : Conf} {uri : List UInt8} {n : Int} (h : Accepts c uri n)
    (calls : NvsCalls) (seqStr : Vector UInt8 4) :
    ∃ c', blinkConfigurePost calls c seqStr uri =
      (storeSeq calls c' seqStr n).map fun c => (.ok, c) := by
  obtain ⟨mode, hmode, hvalid⟩ := h.mode
  obtain ⟨seq, hseq, hne, hn⟩ := h.seq
  obtain ⟨c', hc'⟩ := Option.ne_none_iff_exists'.mp hvalid
  refine ⟨c', ?_⟩
  simp only [blinkConfigurePost, hmode, hc', hseq, Option.bind_eq_bind, Option.bind_some,
    if_neg hne, hn, if_true, Option.pure_def]
  rw [Option.map_eq_bind]
  rfl

theorem paramText_isSome (read : KvRead) (h : paramValueMaxLen < read.size) (uri : List UInt8) :
    ∃ value, paramText read uri = some value := by
  rw [← Option.isSome_iff_exists, paramText, Option.isSome_map]
  exact parseUrlKvPair_isSome _ uri read.key h

/-- A request that is not accepted with a number leaves the identity alone. -/
theorem post_of_not_accepts {c : Conf} {uri : List UInt8} (h : ∀ n, ¬ Accepts c uri n)
    (calls : NvsCalls) (seqStr : Vector UInt8 4) :
    ∃ status c', blinkConfigurePost calls c seqStr uri = some (status, c') ∧ c'.seq = c.seq := by
  obtain ⟨mode, hmode⟩ := paramText_isSome .blinkMode (by decide) uri
  obtain ⟨seq, hseq⟩ := paramText_isSome .blinkSeq (by decide) uri
  simp only [blinkConfigurePost, hmode, hseq, Option.bind_eq_bind, Option.bind_some,
    Option.pure_def]
  cases hvalid : configureMode c mode with
  | none => exact ⟨.invalidMode, c, rfl, rfl⟩
  | some c' =>
    simp only
    by_cases hnil : seq = []
    · rw [if_pos hnil]
      exact ⟨.ok, c', rfl, configureMode_seq hvalid⟩
    · have hrest : ¬ (strtol 10 seq).2 = [] := by
        intro hend
        refine h (strtol 10 seq).1 ⟨⟨mode, hmode, by rw [hvalid]; nofun⟩, seq, hseq, hnil, ?_⟩
        rw [← hend]
      rw [if_neg hnil, if_neg hrest]
      exact ⟨.invalidSeq, c', rfl, configureMode_seq hvalid⟩

/-- Where the NVS takes the number, it is one number exactly for the remainders 0 to 99. -/
theorem seq_agrees_iff {calls : NvsCalls} (hcalls : calls.Accepts) {c : Conf} {uri : List UInt8}
    {n : Int} (h : Accepts c uri n) (seqStr : Vector UInt8 4) :
    (∃ c', blinkConfigurePost calls c seqStr uri = some (.ok, c') ∧ SeqAgrees c') ↔
      (0 ≤ n ∨ n % 256 = 0) ∧ n % 256 < 100 := by
  obtain ⟨before, hpost⟩ := post_of_accepts h calls seqStr
  rw [hpost, storeSeq_eq, ← tmod_range_iff]
  constructor
  · rintro ⟨c', hc', hagrees⟩
    split at hc'
    · simp only [Option.map_some, Option.some.injEq, Prod.mk.injEq, true_and] at hc'
      have hrange := hagrees.range
      have hreported := hagrees.reported
      rw [reportedSeq] at hreported
      rw [← hc'] at hrange hreported
      simp only at hrange hreported
      omega
    · cases hc'
  · intro hrange
    have hfits : (itoa (n.tmod 256)).length + 1 ≤ 4 := by
      have hlen := length_decimal_le (n := (n.tmod 256).natAbs) (k := 2) (by decide) (by omega)
      rw [itoa, if_neg (by omega)]
      omega
    rw [if_pos hfits]
    refine ⟨_, rfl, hfits, by simp only; omega, ?_, ?_⟩
    · intro stack
      rw [hcalls.setI32]
      simp only [sysLoadNvsConfiguration, sysGetNvsInt32, Function.update_self, Option.getD_some]
      omega
    · simp only [reportedSeq]
      omega

def freshConf : Conf := ⟨0, false, Nvs.erased, false, false⟩

def seqUri (seq : String) : List UInt8 := ascii "/v1/blink/configure?seq=" ++ ascii seq

theorem seq_agrees_42 :
    ∃ c', blinkConfigurePost .roomy freshConf (Vector.replicate 4 0) (seqUri "42") =
      some (.ok, c') ∧ SeqAgrees c' :=
  (seq_agrees_iff (n := 42) NvsCalls.roomy_accepts
    ⟨⟨[], by decide +kernel, nofun⟩, ⟨ascii "42", by decide +kernel, by decide, by decide +kernel⟩⟩
    _).mpr (by decide)

theorem seq_150_disagrees :
    ¬ ∀ c uri n, Accepts c uri n → ∀ seqStr, ∃ c',
      blinkConfigurePost .roomy c seqStr uri = some (.ok, c') ∧ SeqAgrees c' := by
  intro h
  have haccepts : Accepts freshConf (seqUri "150") 150 :=
    ⟨⟨[], by decide +kernel, nofun⟩, ⟨ascii "150", by decide +kernel, by decide, by decide +kernel⟩⟩
  obtain ⟨c', hc', hagrees⟩ := h _ _ _ haccepts (Vector.replicate 4 0)
  have hseq : ((blinkConfigurePost .roomy freshConf (Vector.replicate 4 0) (seqUri "150")).map
      fun result => result.2.seq) = some 150 := by decide +kernel
  have hreported := hagrees.reported
  rw [hc', Option.map_some, Option.some.injEq] at hseq
  rw [reportedSeq, hseq] at hreported
  exact absurd hreported (by decide)

end BlinkConfigure

end MarkitNode
