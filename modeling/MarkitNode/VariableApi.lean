import MarkitNode.NvsGet
import MarkitNode.VariableTarget

/-!
The variables of the flash over HTTP. `GET /v1/nvs/variable/<name>` reads what
`POST /v1/nvs/variable/<name>?value=<v>` has stored, so that to its clients the API is a
table of numbers and texts. A text of 64 characters has no NUL in the flash: the handler
still reads it back, in a buffer of 65 bytes.
-/

namespace MarkitNode

namespace VariableApi

open CString NvsGet NvsStrings NvsVars UrlQuery VariableTarget

inductive HttpStatus
  | ok
  | badRequest
  deriving DecidableEq, Repr

/-- The status of the response and the items of its body, `uri` apart. -/
structure Response where
  httpStatus : HttpStatus
  value : Option (List UInt8)
  status : String
  deriving DecidableEq, Repr

def refused (status : String) : Response := ⟨.badRequest, none, status⟩

/-- The `GET` branch; `stack` is what the locals of `sys_get_nvs_var` hold. -/
def nvsVariableGet (nvs : Nvs) (stack : GetStack) (name : List UInt8) : Option Response :=
  match sysFindVar name name.length with
  | none => some (refused "invalid name")
  | some v => do
      let r ← sysGetNvsVar (.ofNvs nvs) v stack (some (Vector.replicate (varStrMaxLen + 1) 0))
      let buffer ← r.valueBuffer
      return ⟨.ok, some (text buffer.toList), "ok"⟩

/-- The names that `nvs_variable_list_handler` puts into its array. -/
def nvsVariableList : List (List UInt8) :=
  [ascii "WIFI_SSID", ascii "WIFI_PSK", ascii "DATA_HOST", ascii "OTA_HOST", ascii "NTP_HOST",
    ascii "TEST", ascii "IMU_BAUD", ascii "SEQ", ascii "TARGET_FPS"]

/-- A request for a name, and for `POST` the text of its value. -/
inductive Request
  | get (name : List UInt8) (stack : GetStack)
  | post (name v : List UInt8) (stack : GetStack)
  | other (name : List UInt8) (stack : GetStack)

inductive Content
  | number (n : Int)
  | string (s : List UInt8)
  deriving DecidableEq, Repr

abbrev Table := McuVar → Option Content

/-- What a variable makes of a text. -/
def contentOf (v : McuVar) (w : List UInt8) : Content :=
  match v.type with
  | .int32 => .number (CNumber.strtol 10 (text w)).1
  | .str => .string (text w)

def Content.shown : Content → List UInt8
  | .number n => CNumber.itoa n
  | .string s => s

def reason (name : List UInt8) (status : String) : String :=
  if name = [] then "empty name" else status

/-- What a client gets, and what becomes of the table. A text that was never stored reads as
empty, and a number that was never stored as any text. -/
inductive Serves (table : Table) : Request → Response → Table → Prop
  | found {v : McuVar} {c : Content} {stack : GetStack} (h : table v = some c) :
      Serves table (.get v.name stack) ⟨.ok, some c.shown, "ok"⟩ table
  | absent {v : McuVar} {shown : List UInt8} {stack : GetStack} (h : table v = none)
      (hshown : v.type = .str → shown = []) :
      Serves table (.get v.name stack) ⟨.ok, some shown, "ok"⟩ table
  | unknown {name : List UInt8} {stack : GetStack} (h : ∀ v : McuVar, v.name ≠ name) :
      Serves table (.get name stack) (refused (reason name "invalid name")) table
  | stored {v : McuVar} {raw w : List UInt8} {stack : GetStack} (h : urlDecode raw = some w) :
      Serves table (.post v.name raw stack) ⟨.ok, none, "ok"⟩
        (Function.update table v (some (contentOf v w)))
  | notStored {name raw : List UInt8} {stack : GetStack} (h : ∀ v : McuVar, v.name ≠ name) :
      Serves table (.post name raw stack) (refused "invalid name") table
  | other {name : List UInt8} {stack : GetStack} :
      Serves table (.other name stack) (refused (reason name "invalid method")) table

/-- The flash holds what the table says. -/
def Holds (nvs : Nvs) (table : Table) : Prop :=
  ∀ v : McuVar,
    match v.type with
    | .int32 => (table v) = (nvs.int32 v).map .number ∧
        ∀ n, nvs.int32 v = some n → (CNumber.itoa n).length < varStrMaxLen
    | .str => (table v) = (nvs.blob v).map fun b => .string (text (b.toList ++ [0]))

/-- The request is for a name, its value fits the buffer and is well encoded, and the first
`value` of its URI is that of the query; `sys_get_nvs_var` finds room for a text. -/
def Fits : Request → Prop
  | .get name stack => NameText name ∧ varStrMaxLen ≤ stack.tmp
  | .post name raw _ =>
      NameText name ∧ ValueText raw ∧ slash ∉ raw ∧ raw.length ≤ varStrMaxLen ∧
        (urlDecode raw).isSome ∧
        strstr (ascii "value") (ascii "/v1/nvs/variable/" ++ name ++ [questionMark]) = none
  | .other name _ => NameText name

/-- The list has the names of the table of variables, each once. -/
theorem nvsVariableList_names : nvsVariableList = gMcuVars.map McuVar.name ∧
    (∀ v : McuVar, v.name ∈ nvsVariableList) ∧ nvsVariableList.Nodup := by
  refine ⟨rfl, ?_, by decide +kernel⟩
  intro v
  cases v <;> decide +kernel

section Serve

variable {calls : NvsCalls} {nvs : Nvs} {table : Table} {name raw : List UInt8} {stack : GetStack}

theorem sysFindVar_name_iff (hname : NameText name) (v : McuVar) :
    sysFindVar name name.length = some v ↔ v.name = name :=
  sysFindVar_iff hname.nul zero_not_mem_name rfl v

theorem nameText_name (v : McuVar) : NameText v.name where
  nul := zero_not_mem_name v
  slash := by cases v <;> decide
  questionMark := questionMark_not_mem_name v

theorem get_number {v : McuVar} (hv : v.type = .int32) {n : Int}
    (hn : (nvs.int32 v).getD stack.int32 = n) :
    nvsVariableGet nvs stack v.name =
      some ⟨.ok, some ((CNumber.itoa n).take (varStrMaxLen - 1)), "ok"⟩ := by
  obtain ⟨out, htext, hget⟩ := get_int32 hv (.ofNvs nvs) stack
    (Vector.replicate (varStrMaxLen + 1) 0)
  have hdata : nvsGetI32 (.ofNvs nvs) v stack.int32 = n := hn
  rw [hdata] at htext
  simp only [nvsVariableGet, (sysFindVar_name_iff (nameText_name v) v).mpr rfl, hget, htext,
    Option.bind_eq_bind, Option.bind_some, Option.pure_def]

theorem get_string {v : McuVar} (hv : v.type = .str) (hroom : varStrMaxLen ≤ stack.tmp) :
    nvsVariableGet nvs stack v.name =
      some ⟨.ok, some (((nvs.blob v).map fun b => text (b.toList ++ [0])).getD []), "ok"⟩ := by
  have hcopy : ∃ out : Vector UInt8 (varStrMaxLen + 1),
      nvsGetBlob (.ofNvs nvs) v (Vector.replicate _ 0) stack.tmp = some out ∧
        text out.toList = ((nvs.blob v).map fun b => text (b.toList ++ [0])).getD [] := by
    have hflash : (Flash.ofNvs nvs).blob v = (nvs.blob v).map Vector.toList := rfl
    rw [nvsGetBlob, hflash]
    cases nvs.blob v with
    | none => exact ⟨_, rfl, by decide +kernel⟩
    | some b =>
      have hlen : b.toList.length ≤ varStrMaxLen + 1 := by
        rw [Vector.length_toList]
        exact Nat.le_succ _
      obtain ⟨out, hout, hlist⟩ := memcpy_toList (Vector.replicate (varStrMaxLen + 1) 0) hlen
      have hlong : ¬ stack.tmp < b.toList.length := by
        rw [Vector.length_toList]
        exact Nat.not_lt.mpr hroom
      simp only [Option.map_some, if_neg hlong, hout]
      refine ⟨out, rfl, ?_⟩
      rw [hlist, Vector.length_toList, Vector.toList_replicate, List.drop_replicate]
      rfl
  obtain ⟨out, hout, htext⟩ := hcopy
  simp only [nvsVariableGet, (sysFindVar_name_iff (nameText_name v) v).mpr rfl, sysGetNvsVar, hv,
    hout, htext, Option.bind_eq_bind, Option.bind_some, Option.pure_def]

/-- A number has a sign and ten digits at most. -/
theorem length_itoa_strtol (s : List UInt8) :
    (CNumber.itoa (CNumber.strtol 10 s).1).length < varStrMaxLen := by
  have hbounds : (CNumber.strtol 10 s).1.natAbs < 10 ^ 10 := by
    simp only [CNumber.strtol]
    split
    · exact (by decide : (0 : Int).natAbs < 10 ^ 10)
    · simp only [CNumber.clamp]
      omega
  have hdigits := CNumber.length_decimal_le (by decide) hbounds
  change _ < 64
  rw [CNumber.itoa]
  split
  · rw [List.length_cons]
    omega
  · omega

theorem Holds.store (h : Holds nvs table) {nvs' : Nvs} {v : McuVar} {w : List UInt8}
    (hstores : Stores nvs nvs' v w) :
    Holds nvs' (Function.update table v (some (contentOf v w))) := by
  intro u
  have hu := h u
  by_cases huv : u = v
  · subst huv
    rw [Stores] at hstores
    cases htype : u.type with
    | int32 =>
      simp only [htype] at hstores ⊢
      subst hstores
      simp only [Function.update_self, contentOf, htype, Option.map_some, Option.some.injEq,
        true_and]
      rintro n rfl
      exact length_itoa_strtol _
    | str =>
      simp only [htype] at hstores ⊢
      obtain ⟨b, hb, rfl⟩ := hstores
      simp only [Function.update_self, contentOf, htype, Option.map_some, Option.some.injEq,
        Content.string.injEq]
      rw [hb, List.append_assoc, ← List.replicate_succ', List.replicate_succ, text_append_nul]
  · rw [Function.update_of_ne huv]
    rw [Stores] at hstores
    split at hstores
    · subst hstores
      simpa only [Function.update_of_ne huv] using hu
    · obtain ⟨b, -, rfl⟩ := hstores
      simpa only [Function.update_of_ne huv] using hu

theorem Holds.get (h : Holds nvs table) (v : McuVar) (hroom : varStrMaxLen ≤ stack.tmp) :
    ∃ response, nvsVariableGet nvs stack v.name = some response ∧
      Serves table (.get v.name stack) response table := by
  have hv := h v
  cases htype : v.type with
  | int32 =>
    rw [htype] at hv
    refine ⟨_, get_number htype rfl, ?_⟩
    cases hn : nvs.int32 v with
    | none =>
      rw [hn, Option.map_none] at hv
      exact .absent hv.1 fun hstr => absurd (htype.symm.trans hstr) nofun
    | some n =>
      rw [hn, Option.map_some] at hv
      have hshort := hv.2 n rfl
      rw [Option.getD_some, List.take_of_length_le (Nat.le_sub_one_of_lt hshort)]
      exact .found hv.1
  | str =>
    rw [htype] at hv
    refine ⟨_, get_string htype hroom, ?_⟩
    cases hb : nvs.blob v with
    | none =>
      rw [hb, Option.map_none] at hv
      exact .absent hv fun _ => rfl
    | some b =>
      rw [hb, Option.map_some] at hv
      exact .found hv

end Serve

/-- A host and a number go in and come out; a name that does not exist is refused. -/
def session : List Request :=
  [.post (ascii "DATA_HOST") (ascii "10.0.0.7") ⟨0, 0⟩, .get (ascii "DATA_HOST") ⟨64, 0⟩,
    .post (ascii "SEQ") (ascii "+0042") ⟨0, 0⟩, .get (ascii "SEQ") ⟨64, 7⟩,
    .get (ascii "SSID") ⟨64, 0⟩]

end VariableApi

end MarkitNode
