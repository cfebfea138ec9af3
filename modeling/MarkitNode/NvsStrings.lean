import MarkitNode.Machine
import MarkitNode.NvsVars
import MarkitNode.UrlQuery

/-!
The string variables from the request that writes one, through the flash, to the
fields of `g_mcu` after the next boot. A write stores 64 bytes of the buffer it
has; the load takes 64 bytes over if the first is not NUL and the default
otherwise. A value comes back if it has 1 to 63 characters and the write did not
leave its buffer.
-/

namespace MarkitNode

namespace NvsStrings

open CString NvsVars UrlQuery

abbrev slash : UInt8 := 47

inductive PostStatus
  | ok
  | emptyName
  | emptyValue
  | invalidValue
  | invalidName
  deriving DecidableEq, Repr

def PostStatus.text : PostStatus → String
  | .ok => "ok"
  | .emptyName => "empty name"
  | .emptyValue => "empty value"
  | .invalidValue => "invalid value"
  | .invalidName => "invalid name"

/-- `nvs_variable_handler` on a `POST`; `none` if it writes past `value_buffer`.
`sys_set_nvs_var` reports no errors. -/
def nvsVariablePost (calls : NvsCalls) (nvs : Nvs) (uri : List UInt8) :
    Option (PostStatus × Nvs) :=
  match strrchr slash uri with
  | none => some (.emptyName, nvs)
  | some lastSlash =>
      if lastSlash.length ≤ 1 then some (.emptyName, nvs)
      else
        match strchr questionMark lastSlash.tail with
        | none => some (.emptyValue, nvs)
        | some nameEnd =>
            if nameEnd.length ≤ 1 then some (.emptyValue, nvs)
            else
              match parseUrlKvPair uri (ascii "value") (Vector.replicate (varStrMaxLen + 1) 0) with
              | none => none
              | some (.error _) => some (.invalidValue, nvs)
              | some (.ok value) =>
                  match sysFindVar lastSlash.tail (lastSlash.tail.length - nameEnd.length) with
                  | none => some (.invalidName, nvs)
                  | some v => (sysSetNvsVar calls nvs v value.toList).map fun nvs => (.ok, nvs)

/-- `POST /v1/nvs/variable/<name>?value=<raw>` -/
def variableUri (v : McuVar) (raw : List UInt8) : List UInt8 :=
  ascii "/v1/nvs/variable/" ++ (v.name ++ (ascii "?value=" ++ raw))

/-! ### The BLE characteristic -/

/-- What a write leaves: an error, or new credentials. -/
inductive BleResult
  | unlikely
  | ok (ssid psk : Vector UInt8 varStrMaxLen) (nvs : Nvs)

/-- `gatt_svr_chr_wifi_info` on a write whose first `os_mbuf` holds `data`, with room
for the terminator; `ssid` and `psk` are its arrays on the stack, and `none` if a token
does not fit. -/
def gattSvrChrWifiInfo (calls : NvsCalls) (nvs : Nvs) (data : List UInt8)
    (ssid psk : Vector UInt8 varStrMaxLen) : Option BleResult :=
  match strtok space (text data) with
  | none => some .unlikely
  | some (token, rest) => do
      let ssid ← memcpy ssid (token ++ [0])
      match strtok 10 rest with
      | none => return .unlikely
      | some (token, _) =>
          let psk ← memcpy psk (token ++ [0])
          let wifiSsid ← memcpy zeroStr (text ssid.toList ++ [0])
          let wifiPsk ← memcpy zeroStr (text psk.toList ++ [0])
          let v ← sysFindVar McuVar.wifiSsid.name McuVar.wifiSsid.name.length
          let nvs ← sysSetNvsVar calls nvs v ssid.toList
          let v ← sysFindVar McuVar.wifiPsk.name McuVar.wifiPsk.name.length
          let nvs ← sysSetNvsVar calls nvs v psk.toList
          return .ok wifiSsid wifiPsk nvs

/-- The SSID and the PSK of a write, `<SSID> <PASSWORD>`. -/
def bleTokens (data : List UInt8) : Option (List UInt8 × List UInt8) := do
  let (ssid, rest) ← strtok space (text data)
  let (psk, _) ← strtok 10 rest
  return (ssid, psk)

/-! ### Writes and reboots -/

/-- The string fields of `g_mcu` that are kept in flash. -/
inductive StrField
  | wifiSsid
  | wifiPsk
  | dataHostIpAddr
  | ntpHostIpAddr
  deriving DecidableEq, Repr

namespace StrField

def var : StrField → McuVar
  | .wifiSsid => .wifiSsid
  | .wifiPsk => .wifiPsk
  | .dataHostIpAddr => .dataHost
  | .ntpHostIpAddr => .ntpHost

def get (m : McuConf) : StrField → Vector UInt8 varStrMaxLen
  | .wifiSsid => m.wifiSsid
  | .wifiPsk => m.wifiPsk
  | .dataHostIpAddr => m.dataHostIpAddr
  | .ntpHostIpAddr => m.ntpHostIpAddr

def default : StrField → List UInt8
  | .wifiSsid => ascii "markit"
  | .wifiPsk => ascii "12345678"
  | .dataHostIpAddr => ascii "255.255.255.255"
  | .ntpHostIpAddr => ascii ""

theorem get_load (f : StrField) (nvs : Nvs) (stack : McuVar → GetStack) :
    f.get (sysLoadNvsConfiguration nvs stack) = sysLoadStrConf nvs stack f.var f.default := by
  cases f <;> rfl

theorem type_var (f : StrField) : f.var.type = .str := by
  cases f <;> rfl

/-- A default that is loaded is terminated and itself. -/
theorem default_loads (f : StrField) :
    0 ∈ ((memcpy zeroStr f.default).getD zeroStr).toList ∧
      text ((memcpy zeroStr f.default).getD zeroStr).toList = f.default := by
  cases f <;> decide +kernel

end StrField

structure Node where
  nvs : Nvs
  mcu : McuConf
  /-- the last value that a successful write had for each variable -/
  written : McuVar → Option (List UInt8)
  /-- loaded, and not written to since -/
  booted : Bool
  /-- no write has left its buffer -/
  inBounds : Bool

/-- A device with an erased flash before its first boot. -/
def blank : Node where
  nvs := .erased
  mcu := ⟨zeroStr, zeroStr, zeroStr, zeroStr, 0, 0, 0⟩
  written := fun _ => none
  booted := false
  inBounds := true

/-- The value of a request: its text up to the next parameter, decoded. -/
def postedLength (raw : List UInt8) : Nat := (raw.takeWhile (· ≠ ampersand)).length

def postedValue (raw : List UInt8) : List UInt8 := urlDecodeCopyn raw (postedLength raw)

inductive Label
  | post (v : McuVar) (raw : List UInt8)
  | bleWrite (data : List UInt8) (ssid psk : Vector UInt8 varStrMaxLen)
  | reboot (stack : McuVar → GetStack)

/-- What a write leaves that goes past its buffer is not known. -/
def leaveBounds (s : Node) : Node := { s with booted := false, inBounds := false }

section Steps

variable (calls : NvsCalls)

/-- Only successful writes are steps. -/
def postStep (s : Node) (v : McuVar) (raw : List UInt8) : Option Node :=
  match nvsVariablePost calls s.nvs (variableUri v raw) with
  | none => some (leaveBounds s)
  | some (.ok, nvs) =>
      some { s with
        nvs := nvs
        written := Function.update s.written v (some (postedValue raw))
        booted := false }
  | some _ => none

def bleStep (s : Node) (data : List UInt8) (ssid psk : Vector UInt8 varStrMaxLen) :
    Option Node :=
  match gattSvrChrWifiInfo calls s.nvs data ssid psk with
  | none => some (leaveBounds s)
  | some .unlikely => none
  | some (.ok wifiSsid wifiPsk nvs) =>
      (bleTokens data).map fun tokens => { s with
        nvs := nvs
        mcu := { s.mcu with wifiSsid := wifiSsid, wifiPsk := wifiPsk }
        written := Function.update (Function.update s.written .wifiSsid (some tokens.1))
          .wifiPsk (some tokens.2)
        booted := false }

def step (s : Node) : Label → Option Node
  | .post v raw => postStep calls s v raw
  | .bleWrite data ssid psk => bleStep calls s data ssid psk
  | .reboot stack => some { s with mcu := sysLoadNvsConfiguration s.nvs stack, booted := true }

def machine : Machine Node Label := ⟨fun s => s = blank, step calls⟩

end Steps

/-- A value that the field takes back at the next boot. -/
structure Storable (f : StrField) (w : List UInt8) : Prop where
  text : 0 ∉ w
  short : w.length < varStrMaxLen
  empty : w = [] → f.default = []

/-- What the flash holds for a field, given the last value written. -/
def Stored (nvs : Nvs) (f : StrField) : Option (List UInt8) → Prop
  | none => nvs.blob f.var = none
  | some w => Storable f w ∧
      ∃ b, nvs.blob f.var = some b ∧ 0 ∈ b.toList ∧ CString.text b.toList = w

theorem load_stored {nvs : Nvs} {f : StrField} {written : Option (List UInt8)}
    (h : Stored nvs f written) {stack : McuVar → GetStack}
    (htmp : ∀ w, written = some w → w ≠ f.default → varStrMaxLen ≤ (stack f.var).tmp) :
    0 ∈ (sysLoadStrConf nvs stack f.var f.default).toList ∧
      ∀ w, written = some w →
        CString.text (sysLoadStrConf nvs stack f.var f.default).toList = w := by
  have hzero : CString.text zeroStr.toList = [] := by decide
  have hdefault : ∀ buffer : Vector UInt8 varStrMaxLen, CString.text buffer.toList = [] →
      (if 0 < (CString.text buffer.toList).length then buffer
        else (memcpy zeroStr f.default).getD zeroStr) =
          (memcpy zeroStr f.default).getD zeroStr := by
    intro buffer hempty
    rw [hempty]
    exact if_neg (Nat.lt_irrefl 0)
  cases written with
  | none =>
    have hnone : nvs.blob f.var = none := h
    rw [sysLoadStrConf, sysGetNvsStr, hnone]
    simp only
    rw [hdefault zeroStr hzero]
    exact ⟨f.default_loads.1, nofun⟩
  | some w =>
    obtain ⟨hstorable, b, hblob, hend, rfl⟩ := h
    rw [sysLoadStrConf, sysGetNvsStr, hblob]
    simp only
    by_cases hread : varStrMaxLen ≤ (stack f.var).tmp
    · rw [if_pos hread]
      by_cases hempty : CString.text b.toList = []
      · rw [hdefault b hempty]
        refine ⟨f.default_loads.1, ?_⟩
        intro w hw
        rw [f.default_loads.2, hstorable.empty hempty, ← Option.some.inj hw, hempty]
      · rw [if_pos (List.length_pos_iff.mpr hempty)]
        exact ⟨hend, fun w hw => Option.some.inj hw⟩
    · rw [if_neg hread, hdefault zeroStr hzero]
      refine ⟨f.default_loads.1, ?_⟩
      intro w hw
      rw [f.default_loads.2]
      by_contra hne
      exact hread (htmp w hw (Ne.symm hne))

theorem variableUri_eq (v : McuVar) (raw : List UInt8) :
    variableUri v raw =
      ascii "/v1/nvs/variable" ++ slash :: (v.name ++ questionMark :: (ascii "value" ++
        equalsSign :: raw)) := rfl

/-- The search for `value` passes over the path. -/
theorem strstr_variableUri (v : McuVar) (raw : List UInt8) :
    strstr (ascii "value") (variableUri v raw) =
      some (ascii "value" ++ equalsSign :: raw) := by
  have hpath : strstr (ascii "value") ((ascii "/v1/nvs/variable/" ++ v.name) ++ [questionMark]) =
      none := by
    cases v <;> decide +kernel
  have huri : variableUri v raw = (ascii "/v1/nvs/variable/" ++ v.name) ++
      questionMark :: (ascii "value" ++ equalsSign :: raw) := by
    rw [List.append_assoc]
    rfl
  rw [huri, strstr_append_sep (by decide), hpath]
  exact strstr_self_append _ _

theorem postedLength_split (raw : List UInt8) :
    ∃ v tail, raw = v ++ tail ∧ v.length = postedLength raw ∧ ampersand ∉ v ∧ EndsPair tail := by
  obtain ⟨v, tail, rfl, hv, htail⟩ := exists_pair_end raw
  refine ⟨v, tail, rfl, ?_, hv, htail⟩
  rw [postedLength, (takeWhile_pair hv htail).1]

/-- A request whose value fits the buffer stores it under the name given. -/
theorem post_eq (calls : NvsCalls) (nvs : Nvs) (v : McuVar) {raw : List UInt8}
    (hslash : slash ∉ raw) (hlen : postedLength raw ≤ varStrMaxLen) :
    ∃ value : Vector UInt8 (varStrMaxLen + 1),
      CString.text value.toList = CString.text (postedValue raw) ∧
      nvsVariablePost calls nvs (variableUri v raw) =
        (sysSetNvsVar calls nvs v value.toList).map fun nvs => (.ok, nvs) := by
  have hname : slash ∉ v.name ++ questionMark :: (ascii "value" ++ equalsSign :: raw) := by
    have hv : slash ∉ v.name := by cases v <;> decide
    simp [hv, hslash, (by decide : slash ∉ ascii "value"), (by decide : ¬ slash = questionMark),
      (by decide : ¬ slash = equalsSign)]
  have hquestion : ∀ u : McuVar, questionMark ∉ u.name := by
    intro u
    cases u <;> decide
  have hfind : sysFindVar (v.name ++ questionMark :: (ascii "value" ++ equalsSign :: raw))
      v.name.length = some v := by
    apply sysFindVar_name v hquestion
    rw [List.append_assoc, List.cons_append]
  obtain ⟨p, tail, hraw, hp, hamp, htail⟩ := postedLength_split raw
  have hparse : parseUrlKvPair (variableUri v raw) (ascii "value")
      (Vector.replicate (varStrMaxLen + 1) 0) =
        copyValue (Vector.replicate (varStrMaxLen + 1) 0) raw (postedLength raw) := by
    have hfound : strstr (ascii "value") (variableUri v raw) =
        some (ascii "value" ++ equalsSign :: (p ++ tail)) := by
      rw [← hraw]
      exact strstr_variableUri v raw
    rw [parseUrlKvPair_value _ hfound (by decide) (by decide) hamp htail, hp, ← hraw]
  have hcopy := copyValue_eq (Vector.replicate (varStrMaxLen + 1) 0) raw (postedLength raw)
    (Nat.le_trans hlen (by decide))
  rw [if_pos (Nat.lt_succ_of_le hlen)] at hcopy
  obtain ⟨value, hvalue, htext⟩ := hcopy
  refine ⟨value, htext, ?_⟩
  rw [nvsVariablePost, variableUri_eq, strrchr_append hname]
  simp only [List.tail_cons, List.length_cons]
  rw [if_neg (by simp), strchr_append (hquestion v), strchr_cons_self]
  simp only [List.length_cons]
  rw [if_neg (by simp [ascii]), ← variableUri_eq, hparse, hvalue]
  simp only [List.length_append, List.length_cons, Nat.add_sub_cancel]
  rw [hfind]

/-- The blob of a terminated value is terminated, and the value again. -/
theorem blob_text {f : StrField} {w value : List UInt8} {b : Vector UInt8 varStrMaxLen}
    (hw : Storable f w) (hb : b.toList = value.take varStrMaxLen) (hend : 0 ∈ value)
    (htext : CString.text value = w) :
    Storable f w ∧ 0 ∈ b.toList ∧ CString.text b.toList = w := by
  have htake := text_take (n := varStrMaxLen) hend (htext ▸ hw.short)
  rw [← hb, htext] at htake
  exact ⟨hw, htake⟩

/-- A stored blob for one variable, and the others as they were. -/
theorem stored_update {nvs : Nvs} {written : McuVar → Option (List UInt8)} {v : McuVar}
    (h : ∀ f, Stored nvs f (written f.var)) {w : List UInt8}
    {b : Vector UInt8 varStrMaxLen}
    (hb : ∀ f : StrField, f.var = v → Storable f w ∧ 0 ∈ b.toList ∧ CString.text b.toList = w)
    (f : StrField) :
    Stored { nvs with blob := Function.update nvs.blob v (some b) } f
      (Function.update written v (some w) f.var) := by
  by_cases hf : f.var = v
  · obtain ⟨hw, hend, htext⟩ := hb f hf
    rw [hf, Function.update_self]
    refine ⟨hw, b, ?_, hend, htext⟩
    rw [hf]
    exact Function.update_self v (some b) nvs.blob
  · have hold := h f
    rw [Function.update_of_ne hf]
    cases hwritten : written f.var with
    | none =>
      rw [hwritten] at hold
      exact (Function.update_of_ne hf _ _).trans hold
    | some w' =>
      rw [hwritten] at hold
      obtain ⟨hw, b', hblob, hb'⟩ := hold
      exact ⟨hw, b', (Function.update_of_ne hf _ _).trans hblob, hb'⟩

/-! ### Runs -/

/-- A write comes back at the next boot: the value is in its place, fits, and is
not lost for a default; and the load finds room for the blobs it reads. -/
def WritesFit (s : Node) : Label → Prop
  | .post v raw =>
      slash ∉ raw ∧ postedLength raw ≤ varStrMaxLen ∧
        ∀ f : StrField, f.var = v → Storable f (postedValue raw)
  | .bleWrite data _ _ =>
      ∀ ssid rest, strtok space (text data) = some (ssid, rest) → ssid.length < varStrMaxLen ∧
        ∀ psk rest', strtok 10 rest = some (psk, rest') → psk.length < varStrMaxLen
  | .reboot stack =>
      ∀ (f : StrField) w, s.written f.var = some w → w ≠ f.default →
        varStrMaxLen ≤ (stack f.var).tmp

structure Tracked (s : Node) : Prop where
  inBounds : s.inBounds = true
  stored : ∀ f : StrField, Stored s.nvs f (s.written f.var)
  loaded : s.booted = true → ∀ f : StrField, 0 ∈ (f.get s.mcu).toList ∧
    ∀ w, s.written f.var = some w → CString.text (f.get s.mcu).toList = w

/-- A write leaves the device with what it has stored. -/
theorem write_tracked {s : Node} (h : Tracked s) {nvs : Nvs}
    {written : McuVar → Option (List UInt8)} (hstored : ∀ f, Stored nvs f (written f.var))
    (mcu : McuConf) :
    Tracked { s with nvs := nvs, mcu := mcu, written := written, booted := false } :=
  ⟨h.inBounds, hstored, fun hbooted => absurd hbooted Bool.false_ne_true⟩

theorem postStep_ok {calls : NvsCalls} {s : Node} {v : McuVar} {raw : List UInt8} {nvs : Nvs}
    (h : nvsVariablePost calls s.nvs (variableUri v raw) = some (.ok, nvs)) :
    postStep calls s v raw =
      some { s with
        nvs := nvs
        written := Function.update s.written v (some (postedValue raw))
        booted := false } := by
  unfold postStep
  simp only [h]

theorem postedValue_length (raw : List UInt8) :
    (CString.text (postedValue raw)).length ≤ postedLength raw :=
  Nat.le_trans (length_text_le _) (length_urlDecodeCopyn raw (postedLength raw))

theorem post_tracked {calls : NvsCalls} (hcalls : calls.Accepts) {s t : Node} {v : McuVar}
    {raw : List UInt8} (h : Tracked s) (hok : WritesFit s (.post v raw))
    (hstep : (machine calls).step s (.post v raw) = some t) : Tracked t := by
  obtain ⟨hslash, hlen, hfits⟩ := hok
  obtain ⟨value, htext, hpost⟩ := post_eq calls s.nvs v hslash hlen
  have hsize : value.toList.length = varStrMaxLen + 1 := Vector.length_toList
  have hend : 0 ∈ value.toList := by
    apply mem_of_length_text_lt
    rw [htext, hsize]
    exact Nat.lt_succ_of_le (Nat.le_trans (postedValue_length raw) hlen)
  cases htype : v.type with
  | str =>
    have hroom : varStrMaxLen ≤ value.toList.length := by
      rw [hsize]
      exact Nat.le_succ varStrMaxLen
    obtain ⟨b, hb, hset⟩ := sysSetNvsVar_str calls s.nvs htype hroom
    rw [hset, hcalls.setBlob, Option.map_some] at hpost
    obtain rfl := Option.some.inj ((postStep_ok hpost).symm.trans hstep)
    apply write_tracked h
    apply stored_update h.stored
    intro f hf
    have hw := hfits f hf
    exact blob_text hw hb hend (htext.trans (text_of_not_mem hw.text))
  | int32 =>
    rw [sysSetNvsVar_int32 calls s.nvs htype hend, hcalls.setI32, Option.map_some] at hpost
    obtain rfl := Option.some.inj ((postStep_ok hpost).symm.trans hstep)
    apply write_tracked h
    intro f
    have hne : f.var ≠ v := by
      intro heq
      rw [← heq, f.type_var] at htype
      cases htype
    rw [Function.update_of_ne hne]
    exact h.stored f

section Ble

variable {calls : NvsCalls} {nvs : Nvs} {data name key rest rest' : List UInt8}
  {ssid psk : Vector UInt8 varStrMaxLen}

theorem gatt_unlikely (hfirst : strtok space (text data) = some (name, rest))
    (hname : name.length < varStrMaxLen) (hnext : strtok 10 rest = none) :
    gattSvrChrWifiInfo calls nvs data ssid psk = some .unlikely := by
  obtain ⟨ssid', hssid, _⟩ := memcpy_nul ssid hname
  unfold gattSvrChrWifiInfo
  rw [hfirst]
  simp only [hssid]
  rw [hnext]
  rfl

theorem gatt_ok (hfirst : strtok space (text data) = some (name, rest))
    (hname : name.length < varStrMaxLen) (hnext : strtok 10 rest = some (key, rest'))
    (hkey : key.length < varStrMaxLen) :
    ∃ (wifiSsid wifiPsk b b' : Vector UInt8 varStrMaxLen),
      (0 ∈ wifiSsid.toList ∧ CString.text wifiSsid.toList = name) ∧
      (0 ∈ wifiPsk.toList ∧ CString.text wifiPsk.toList = key) ∧
      (0 ∈ b.toList ∧ CString.text b.toList = name) ∧
      (0 ∈ b'.toList ∧ CString.text b'.toList = key) ∧
      gattSvrChrWifiInfo calls nvs data ssid psk =
        some (.ok wifiSsid wifiPsk
          (calls.setBlob (calls.setBlob nvs .wifiSsid b) .wifiPsk b')) := by
  obtain ⟨hnameNe, hnameSub, hrestSub⟩ := strtok_spec hfirst
  obtain ⟨hkeyNe, hkeySub, _⟩ := strtok_spec hnext
  have hnameNul : 0 ∉ name := fun hmem => not_mem_text data (hnameSub hmem)
  have hkeyNul : 0 ∉ key := fun hmem => not_mem_text data (hrestSub (hkeySub hmem))
  obtain ⟨ssid', hssid, hssidText⟩ := memcpy_nul ssid hname
  obtain ⟨psk', hpsk, hpskText⟩ := memcpy_nul psk hkey
  rw [text_of_not_mem hnameNul] at hssidText
  rw [text_of_not_mem hkeyNul] at hpskText
  obtain ⟨wifiSsid, hwifiSsid, hwifiSsidText⟩ := memcpy_nul zeroStr hname
  obtain ⟨wifiPsk, hwifiPsk, hwifiPskText⟩ := memcpy_nul zeroStr hkey
  rw [text_of_not_mem hnameNul] at hwifiSsidText
  rw [text_of_not_mem hkeyNul] at hwifiPskText
  have hssidSize : ssid'.toList.length = varStrMaxLen := Vector.length_toList
  have hpskSize : psk'.toList.length = varStrMaxLen := Vector.length_toList
  obtain ⟨b, hb, hset⟩ := sysSetNvsVar_str calls nvs (v := .wifiSsid) rfl
    (Nat.le_of_eq hssidSize.symm)
  obtain ⟨b', hb', hset'⟩ := sysSetNvsVar_str calls (calls.setBlob nvs .wifiSsid b)
    (v := .wifiPsk) rfl (Nat.le_of_eq hpskSize.symm)
  rw [List.take_of_length_le (Nat.le_of_eq hssidSize)] at hb
  rw [List.take_of_length_le (Nat.le_of_eq hpskSize)] at hb'
  have hfindSsid :
      sysFindVar McuVar.wifiSsid.name McuVar.wifiSsid.name.length = some .wifiSsid := by
    decide
  have hfindPsk : sysFindVar McuVar.wifiPsk.name McuVar.wifiPsk.name.length = some .wifiPsk := by
    decide
  refine ⟨wifiSsid, wifiPsk, b, b', hwifiSsidText, hwifiPskText, hb ▸ hssidText,
    hb' ▸ hpskText, ?_⟩
  rw [gattSvrChrWifiInfo, hfirst]
  simp only [hssid, hnext, hpsk, hssidText.2, hpskText.2, hwifiSsid, hwifiPsk, hfindSsid, hset,
    hfindPsk, hset', Option.bind_eq_bind, Option.bind_some, Option.pure_def]

/-- A first token that does not fit leaves its array. -/
theorem gatt_longSsid (hfirst : strtok space (text data) = some (name, rest))
    (hname : varStrMaxLen ≤ name.length) : gattSvrChrWifiInfo calls nvs data ssid psk = none := by
  unfold gattSvrChrWifiInfo
  rw [hfirst]
  simp only [memcpy_nul_none ssid hname, Option.bind_eq_bind, Option.bind_none]

theorem gatt_longPsk (hfirst : strtok space (text data) = some (name, rest))
    (hname : name.length < varStrMaxLen) (hnext : strtok 10 rest = some (key, rest'))
    (hkey : varStrMaxLen ≤ key.length) : gattSvrChrWifiInfo calls nvs data ssid psk = none := by
  obtain ⟨ssid', hssid, _⟩ := memcpy_nul ssid hname
  unfold gattSvrChrWifiInfo
  rw [hfirst]
  simp only [hssid, Option.bind_eq_bind, Option.bind_some]
  rw [hnext]
  simp only [memcpy_nul_none psk hkey, Option.bind_none]

end Ble

/-- Both credentials are the last values of their variables. -/
theorem bleTokens_eq {data name key rest rest' : List UInt8}
    (hfirst : strtok space (text data) = some (name, rest))
    (hnext : strtok 10 rest = some (key, rest')) : bleTokens data = some (name, key) := by
  rw [bleTokens, hfirst]
  simp only [hnext, Option.bind_eq_bind, Option.bind_some, Option.pure_def]

theorem storable_token {f : StrField} {delim : UInt8} {s token rest : List UInt8}
    (h : strtok delim s = some (token, rest)) (hs : 0 ∉ s) (hlen : token.length < varStrMaxLen) :
    Storable f token := by
  obtain ⟨hne, hsub, _⟩ := strtok_spec h
  exact ⟨fun hmem => hs (hsub hmem), hlen, fun hnil => absurd hnil hne⟩

theorem bleWrite_tracked {calls : NvsCalls} (hcalls : calls.Accepts) {s t : Node}
    {data : List UInt8} {ssid psk : Vector UInt8 varStrMaxLen}
    (h : Tracked s) (hok : WritesFit s (.bleWrite data ssid psk))
    (hstep : (machine calls).step s (.bleWrite data ssid psk) = some t) : Tracked t := by
  have hble : bleStep calls s data ssid psk = some t := hstep
  cases hfirst : strtok space (text data) with
  | none =>
    rw [bleStep, gattSvrChrWifiInfo, hfirst] at hble
    cases hble
  | some first =>
    obtain ⟨name, rest⟩ := first
    obtain ⟨hname, hsecond⟩ := hok name rest hfirst
    cases hnext : strtok 10 rest with
    | none =>
      rw [bleStep, gatt_unlikely hfirst hname hnext] at hble
      cases hble
    | some second =>
      obtain ⟨key, rest'⟩ := second
      have hkey := hsecond key rest' hnext
      obtain ⟨wifiSsid, wifiPsk, b, b', _, _, hb, hb', hgatt⟩ :=
        gatt_ok hfirst hname hnext hkey
      rw [hcalls.setBlob, hcalls.setBlob] at hgatt
      rw [bleStep, hgatt] at hble
      simp only [bleTokens_eq hfirst hnext, Option.map_some, Option.some.injEq] at hble
      obtain rfl := hble
      have htext : 0 ∉ text data := not_mem_text data
      have hrest : 0 ∉ rest := fun hmem => htext ((strtok_spec hfirst).2.2 hmem)
      apply write_tracked h
      refine stored_update (stored_update h.stored ?_) ?_
      · intro f _
        exact ⟨storable_token hfirst htext hname, hb⟩
      · intro f _
        exact ⟨storable_token hnext hrest hkey, hb'⟩

theorem step_tracked {calls : NvsCalls} (hcalls : calls.Accepts) {s t : Node} {a : Label}
    (h : Tracked s) (hok : WritesFit s a) (hstep : (machine calls).step s a = some t) :
    Tracked t := by
  cases a with
  | post v raw => exact post_tracked hcalls h hok hstep
  | bleWrite data ssid psk => exact bleWrite_tracked hcalls h hok hstep
  | reboot stack =>
    obtain rfl := Option.some.inj hstep
    refine ⟨h.inBounds, h.stored, fun _ f => ?_⟩
    rw [f.get_load]
    exact load_stored (h.stored f) (hok f)

end NvsStrings

end MarkitNode
