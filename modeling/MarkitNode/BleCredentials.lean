import MarkitNode.NvsStrings

/-!
A write to the Wi-Fi characteristic, all or nothing. The stack hands over a chain of
buffers; the handler reads the first one only, ends it with a NUL one byte behind its
data, takes it apart with `strtok` and copies the two tokens, whatever their lengths,
into arrays of 64 bytes.
-/

namespace MarkitNode

namespace BleCredentials

open CString NvsStrings NvsVars UrlQuery

abbrev newline : UInt8 := 10

/-- What a write works on: two fields of `g_mcu`, the flash, and the event. -/
structure WifiConf where
  wifiSsid : Vector UInt8 varStrMaxLen
  wifiPsk : Vector UInt8 varStrMaxLen
  nvs : Nvs
  evWifiConfigUpdated : Bool

/-- The chain of `os_mbuf` that holds a write: `om_data` of the first buffer up to
`om_len`, the free bytes behind them, and the data of the buffers that follow. -/
structure Mbufs where
  data : List UInt8
  room : Nat
  next : List (List UInt8)

/-- What the client has written. -/
def Mbufs.payload (om : Mbufs) : List UInt8 := om.data ++ om.next.flatten

inductive BleStatus
  | ok
  | unlikely
  deriving DecidableEq, Repr

/-- `gatt_svr_chr_wifi_info` on a write; `ssid` and `psk` are the arrays on the
stack. `none` if a byte is written outside of the first buffer and the arrays. -/
def gattWifiWrite (calls : NvsCalls) (s : WifiConf) (om : Mbufs)
    (ssid psk : Vector UInt8 varStrMaxLen) : Option (BleStatus × WifiConf) :=
  if om.room = 0 then none
  else
    match gattSvrChrWifiInfo calls s.nvs om.data ssid psk with
    | none => none
    | some .unlikely => some (.unlikely, s)
    | some (.ok wifiSsid wifiPsk nvs) => some (.ok, ⟨wifiSsid, wifiPsk, nvs, true⟩)

/-- The array holds the text as a C string. -/
def Holds {m : Nat} (v : Vector UInt8 m) (s : List UInt8) : Prop :=
  0 ∈ v.toList ∧ text v.toList = s

/-- The payload is `<SSID> <PSK>`, and both have arrived everywhere. -/
structure Accepted (s s' : WifiConf) (payload ssid psk : List UInt8) : Prop where
  form : text payload = ssid ++ space :: psk
  ssid_ne_nil : ssid ≠ []
  ssid_space : space ∉ ssid
  ssid_fits : ssid.length < varStrMaxLen
  psk_fits : psk.length < varStrMaxLen
  mcu : Holds s'.wifiSsid ssid ∧ Holds s'.wifiPsk psk
  nvs : ∃ b b' : Vector UInt8 varStrMaxLen, Holds b ssid ∧ Holds b' psk ∧
    s'.nvs = { s.nvs with
      blob := Function.update (Function.update s.nvs.blob .wifiSsid (some b))
        .wifiPsk (some b') }
  event : s'.evWifiConfigUpdated = true

/-- The write is rejected and leaves everything as it was, or is accepted. -/
def AllOrNothing (calls : NvsCalls) (s : WifiConf) (om : Mbufs)
    (ssid psk : Vector UInt8 varStrMaxLen) : Prop :=
  (∃ status, status ≠ .ok ∧ gattWifiWrite calls s om ssid psk = some (status, s)) ∨
    ∃ s' name key, gattWifiWrite calls s om ssid psk = some (.ok, s') ∧
      Accepted s s' om.payload name key

/-- The tokens of the first buffer fit, and where there are two, the first begins the
buffer, the second ends it, and the payload has no text behind it. -/
def Plain (om : Mbufs) : Prop :=
  ∀ name rest, strtok space (text om.data) = some (name, rest) → name.length < varStrMaxLen ∧
    ∀ key rest', strtok newline rest = some (key, rest') →
      key.length < varStrMaxLen ∧ newline ∉ rest ∧ (text om.data).head? ≠ some space ∧
        text om.payload = text om.data

/-! ### Tokens -/

theorem strtok_whole {delim : UInt8} {s token rest : List UInt8} (hs : delim ∉ s)
    (h : strtok delim s = some (token, rest)) : token = s := by
  have hne : s ≠ [] := by
    rintro rfl
    cases h
  have hhead : s.head? ≠ some delim := fun heq => hs (List.mem_of_mem_head? heq)
  rw [strtok_of_head hne hhead, List.takeWhile_eq_self_iff.mpr (passes_of_not_mem hs),
    Option.some.injEq, Prod.mk.injEq] at h
  exact h.1.symm

/-- A text that a separator does not begin is its first token, the separator and
the rest. -/
theorem strtok_split {delim : UInt8} {s token rest : List UInt8}
    (hhead : s.head? ≠ some delim) (h : strtok delim s = some (token, rest))
    (hrest : rest ≠ []) : s = token ++ delim :: rest := by
  have hne : s ≠ [] := by
    rintro rfl
    cases h
  rw [strtok_of_head hne hhead, Option.some.injEq, Prod.mk.injEq] at h
  obtain ⟨htoken, htail⟩ := h
  cases hdrop : s.dropWhile (· ≠ delim) with
  | nil =>
    rw [hdrop] at htail
    exact absurd htail.symm hrest
  | cons b back =>
    have hb : b = delim := by
      have hhead' := List.head?_dropWhile_not (fun c => decide (c ≠ delim)) s
      rw [hdrop] at hhead'
      simpa using hhead'
    rw [hdrop, List.tail_cons] at htail
    rw [← htoken, ← htail, ← hb]
    conv_lhs => rw [← List.takeWhile_append_dropWhile (p := (· ≠ delim)) (l := s), hdrop]
    rw [hb]

/-! ### The write -/

section Write

variable {calls : NvsCalls} {s : WifiConf} {om : Mbufs} {name key rest rest' : List UInt8}
  {ssid psk : Vector UInt8 varStrMaxLen}

theorem not_allOrNothing (h : gattWifiWrite calls s om ssid psk = none) :
    ¬ AllOrNothing calls s om ssid psk := by
  rintro (⟨status, _, hsome⟩ | ⟨s', name, key, hsome, _⟩)
  · rw [h] at hsome
    cases hsome
  · rw [h] at hsome
    cases hsome

theorem write_overrun (h : gattSvrChrWifiInfo calls s.nvs om.data ssid psk = none) :
    gattWifiWrite calls s om ssid psk = none := by
  unfold gattWifiWrite
  split
  · rfl
  · rw [h]

theorem write_rejected (hroom : 0 < om.room)
    (h : gattSvrChrWifiInfo calls s.nvs om.data ssid psk = some .unlikely) :
    AllOrNothing calls s om ssid psk := by
  refine Or.inl ⟨.unlikely, nofun, ?_⟩
  rw [gattWifiWrite, if_neg (Nat.ne_of_gt hroom), h]

variable (s ssid psk) in
/-- Two tokens that fit reach the fields, the flash and the event. -/
theorem write_two (hcalls : calls.Accepts) (hroom : 0 < om.room)
    (hfirst : strtok space (text om.data) = some (name, rest)) (hname : name.length < varStrMaxLen)
    (hnext : strtok newline rest = some (key, rest'))
    (hkey : key.length < varStrMaxLen) :
    ∃ s', gattWifiWrite calls s om ssid psk = some (.ok, s') ∧
      (Holds s'.wifiSsid name ∧ Holds s'.wifiPsk key) ∧
      (∃ b b' : Vector UInt8 varStrMaxLen, Holds b name ∧ Holds b' key ∧
        s'.nvs = { s.nvs with
          blob := Function.update (Function.update s.nvs.blob .wifiSsid (some b))
            .wifiPsk (some b') }) ∧
      s'.evWifiConfigUpdated = true := by
  obtain ⟨wifiSsid, wifiPsk, b, b', hssid, hpsk, hb, hb', hgatt⟩ :=
    @gatt_ok calls s.nvs om.data name key rest rest' ssid psk hfirst hname hnext hkey
  rw [hcalls.setBlob, hcalls.setBlob] at hgatt
  have hwrite : gattWifiWrite calls s om ssid psk = some (.ok, ⟨wifiSsid, wifiPsk, { s.nvs with
      blob := Function.update (Function.update s.nvs.blob .wifiSsid (some b))
        .wifiPsk (some b') }, true⟩) := by
    rw [gattWifiWrite, if_neg (Nat.ne_of_gt hroom), hgatt]
  exact ⟨_, hwrite, ⟨hssid, hpsk⟩, ⟨b, b', hb, hb', rfl⟩, rfl⟩

theorem room_of_allOrNothing (h : AllOrNothing calls s om ssid psk) : 0 < om.room := by
  by_contra hzero
  have hnone : gattWifiWrite calls s om ssid psk = none := if_pos (Nat.eq_zero_of_not_pos hzero)
  exact not_allOrNothing hnone h

/-- Tokens that are accepted make up the payload. -/
theorem text_of_allOrNothing (hcalls : calls.Accepts) (h : AllOrNothing calls s om ssid psk)
    (hfirst : strtok space (text om.data) = some (name, rest)) (hname : name.length < varStrMaxLen)
    (hnext : strtok newline rest = some (key, rest')) (hkey : key.length < varStrMaxLen) :
    text om.payload = name ++ space :: key := by
  obtain ⟨t, ht, hmcu, _⟩ :=
    write_two s ssid psk hcalls (room_of_allOrNothing h) hfirst hname hnext hkey
  rcases h with ⟨status, hbad, hwrite⟩ | ⟨s', name', key', hwrite, haccepted⟩
  · rw [ht, Option.some.injEq, Prod.mk.injEq] at hwrite
    exact absurd hwrite.1.symm hbad
  · rw [ht, Option.some.injEq, Prod.mk.injEq] at hwrite
    have hfields := haccepted.mcu
    rw [← hwrite.2] at hfields
    rw [haccepted.form, ← hfields.1.2, hmcu.1.2, ← hfields.2.2, hmcu.2.2]

/-- Two tokens of the first buffer that make up the payload leave no text to the buffers
that follow. -/
theorem text_payload (hfirst : strtok space (text om.data) = some (name, rest))
    (hnext : strtok newline rest = some (key, rest'))
    (hform : text om.payload = name ++ space :: key) : text om.payload = text om.data := by
  have hfront : text om.data <+: text om.payload := text_prefix om.data om.next.flatten
  have hrest : rest ≠ [] := by
    rintro rfl
    cases hnext
  have hdata := (length_strtok hfirst).2 hrest
  have hkey := (length_strtok hnext).1
  have hlen := congrArg List.length hform
  rw [List.length_append, List.length_cons] at hlen
  exact (hfront.eq_of_length_le (by omega)).symm

/-- A payload that its first token begins has no space in front. -/
theorem head_ne_space (hfirst : strtok space (text om.data) = some (name, rest))
    (hform : text om.data = name ++ space :: key) : (text om.data).head? ≠ some space := by
  have hne := (strtok_spec hfirst).1
  rw [hform]
  intro heq
  cases name with
  | nil => exact hne rfl
  | cons c tail =>
    rw [List.cons_append, List.head?_cons, Option.some.injEq] at heq
    exact not_mem_strtok hfirst (heq ▸ List.mem_cons_self)

theorem plain_of_allOrNothing (hcalls : calls.Accepts) (h : AllOrNothing calls s om ssid psk) :
    0 < om.room ∧ Plain om := by
  have hsome : gattWifiWrite calls s om ssid psk ≠ none := fun hnone =>
    not_allOrNothing hnone h
  refine ⟨room_of_allOrNothing h, ?_⟩
  intro name rest hfirst
  have hname : name.length < varStrMaxLen := by
    by_contra hlong
    exact hsome (write_overrun (gatt_longSsid hfirst (Nat.not_lt.mp hlong)))
  refine ⟨hname, ?_⟩
  intro key rest' hnext
  have hkey : key.length < varStrMaxLen := by
    by_contra hlong
    exact hsome (write_overrun (gatt_longPsk hfirst hname hnext (Nat.not_lt.mp hlong)))
  have hpayload := text_of_allOrNothing hcalls h hfirst hname hnext hkey
  have hwhole := text_payload hfirst hnext hpayload
  have hform := hwhole.symm.trans hpayload
  have hhead := head_ne_space hfirst hform
  have hrest : rest ≠ [] := by
    rintro rfl
    cases hnext
  have hsplit := strtok_split hhead hfirst hrest
  rw [hform, List.append_cancel_left_eq, List.cons.injEq] at hsplit
  refine ⟨hkey, ?_, hhead, hwhole⟩
  rw [← hsplit.2]
  exact not_mem_strtok hnext

theorem allOrNothing_of_plain (hcalls : calls.Accepts) (hroom : 0 < om.room) (h : Plain om) :
    AllOrNothing calls s om ssid psk := by
  cases hfirst : strtok space (text om.data) with
  | none =>
    apply write_rejected hroom
    rw [gattSvrChrWifiInfo, hfirst]
  | some first =>
    obtain ⟨name, rest⟩ := first
    obtain ⟨hname, hsecond⟩ := h name rest hfirst
    cases hnext : strtok newline rest with
    | none => exact write_rejected hroom (gatt_unlikely hfirst hname hnext)
    | some second =>
      obtain ⟨key, rest'⟩ := second
      obtain ⟨hkey, hopen, hhead, hwhole⟩ := hsecond key rest' hnext
      obtain ⟨s', hs', hmcu, hnvs, hevent⟩ :=
        write_two s ssid psk hcalls hroom hfirst hname hnext hkey
      have hrest : rest ≠ [] := by
        rintro rfl
        cases hnext
      have hform := strtok_split hhead hfirst hrest
      rw [← strtok_whole hopen hnext, ← hwhole] at hform
      exact Or.inr ⟨s', name, key, hs', hform, (strtok_spec hfirst).1, not_mem_strtok hfirst,
        hname, hkey, hmcu, hnvs, hevent⟩

end Write

/-- Where the flash takes its writes, a write is all or nothing exactly where its
terminator has room and its first buffer is plain. -/
theorem gattWifiWrite_allOrNothing_iff {calls : NvsCalls} (hcalls : calls.Accepts)
    (s : WifiConf) (om : Mbufs) (ssid psk : Vector UInt8 varStrMaxLen) :
    AllOrNothing calls s om ssid psk ↔ 0 < om.room ∧ Plain om := by
  constructor
  · exact plain_of_allOrNothing hcalls
  · rintro ⟨hroom, hplain⟩
    exact allOrNothing_of_plain hcalls hroom hplain

def freshConf : WifiConf := ⟨zeroStr, zeroStr, Nvs.erased, false⟩

/-- A write in one buffer. -/
def lab : Mbufs := ⟨ascii "lab secret", 1, []⟩

theorem gattWifiWrite_allOrNothing_lab : AllOrNothing .roomy freshConf lab zeroStr zeroStr := by
  refine (gattWifiWrite_allOrNothing_iff NvsCalls.roomy_accepts _ lab _ _).mpr
    ⟨Nat.one_pos, ?_⟩
  intro name rest hfirst
  have hsplit : strtok space (text lab.data) = some (ascii "lab", ascii "secret") := by
    decide +kernel
  rw [hsplit, Option.some.injEq, Prod.mk.injEq] at hfirst
  obtain ⟨rfl, rfl⟩ := hfirst
  refine ⟨by decide +kernel, ?_⟩
  intro key rest' hnext
  have hlast : strtok newline (ascii "secret") = some (ascii "secret", []) := by decide +kernel
  rw [hlast, Option.some.injEq, Prod.mk.injEq] at hnext
  rw [← hnext.1]
  exact ⟨by decide +kernel, by decide +kernel, by decide +kernel, by decide +kernel⟩

/-- An SSID of 64 characters, with room for the terminator. -/
theorem ssid64_overruns :
    ¬ ∀ s om ssid psk, 0 < om.room → AllOrNothing .roomy s om ssid psk := by
  intro h
  have hwrite : gattWifiWrite .roomy freshConf
      ⟨List.replicate 64 97 ++ ascii " secret", 1, []⟩ zeroStr zeroStr = none := by decide +kernel
  exact not_allOrNothing hwrite (h _ _ _ _ Nat.one_pos)

end BleCredentials

end MarkitNode
