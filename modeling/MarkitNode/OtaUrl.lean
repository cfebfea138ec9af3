import MarkitNode.BlinkConfigure
import MarkitNode.TextMemory

/-!
The URL of an upgrade on its way from the request into `g_mcu`. The value may
have 128 bytes and so may its text, which `strcpy` copies with its NUL into a
field of 128 bytes; the host for the time follows that field in the struct.
-/

namespace MarkitNode

namespace OtaUrl

open BlinkConfigure CString MemoryBlock NvsVars TextMemory UrlQuery

/-- `CONFIG_OTA_URL_LEN` -/
abbrev otaUrlLen : Nat := 128

/-- `mcu_t` in memory: the offset of `ota_url`, behind which `ntp_host_ip_addr` lies. -/
structure McuLayout where
  size : Nat
  otaUrl : Nat
  fits : otaUrl + otaUrlLen + varStrMaxLen ≤ size

inductive PostStatus
  | ok
  | emptyOtaUrl
  deriving DecidableEq, Repr

def PostStatus.text : PostStatus → String
  | .ok => "ok"
  | .emptyOtaUrl => "empty ota_url"

/-- What the handler works on: `g_mcu` and the event that starts an upgrade. -/
structure Upgrade (l : McuLayout) where
  mcu : Block UInt8 l.size
  evOtaTriggered : Bool

section Handler

variable {l : McuLayout}

/-- `system_upgrade_handler` on a `POST`. -/
def systemUpgradePost (s : Upgrade l) (uri : List UInt8) : Option (PostStatus × Upgrade l) := do
  let otaUrl ← paramText .systemUpgrade uri
  if 0 < otaUrl.length then
    let mcu ← strcpy s.mcu l.otaUrl otaUrl
    return (.ok, ⟨mcu, true⟩)
  else return (.emptyOtaUrl, s)

/-- The bytes of `g_mcu.ota_url`. -/
def otaUrlBytes (mcu : Block UInt8 l.size) : List UInt8 :=
  List.ofFn fun i : Fin otaUrlLen => mcu ⟨l.otaUrl + i, by have := l.fits; omega⟩

end Handler

/-- The parameter of a URI with the given name: the pairs stand behind the `?`,
with a `&` between two of them. -/
def queryParam (key uri : List UInt8) : Option (List UInt8) :=
  (((strchr questionMark uri).getD []).tail.splitOn ampersand).findSome? fun pair =>
    if key ++ [equalsSign] <+: pair then some (pair.drop (key.length + 1)) else none

/-- The field holds the decoded parameter as a C string, and the rest of the
struct is as it was. -/
structure Upgraded {l : McuLayout} (s s' : Upgrade l) (uri : List UInt8) : Prop where
  value : ∃ v w, queryParam (ascii "ota_url") uri = some v ∧ urlDecode v = some w ∧
    0 ∈ otaUrlBytes s'.mcu ∧ text (otaUrlBytes s'.mcu) = w
  frame : ∀ i : Fin l.size, i < l.otaUrl ∨ l.otaUrl + otaUrlLen ≤ i → s'.mcu i = s.mcu i

/-- The text that the search for the key yields, empty if it fails. -/
def foundText (key uri : List UInt8) : List UInt8 :=
  match foundValue key uri with
  | none => []
  | some (v, tail) =>
      if paramValueMaxLen < v.length then [] else text (urlDecodeCopyn (v ++ tail) v.length)

/-- The text that is found is that of the parameter, and is shorter than the field. -/
def Transfers (uri : List UInt8) : Prop :=
  ∃ v w, queryParam (ascii "ota_url") uri = some v ∧ urlDecode v = some w ∧
    foundText (ascii "ota_url") uri = w ∧ w.length < otaUrlLen

/-! ### The copy -/

theorem paramText_found {read : KvRead} (h : read.size = paramValueMaxLen + 1)
    (uri : List UInt8) : paramText read uri = some (foundText read.key uri) := by
  unfold paramText foundText
  cases hfound : foundValue read.key uri with
  | none =>
    obtain ⟨err, herr⟩ := parseUrlKvPair_missing (Vector.replicate read.size 0) hfound
    rw [herr]
    rfl
  | some found =>
    obtain ⟨v, tail⟩ := found
    rw [parseUrlKvPair_found _ hfound]
    simp only
    by_cases hlong : paramValueMaxLen < v.length
    · rw [if_pos hlong, copyValue, if_pos hlong]
      rfl
    · have hcopy := copyValue_eq (Vector.replicate read.size 0) (v ++ tail) v.length
        (Nat.not_lt.mp hlong)
      rw [if_pos (by omega)] at hcopy
      obtain ⟨out, hout, htext⟩ := hcopy
      rw [if_neg hlong, hout, ← htext]
      rfl

section Field

variable {l : McuLayout} {mcu mcu' : Block UInt8 l.size} {s : List UInt8}

theorem length_otaUrlBytes (mcu : Block UInt8 l.size) : (otaUrlBytes mcu).length = otaUrlLen :=
  List.length_ofFn

/-- The field is what has been copied so far as it reaches, and its old bytes. -/
theorem otaUrlBytes_strcpy (h : strcpy mcu l.otaUrl s = some mcu') :
    otaUrlBytes mcu' =
      ((s ++ [0]) ++ (otaUrlBytes mcu).drop (s.length + 1)).take otaUrlLen := by
  have hlen : (s ++ [0]).length = s.length + 1 := List.length_append
  apply List.ext_getElem
  · rw [length_otaUrlBytes, List.length_take, List.length_append, List.length_drop,
      length_otaUrlBytes, hlen]
    omega
  · intro i hi _
    rw [List.getElem_take]
    have hcell := strcpy_apply h ⟨l.otaUrl + i, by
      rw [length_otaUrlBytes] at hi
      have := l.fits
      omega⟩
    simp only [Nat.add_sub_cancel_left] at hcell
    simp only [otaUrlBytes, List.getElem_ofFn, hcell]
    by_cases hin : i < s.length + 1
    · rw [if_pos (by omega), List.getElem_append_left (by omega),
        List.getD_eq_getElem _ _ (by omega)]
    · rw [if_neg (by omega), List.getElem_append_right (by omega), List.getElem_drop]
      simp only [List.getElem_ofFn, hlen]
      congr 2
      omega

/-- A text that is shorter than the field arrives with its NUL. -/
theorem otaUrlBytes_short (h : strcpy mcu l.otaUrl s = some mcu') (hnul : 0 ∉ s)
    (hlen : s.length < otaUrlLen) :
    0 ∈ otaUrlBytes mcu' ∧ text (otaUrlBytes mcu') = s := by
  obtain ⟨k, hk⟩ : ∃ k, otaUrlLen - s.length = k + 1 := ⟨otaUrlLen - s.length - 1, by omega⟩
  rw [otaUrlBytes_strcpy h, List.append_assoc, List.singleton_append, List.take_append,
    List.take_of_length_le (Nat.le_of_lt hlen), hk, List.take_succ_cons, text_append_nul]
  exact ⟨List.mem_append_right s List.mem_cons_self, text_of_not_mem hnul⟩

/-- A text that fills the field leaves it without a NUL. -/
theorem otaUrlBytes_full (h : strcpy mcu l.otaUrl s = some mcu') (hnul : 0 ∉ s)
    (hlen : otaUrlLen ≤ s.length) : 0 ∉ otaUrlBytes mcu' := by
  rw [otaUrlBytes_strcpy h, List.append_assoc, List.take_append_of_le_length hlen]
  intro hmem
  exact hnul (List.mem_of_mem_take hmem)

end Field

/-! ### The request -/

section Accepted

variable {l : McuLayout} {s s' : Upgrade l} {uri : List UInt8}

/-- An accepted request copies the text that is found. -/
theorem systemUpgradePost_ok (h : systemUpgradePost s uri = some (.ok, s')) :
    strcpy s.mcu l.otaUrl (foundText (ascii "ota_url") uri) = some s'.mcu := by
  have hparam := @paramText_found .systemUpgrade rfl uri
  rw [KvRead.key] at hparam
  simp only [systemUpgradePost, hparam, Option.bind_eq_bind, Option.bind_some] at h
  split at h
  · simp only [Option.bind_eq_some_iff, Option.pure_def, Option.some.injEq, Prod.mk.injEq,
      true_and] at h
    obtain ⟨mcu, hmcu, rfl⟩ := h
    exact hmcu
  · cases h

theorem zero_not_mem_foundText (key uri : List UInt8) : 0 ∉ foundText key uri := by
  unfold foundText
  split
  · exact List.not_mem_nil
  · split
    · exact List.not_mem_nil
    · exact not_mem_text _

/-- An accepted request does what it should exactly where the text that is found
is that of the parameter, and is shorter than the field. -/
theorem upgraded_iff (h : systemUpgradePost s uri = some (.ok, s')) :
    Upgraded s s' uri ↔ Transfers uri := by
  have hcopy := systemUpgradePost_ok h
  have hnul := zero_not_mem_foundText (ascii "ota_url") uri
  constructor
  · intro hup
    obtain ⟨v, w, hparam, hdecode, hend, htext⟩ := hup.value
    have hlen : (foundText (ascii "ota_url") uri).length < otaUrlLen := by
      by_contra hfull
      exact otaUrlBytes_full hcopy hnul (Nat.not_lt.mp hfull) hend
    have hfound := (otaUrlBytes_short hcopy hnul hlen).2
    rw [htext] at hfound
    exact ⟨v, w, hparam, hdecode, hfound.symm, hfound ▸ hlen⟩
  · rintro ⟨v, w, hparam, hdecode, rfl, hlen⟩
    refine ⟨⟨v, _, hparam, hdecode, otaUrlBytes_short hcopy hnul hlen⟩, ?_⟩
    intro i hi
    rw [strcpy_apply hcopy, if_neg (by omega)]

end Accepted

/-- A struct of the two fields, with a host for the time. -/
def twoFields : McuLayout := ⟨otaUrlLen + varStrMaxLen, 0, by decide⟩

def beforeUpgrade : Upgrade twoFields := ⟨fun _ => 120, false⟩

theorem upgraded_http :
    ∃ s', systemUpgradePost beforeUpgrade
        (ascii "/v1/system/upgrade?ota_url=http%3A%2F%2F10.0.0.2%2Fnode.bin") = some (.ok, s') ∧
      Upgraded beforeUpgrade s'
        (ascii "/v1/system/upgrade?ota_url=http%3A%2F%2F10.0.0.2%2Fnode.bin") := by
  have hok : ((systemUpgradePost beforeUpgrade
      (ascii "/v1/system/upgrade?ota_url=http%3A%2F%2F10.0.0.2%2Fnode.bin")).map fun result =>
        result.1) = some .ok := by decide +kernel
  obtain ⟨⟨status, s'⟩, hs', hstatus⟩ := Option.map_eq_some_iff.mp hok
  simp only at hstatus
  rw [hstatus] at hs'
  refine ⟨s', hs', (upgraded_iff hs').mpr ?_⟩
  exact ⟨ascii "http%3A%2F%2F10.0.0.2%2Fnode.bin", ascii "http://10.0.0.2/node.bin",
    by decide +kernel, by decide +kernel, by decide +kernel, by decide +kernel⟩

/-- A URL of 128 characters. -/
def longUrl : List UInt8 := ascii "/v1/system/upgrade?ota_url=" ++ plain 128

theorem longUrl_cuts_ntpHost :
    ¬ ∀ (l : McuLayout) (s s' : Upgrade l) (uri : List UInt8),
      systemUpgradePost s uri = some (.ok, s') → Upgraded s s' uri := by
  intro h
  have hcell : ((systemUpgradePost beforeUpgrade longUrl).map fun result =>
      (result.1, result.2.mcu ⟨otaUrlLen, by decide⟩)) = some (.ok, 0) := by decide +kernel
  obtain ⟨⟨status, s'⟩, hs', hfields⟩ := Option.map_eq_some_iff.mp hcell
  obtain ⟨rfl, hzero⟩ := Prod.mk.inj hfields
  have hframe := (h _ _ _ _ hs').frame ⟨otaUrlLen, by decide⟩ (Or.inr (Nat.le_refl _))
  rw [hzero] at hframe
  exact absurd hframe (by decide)

end OtaUrl

end MarkitNode
