import MarkitNode.BleCredentials
import MarkitNode.TextMemory

/-!
`g_mcu` in its bytes, from `wifi_ssid` to the end. The fields lie one behind the
other, so a text that is too long for its field runs on into the next ones. A
write to the Wi-Fi characteristic is given with the arrays on the stack as memory;
where its tokens fit it does what it does on arrays, and stays in the two fields.
-/

namespace MarkitNode

namespace McuMemory

open BleCredentials CString MemoryBlock NvsVars TextMemory UrlQuery

/-- An `int32_t` in memory, the lowest byte first. -/
def int32Bytes (n : Int) : Block UInt8 4 :=
  fun i => UInt8.ofNat ((n % 2 ^ 32).toNat / 256 ^ i.val)

def int32Of (bytes : Block UInt8 4) : Int :=
  let u : Nat := (bytes 0).toNat + 256 * (bytes 1).toNat + 65536 * (bytes 2).toNat +
    16777216 * (bytes 3).toNat
  if u < 2 ^ 31 then u else (u : Int) - 2 ^ 32

theorem int32Of_bytes {n : Int} (h : -2 ^ 31 ≤ n) (h' : n < 2 ^ 31) :
    int32Of (int32Bytes n) = n := by
  have hbound : (n % 2 ^ 32).toNat < 2 ^ 32 := by omega
  have hvalue : ((n % 2 ^ 32).toNat : Int) = n ∨ ((n % 2 ^ 32).toNat : Int) = n + 2 ^ 32 := by
    omega
  have hthree : (3 : Fin 4).val = 3 := rfl
  simp only [int32Of, int32Bytes, UInt8.toNat_ofNat', Fin.val_zero, Fin.val_one, Fin.val_two,
    hthree, Nat.pow_zero, Nat.pow_one, Nat.div_one]
  generalize (n % 2 ^ 32).toNat = u at hbound hvalue ⊢
  have hsum : u % 2 ^ 8 + 256 * (u / 256 % 2 ^ 8) + 65536 * (u / 256 ^ 2 % 2 ^ 8) +
      16777216 * (u / 256 ^ 3 % 2 ^ 8) = u := by omega
  rw [hsum]
  split <;> omega

/-! ### The struct -/

/-- The fields from `wifi_ssid` on, with their sizes in bytes. -/
inductive Field
  | wifiSsid
  | wifiPsk
  | dataHostIpAddr
  | otaUrl
  | ntpHostIpAddr
  | useHamming
  | imuBaud
  | seq
  | targetFps
  | missedFrames
  deriving DecidableEq, Repr

namespace Field

def ofs : Field → Nat
  | .wifiSsid => 0
  | .wifiPsk => 64
  | .dataHostIpAddr => 128
  | .otaUrl => 192
  | .ntpHostIpAddr => 320
  | .useHamming => 384
  | .imuBaud => 388
  | .seq => 392
  | .targetFps => 396
  | .missedFrames => 400

end Field

abbrev Mcu := Block UInt8 404

def imuBaud (mcu : Mcu) : Int := int32Of (get mcu Field.imuBaud.ofs (by decide))

def targetFps (mcu : Mcu) : Int := int32Of (get mcu Field.targetFps.ofs (by decide))

def seq (mcu : Mcu) : Int := int32Of (get mcu Field.seq.ofs (by decide))

/-- An assignment to `g_mcu.seq`. -/
def setSeq (mcu : Mcu) (n : Int) : Mcu := put mcu Field.seq.ofs (int32Bytes n)

/-- The struct after the load at boot, which finds it clear. -/
def loadedMcu (m : McuConf) : Mcu :=
  let mcu : Mcu := fun _ => 0
  let mcu := put mcu Field.wifiSsid.ofs m.wifiSsid.get
  let mcu := put mcu Field.wifiPsk.ofs m.wifiPsk.get
  let mcu := put mcu Field.dataHostIpAddr.ofs m.dataHostIpAddr.get
  let mcu := put mcu Field.ntpHostIpAddr.ofs m.ntpHostIpAddr.get
  let mcu := put mcu Field.imuBaud.ofs (int32Bytes m.imuBaud)
  let mcu := put mcu Field.seq.ofs (int32Bytes m.seq)
  put mcu Field.targetFps.ofs (int32Bytes m.targetFps)

section Load

variable {m : McuConf}

theorem imuBaud_loadedMcu (h : -2 ^ 31 ≤ m.imuBaud) (h' : m.imuBaud < 2 ^ 31) :
    imuBaud (loadedMcu m) = m.imuBaud := by
  rw [imuBaud, loadedMcu, get_put_other _ _ _ (by decide), get_put_other _ _ _ (by decide),
    get_put, int32Of_bytes h h']

theorem seq_loadedMcu (h : -2 ^ 31 ≤ m.seq) (h' : m.seq < 2 ^ 31) :
    seq (loadedMcu m) = m.seq := by
  rw [seq, loadedMcu, get_put_other _ _ _ (by decide), get_put, int32Of_bytes h h']

theorem targetFps_loadedMcu (h : -2 ^ 31 ≤ m.targetFps) (h' : m.targetFps < 2 ^ 31) :
    targetFps (loadedMcu m) = m.targetFps := by
  rw [targetFps, loadedMcu, get_put, int32Of_bytes h h']

end Load

/-- The two numbers that are divided by have the same bytes. -/
def SameRates (mcu mcu' : Mcu) : Prop := imuBaud mcu' = imuBaud mcu ∧ targetFps mcu' = targetFps mcu

theorem sameRates_of_bytes {mcu mcu' : Mcu}
    (h : ∀ i : Fin 404, 384 ≤ i.val → i.val < 392 ∨ 396 ≤ i.val → mcu' i = mcu i) :
    SameRates mcu mcu' := by
  constructor
  · rw [imuBaud, get_congr _ fun i hle hlt => h i (by simp only [Field.ofs] at hle; omega)
      (Or.inl (by simp only [Field.ofs] at hlt; omega)), imuBaud]
  · rw [targetFps, get_congr _ fun i hle hlt => h i (by simp only [Field.ofs] at hle; omega)
      (Or.inr (by simp only [Field.ofs] at hle; omega)), targetFps]

theorem setSeq_sameRates (mcu : Mcu) (n : Int) : SameRates mcu (setSeq mcu n) := by
  apply sameRates_of_bytes
  intro i _ hout
  rw [setSeq, put, dif_neg (by simp only [Field.ofs]; omega)]

/-- A text that ends before the numbers leaves them. -/
theorem strcpy_sameRates {mcu mcu' : Mcu} {ofs : Nat} {s : List UInt8}
    (h : strcpy mcu ofs s = some mcu') (hend : ofs + (s.length + 1) ≤ 384) :
    SameRates mcu mcu' := by
  apply sameRates_of_bytes
  intro i hle _
  exact strcpy_other h (Or.inr (by omega))

/-! ### A write to the Wi-Fi characteristic -/

/-- Where the arrays `ssid` and `psk` lie on the stack. -/
structure FrameLayout where
  size : Nat
  ssid : Nat
  psk : Nat
  ssid_fits : ssid + varStrMaxLen ≤ size
  psk_fits : psk + varStrMaxLen ≤ size
  disjoint : ssid + varStrMaxLen ≤ psk ∨ psk + varStrMaxLen ≤ ssid

/-- The two `memset`. -/
def clearWifi (mcu : Mcu) : Mcu :=
  put (put mcu Field.wifiSsid.ofs zeroStr.get) Field.wifiPsk.ofs zeroStr.get

/-- `gatt_svr_chr_wifi_info` on a write of `data` with `room` bytes behind it, and
the stack from the frame on; `none` if a copy leaves the stack or the struct. -/
def gattSvrChrWifiInfo {l : FrameLayout} (calls : NvsCalls) (mcu : Mcu) (nvs : Nvs)
    (data : List UInt8) (room : Nat) (stack : Block UInt8 l.size) :
    Option (BleStatus × Mcu × Nvs) :=
  if room = 0 then none
  else
    match strtok space (text data) with
    | none => some (.unlikely, mcu, nvs)
    | some (token, rest) => do
        let stack ← strcpy stack l.ssid token
        match strtok newline rest with
        | none => return (.unlikely, mcu, nvs)
        | some (token, _) =>
            let stack ← strcpy stack l.psk token
            let mcu ← strcpyFrom (clearWifi mcu) Field.wifiSsid.ofs (bytesFrom stack l.ssid)
            let mcu ← strcpyFrom mcu Field.wifiPsk.ofs (bytesFrom stack l.psk)
            let v ← sysFindVar McuVar.wifiSsid.name McuVar.wifiSsid.name.length
            let nvs ← sysSetNvsVar calls nvs v (bytesFrom stack l.ssid)
            let v ← sysFindVar McuVar.wifiPsk.name McuVar.wifiPsk.name.length
            let nvs ← sysSetNvsVar calls nvs v (bytesFrom stack l.psk)
            return (.ok, mcu, nvs)

/-- The tokens of a write fit their arrays. -/
def TokensFit (data : List UInt8) : Prop :=
  ∀ name rest, strtok space (text data) = some (name, rest) → name.length < varStrMaxLen ∧
    ∀ key rest', strtok newline rest = some (key, rest') → key.length < varStrMaxLen

/-- What the handler on arrays leaves, in memory. -/
def inMemory (mcu : Mcu) (nvs : Nvs) : NvsStrings.BleResult → BleStatus × Mcu × Nvs
  | .unlikely => (.unlikely, mcu, nvs)
  | .ok wifiSsid wifiPsk nvs =>
      (.ok, put (put (clearWifi mcu) Field.wifiSsid.ofs wifiSsid.get) Field.wifiPsk.ofs wifiPsk.get,
        nvs)

theorem put_sameRates {w ofs : Nat} (mcu : Mcu) (src : Block UInt8 w) (hend : ofs + w ≤ 384) :
    SameRates mcu (put mcu ofs src) := by
  apply sameRates_of_bytes
  intro i hle _
  rw [put, dif_neg (by omega)]

theorem SameRates.trans {mcu mcu' mcu'' : Mcu} (h : SameRates mcu mcu')
    (h' : SameRates mcu' mcu'') : SameRates mcu mcu'' :=
  ⟨h'.1.trans h.1, h'.2.trans h.2⟩

theorem inMemory_sameRates (mcu : Mcu) (nvs : Nvs) (result : NvsStrings.BleResult) :
    SameRates mcu (inMemory mcu nvs result).2.1 := by
  cases result with
  | unlikely => exact ⟨rfl, rfl⟩
  | ok wifiSsid wifiPsk nvs =>
    have hclear : SameRates mcu (clearWifi mcu) :=
      (put_sameRates mcu zeroStr.get (by decide)).trans (put_sameRates _ zeroStr.get (by decide))
    exact (hclear.trans (put_sameRates _ wifiSsid.get (by decide))).trans
      (put_sameRates _ wifiPsk.get (by decide))

section Write

variable {l : FrameLayout} {calls : NvsCalls} {mcu : Mcu} {nvs : Nvs}
  {data name key rest rest' : List UInt8} {room : Nat} {stack : Block UInt8 l.size}

/-- Of a text no more than 64 bytes are stored. -/
theorem sysSetNvsVar_array {v : McuVar} (hv : v.type = .str) {ofs : Nat}
    (h : ofs + varStrMaxLen ≤ l.size) : sysSetNvsVar calls nvs v (bytesFrom stack ofs) =
      sysSetNvsVar calls nvs v (arrayAt stack ofs h : Vector UInt8 varStrMaxLen).toList := by
  have hsize : varStrMaxLen ≤ (bytesFrom stack ofs).length := by
    rw [bytesFrom, List.length_drop, List.length_ofFn]
    omega
  have harray : (arrayAt stack ofs h : Vector UInt8 varStrMaxLen).toList.length =
    varStrMaxLen := Vector.length_toList
  obtain ⟨b, hb, hset⟩ := sysSetNvsVar_str calls nvs hv hsize
  obtain ⟨b', hb', hset'⟩ := sysSetNvsVar_str calls nvs hv (Nat.le_of_eq harray.symm)
  rw [bytesFrom_take stack h] at hb
  rw [List.take_of_length_le (Nat.le_of_eq harray)] at hb'
  rw [hset, hset', Vector.toList_inj.mp (hb.trans hb'.symm)]

/-- The two tokens in their arrays, one copy after the other. -/
theorem exists_arrays (stack : Block UInt8 l.size) (hname : name.length < varStrMaxLen)
    (hkey : key.length < varStrMaxLen) :
    ∃ (ssid psk : Vector UInt8 varStrMaxLen) (stack₁ stack₂ : Block UInt8 l.size),
      memcpy (arrayAt stack l.ssid l.ssid_fits) (name ++ [0]) = some ssid ∧
      memcpy (arrayAt stack l.psk l.psk_fits) (key ++ [0]) = some psk ∧
      (0 ∈ ssid.toList ∧ text ssid.toList = text name) ∧
      (0 ∈ psk.toList ∧ text psk.toList = text key) ∧
      strcpy stack l.ssid name = some stack₁ ∧ strcpy stack₁ l.psk key = some stack₂ ∧
      arrayAt stack₂ l.ssid l.ssid_fits = ssid ∧ arrayAt stack₂ l.psk l.psk_fits = psk := by
  have hdisjoint := l.disjoint
  obtain ⟨ssid, hssid, hssidEnd, hssidText, hcopy⟩ := strcpy_array stack l.ssid_fits hname
  obtain ⟨psk, hpsk, hpskEnd, hpskText, hcopy'⟩ :=
    strcpy_array (put stack l.ssid ssid.get) l.psk_fits hkey
  rw [arrayAt_put_other stack ssid.get l.psk_fits (by omega)] at hpsk
  refine ⟨ssid, psk, _, _, hssid, hpsk, ⟨hssidEnd, hssidText⟩, ⟨hpskEnd, hpskText⟩, hcopy, hcopy',
    ?_, arrayAt_put _ _ psk l.psk_fits⟩
  rw [arrayAt_put_other _ psk.get l.ssid_fits (by omega), arrayAt_put]

/-- A text of fewer than 64 characters is copied into its field. -/
theorem strcpyFrom_field {ofs : Nat} (hroom : ofs + varStrMaxLen ≤ 404) {mcu : Mcu}
    (hclear : arrayAt mcu ofs hroom = zeroStr) {pos : Nat} (h : pos + varStrMaxLen ≤ l.size)
    {src : Vector UInt8 varStrMaxLen} (hsrc : arrayAt stack pos h = src) (hend : 0 ∈ src.toList) :
    ∃ out, memcpy zeroStr (text src.toList ++ [0]) = some out ∧
      strcpyFrom mcu ofs (bytesFrom stack pos) = some (put mcu ofs out.get) := by
  subst hsrc
  obtain ⟨hmem, htext⟩ := text_bytesFrom hend
  have hshort := length_text_lt hend
  rw [Vector.length_toList] at hshort
  obtain ⟨out, hout, _, _, hcopy⟩ := strcpy_array mcu hroom hshort
  rw [hclear] at hout
  refine ⟨out, hout, ?_⟩
  rw [strcpyFrom, if_pos hmem, htext, hcopy]

/-- Where the tokens fit, the handler does in memory what it does on arrays. -/
theorem gattSvrChrWifiInfo_arrays (hroom : 0 < room) (h : TokensFit data) :
    gattSvrChrWifiInfo calls mcu nvs data room stack =
      (NvsStrings.gattSvrChrWifiInfo calls nvs data (arrayAt stack l.ssid l.ssid_fits)
        (arrayAt stack l.psk l.psk_fits)).map (inMemory mcu nvs) := by
  rw [gattSvrChrWifiInfo, if_neg (Nat.ne_of_gt hroom), NvsStrings.gattSvrChrWifiInfo]
  cases hfirst : strtok space (text data) with
  | none => rfl
  | some first =>
    obtain ⟨name, rest⟩ := first
    obtain ⟨hname, hsecond⟩ := h name rest hfirst
    cases hnext : strtok newline rest with
    | none =>
      obtain ⟨ssid, hssid, _, _, hcopy⟩ := strcpy_array stack l.ssid_fits hname
      simp only [hcopy, hssid, Option.bind_eq_bind, Option.bind_some]
      rw [hnext]
      rfl
    | some second =>
      obtain ⟨key, rest'⟩ := second
      have hkey := hsecond key rest' hnext
      obtain ⟨ssid, psk, stack₁, stack₂, hssid, hpsk, hssidText, hpskText, hcopy₁, hcopy₂, hssidAt,
        hpskAt⟩ := exists_arrays stack hname hkey
      have hclear : arrayAt (clearWifi mcu) Field.wifiSsid.ofs (by decide) = zeroStr := by
        rw [clearWifi, arrayAt_put_other _ _ _ (by decide), arrayAt_put]
      obtain ⟨wifiSsid, hwifiSsid, hmcu₁⟩ :=
        strcpyFrom_field (by decide) hclear l.ssid_fits hssidAt hssidText.1
      have hclear' : arrayAt (put (clearWifi mcu) Field.wifiSsid.ofs wifiSsid.get)
          Field.wifiPsk.ofs (by decide) = zeroStr := by
        rw [arrayAt_put_other _ _ _ (by decide), clearWifi, arrayAt_put]
      obtain ⟨wifiPsk, hwifiPsk, hmcu₂⟩ :=
        strcpyFrom_field (by decide) hclear' l.psk_fits hpskAt hpskText.1
      have hfindSsid : sysFindVar McuVar.wifiSsid.name McuVar.wifiSsid.name.length =
        some .wifiSsid := by decide
      have hfindPsk : sysFindVar McuVar.wifiPsk.name McuVar.wifiPsk.name.length =
        some .wifiPsk := by decide
      simp only [hcopy₁, hssid, Option.bind_eq_bind, Option.bind_some]
      rw [hnext]
      simp only [hcopy₂, hpsk, hmcu₁, hmcu₂, hwifiSsid, hwifiPsk, hfindSsid, hfindPsk,
        Option.bind_some, sysSetNvsVar_array (v := .wifiSsid) rfl l.ssid_fits,
        sysSetNvsVar_array (v := .wifiPsk) rfl l.psk_fits, hssidAt, hpskAt, Option.map_bind,
        Function.comp_def]
      rfl

theorem exists_result (calls : NvsCalls) (nvs : Nvs) (ssid psk : Vector UInt8 varStrMaxLen)
    (h : TokensFit data) :
    ∃ result, NvsStrings.gattSvrChrWifiInfo calls nvs data ssid psk = some result := by
  cases hfirst : strtok space (text data) with
  | none =>
    refine ⟨.unlikely, ?_⟩
    rw [NvsStrings.gattSvrChrWifiInfo, hfirst]
  | some first =>
    obtain ⟨name, rest⟩ := first
    obtain ⟨hname, hsecond⟩ := h name rest hfirst
    cases hnext : strtok newline rest with
    | none => exact ⟨.unlikely, NvsStrings.gatt_unlikely hfirst hname hnext⟩
    | some second =>
      obtain ⟨key, rest'⟩ := second
      obtain ⟨wifiSsid, wifiPsk, b, b', _, _, _, _, hgatt⟩ :=
        NvsStrings.gatt_ok hfirst hname hnext (hsecond key rest' hnext)
      exact ⟨_, hgatt⟩

/-- A write whose tokens fit leaves the numbers. -/
theorem write_sameRates (calls : NvsCalls) (mcu : Mcu) (nvs : Nvs) (stack : Block UInt8 l.size)
    (hroom : 0 < room) (h : TokensFit data) : ∃ status mcu' nvs',
      gattSvrChrWifiInfo calls mcu nvs data room stack = some (status, mcu', nvs') ∧
        SameRates mcu mcu' := by
  obtain ⟨result, hresult⟩ := exists_result calls nvs (arrayAt stack l.ssid l.ssid_fits)
    (arrayAt stack l.psk l.psk_fits) h
  refine ⟨(inMemory mcu nvs result).1, (inMemory mcu nvs result).2.1, (inMemory mcu nvs result).2.2,
    ?_, inMemory_sameRates mcu nvs result⟩
  rw [gattSvrChrWifiInfo_arrays hroom h, hresult]
  rfl

end Write

end McuMemory

end MarkitNode
