import MarkitNode.CNumber
import MarkitNode.CString
import MarkitNode.StatusCodes

/-!
How the REST handlers read a parameter of their request. `parse_url_kv_pair`
looks for the text of the key in the whole URI, takes what stands between the
next `=` and the next `&`, and decodes it into the buffer of the handler.
-/

namespace MarkitNode

namespace UrlQuery

open CString

abbrev ampersand : UInt8 := 38
abbrev equalsSign : UInt8 := 61
abbrev questionMark : UInt8 := 63
abbrev percent : UInt8 := 37
abbrev plus : UInt8 := 43
abbrev space : UInt8 := 32

/-- `CONFIG_PARAM_VALUE_MAX_LEN` -/
abbrev paramValueMaxLen : Nat := 128

/-- `(unsigned char) strtol(code, NULL, 16)` -/
def hexByte (code : List UInt8) : UInt8 := UInt8.ofNat ((CNumber.strtol 16 code).1 % 256).toNat

/-- What the loop writes to `dest`, for the string `src` and `size` bytes of it.
The two characters behind a `%` are read wherever `size` ends, and those that
the string lacks are NULs. -/
def urlDecodeCopyn : List UInt8 → Nat → List UInt8
  | [], _ => []
  | _, 0 => []
  | c :: rest, size + 1 =>
      if c = percent then
        match rest with
        | a :: b :: rest => hexByte [a, b] :: urlDecodeCopyn rest (size - 2)
        | code => [hexByte code]
      else if c = plus then space :: urlDecodeCopyn rest size
      else c :: urlDecodeCopyn rest size

/-- What a call leaves the handler with: an error and its buffer as it was, or
the buffer with the value. -/
inductive KvResult (size : Nat)
  | error (err : EspErr)
  | ok (value : Vector UInt8 size)
  deriving DecidableEq

/-- The end of `parse_url_kv_pair`: the value has `len` bytes from `src` on;
`none` if a byte is written past the end of the buffer. -/
def copyValue {size : Nat} (value : Vector UInt8 size) (src : List UInt8) (len : Nat) :
    Option (KvResult size) :=
  if paramValueMaxLen < len then some (.error .invalidArg)
  else do
    let decoded ← memcpy value (urlDecodeCopyn src len ++ [0])
    let ended ← assign decoded len 0
    return .ok ended

def parseUrlKvPair {size : Nat} (uri key : List UInt8) (value : Vector UInt8 size) :
    Option (KvResult size) :=
  match strstr key uri with
  | none => some (.error .notFound)
  | some kvStart =>
      let kvEnd := (strchr ampersand kvStart).getD []
      match strchr equalsSign kvStart with
      | none => some (.error .invalidArg)
      | some eqPos =>
          if eqPos.length < kvEnd.length then some (.error .invalidArg)
          else copyValue value eqPos.tail (eqPos.length - kvEnd.length - 1)

/-! ### Decoding -/

def hexDigit (c : UInt8) : Option Nat := (CNumber.digitVal c).filter (· < 16)

/-- The text that a URL-encoded text stands for: a `%` needs two digits. -/
def urlDecode : List UInt8 → Option (List UInt8)
  | [] => some []
  | c :: rest =>
      if c = percent then
        match rest with
        | a :: b :: rest => do
            let high ← hexDigit a
            let low ← hexDigit b
            let text ← urlDecode rest
            return UInt8.ofNat (16 * high + low) :: text
        | _ => none
      else do
        let text ← urlDecode rest
        return (if c = plus then space else c) :: text

theorem isDigit_of_hexDigit {c : UInt8} {d : Nat} (h : hexDigit c = some d) :
    CNumber.digitVal c = some d ∧ d < 16 := by
  obtain ⟨hval, hlt⟩ := Option.filter_eq_some_iff.mp h
  exact ⟨hval, of_decide_eq_true hlt⟩

theorem hexByte_digits {a b : UInt8} {high low : Nat} (ha : hexDigit a = some high)
    (hb : hexDigit b = some low) : hexByte [a, b] = UInt8.ofNat (16 * high + low) := by
  obtain ⟨haval, hhigh⟩ := isDigit_of_hexDigit ha
  obtain ⟨hbval, hlow⟩ := isDigit_of_hexDigit hb
  have hdigits : ∀ c ∈ [a, b], CNumber.isDigit 16 c := by
    intro c hc
    simp only [List.mem_cons, List.not_mem_nil, or_false] at hc
    rcases hc with rfl | rfl
    · simp [CNumber.isDigit, haval, hhigh]
    · simp [CNumber.isDigit, hbval, hlow]
  have hnoPrefix : CNumber.skipPrefix 16 [a, b] = [a, b] := by
    unfold CNumber.skipPrefix
    split
    · rename_i heq
      simp at heq
    · rfl
  have hmag : CNumber.magnitude 16 [a, b] = 16 * high + low := by
    simp [CNumber.magnitude, haval, hbval]
  rw [hexByte,
    CNumber.strtol_of_digits (CNumber.skipSign_digits hdigits) hnoPrefix (by simp) hdigits, hmag,
    if_neg (by simp), CNumber.clamp_of_bounds (by omega) (by omega)]
  congr 1
  omega

@[simp] theorem urlDecodeCopyn_zero (src : List UInt8) : urlDecodeCopyn src 0 = [] := by
  cases src <;> rfl

theorem urlDecodeCopyn_percent (a b : UInt8) (rest : List UInt8) (size : Nat) :
    urlDecodeCopyn (percent :: a :: b :: rest) (size + 1) =
      hexByte [a, b] :: urlDecodeCopyn rest (size - 2) := by
  rw [urlDecodeCopyn, if_pos rfl]

theorem urlDecodeCopyn_plain {c : UInt8} (h : c ≠ percent) (rest : List UInt8) (size : Nat) :
    urlDecodeCopyn (c :: rest) (size + 1) =
      (if c = plus then space else c) :: urlDecodeCopyn rest size := by
  rw [urlDecodeCopyn.eq_def]
  simp only [if_neg h]
  split <;> rfl

/-- A `%` that the value ends behind is the last character written. -/
theorem urlDecodeCopyn_cut (rest : List UInt8) {size : Nat} (h : size ≤ 2) :
    urlDecodeCopyn (percent :: rest) (size + 1) = [hexByte (rest.take 2)] := by
  match rest with
  | [] => rfl
  | [_] => rfl
  | a :: b :: rest =>
      rw [urlDecodeCopyn_percent, Nat.sub_eq_zero_of_le h, urlDecodeCopyn_zero]
      rfl

theorem urlDecode_percent {a b : UInt8} {rest w : List UInt8}
    (h : urlDecode (percent :: a :: b :: rest) = some w) :
    ∃ high low text, hexDigit a = some high ∧ hexDigit b = some low ∧
      urlDecode rest = some text ∧ UInt8.ofNat (16 * high + low) :: text = w := by
  rw [urlDecode, if_pos rfl] at h
  simpa only [Option.bind_eq_bind, Option.bind_eq_some_iff, Option.pure_def, Option.some.injEq,
    exists_and_left] using h

theorem urlDecode_plain {c : UInt8} {rest w : List UInt8} (hc : c ≠ percent)
    (h : urlDecode (c :: rest) = some w) :
    ∃ text, urlDecode rest = some text ∧ (if c = plus then space else c) :: text = w := by
  rw [urlDecode.eq_def] at h
  simpa only [if_neg hc, Option.bind_eq_bind, Option.bind_eq_some_iff, Option.pure_def,
    Option.some.injEq] using h

/-- The loop decodes what is well encoded, whatever follows the value. -/
theorem urlDecodeCopyn_decode {v w : List UInt8} (h : urlDecode v = some w) (back : List UInt8) :
    urlDecodeCopyn (v ++ back) v.length = w := by
  induction v using urlDecode.induct generalizing w with
  | case1 =>
    rw [urlDecode, Option.some.injEq] at h
    rw [← h, List.length_nil, urlDecodeCopyn_zero]
  | case2 a b rest ih =>
    obtain ⟨high, low, text, ha, hb, hrest, rfl⟩ := urlDecode_percent h
    rw [List.cons_append, List.cons_append, List.cons_append, List.length_cons,
      urlDecodeCopyn_percent, hexByte_digits ha hb]
    exact congrArg _ (ih hrest)
  | case3 code hshort =>
    rw [urlDecode, if_pos rfl] at h
    · cases h
    · exact hshort
  | case4 c rest hc ih =>
    obtain ⟨text, hrest, rfl⟩ := urlDecode_plain hc h
    rw [List.cons_append, List.length_cons, urlDecodeCopyn_plain hc, ih hrest]

theorem length_urlDecodeCopyn (src : List UInt8) (size : Nat) :
    (urlDecodeCopyn src size).length ≤ size := by
  induction src, size using urlDecodeCopyn.induct with
  | case1 size => exact Nat.zero_le size
  | case2 src _ => rw [urlDecodeCopyn_zero, List.length_nil]
  | case3 size a b rest ih =>
    rw [urlDecodeCopyn_percent, List.length_cons]
    omega
  | case4 size code hshort =>
    unfold urlDecodeCopyn
    rw [if_pos rfl]
    split
    · exact absurd rfl (hshort _ _ _)
    · exact Nat.succ_le_succ (Nat.zero_le size)
  | case5 rest size hc ih =>
    rw [urlDecodeCopyn_plain hc, List.length_cons]
    omega
  | case6 c rest size hc _ ih =>
    rw [urlDecodeCopyn_plain hc, List.length_cons]
    omega

/-- Of what follows the value the loop reads two characters at most. -/
theorem urlDecodeCopyn_congr {back back' : List UInt8} (h : back.take 2 = back'.take 2)
    (v : List UInt8) :
    urlDecodeCopyn (v ++ back) v.length = urlDecodeCopyn (v ++ back') v.length := by
  induction v using urlDecode.induct with
  | case1 => rw [List.length_nil, urlDecodeCopyn_zero, urlDecodeCopyn_zero]
  | case2 a b rest ih =>
    simp only [List.cons_append, List.length_cons, urlDecodeCopyn_percent]
    exact congrArg _ ih
  | case3 code hshort =>
    have hlen : code.length ≤ 1 := by
      match code, hshort with
      | [], _ => exact Nat.zero_le 1
      | [_], _ => exact Nat.le_refl 1
      | a :: b :: rest, hshort => exact absurd rfl (hshort a b rest)
    have hcut : ∀ l : List UInt8, l.take (2 - code.length) = (l.take 2).take (2 - code.length) := by
      intro l
      rw [List.take_take, Nat.min_eq_left (Nat.sub_le 2 _)]
    have htake : (code ++ back).take 2 = (code ++ back').take 2 := by
      rw [List.take_append, List.take_append, hcut back, h, ← hcut back']
    simp only [List.cons_append, List.length_cons]
    rw [urlDecodeCopyn_cut _ (by omega), urlDecodeCopyn_cut _ (by omega), htake]
  | case4 c rest hc ih =>
    rw [List.cons_append, List.cons_append, List.length_cons, urlDecodeCopyn_plain hc,
      urlDecodeCopyn_plain hc, ih]

/-! ### The value in the buffer -/

section Copy

variable {size : Nat} (value : Vector UInt8 size) (src : List UInt8) (len : Nat)

/-- The end of the value is set inside the buffer or the call leaves it. -/
theorem copyValue_eq (h : len ≤ paramValueMaxLen) :
    if len < size then
      ∃ out, copyValue value src len = some (.ok out) ∧
        text out.toList = text (urlDecodeCopyn src len)
    else copyValue value src len = none := by
  have hlen := length_urlDecodeCopyn src len
  rw [copyValue, if_neg (Nat.not_lt.mpr h)]
  by_cases hsize : len < size
  · have hfits : (urlDecodeCopyn src len ++ [0]).length ≤ size := by
      rw [List.length_append, List.length_singleton]
      omega
    rw [if_pos hsize]
    simp only [memcpy, dif_pos hfits, Option.bind_eq_bind, Option.bind_some, assign, dif_pos hsize,
      Option.pure_def]
    refine ⟨_, rfl, ?_⟩
    rw [Vector.toList_set, Vector.toList_mk, List.append_assoc]
    exact text_set_nul hlen _
  · rw [if_neg hsize]
    simp only [assign, dif_neg hsize, Option.bind_eq_bind, Option.bind_none, Option.bind_fun_none]

theorem copyValue_gets_iff (w : List UInt8) :
    (∃ out, copyValue value src len = some (.ok out) ∧ text out.toList = w) ↔
      len ≤ paramValueMaxLen ∧ len < size ∧ text (urlDecodeCopyn src len) = w := by
  by_cases h : len ≤ paramValueMaxLen
  · have heq := copyValue_eq value src len h
    by_cases hsize : len < size
    · rw [if_pos hsize] at heq
      obtain ⟨out, hout, htext⟩ := heq
      simp only [hout, h, hsize, ← htext, Option.some.injEq, KvResult.ok.injEq, true_and,
        exists_eq_left']
    · rw [if_neg hsize] at heq
      simp [heq, hsize]
  · rw [copyValue, if_pos (Nat.not_le.mp h)]
    simp [h]

theorem copyValue_error_iff :
    (∃ err, copyValue value src len = some (.error err)) ↔ paramValueMaxLen < len := by
  constructor
  · rintro ⟨err, herr⟩
    by_contra hle
    have heq := copyValue_eq value src len (Nat.not_lt.mp hle)
    rw [herr] at heq
    split at heq
    · obtain ⟨out, hout, _⟩ := heq
      cases hout
    · cases heq
  · intro h
    exact ⟨.invalidArg, if_pos h⟩

/-- A value that is refused leaves no buffer. -/
theorem copyValue_isSome_iff :
    (copyValue value src len).isSome ↔ len < size ∨ paramValueMaxLen < len := by
  by_cases hlen : len ≤ paramValueMaxLen
  · have heq := copyValue_eq value src len hlen
    by_cases hsize : len < size
    · rw [if_pos hsize] at heq
      obtain ⟨out, hout, _⟩ := heq
      simp [hout, hsize]
    · rw [if_neg hsize] at heq
      simp [heq, hsize, hlen]
  · rw [copyValue, if_pos (Nat.not_le.mp hlen)]
    simp [Nat.not_le.mp hlen]

end Copy

/-! ### Finding the value -/

/-- What follows a pair: nothing, or the `&` before the next. -/
def EndsPair (tail : List UInt8) : Prop := ∀ c ∈ tail.head?, c = ampersand

theorem exists_pair_end (s : List UInt8) :
    ∃ front tail, s = front ++ tail ∧ ampersand ∉ front ∧ EndsPair tail := by
  by_cases h : ampersand ∈ s
  · obtain ⟨front, back, rfl, hfront⟩ := List.eq_append_cons_of_mem h
    refine ⟨front, ampersand :: back, rfl, hfront, ?_⟩
    intro c hc
    exact (Option.some.inj hc).symm
  · exact ⟨s, [], (List.append_nil s).symm, h, nofun⟩

theorem strchr_ends {s tail : List UInt8} (hs : ampersand ∉ s) (htail : EndsPair tail) :
    (strchr ampersand (s ++ tail)).getD [] = tail := by
  rw [strchr_append hs]
  cases tail with
  | nil => rfl
  | cons c rest =>
    rw [htail c rfl, strchr_cons_self, Option.getD_some]

theorem strchr_pair_end {name v tail : List UInt8} (hname : ampersand ∉ name)
    (hv : ampersand ∉ v) (htail : EndsPair tail) :
    (strchr ampersand (name ++ equalsSign :: (v ++ tail))).getD [] = tail := by
  have hpair : ampersand ∉ name ++ equalsSign :: v := by
    simp [hname, hv, (by decide : ¬ ampersand = equalsSign)]
  have hend := strchr_ends hpair htail
  rwa [List.append_assoc, List.cons_append] at hend

section Parse

variable {uri key name v tail : List UInt8} {size : Nat} (value : Vector UInt8 size)

/-- From the place where the key is found on, the value is what stands between
the first `=` and the first `&`. -/
theorem parseUrlKvPair_value (h : strstr key uri = some (name ++ equalsSign :: (v ++ tail)))
    (hname : ampersand ∉ name) (heq : equalsSign ∉ name) (hv : ampersand ∉ v)
    (htail : EndsPair tail) :
    parseUrlKvPair uri key value = copyValue value (v ++ tail) v.length := by
  have hend := strchr_pair_end hname hv htail
  rw [parseUrlKvPair, h]
  simp only [hend, strchr_append heq, strchr_cons_self, List.tail_cons, List.length_cons,
    List.length_append]
  rw [if_neg (by omega)]
  congr 1
  omega

theorem parseUrlKvPair_noValue (h : strstr key uri = some (name ++ tail))
    (hname : ampersand ∉ name) (heq : equalsSign ∉ name) (htail : EndsPair tail) :
    parseUrlKvPair uri key value = some (.error .invalidArg) := by
  rw [parseUrlKvPair, h]
  simp only [strchr_ends hname htail, strchr_append heq]
  cases htail' : tail with
  | nil => rfl
  | cons c rest =>
    have hc : c = ampersand := htail c (by rw [htail']; rfl)
    rw [strchr, if_neg (by rw [hc]; decide)]
    cases hfound : strchr equalsSign rest with
    | none => rfl
    | some eqPos =>
      have hlen := length_strchr_le hfound
      exact if_pos (Nat.lt_succ_of_le hlen)

theorem parseUrlKvPair_isSome (uri key : List UInt8) (h : paramValueMaxLen < size) :
    (parseUrlKvPair uri key value).isSome := by
  unfold parseUrlKvPair
  split
  · rfl
  · simp only
    split
    · rfl
    · split
      · rfl
      · rw [copyValue_isSome_iff]
        omega

theorem parseUrlKvPair_notFound (h : strstr key uri = none) :
    parseUrlKvPair uri key value = some (.error .notFound) := by
  rw [parseUrlKvPair, h]

end Parse

/-- The value that the call decodes, of any length, and what follows it. -/
def foundValue (key uri : List UInt8) : Option (List UInt8 × List UInt8) := do
  let kvStart ← strstr key uri
  let eqPos ← strchr equalsSign (kvStart.takeWhile (· ≠ ampersand))
  return (eqPos.tail, kvStart.dropWhile (· ≠ ampersand))

section Found

variable {uri key name v tail : List UInt8} {size : Nat} (value : Vector UInt8 size)

theorem takeWhile_pair {front : List UInt8} (hfront : ampersand ∉ front) (htail : EndsPair tail) :
    (front ++ tail).takeWhile (· ≠ ampersand) = front ∧
      (front ++ tail).dropWhile (· ≠ ampersand) = tail := by
  have hplain := passes_of_not_mem hfront
  rw [List.takeWhile_append_of_pos hplain, List.dropWhile_append_of_pos hplain]
  cases tail with
  | nil => exact ⟨List.append_nil front, rfl⟩
  | cons c rest =>
    have hc : c = ampersand := htail c rfl
    rw [hc, List.takeWhile_cons_of_neg (by simp), List.dropWhile_cons_of_neg (by simp)]
    exact ⟨List.append_nil front, rfl⟩

theorem foundValue_eq (h : strstr key uri = some (name ++ equalsSign :: (v ++ tail)))
    (hname : ampersand ∉ name) (heq : equalsSign ∉ name) (hv : ampersand ∉ v)
    (htail : EndsPair tail) : foundValue key uri = some (v, tail) := by
  have hpair : ampersand ∉ name ++ equalsSign :: v := by
    simp [hname, hv, (by decide : ¬ ampersand = equalsSign)]
  obtain ⟨htake, hdrop⟩ := takeWhile_pair hpair htail
  rw [List.append_assoc, List.cons_append] at htake hdrop
  simp only [foundValue, h, Option.bind_eq_bind, Option.bind_some, htake, hdrop,
    strchr_append heq, strchr_cons_self, List.tail_cons, Option.pure_def]

/-- Where the value stands in the URI. -/
theorem exists_of_foundValue (h : foundValue key uri = some (v, tail)) :
    ∃ name, strstr key uri = some (name ++ equalsSign :: (v ++ tail)) ∧ ampersand ∉ name ∧
      equalsSign ∉ name ∧ ampersand ∉ v ∧ EndsPair tail := by
  simp only [foundValue, Option.bind_eq_bind, Option.bind_eq_some_iff, Option.pure_def,
    Option.some.injEq, Prod.mk.injEq] at h
  obtain ⟨kvStart, hfound, eqPos, heqPos, rfl, rfl⟩ := h
  obtain ⟨front, tail, rfl, hfront, htail⟩ := exists_pair_end kvStart
  obtain ⟨htake, hdrop⟩ := takeWhile_pair hfront htail
  rw [htake] at heqPos
  obtain ⟨name, rest, rfl, hname, rfl⟩ := exists_of_strchr heqPos
  rw [hdrop, hfound, List.tail_cons, List.append_assoc, List.cons_append]
  exact ⟨name, rfl, fun hmem => hfront (by simp [hmem]), hname,
    fun hmem => hfront (by simp [hmem]), htail⟩

theorem parseUrlKvPair_found (h : foundValue key uri = some (v, tail)) :
    parseUrlKvPair uri key value = copyValue value (v ++ tail) v.length := by
  obtain ⟨name, hfound, hname, heq, hv, htail⟩ := exists_of_foundValue h
  exact parseUrlKvPair_value value hfound hname heq hv htail

/-- Without a value the call reports an error. -/
theorem parseUrlKvPair_missing (h : foundValue key uri = none) :
    ∃ err, parseUrlKvPair uri key value = some (.error err) := by
  cases hfound : strstr key uri with
  | none => exact ⟨_, parseUrlKvPair_notFound value hfound⟩
  | some kvStart =>
    obtain ⟨front, tail, rfl, hfront, htail⟩ := exists_pair_end kvStart
    by_cases heq : equalsSign ∈ front
    · obtain ⟨name, v, rfl, hname⟩ := List.eq_append_cons_of_mem heq
      rw [List.append_assoc, List.cons_append] at hfound
      have hvalue := foundValue_eq hfound (fun hmem => hfront (by simp [hmem])) hname
        (fun hmem => hfront (by simp [hmem])) htail
      rw [h] at hvalue
      cases hvalue
    · exact ⟨_, parseUrlKvPair_noValue value hfound hfront heq htail⟩

end Found

end UrlQuery

end MarkitNode
