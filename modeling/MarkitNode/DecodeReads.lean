import MarkitNode.CMemory
import MarkitNode.UrlQuery

/-!
What `url_decode_copyn` reads. The loop looks at the terminator and at the end of
the value before each step only, and a `%` takes the two characters behind it
whatever they are. Here the URI lies in a memory that goes on behind it, and the
loop keeps a list of the places it has read.
-/

namespace MarkitNode

namespace UrlQuery

open CString

/-- A place that was read, counted from the start of the value: by the test of
the loop, or as a character of an escape. -/
inductive Read
  | test (p : Nat)
  | escape (p : Nat)
  deriving DecidableEq, Repr

def Read.place : Read → Nat
  | .test p => p
  | .escape p => p

/-- The loop of `url_decode_copyn` from `p` on: what it writes and what it reads. -/
def decodeLoop (mem : Nat → UInt8) (pEnd p : Nat) : List UInt8 × List Read :=
  if mem p = 0 then ([], [.test p])
  else if pEnd ≤ p then ([], [.test p])
  else if mem p = percent then
    let (out, reads) := decodeLoop mem pEnd (p + 3)
    (hexByte [mem (p + 1), mem (p + 2)] :: out,
      .test p :: .escape (p + 1) :: .escape (p + 2) :: reads)
  else
    let (out, reads) := decodeLoop mem pEnd (p + 1)
    ((if mem p = plus then space else mem p) :: out, .test p :: reads)
  termination_by pEnd - p

/-- The arguments `src` and `size` of the call in `parse_url_kv_pair`, if it gets
that far. -/
def decodeCall (uri key : List UInt8) : Option (List UInt8 × Nat) := do
  let kvStart ← strstr key uri
  let kvEnd := (strchr ampersand kvStart).getD []
  let eqPos ← strchr equalsSign kvStart
  let valueLen := eqPos.length - kvEnd.length - 1
  if eqPos.length < kvEnd.length ∨ paramValueMaxLen < valueLen then none
  else some (eqPos.tail, valueLen)

/-- Nothing behind the terminator of the text is read, and nothing behind the end
of the value as a part of an escape. -/
structure Within (textLen size : Nat) (reads : List Read) : Prop where
  terminator : ∀ r ∈ reads, r.place ≤ textLen
  value : ∀ p, .escape p ∈ reads → p < size

/-- Every call of `url_decode_copyn` for this URI and key stays within, whatever
the memory holds behind the URI. -/
def ReadsWithin (uri key : List UInt8) : Prop :=
  ∀ src size, decodeCall uri key = some (src, size) → ∀ mem, Holds mem src →
    Within src.length size (decodeLoop mem size 0).2

/-- A value of characters and of escapes with both their digits. -/
inductive Whole : List UInt8 → Prop
  | nil : Whole []
  | escape (a b : UInt8) {rest : List UInt8} (h : Whole rest) : Whole (percent :: a :: b :: rest)
  | plain {c : UInt8} {rest : List UInt8} (hc : c ≠ percent) (h : Whole rest) : Whole (c :: rest)

theorem whole_plain_iff {c : UInt8} {rest : List UInt8} (hc : c ≠ percent) :
    Whole (c :: rest) ↔ Whole rest := by
  constructor
  · intro h
    cases h with
    | escape => exact absurd rfl hc
    | plain _ h => exact h
  · exact Whole.plain hc

theorem whole_escape_iff {a b : UInt8} {rest : List UInt8} :
    Whole (percent :: a :: b :: rest) ↔ Whole rest := by
  constructor
  · intro h
    cases h with
    | escape _ _ h => exact h
    | plain hc _ => exact absurd rfl hc
  · exact Whole.escape a b

theorem not_whole_cut {rest : List UInt8} (h : rest.length < 2) : ¬ Whole (percent :: rest) := by
  intro hwhole
  cases hwhole with
  | escape => exact absurd h (by simp)
  | plain hc _ => exact hc rfl

theorem within_cons_test {textLen size p : Nat} {reads : List Read} (hp : p ≤ textLen) :
    Within textLen size (.test p :: reads) ↔ Within textLen size reads := by
  constructor
  · intro h
    exact ⟨fun r hr => h.terminator r (List.mem_cons_of_mem _ hr),
      fun q hq => h.value q (List.mem_cons_of_mem _ hq)⟩
  · intro h
    constructor
    · intro r hr
      rcases List.mem_cons.mp hr with rfl | hrest
      · exact hp
      · exact h.terminator r hrest
    · intro q hq
      rcases List.mem_cons.mp hq with heq | hrest
      · cases heq
      · exact h.value q hrest

theorem within_cons_escape {textLen size p : Nat} {reads : List Read} (hsize : size ≤ textLen) :
    Within textLen size (.escape p :: reads) ↔ p < size ∧ Within textLen size reads := by
  constructor
  · intro h
    exact ⟨h.value p List.mem_cons_self, fun r hr => h.terminator r (List.mem_cons_of_mem _ hr),
      fun q hq => h.value q (List.mem_cons_of_mem _ hq)⟩
  · rintro ⟨hp, h⟩
    constructor
    · intro r hr
      rcases List.mem_cons.mp hr with rfl | hrest
      · exact Nat.le_of_lt (Nat.lt_of_lt_of_le hp hsize)
      · exact h.terminator r hrest
    · intro q hq
      rcases List.mem_cons.mp hq with heq | hrest
      · cases heq
        exact hp
      · exact h.value q hrest

section Loop

variable {mem : Nat → UInt8} {v : List UInt8} {textLen : Nat}

theorem within_singleton_test {size p : Nat} (hp : p ≤ textLen) :
    Within textLen size [.test p] := by
  rw [within_cons_test hp]
  exact ⟨nofun, nofun⟩

/-- The loop stays within from a place of the value on exactly if the rest of
the value has whole escapes. -/
theorem within_iff_whole (hv : 0 ∉ v) (hmem : ∀ i (h : i < v.length), mem i = v[i])
    (hlen : v.length ≤ textLen) {p : Nat} (hp : p ≤ v.length) :
    Within textLen v.length (decodeLoop mem v.length p).2 ↔ Whole (v.drop p) := by
  have hends : ∀ p, p ≤ v.length → ¬ p < v.length →
      (Within textLen v.length [.test p] ↔ Whole (v.drop p)) := by
    intro p hp hend
    rw [List.drop_of_length_le (by omega)]
    exact iff_of_true (within_singleton_test (by omega)) Whole.nil
  fun_induction decodeLoop mem v.length p with
  | case1 p hzero =>
    apply hends p hp
    intro hlt
    rw [hmem p hlt] at hzero
    exact hv (hzero ▸ List.getElem_mem hlt)
  | case2 p _ hend => exact hends p hp (Nat.not_lt.mpr hend)
  | case3 p _ hin hpercent out reads heq ih =>
    have hlt : p < v.length := Nat.not_le.mp hin
    have hhead : v[p] = percent := (hmem p hlt).symm.trans hpercent
    rw [within_cons_test (by omega), within_cons_escape hlen, within_cons_escape hlen]
    rw [List.drop_eq_getElem_cons hlt, hhead]
    by_cases hcut : p + 2 < v.length
    · have hnext : Within textLen v.length reads ↔ Whole (v.drop (p + 3)) := by
        simpa only [heq] using ih (by omega)
      rw [List.drop_eq_getElem_cons (by omega : p + 1 < v.length),
        List.drop_eq_getElem_cons hcut, whole_escape_iff, ← hnext]
      simp only [hcut, (by omega : p + 1 < v.length), true_and]
    · have hshort : (v.drop (p + 1)).length < 2 := by
        rw [List.length_drop]
        omega
      simp only [hcut, not_whole_cut hshort, false_and, and_false]
  | case4 p _ hin hpercent out reads heq ih =>
    have hlt : p < v.length := Nat.not_le.mp hin
    have hhead : v[p] ≠ percent := fun h => hpercent ((hmem p hlt).trans h)
    have hnext : Within textLen v.length reads ↔ Whole (v.drop (p + 1)) := by
      simpa only [heq] using ih (by omega)
    rw [within_cons_test (by omega), List.drop_eq_getElem_cons hlt, whole_plain_iff hhead, ← hnext]

end Loop

/-! ### What the loop writes -/

/-- A NUL ends the digits that are read. -/
theorem hexByte_nul (a : UInt8) : hexByte [0, a] = hexByte [] := rfl

theorem hexByte_nul_second (a : UInt8) : hexByte [a, 0] = hexByte [a] := by
  have hnul : CNumber.isDigit 16 0 = false := rfl
  have hzero : CNumber.isSpace 0 = false := rfl
  by_cases hspace : CNumber.isSpace a
  · simp [hexByte, CNumber.strtol, hspace, hzero, CNumber.skipSign, CNumber.skipPrefix, hnul]
  · by_cases hminus : a = 45
    · rw [hminus]
      rfl
    · by_cases hplus : a = 43
      · rw [hplus]
        rfl
      · have hsign : ∀ rest, CNumber.skipSign (a :: rest) = (false, a :: rest) := by
          intro rest
          simp [CNumber.skipSign, hminus, hplus]
        by_cases hdigit : CNumber.isDigit 16 a
        · simp [hexByte, CNumber.strtol, hspace, hsign, CNumber.skipPrefix, hdigit, hnul]
        · simp [hexByte, CNumber.strtol, hspace, hsign, CNumber.skipPrefix, hdigit]

theorem hexByte_mem {mem : Nat → UInt8} {src : List UInt8} (hmem : Holds mem src) {p : Nat}
    (hp : p ≤ src.length) : hexByte [mem p, mem (p + 1)] = hexByte ((src.drop p).take 2) := by
  by_cases hfirst : p < src.length
  · rw [List.drop_eq_getElem_cons hfirst, hmem.chars p hfirst]
    by_cases hsecond : p + 1 < src.length
    · rw [List.drop_eq_getElem_cons hsecond, hmem.chars (p + 1) hsecond]
      rfl
    · rw [List.drop_of_length_le (by omega), (by omega : p + 1 = src.length), hmem.nul]
      exact hexByte_nul_second _
  · rw [List.drop_of_length_le (by omega), (by omega : p = src.length), hmem.nul]
    exact hexByte_nul _

theorem urlDecodeCopyn_escape (rest : List UInt8) (size : Nat) :
    urlDecodeCopyn (percent :: rest) (size + 1) =
      hexByte (rest.take 2) :: urlDecodeCopyn (rest.drop 2) (size - 2) := by
  match rest with
  | [] => rfl
  | [_] => rfl
  | a :: b :: rest => exact urlDecodeCopyn_percent a b rest size

/-- What the loop writes does not depend on what lies behind the URI. -/
theorem decodeLoop_out {mem : Nat → UInt8} {src : List UInt8} {size p : Nat} (hsrc : 0 ∉ src)
    (hmem : Holds mem src) (hsize : size ≤ src.length) :
    (decodeLoop mem size p).1 = urlDecodeCopyn (src.drop p) (size - p) := by
  fun_induction decodeLoop mem size p with
  | case1 p hzero =>
    have hend : src.length ≤ p := by
      by_contra hlt
      rw [hmem.chars p (Nat.not_le.mp hlt)] at hzero
      exact hsrc (hzero ▸ List.getElem_mem _)
    rw [List.drop_of_length_le hend]
    exact (urlDecodeCopyn.eq_1 _).symm
  | case2 p _ hend => rw [Nat.sub_eq_zero_of_le hend, urlDecodeCopyn_zero]
  | case3 p _ hin hpercent out reads heq ih =>
    have hlt : p < src.length := by omega
    have hout : out = urlDecodeCopyn (src.drop (p + 3)) (size - (p + 3)) := by
      rw [← ih, heq]
    have hhead : src[p] = percent := (hmem.chars p hlt).symm.trans hpercent
    rw [List.drop_eq_getElem_cons hlt, hhead, (by omega : size - p = size - p - 1 + 1),
      urlDecodeCopyn_escape, hexByte_mem hmem (by omega), List.drop_drop, hout]
    congr 1
  | case4 p _ hin hpercent out reads heq ih =>
    have hlt : p < src.length := by omega
    have hout : out = urlDecodeCopyn (src.drop (p + 1)) (size - (p + 1)) := by
      rw [← ih, heq]
    have hhead : mem p = src[p] := hmem.chars p hlt
    rw [hhead] at hpercent
    rw [List.drop_eq_getElem_cons hlt, (by omega : size - p = size - (p + 1) + 1),
      urlDecodeCopyn_plain hpercent, hhead, hout]

/-! ### The call -/

section Call

variable {uri key v tail : List UInt8}

/-- `parse_url_kv_pair` copies the value of its call of `url_decode_copyn`. -/
theorem parseUrlKvPair_decodeCall {size : Nat} (value : Vector UInt8 size) {src : List UInt8}
    {n : Nat} (h : decodeCall uri key = some (src, n)) :
    parseUrlKvPair uri key value = copyValue value src n ∧ n ≤ paramValueMaxLen := by
  simp only [decodeCall, Option.bind_eq_bind, Option.bind_eq_some_iff] at h
  obtain ⟨kvStart, hstart, eqPos, heqPos, h⟩ := h
  split at h
  · cases h
  · rename_i hbounds
    rw [not_or, Nat.not_lt, Nat.not_lt] at hbounds
    obtain ⟨rfl, rfl⟩ := Prod.mk.inj (Option.some.inj h)
    refine ⟨?_, hbounds.2⟩
    rw [parseUrlKvPair, hstart]
    simp only [heqPos]
    exact if_neg (Nat.not_lt.mpr hbounds.1)

theorem decodeCall_found (h : foundValue key uri = some (v, tail))
    (hlen : v.length ≤ paramValueMaxLen) : decodeCall uri key = some (v ++ tail, v.length) := by
  obtain ⟨name, hfound, hname, heq, hv, htail⟩ := exists_of_foundValue h
  have hend := strchr_pair_end hname hv htail
  simp only [decodeCall, hfound, hend, strchr_append heq, strchr_cons_self, Option.bind_eq_bind,
    Option.bind_some, List.length_cons, List.length_append, List.tail_cons]
  have hvalue : v.length + tail.length + 1 - tail.length - 1 = v.length := by omega
  rw [hvalue, if_neg (by omega)]

/-- The call decodes the value that is found, unless it is too long. -/
theorem decodeCall_eq_some_iff {src : List UInt8} {n : Nat} :
    decodeCall uri key = some (src, n) ↔
      ∃ v tail, foundValue key uri = some (v, tail) ∧ v.length ≤ paramValueMaxLen ∧
        v ++ tail = src ∧ v.length = n := by
  constructor
  · intro hcall
    obtain ⟨hparse, hn⟩ :=
      parseUrlKvPair_decodeCall (Vector.replicate (paramValueMaxLen + 1) 0) hcall
    have hcopy := copyValue_eq (Vector.replicate (paramValueMaxLen + 1) 0) src n hn
    rw [if_pos (Nat.lt_succ_of_le hn)] at hcopy
    obtain ⟨out, hout, _⟩ := hcopy
    cases hfound : foundValue key uri with
    | none =>
      obtain ⟨err, herr⟩ :=
        parseUrlKvPair_missing (Vector.replicate (paramValueMaxLen + 1) 0) hfound
      rw [hparse, hout] at herr
      cases herr
    | some found =>
      obtain ⟨v, tail⟩ := found
      have hlen : v.length ≤ paramValueMaxLen := by
        by_contra hlong
        have herr := parseUrlKvPair_found (Vector.replicate (paramValueMaxLen + 1) 0) hfound
        rw [copyValue, if_pos (Nat.not_le.mp hlong), hparse, hout] at herr
        cases herr
      rw [decodeCall_found hfound hlen] at hcall
      obtain ⟨hsrc, hsize⟩ := Prod.mk.inj (Option.some.inj hcall)
      exact ⟨v, tail, rfl, hlen, hsrc, hsize⟩
  · rintro ⟨v, tail, hfound, hlen, rfl, rfl⟩
    exact decodeCall_found hfound hlen

theorem zero_not_mem_found (huri : 0 ∉ uri) (h : foundValue key uri = some (v, tail)) :
    0 ∉ v := by
  obtain ⟨name, hfound, _⟩ := exists_of_foundValue h
  intro hmem
  exact huri ((strstr_suffix hfound).subset (by simp [hmem]))

/-- The reads stay within exactly for the values whose escapes are whole. -/
theorem readsWithin_iff_whole (huri : 0 ∉ uri) (key : List UInt8) :
    ReadsWithin uri key ↔
      ∀ v tail, foundValue key uri = some (v, tail) → v.length ≤ paramValueMaxLen → Whole v := by
  have hloop : ∀ {v tail : List UInt8}, foundValue key uri = some (v, tail) → ∀ mem,
      Holds mem (v ++ tail) →
        (Within (v ++ tail).length v.length (decodeLoop mem v.length 0).2 ↔ Whole v) := by
    intro v tail hfound mem hmem
    have hlen : v.length ≤ (v ++ tail).length := by
      rw [List.length_append]
      exact Nat.le_add_right _ _
    refine within_iff_whole (zero_not_mem_found huri hfound) ?_ hlen (Nat.zero_le _)
    intro i hi
    rw [hmem.chars i (Nat.lt_of_lt_of_le hi hlen), List.getElem_append_left hi]
  constructor
  · intro h v tail hfound hlen
    obtain ⟨mem, hmem⟩ := exists_holds (v ++ tail)
    exact (hloop hfound mem hmem).mp (h _ _ (decodeCall_found hfound hlen) mem hmem)
  · intro h src size hcall mem hmem
    obtain ⟨v, tail, hfound, hlen, rfl, rfl⟩ := decodeCall_eq_some_iff.mp hcall
    exact (hloop hfound mem hmem).mpr (h v tail hfound hlen)

end Call

theorem readsWithin_letter :
    ReadsWithin (ascii "/v1/blink/configure?mode=%41") (ascii "mode") := by
  apply (readsWithin_iff_whole (by decide) (ascii "mode")).mpr
  intro v tail hfound _
  have hvalue : foundValue (ascii "mode") (ascii "/v1/blink/configure?mode=%41") =
      some (ascii "%41", []) := by decide
  rw [hvalue] at hfound
  cases hfound
  exact Whole.escape 52 49 Whole.nil

/-- A `%` at the end of the URI: the terminator and what follows it are taken for
the digits. -/
theorem reads_behind_terminator : ¬ ∀ uri key, 0 ∉ uri → ReadsWithin uri key := by
  intro h
  have hcall : decodeCall (ascii "/v1/blink/configure?mode=%") (ascii "mode") =
      some ([percent], 1) := by decide
  obtain ⟨mem, hmem⟩ := exists_holds [percent]
  have hwithin := h _ _ (by decide) _ _ hcall mem hmem
  have hhead : mem 0 = percent := hmem.chars 0 (by decide)
  have hread : .escape 2 ∈ (decodeLoop mem 1 0).2 := by
    rw [decodeLoop, if_neg (by rw [hhead]; decide), if_neg (by decide), if_pos hhead]
    simp
  exact absurd (hwithin.terminator _ hread) (by decide)

end UrlQuery

end MarkitNode
