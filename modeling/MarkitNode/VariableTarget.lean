import MarkitNode.NvsStrings
import MarkitNode.UrlLookup

/-!
Which variable a `POST /v1/nvs/variable/<name>?value=<v>` writes. The name is
what stands behind the last `/` of the whole URI, so a `/` in the value moves it
into the value; the value is what stands behind the first place of the text
`value`, which may be in the name.
-/

namespace MarkitNode

namespace VariableTarget

open CString NvsStrings NvsVars UrlQuery

/-- `POST /v1/nvs/variable/<name>?value=<v>` -/
def postUri (name v : List UInt8) : List UInt8 :=
  ascii "/v1/nvs/variable/" ++ (name ++ (ascii "?value=" ++ v))

structure NameText (name : List UInt8) : Prop where
  nul : 0 ∉ name
  slash : slash ∉ name
  questionMark : questionMark ∉ name

/-- The flash holds the text `w` in the variable `u`, and is as it was otherwise:
a string is filled up with NULs, a number is read from the text. -/
def Stores (nvs nvs' : Nvs) (u : McuVar) (w : List UInt8) : Prop :=
  match u.type with
  | .int32 =>
      nvs' = { nvs with
        int32 := Function.update nvs.int32 u (some (CNumber.strtol 10 (text w)).1) }
  | .str => ∃ b : Vector UInt8 varStrMaxLen,
      b.toList = w ++ List.replicate (varStrMaxLen - w.length) 0 ∧
        nvs' = { nvs with blob := Function.update nvs.blob u (some b) }

/-- The handler stores the decoding of `v` in the variable `name`, or answers
with an error and stores nothing, whatever the flash holds. -/
def Obeys (calls : NvsCalls) (name v : List UInt8) : Prop :=
  ∀ nvs,
    (∃ status, status ≠ .ok ∧ nvsVariablePost calls nvs (postUri name v) = some (status, nvs)) ∨
    ∃ u w nvs', u.name = name ∧ urlDecode v = some w ∧ Stores nvs nvs' u w ∧
      nvsVariablePost calls nvs (postUri name v) = some (.ok, nvs')

/-- The name that the handler looks for: from the last `/` to the next `?`, if
something follows. -/
def addressed (uri : List UInt8) : Option (List UInt8) := do
  let lastSlash ← strrchr slash uri
  let nameEnd ← strchr questionMark lastSlash.tail
  if nameEnd.length ≤ 1 then none
  else some (lastSlash.tail.take (lastSlash.tail.length - nameEnd.length))

/-- A value that the search finds and accepts fits the buffer, and goes to the
variable `name`, decoded, if it goes to a variable at all. -/
def Direct (name v : List UInt8) : Prop :=
  ∀ n v' tail, addressed (postUri name v) = some n →
    foundValue (ascii "value") (postUri name v) = some (v', tail) →
    v'.length ≤ paramValueMaxLen →
      v'.length ≤ varStrMaxLen ∧
        ((∃ u : McuVar, u.name = n) → n = name ∧ (urlDecode v).isSome)

/-! ### What is stored -/

theorem questionMark_not_mem_name (u : McuVar) : questionMark ∉ u.name := by
  cases u <;> decide

theorem copyValue_zero {size len : Nat} {src : List UInt8} {out : Vector UInt8 size}
    (h : copyValue (Vector.replicate size 0) src len = some (.ok out)) :
    out.toList = urlDecodeCopyn src len ++
      List.replicate (size - (urlDecodeCopyn src len).length) 0 := by
  have hlen := length_urlDecodeCopyn src len
  rw [copyValue] at h
  split at h
  · cases h
  · simp only [memcpy, assign, Option.bind_eq_bind] at h
    split at h
    · rename_i hfits
      rw [Option.bind_some] at h
      split at h
      · rename_i hend
        rw [List.length_append, List.length_singleton] at hfits
        simp only [Option.bind_some, Option.pure_def, Option.some.injEq, KvResult.ok.injEq] at h
        rw [← h, Vector.toList_set, Vector.toList_mk, Vector.toList_replicate, List.drop_replicate,
          List.length_append, List.length_singleton, List.append_assoc, List.singleton_append,
          ← List.replicate_succ]
        have hcount : size - ((urlDecodeCopyn src len).length + 1) + 1 =
            size - (urlDecodeCopyn src len).length := by omega
        rw [hcount, List.set_append_right _ _ hlen, List.set_replicate_self]
      · cases h
    · cases h

theorem stores_of_set {calls : NvsCalls} (hcalls : calls.Accepts) (nvs : Nvs) (u : McuVar)
    {w value : List UInt8}
    (hw : w.length ≤ varStrMaxLen)
    (hvalue : value = w ++ List.replicate (varStrMaxLen + 1 - w.length) 0) :
    ∃ nvs', sysSetNvsVar calls nvs u value = some nvs' ∧ Stores nvs nvs' u w := by
  have hcount : varStrMaxLen + 1 - w.length = varStrMaxLen - w.length + 1 := by omega
  rw [hcount, List.replicate_succ] at hvalue
  cases htype : u.type with
  | int32 =>
    have hend : 0 ∈ value := by
      rw [hvalue]
      exact List.mem_append_right w List.mem_cons_self
    have htext : text value = text w := by
      rw [hvalue, text_append_nul]
    refine ⟨{ nvs with
      int32 := Function.update nvs.int32 u (some (CNumber.strtol 10 (text w)).1) }, ?_, ?_⟩
    · rw [sysSetNvsVar_int32 calls nvs htype hend, htext, hcalls.setI32]
    · simp only [Stores, htype]
  | str =>
    have hroom : varStrMaxLen ≤ value.length := by
      rw [hvalue, List.length_append, List.length_cons, List.length_replicate]
      omega
    obtain ⟨b, hb, hset⟩ := sysSetNvsVar_str calls nvs htype hroom
    refine ⟨_, hset, ?_⟩
    rw [Stores, htype, hcalls.setBlob]
    refine ⟨b, ?_, rfl⟩
    rw [hb, hvalue, List.take_append, List.take_of_length_le hw, ← List.replicate_succ,
      List.take_replicate]
    congr 2
    omega

/-- A flash that was erased holds one variable. -/
theorem stores_erased_unique {nvs' : Nvs} {u u' : McuVar} {w w' : List UInt8}
    (h : Stores Nvs.erased nvs' u w) (h' : Stores Nvs.erased nvs' u' w') : u = u' := by
  have hpresent : ∀ {t : McuVar} {x : List UInt8}, Stores Nvs.erased nvs' t x → ∀ r,
      ((nvs'.int32 r).isSome || (nvs'.blob r).isSome) = decide (r = t) := by
    intro t x hstores r
    unfold Stores at hstores
    split at hstores
    · rw [hstores]
      by_cases hr : r = t <;> simp [Nvs.erased, Function.update_apply, hr]
    · obtain ⟨b, _, rfl⟩ := hstores
      by_cases hr : r = t <;> simp [Nvs.erased, Function.update_apply, hr]
  have hboth := (hpresent h u).symm.trans (hpresent h' u)
  rw [decide_eq_true rfl] at hboth
  exact of_decide_eq_true hboth.symm

/-! ### The handler -/

section Post

variable (calls : NvsCalls) {uri n v' tail : List UInt8}

theorem addressed_spec (h : addressed uri = some n) :
    ∃ lastSlash nameEnd r, strrchr slash uri = some lastSlash ∧
      strchr questionMark lastSlash.tail = some nameEnd ∧ 1 < nameEnd.length ∧
      nameEnd = questionMark :: r ∧ lastSlash.tail = n ++ questionMark :: r := by
  simp only [addressed, Option.bind_eq_bind, Option.bind_eq_some_iff] at h
  obtain ⟨lastSlash, hslash, nameEnd, hend, hname⟩ := h
  split at hname
  · cases hname
  · rename_i hlong
    obtain ⟨front, r, hsplit, _, hr⟩ := exists_of_strchr hend
    rw [Option.some.injEq, hsplit, hr, List.length_append, Nat.add_sub_cancel,
      List.take_left] at hname
    refine ⟨lastSlash, nameEnd, r, hslash, hend, Nat.not_le.mp hlong, hr, ?_⟩
    rw [hsplit, hname]

theorem post_unaddressed (nvs : Nvs) (h : addressed uri = none) :
    ∃ status, status ≠ .ok ∧ nvsVariablePost calls nvs uri = some (status, nvs) := by
  unfold nvsVariablePost
  cases hslash : strrchr slash uri with
  | none => exact ⟨.emptyName, nofun, rfl⟩
  | some lastSlash =>
    simp only
    by_cases hshort : lastSlash.length ≤ 1
    · rw [if_pos hshort]
      exact ⟨.emptyName, nofun, rfl⟩
    · rw [if_neg hshort]
      cases hend : strchr questionMark lastSlash.tail with
      | none => exact ⟨.emptyValue, nofun, rfl⟩
      | some nameEnd =>
        simp only
        by_cases hempty : nameEnd.length ≤ 1
        · rw [if_pos hempty]
          exact ⟨.emptyValue, nofun, rfl⟩
        · simp only [addressed, hslash, hend, Option.bind_eq_bind, Option.bind_some,
            if_neg hempty] at h
          cases h

/-- With a name the outcome is that of the search for the value. -/
theorem post_addressed (nvs : Nvs) (hnul : 0 ∉ uri) (h : addressed uri = some n) :
    ∃ find : Option McuVar, (∀ u, find = some u ↔ u.name = n) ∧
      nvsVariablePost calls nvs uri =
        match parseUrlKvPair uri (ascii "value") (Vector.replicate (varStrMaxLen + 1) 0) with
        | none => none
        | some (.error _) => some (.invalidValue, nvs)
        | some (.ok value) =>
            match find with
            | none => some (.invalidName, nvs)
            | some u => (sysSetNvsVar calls nvs u value.toList).map fun nvs => (.ok, nvs) := by
  obtain ⟨lastSlash, nameEnd, r, hslash, hend, hlong, hr, hsplit⟩ := addressed_spec h
  have hlen : lastSlash.tail.length - nameEnd.length = n.length := by
    rw [hsplit, hr, List.length_append, Nat.add_sub_cancel]
  have htail : ¬ lastSlash.length ≤ 1 := by
    have htail := congrArg List.length hsplit
    rw [List.length_tail, List.length_append, List.length_cons] at htail
    omega
  refine ⟨sysFindVar lastSlash.tail n.length, ?_, ?_⟩
  · have hname : 0 ∉ n := by
      intro hmem
      have htext : 0 ∈ lastSlash.tail := by
        rw [hsplit]
        exact List.mem_append_left _ hmem
      exact hnul ((strrchr_suffix hslash).subset (List.mem_of_mem_tail htext))
    have hterm : lastSlash.tail ++ [0] = n ++ questionMark :: (r ++ [0]) := by
      rw [hsplit, List.append_assoc, List.cons_append]
    exact sysFindVar_iff hname questionMark_not_mem_name hterm
  · have hpost : nvsVariablePost calls nvs uri = nvsVariablePost calls nvs uri := rfl
    conv_rhs at hpost =>
      simp only [nvsVariablePost, hslash, if_neg htail, hend, if_neg (Nat.not_le.mpr hlong), hlen]
    exact hpost

/-- A value that fits goes to the variable, and a longer one leaves the buffer. -/
theorem post_found {calls : NvsCalls} (hcalls : calls.Accepts) (nvs : Nvs) (hnul : 0 ∉ uri)
    (h : addressed uri = some n)
    (hfound : foundValue (ascii "value") uri = some (v', tail))
    (hlen : v'.length ≤ paramValueMaxLen) :
    if v'.length ≤ varStrMaxLen then
      (∀ u : McuVar, u.name = n → ∃ nvs', nvsVariablePost calls nvs uri = some (.ok, nvs') ∧
        Stores nvs nvs' u (urlDecodeCopyn (v' ++ tail) v'.length)) ∧
      ((¬ ∃ u : McuVar, u.name = n) → nvsVariablePost calls nvs uri = some (.invalidName, nvs))
    else nvsVariablePost calls nvs uri = none := by
  obtain ⟨find, hfind, hpost⟩ := post_addressed calls nvs hnul h
  rw [parseUrlKvPair_found _ hfound] at hpost
  have hcopy := copyValue_eq (Vector.replicate (varStrMaxLen + 1) (0 : UInt8)) (v' ++ tail)
    v'.length hlen
  by_cases hfits : v'.length ≤ varStrMaxLen
  · rw [if_pos hfits]
    rw [if_pos (Nat.lt_succ_of_le hfits)] at hcopy
    obtain ⟨value, hvalue, _⟩ := hcopy
    have hzero := copyValue_zero hvalue
    rw [hvalue] at hpost
    simp only at hpost
    constructor
    · intro u hu
      have hdecoded := length_urlDecodeCopyn (v' ++ tail) v'.length
      obtain ⟨nvs', hset, hstores⟩ := stores_of_set hcalls nvs u (Nat.le_trans hdecoded hfits) hzero
      rw [(hfind u).mpr hu] at hpost
      simp only [hset, Option.map_some] at hpost
      exact ⟨nvs', hpost, hstores⟩
    · intro hnone
      cases hf : find with
      | none => simpa only [hf] using hpost
      | some u => exact absurd ⟨u, (hfind u).mp hf⟩ hnone
  · rw [if_neg hfits]
    rw [if_neg (by omega)] at hcopy
    rw [hpost, hcopy]

theorem post_refused (nvs : Nvs) (hnul : 0 ∉ uri) (h : addressed uri = some n)
    (herror : ∃ err, parseUrlKvPair uri (ascii "value")
      (Vector.replicate (varStrMaxLen + 1) 0) = some (.error err)) :
    nvsVariablePost calls nvs uri = some (.invalidValue, nvs) := by
  obtain ⟨find, _, hpost⟩ := post_addressed calls nvs hnul h
  obtain ⟨err, herr⟩ := herror
  rw [hpost, herr]

end Post

section Target

variable {calls : NvsCalls} {name v : List UInt8}

theorem zero_not_mem_postUri (hname : NameText name) (hv : ValueText v) : 0 ∉ postUri name v := by
  have hpath : 0 ∉ ascii "/v1/nvs/variable/" := by decide
  have hquery : 0 ∉ ascii "?value=" := by decide
  simp [postUri, hpath, hname.nul, hquery, hv.nul]

/-- For the name of a variable the value that is found is the one given. -/
theorem foundValue_variable (u : McuVar) (hv : ValueText v) :
    foundValue (ascii "value") (postUri u.name v) = some (v, []) := by
  have hfound : strstr (ascii "value") (postUri u.name v) =
      some (ascii "value" ++ equalsSign :: (v ++ [])) := by
    rw [List.append_nil]
    exact strstr_variableUri u v
  exact foundValue_eq hfound (by decide) (by decide) hv.ampersand nofun

theorem decode_variable {w : List UInt8} (h : urlDecode v = some w) :
    urlDecodeCopyn (v ++ []) v.length = w :=
  urlDecodeCopyn_decode h []

/-- What is sent elsewhere, or leaves the buffer, is seen on an erased flash. -/
theorem direct_of_obeys (hcalls : calls.Accepts) (hname : NameText name) (hv : ValueText v)
    (hall : Obeys calls name v) :
    Direct name v := by
  intro n v' tail haddr hfound hlen
  have hpost := post_found hcalls Nvs.erased (zero_not_mem_postUri hname hv) haddr hfound hlen
  have hfits : v'.length ≤ varStrMaxLen := by
    by_contra hlong
    rw [if_neg hlong] at hpost
    rcases hall Nvs.erased with ⟨_, _, hsome⟩ | ⟨_, _, _, _, _, _, hsome⟩
    · rw [hpost] at hsome
      cases hsome
    · rw [hpost] at hsome
      cases hsome
  refine ⟨hfits, ?_⟩
  rintro ⟨u, hu⟩
  rw [if_pos hfits] at hpost
  obtain ⟨nvs', hsent, hstores⟩ := hpost.1 u hu
  rcases hall Nvs.erased with ⟨status, hbad, hsome⟩ | ⟨u', w, nvs'', hu', hw, hstores', hsome⟩
  · rw [hsent, Option.some.injEq, Prod.mk.injEq] at hsome
    exact absurd hsome.1.symm hbad
  · rw [hsent, Option.some.injEq, Prod.mk.injEq] at hsome
    rw [← hsome.2] at hstores'
    rw [← hu, stores_erased_unique hstores hstores', hu', hw]
    exact ⟨rfl, rfl⟩

/-- A value that fits goes to the variable of the request, or to none. -/
theorem post_direct (hcalls : calls.Accepts) (nvs : Nvs) {n v' tail : List UInt8}
    (hname : NameText name) (hv : ValueText v) (hdirect : Direct name v)
    (haddr : addressed (postUri name v) = some n)
    (hfound : foundValue (ascii "value") (postUri name v) = some (v', tail))
    (hlen : v'.length ≤ paramValueMaxLen) :
    nvsVariablePost calls nvs (postUri name v) = some (.invalidName, nvs) ∨
      ∃ u w nvs', u.name = name ∧ urlDecode v = some w ∧ Stores nvs nvs' u w ∧
        nvsVariablePost calls nvs (postUri name v) = some (.ok, nvs') := by
  have hpost := post_found hcalls nvs (zero_not_mem_postUri hname hv) haddr hfound hlen
  obtain ⟨hfits, htarget⟩ := hdirect n v' tail haddr hfound hlen
  rw [if_pos hfits] at hpost
  by_cases hknown : ∃ u : McuVar, u.name = n
  · obtain ⟨hn, hdecodes⟩ := htarget hknown
    obtain ⟨u, hu⟩ := hknown
    obtain ⟨w, hw⟩ := Option.isSome_iff_exists.mp hdecodes
    obtain ⟨nvs', hsent, hstores⟩ := hpost.1 u hu
    have hsame := foundValue_variable u hv
    rw [hu, hn, hfound, Option.some.injEq, Prod.mk.injEq] at hsame
    rw [hsame.1, hsame.2, decode_variable hw] at hstores
    exact Or.inr ⟨u, w, nvs', hu.trans hn, hw, hstores, hsent⟩
  · exact Or.inl (hpost.2 hknown)

/-- With an NVS that accepts the writes, the handler does as it is told exactly where a
value that it accepts fits its buffer and is sent to the variable of the request, well
encoded. -/
theorem obeys_iff (hcalls : calls.Accepts) (hname : NameText name) (hv : ValueText v) :
    Obeys calls name v ↔ Direct name v := by
  refine ⟨direct_of_obeys hcalls hname hv, ?_⟩
  intro hdirect nvs
  have hnul := zero_not_mem_postUri hname hv
  cases haddr : addressed (postUri name v) with
  | none => exact Or.inl (post_unaddressed calls nvs haddr)
  | some n =>
    cases hfound : foundValue (ascii "value") (postUri name v) with
    | none =>
      have hrefused := post_refused calls nvs hnul haddr (parseUrlKvPair_missing _ hfound)
      exact Or.inl ⟨.invalidValue, nofun, hrefused⟩
    | some found =>
      obtain ⟨v', tail⟩ := found
      by_cases hlen : v'.length ≤ paramValueMaxLen
      · rcases post_direct hcalls nvs hname hv hdirect haddr hfound hlen with hunknown | hstored
        · exact Or.inl ⟨.invalidName, nofun, hunknown⟩
        · exact Or.inr hstored
      · have herror := (copyValue_error_iff
          (Vector.replicate (varStrMaxLen + 1) (0 : UInt8)) (v' ++ tail) v'.length).mpr
            (Nat.not_le.mp hlen)
        rw [← parseUrlKvPair_found _ hfound] at herror
        exact Or.inl ⟨.invalidValue, nofun, post_refused calls nvs hnul haddr herror⟩

end Target

theorem nameText_dataHost : NameText (ascii "DATA_HOST") := ⟨by decide, by decide, by decide⟩

theorem obeys_dataHost : Obeys .roomy (ascii "DATA_HOST") (ascii "10.0.0.7") := by
  refine (obeys_iff NvsCalls.roomy_accepts nameText_dataHost ⟨by decide, by decide⟩).mpr ?_
  intro n v' tail haddr hfound _
  have hn : addressed (postUri (ascii "DATA_HOST") (ascii "10.0.0.7")) =
      some (ascii "DATA_HOST") := by decide +kernel
  have hvalue : foundValue (ascii "value") (postUri (ascii "DATA_HOST") (ascii "10.0.0.7")) =
      some (ascii "10.0.0.7", []) := by decide +kernel
  rw [hn, Option.some.injEq] at haddr
  rw [hvalue, Option.some.injEq, Prod.mk.injEq] at hfound
  rw [← haddr, ← hfound.1]
  exact ⟨by decide, fun _ => ⟨rfl, by decide +kernel⟩⟩

/-- A value with a `/` and a `?` that surround the name of another variable. -/
theorem value_names_seq :
    ¬ ∀ name v, NameText name → ValueText v → Obeys .roomy name v := by
  intro h
  have hobeys := h (ascii "DATA_HOST") (ascii "a/SEQ?b") nameText_dataHost
    ⟨by decide, by decide⟩
  have hseq : ((nvsVariablePost .roomy Nvs.erased
      (postUri (ascii "DATA_HOST") (ascii "a/SEQ?b"))).map fun result =>
        (result.1, (result.2.int32 .seq).isSome)) = some (.ok, true) := by decide +kernel
  obtain ⟨⟨status, nvs'⟩, hpost, hfields⟩ := Option.map_eq_some_iff.mp hseq
  obtain ⟨rfl, hstored⟩ := Prod.mk.inj hfields
  rcases hobeys Nvs.erased with ⟨status, hbad, hsome⟩ | ⟨u, w, nvs'', hu, _, hstores, hsome⟩
  · rw [hpost, Option.some.injEq, Prod.mk.injEq] at hsome
    exact hbad hsome.1.symm
  · rw [hpost, Option.some.injEq, Prod.mk.injEq] at hsome
    have hdata : u = .dataHost := name_injective hu
    rw [hdata, ← hsome.2] at hstores
    obtain ⟨b, _, hnvs⟩ := hstores
    rw [hnvs] at hstored
    cases hstored

end VariableTarget

end MarkitNode
