import MarkitNode.SerialScan

/-!
The memory that `parse_data` touches. The loop checks that an item begins inside
the payload, and nothing else: not where the item ends, not how many items there
have been, not how many nodes a gateway packet announces. The same loop is run here
with no more of the buffer than the payload. It comes through exactly where the
items fit, which is read off the payload, and then does what it does on the whole.
-/

namespace MarkitNode

namespace Hi229Serial

/-- The size of an item that has one. -/
def itemWidth (code : UInt8) : Option Nat :=
  if code = kItemID then some 2
  else if code = kItemAccRaw then some 7
  else if code = kItemGyrRaw then some 7
  else if code = kItemMagRaw then some 7
  else if code = kItemRotationEul then some 7
  else if code = kItemRotationQuat then some 17
  else if code = kItemPressure then some 5
  else if code = kItemIMUSOL then some 76
  else none

theorem itemWidth_pos {code : UInt8} {w : Nat} (h : itemWidth code = some w) : 0 < w := by
  unfold itemWidth at h
  (repeat' split at h) <;> cases h <;> decide

/-- A gateway packet is no item of a fixed size. -/
theorem ne_gateway_of_itemWidth {code : UInt8} {w : Nat} (h : itemWidth code = some w) :
    code ≠ kItemGWSOL := by
  intro hgw
  have hnone : itemWidth kItemGWSOL = none := by decide
  rw [hgw, hnone] at h
  cases h

/-- What has to hold of the payload from an item on, with `nitemCode` items
before it: every item ends inside, there are at most eight, and a gateway packet
has no node, or one. -/
def itemsFit (payload : List UInt8) (nitemCode : Nat) : Bool :=
  match payload with
  | [] => true
  | code :: rest =>
      if code = kItemGWSOL then
        decide (nitemCode < 8 ∧ 2 ≤ rest.length) &&
          (rest.getD 1 0 == 0 || rest.getD 1 0 == 1 && decide (83 ≤ rest.length)) &&
            itemsFit (rest.drop (7 + 76 * (rest.getD 1 0).toNat)) (nitemCode + 1)
      else
        match itemWidth code with
        | none => itemsFit rest nitemCode
        | some width =>
            decide (nitemCode < 8 ∧ width ≤ rest.length + 1) &&
              itemsFit (rest.drop (width - 1)) (nitemCode + 1)
termination_by payload.length
decreasing_by
  all_goals
    simp only [List.length_drop, List.length_cons]
    omega

section Fit

variable {rest : List UInt8} {nitemCode : Nat} {code : UInt8}

theorem itemsFit_filler (hgw : code ≠ kItemGWSOL) (hw : itemWidth code = none) :
    itemsFit (code :: rest) nitemCode = itemsFit rest nitemCode := by
  rw [itemsFit, if_neg hgw]
  split
  · rfl
  · next hsome =>
    rw [hw] at hsome
    cases hsome

theorem itemsFit_item {w : Nat} (hw : itemWidth code = some w) :
    itemsFit (code :: rest) nitemCode = true ↔
      (nitemCode < 8 ∧ w ≤ rest.length + 1) ∧
        itemsFit (rest.drop (w - 1)) (nitemCode + 1) = true := by
  have hgw := ne_gateway_of_itemWidth hw
  rw [itemsFit, if_neg hgw]
  split
  · next hnone =>
    rw [hw] at hnone
    cases hnone
  · next width hsome =>
    obtain rfl : w = width := Option.some.inj (hw.symm.trans hsome)
    rw [Bool.and_eq_true, decide_eq_true_iff]

theorem itemsFit_gateway :
    itemsFit (kItemGWSOL :: rest) nitemCode = true ↔
      (nitemCode < 8 ∧ 2 ≤ rest.length) ∧
        (rest.getD 1 0 = 0 ∨ rest.getD 1 0 = 1 ∧ 83 ≤ rest.length) ∧
          itemsFit (rest.drop (7 + 76 * (rest.getD 1 0).toNat)) (nitemCode + 1) = true := by
  rw [itemsFit, if_pos rfl]
  simp only [Bool.and_eq_true, Bool.or_eq_true, decide_eq_true_iff, beq_iff_eq, and_assoc]

end Fit

/-- The bytes behind the header. -/
def RawFrame.payload (frame : RawFrame) : List UInt8 :=
  (frame.buf.toList.drop chHdrSize).take frame.len

section Payload

variable {frame : RawFrame} (hlen : frame.len ≤ maxPayload)
include hlen

theorem length_payload : frame.payload.length = frame.len := by
  have hmax : maxPayload = 506 := rfl
  have hdr : chHdrSize = 6 := rfl
  have hraw : maxRawLen = 512 := rfl
  rw [RawFrame.payload, List.length_take, List.length_drop, Vector.length_toList]
  omega

theorem last_payload : (Window.payload frame).last = chHdrSize + frame.len := by
  have hmax : maxPayload + chHdrSize = maxRawLen := rfl
  exact Nat.min_eq_left (by omega)

theorem U1_payload {i : Nat} (hi : i < frame.len) :
    U1 (.payload frame) (chHdrSize + i) = some (frame.payload.getD i 0) := by
  have hin : i < frame.payload.length := by
    rw [length_payload hlen]
    exact hi
  have hread : (Window.payload frame).first ≤ chHdrSize + i ∧
      chHdrSize + i < (Window.payload frame).last := by
    rw [last_payload hlen]
    exact ⟨Nat.le_add_right _ _, by omega⟩
  have hget : frame.payload[i]? = U1 (.payload frame) (chHdrSize + i) := by
    rw [RawFrame.payload, List.getElem?_take_of_lt hi, List.getElem?_drop, U1, if_pos hread,
      Window.payload, Vector.getElem?_toList]
  rw [← hget, List.getD_eq_getElem?_getD, List.getElem?_eq_getElem hin]
  rfl

theorem drop_payload {ofs : Nat} (h : ofs < frame.len) :
    frame.payload.drop ofs = frame.payload.getD ofs 0 :: frame.payload.drop (ofs + 1) := by
  have hin : ofs < frame.payload.length := by
    rw [length_payload hlen]
    exact h
  rw [List.drop_eq_getElem_cons hin, List.getD_eq_getElem?_getD, List.getElem?_eq_getElem hin]
  rfl

end Payload

section Reads

variable {mem : Window}

theorem isSome_bind_iff {α β : Type} {o : Option α} {f : α → Option β} {p q : Prop}
    (ho : o.isSome ↔ p) (hf : ∀ a, (f a).isSome ↔ q) : (o >>= f).isSome ↔ p ∧ q := by
  cases o with
  | none =>
    refine iff_of_false nofun ?_
    intro h
    cases ho.mpr h.1
  | some a => exact (hf a).trans (and_iff_right (ho.mp rfl)).symm

theorem isSome_bind_pure_iff {α β : Type} {o : Option α} {p : Prop} (ho : o.isSome ↔ p)
    (f : α → β) : (o >>= fun a => pure (f a)).isSome ↔ p := by
  rw [← ho]
  cases o <;> rfl

theorem load_isSome {p : Nat} (h : mem.first ≤ p) (n : Nat) :
    (load mem p n).isSome ↔ p + n ≤ mem.last := by
  unfold load
  split
  · next hin => exact iff_of_true rfl hin.2
  · next hout => exact iff_of_false nofun fun hin => hout ⟨h, hin⟩

theorem U1_isSome {p : Nat} (h : mem.first ≤ p) : (U1 mem p).isSome ↔ p < mem.last := by
  unfold U1
  split
  · next hin => simp [hin.2, Nat.lt_of_lt_of_le hin.2 mem.last_le]
  · next hout => exact iff_of_false nofun fun hin => hout ⟨h, hin⟩

theorem I2_isSome {p : Nat} (h : mem.first ≤ p) : (I2 mem p).isSome ↔ p + 2 ≤ mem.last := by
  rw [I2, Option.isSome_map]
  exact load_isSome h 2

theorem R4_isSome {p : Nat} (h : mem.first ≤ p) : (R4 mem p).isSome ↔ p + 4 ≤ mem.last := by
  rw [R4, U4, Option.isSome_map]
  exact load_isSome h 4

theorem scaled3_isSome {p : Nat} (h : mem.first ≤ p) (d0 d1 d2 : Int) :
    (scaled3 mem p d0 d1 d2).isSome ↔ p + 6 ≤ mem.last :=
  (isSome_bind_iff (I2_isSome h) fun _ => isSome_bind_iff (I2_isSome (by omega)) fun _ =>
    isSome_bind_pure_iff (I2_isSome (by omega)) _).trans (by omega)

theorem float3_isSome {p : Nat} (h : mem.first ≤ p) : (float3 mem p).isSome ↔ p + 12 ≤ mem.last :=
  (isSome_bind_iff (R4_isSome h) fun _ => isSome_bind_iff (R4_isSome (by omega)) fun _ =>
    isSome_bind_pure_iff (R4_isSome (by omega)) _).trans (by omega)

theorem float4_isSome {p : Nat} (h : mem.first ≤ p) : (float4 mem p).isSome ↔ p + 16 ≤ mem.last :=
  (isSome_bind_iff (R4_isSome h) fun _ => isSome_bind_iff (R4_isSome (by omega)) fun _ =>
    isSome_bind_iff (R4_isSome (by omega)) fun _ =>
      isSome_bind_pure_iff (R4_isSome (by omega)) _).trans (by omega)

theorem imuSolAt_isSome {p : Nat} (h : mem.first ≤ p) :
    (imuSolAt mem p).isSome ↔ p + 76 ≤ mem.last :=
  (isSome_bind_iff (U1_isSome (by omega)) fun _ => isSome_bind_iff (R4_isSome (by omega)) fun _ =>
    isSome_bind_iff (R4_isSome (by omega)) fun _ =>
      isSome_bind_iff (float3_isSome (by omega)) fun _ =>
        isSome_bind_iff (float3_isSome (by omega)) fun _ =>
          isSome_bind_iff (float3_isSome (by omega)) fun _ =>
            isSome_bind_iff (float3_isSome (by omega)) fun _ =>
              isSome_bind_pure_iff (float4_isSome (by omega)) _).trans (by omega)

/-- A turn of the loop that succeeds under a condition, and then leaves a known
offset and item count. -/
structure Yields (turn : Option (Nat × RawData)) (ok : Prop) (next nitemCode : Nat) : Prop where
  isSome : turn.isSome ↔ ok
  next : ∀ r, turn = some r → r.1 = next ∧ r.2.nitemCode = nitemCode

theorem store_isSome {α : Type} {n : Nat} (xs : Vector α n) (i : Nat) (x : α) :
    (store xs i x).isSome ↔ i < n := by
  unfold store
  split
  · next h => exact iff_of_true rfl h
  · next h => exact iff_of_false nofun h

theorem addItem_isSome (data : RawData) (code : UInt8) :
    (data.addItem code).isSome ↔ data.nitemCode < 8 := by
  rw [RawData.addItem, Option.isSome_map]
  exact store_isSome data.itemCode data.nitemCode code

theorem addItem_nitemCode {data data' : RawData} {code : UInt8}
    (h : data.addItem code = some data') : data'.nitemCode = data.nitemCode + 1 := by
  obtain ⟨_, _, rfl⟩ := Option.map_eq_some_iff.mp h
  rfl

/-- An item of one value. -/
theorem yields_item {α : Type} {data : RawData} {code : UInt8} {read : Option α} {ok : Prop}
    (hread : read.isSome ↔ ok) {next : Nat} {f : RawData → α → RawData}
    (hf : ∀ d a, (f d a).nitemCode = d.nitemCode) :
    Yields (data.addItem code >>= fun d => read >>= fun a => pure (next, f d a))
      (data.nitemCode < 8 ∧ ok) next (data.nitemCode + 1) := by
  constructor
  · exact isSome_bind_iff (addItem_isSome data code) fun d =>
      isSome_bind_pure_iff hread fun a => (next, f d a)
  · intro r hr
    obtain ⟨d, hd, hrest⟩ := Option.bind_eq_some_iff.mp hr
    obtain ⟨a, _, ha⟩ := Option.bind_eq_some_iff.mp hrest
    cases ha
    exact ⟨rfl, (hf d a).trans (addItem_nitemCode hd)⟩

theorem parseItem_yields (hfirst : mem.first ≤ chHdrSize) {ofs w : Nat} {code : UInt8}
    (data : RawData) (hcode : U1 mem (chHdrSize + ofs) = some code) (hw : itemWidth code = some w) :
    Yields (parseItem mem ofs data)
      (data.nitemCode < 8 ∧ chHdrSize + ofs + w ≤ mem.last) (ofs + w) (data.nitemCode + 1) := by
  rw [parseItem, hcode]
  simp only [Option.bind_eq_bind, Option.bind_some]
  unfold itemWidth at hw
  by_cases h1 : code = kItemID
  · rw [if_pos h1] at hw ⊢
    cases hw
    exact yields_item ((U1_isSome (by omega)).trans (by omega)) fun _ _ => rfl
  rw [if_neg h1] at hw ⊢
  by_cases h2 : code = kItemAccRaw
  · rw [if_pos h2] at hw ⊢
    cases hw
    exact yields_item ((scaled3_isSome (by omega) _ _ _).trans (by omega)) fun _ _ => rfl
  rw [if_neg h2] at hw ⊢
  by_cases h3 : code = kItemGyrRaw
  · rw [if_pos h3] at hw ⊢
    cases hw
    exact yields_item ((scaled3_isSome (by omega) _ _ _).trans (by omega)) fun _ _ => rfl
  rw [if_neg h3] at hw ⊢
  by_cases h4 : code = kItemMagRaw
  · rw [if_pos h4] at hw ⊢
    cases hw
    exact yields_item ((scaled3_isSome (by omega) _ _ _).trans (by omega)) fun _ _ => rfl
  rw [if_neg h4] at hw ⊢
  by_cases h5 : code = kItemRotationEul
  · rw [if_pos h5] at hw ⊢
    cases hw
    exact yields_item ((scaled3_isSome (by omega) _ _ _).trans (by omega)) fun _ _ => rfl
  rw [if_neg h5] at hw ⊢
  by_cases h6 : code = kItemRotationQuat
  · rw [if_pos h6] at hw ⊢
    cases hw
    exact yields_item ((float4_isSome (by omega)).trans (by omega)) fun _ _ => rfl
  rw [if_neg h6] at hw ⊢
  by_cases h7 : code = kItemPressure
  · rw [if_pos h7] at hw ⊢
    cases hw
    exact yields_item ((R4_isSome (by omega)).trans (by omega)) fun _ _ => rfl
  rw [if_neg h7] at hw ⊢
  by_cases h8 : code = kItemIMUSOL
  · rw [if_pos h8] at hw ⊢
    cases hw
    exact yields_item (imuSolAt_isSome (by omega)) fun _ _ => rfl
  rw [if_neg h8] at hw
  cases hw

/-- The array holds one node; the second write leaves it. -/
theorem parseNodes_yields (hfirst : mem.first ≤ chHdrSize) (count ofs : Nat) (data : RawData) :
    Yields (parseNodes mem count 0 ofs data)
      (count = 0 ∨ count = 1 ∧ chHdrSize + ofs + 76 ≤ mem.last) (ofs + 76 * count)
      data.nitemCode := by
  match count with
  | 0 =>
    refine ⟨iff_of_true rfl (Or.inl rfl), ?_⟩
    intro r hr
    cases hr
    exact ⟨rfl, rfl⟩
  | 1 =>
    constructor
    · refine (isSome_bind_iff (@imuSolAt_isSome mem (chHdrSize + ofs) (by omega)) fun sol =>
        isSome_bind_pure_iff (store_isSome data.imu 0 sol) _).trans ?_
      have hone : maxNodeSize = 1 := rfl
      omega
    · intro r hr
      obtain ⟨sol, _, hsol⟩ := Option.bind_eq_some_iff.mp hr
      obtain ⟨imu, _, himu⟩ := Option.bind_eq_some_iff.mp hsol
      cases himu
      exact ⟨rfl, rfl⟩
  | count + 2 =>
    have hnone : parseNodes mem (count + 2) 0 ofs data = none := by
      rw [← Option.not_isSome_iff_eq_none]
      intro hsome
      obtain ⟨r, hr⟩ := Option.isSome_iff_exists.mp hsome
      obtain ⟨_, _, hsol⟩ := Option.bind_eq_some_iff.mp hr
      obtain ⟨_, _, hnodes⟩ := Option.bind_eq_some_iff.mp hsol
      obtain ⟨sol, _, hsecond⟩ := Option.bind_eq_some_iff.mp hnodes
      obtain ⟨_, hstore, _⟩ := Option.bind_eq_some_iff.mp hsecond
      have hlt := (store_isSome _ _ sol).mp (by rw [hstore]; rfl)
      exact absurd hlt (by decide)
    rw [hnone]
    exact ⟨iff_of_false nofun (by omega), nofun⟩

theorem parseItem_gateway (hfirst : mem.first ≤ chHdrSize) {ofs : Nat} {count : UInt8}
    (data : RawData) (hcode : U1 mem (chHdrSize + ofs) = some kItemGWSOL)
    (hcount : U1 mem (chHdrSize + ofs + 2) = some count) :
    Yields (parseItem mem ofs data)
      (data.nitemCode < 8 ∧
        (count.toNat = 0 ∨ count.toNat = 1 ∧ chHdrSize + ofs + 8 + 76 ≤ mem.last))
      (ofs + 8 + 76 * count.toNat) (data.nitemCode + 1) := by
  have hbound := (@U1_isSome mem (chHdrSize + ofs + 2) (by omega)).mp (by rw [hcount]; rfl)
  obtain ⟨gwid, hgwid⟩ := Option.isSome_iff_exists.mp
    ((@U1_isSome mem (chHdrSize + ofs + 1) (by omega)).mpr (by omega))
  have hitem : parseItem mem ofs data = data.addItem kItemGWSOL >>= fun d =>
      parseNodes mem count.toNat 0 (ofs + 8) { d with gwid := gwid, nimu := count } := by
    rw [parseItem, hcode]
    simp only [Option.bind_eq_bind, Option.bind_some, hgwid, hcount]
    rfl
  rw [hitem]
  constructor
  · refine (isSome_bind_iff (addItem_isSome data kItemGWSOL) fun d =>
      (parseNodes_yields hfirst count.toNat (ofs + 8) _).isSome).trans ?_
    rw [← Nat.add_assoc]
  · intro r hr
    obtain ⟨d, hd, hnodes⟩ := Option.bind_eq_some_iff.mp hr
    obtain ⟨hnext, hcodes⟩ := (parseNodes_yields hfirst count.toNat (ofs + 8) _).next r hnodes
    have hadd := addItem_nitemCode hd
    exact ⟨hnext, hcodes.trans hadd⟩

theorem parseItem_gateway_short {ofs : Nat} (data : RawData)
    (hcode : U1 mem (chHdrSize + ofs) = some kItemGWSOL)
    (hcount : U1 mem (chHdrSize + ofs + 2) = none) : parseItem mem ofs data = none := by
  rw [parseItem, hcode]
  simp only [Option.bind_eq_bind, Option.bind_some, hcount, Option.bind_none, Option.bind_fun_none]
  rfl

theorem parseItem_filler {ofs : Nat} {code : UInt8} (data : RawData)
    (hcode : U1 mem (chHdrSize + ofs) = some code) (hgw : code ≠ kItemGWSOL)
    (hw : itemWidth code = none) : parseItem mem ofs data = some (ofs + 1, data) := by
  have hne : ∀ known : UInt8, itemWidth known ≠ none → code ≠ known := by
    rintro known hknown rfl
    exact hknown hw
  rw [parseItem, hcode]
  simp only [Option.bind_eq_bind, Option.bind_some]
  rw [if_neg (hne _ (by decide)), if_neg (hne _ (by decide)), if_neg (hne _ (by decide)),
    if_neg (hne _ (by decide)), if_neg (hne _ (by decide)), if_neg (hne _ (by decide)),
    if_neg (hne _ (by decide)), if_neg (hne _ (by decide)), if_neg hgw]
  rfl

end Reads

section Turn

variable {mem : Window} {len ofs : Nat} {data : RawData}

/-- One turn and the rest of the loop. -/
theorem parseLoop_turn {ok rest : Prop} {next nitemCode : Nat} (h : ofs < len)
    (hturn : Yields (parseItem mem ofs data) ok next nitemCode)
    (hrest : ∀ d : RawData, d.nitemCode = nitemCode →
      ((parseLoop mem len next d).isSome ↔ rest)) :
    (parseLoop mem len ofs data).isSome ↔ ok ∧ rest := by
  cases hitem : parseItem mem ofs data with
  | none =>
    rw [parseLoop_none h hitem]
    refine iff_of_false nofun ?_
    rintro ⟨hok, _⟩
    have hsome := hturn.isSome.mpr hok
    rw [hitem] at hsome
    cases hsome
  | some r =>
    obtain ⟨hnext, hcodes⟩ := hturn.next r hitem
    have hok : ok := hturn.isSome.mp (by rw [hitem]; rfl)
    rw [parseLoop_item h (hitem.trans rfl), hnext, hrest r.2 hcodes, and_iff_right hok]

theorem parseItem_nitemCode (hfirst : mem.first ≤ chHdrSize) {next : Nat} {data' : RawData}
    (hle : data.nitemCode ≤ 8) (hitem : parseItem mem ofs data = some (next, data')) :
    data'.nitemCode ≤ 8 := by
  have hyields : ∀ {ok : Prop} {n : Nat},
      Yields (parseItem mem ofs data) (data.nitemCode < 8 ∧ ok) n (data.nitemCode + 1) →
        data'.nitemCode ≤ 8 := by
    intro ok n hturn
    have hlt := (hturn.isSome.mp (by rw [hitem]; rfl)).1
    have hcodes := (hturn.next _ hitem).2
    dsimp only at hcodes
    omega
  cases hcode : U1 mem (chHdrSize + ofs) with
  | none =>
    rw [parseItem, hcode] at hitem
    cases hitem
  | some code =>
    by_cases hgw : code = kItemGWSOL
    · subst hgw
      cases hcount : U1 mem (chHdrSize + ofs + 2) with
      | none =>
        rw [parseItem_gateway_short data hcode hcount] at hitem
        cases hitem
      | some count => exact hyields (parseItem_gateway hfirst data hcode hcount)
    · cases hw : itemWidth code with
      | none =>
        rw [parseItem_filler data hcode hgw hw] at hitem
        cases hitem
        exact hle
      | some w => exact hyields (parseItem_yields hfirst data hcode hw)

theorem parseLoop_nitemCode (hfirst : mem.first ≤ chHdrSize) {data' : RawData}
    (hle : data.nitemCode ≤ 8) (hloop : parseLoop mem len ofs data = some data') :
    data'.nitemCode ≤ 8 := by
  induction hn : len - ofs using Nat.strongRecOn generalizing ofs data with
  | ind n ih =>
    by_cases h : ofs < len
    · cases hitem : parseItem mem ofs data with
      | none =>
        rw [parseLoop_none h hitem] at hloop
        cases hloop
      | some r =>
        rw [parseLoop_item h (hitem.trans rfl)] at hloop
        have hnext := parseItem_advances _ _ _ r.1 r.2 hitem
        exact ih _ (by omega) (parseItem_nitemCode hfirst hle hitem) hloop rfl
    · rw [parseLoop_done (by omega)] at hloop
      cases hloop
      exact hle

end Turn

/-- The run with no more than the payload comes through exactly where its items fit. -/
theorem parseLoop_isSome_iff {frame : RawFrame} (hlen : frame.len ≤ maxPayload) (ofs : Nat)
    (data : RawData) :
    (parseLoop (.payload frame) frame.len ofs data).isSome ↔
      itemsFit (frame.payload.drop ofs) data.nitemCode = true := by
  have hlength := length_payload hlen
  have hlast := last_payload hlen
  have hfirst : (Window.payload frame).first ≤ chHdrSize := Nat.le_refl _
  induction hn : frame.len - ofs using Nat.strongRecOn generalizing ofs data with
  | ind n ih =>
    by_cases h : ofs < frame.len
    · have hcode := U1_payload hlen h
      have hrest : ∀ next, ofs < next → ∀ d : RawData, d.nitemCode = data.nitemCode + 1 →
          ((parseLoop (.payload frame) frame.len next d).isSome ↔
            itemsFit (frame.payload.drop next) (data.nitemCode + 1) = true) := by
        intro next hnext d hd
        rw [← hd]
        exact ih _ (by omega) next d rfl
      rw [drop_payload hlen h]
      generalize frame.payload.getD ofs 0 = code at hcode ⊢
      by_cases hgw : code = kItemGWSOL
      · subst hgw
        rw [itemsFit_gateway, List.length_drop, hlength]
        by_cases hthree : ofs + 2 < frame.len
        · have hcount := U1_payload hlen hthree
          have hget : (frame.payload.drop (ofs + 1)).getD 1 0 = frame.payload.getD (ofs + 2) 0 := by
            rw [List.getD_eq_getElem?_getD, List.getElem?_drop, List.getD_eq_getElem?_getD]
          rw [hget]
          generalize frame.payload.getD (ofs + 2) 0 = count at hcount ⊢
          rw [parseLoop_turn h (parseItem_gateway hfirst data hcode hcount)
            (hrest (ofs + 8 + 76 * count.toNat) (by omega)), hlast, List.drop_drop]
          have hnext : ofs + 1 + (7 + 76 * count.toNat) = ofs + 8 + 76 * count.toNat := by omega
          have hzero : count = 0 ↔ count.toNat = 0 := by
            rw [← UInt8.toNat_inj]
            rfl
          have hone : count = 1 ↔ count.toNat = 1 := by
            rw [← UInt8.toNat_inj]
            rfl
          rw [hnext, hzero, hone]
          refine Iff.trans (and_congr_left fun _ => ?_) and_assoc
          omega
        · have hshort : U1 (.payload frame) (chHdrSize + ofs + 2) = none := by
            rw [← Option.not_isSome_iff_eq_none, U1_isSome (by omega), hlast]
            omega
          rw [parseLoop_none h (parseItem_gateway_short data hcode hshort)]
          refine iff_of_false nofun ?_
          rintro ⟨⟨_, htwo⟩, _⟩
          omega
      · cases hw : itemWidth code with
        | none =>
          rw [parseLoop_item h (parseItem_filler data hcode hgw hw), itemsFit_filler hgw hw]
          exact ih _ (by omega) (ofs + 1) data rfl
        | some w =>
          have hpos := itemWidth_pos hw
          rw [parseLoop_turn h (parseItem_yields hfirst data hcode hw)
            (hrest (ofs + w) (by omega)), itemsFit_item hw, hlast, List.drop_drop,
            List.length_drop, hlength]
          have hnext : ofs + 1 + (w - 1) = ofs + w := by omega
          rw [hnext]
          refine and_congr_left fun _ => and_congr_right fun _ => ?_
          omega
    · rw [parseLoop_done (by omega), List.drop_eq_nil_of_le (by omega), itemsFit]
      simp

/-! ### More of the buffer -/

/-- What the one finds the other finds too. -/
def Extends {α : Type} (o o' : Option α) : Prop := ∀ a, o = some a → o' = some a

namespace Extends

theorem refl {α : Type} (o : Option α) : Extends o o := fun _ h => h

theorem map {α β : Type} {o o' : Option α} (h : Extends o o') (f : α → β) :
    Extends (o.map f) (o'.map f) := by
  intro b hb
  obtain ⟨a, ha, rfl⟩ := Option.map_eq_some_iff.mp hb
  rw [h a ha, Option.map_some]

theorem bind {α β : Type} {o o' : Option α} {f f' : α → Option β} (ho : Extends o o')
    (hf : ∀ a, Extends (f a) (f' a)) : Extends (o >>= f) (o' >>= f') := by
  intro b hb
  obtain ⟨a, ha, hfa⟩ := Option.bind_eq_some_iff.mp hb
  rw [ho a ha]
  exact hf a b hfa

theorem ite {α : Type} {c : Prop} [Decidable c] {o₁ o₁' o₂ o₂' : Option α} (h₁ : Extends o₁ o₁')
    (h₂ : Extends o₂ o₂') : Extends (if c then o₁ else o₂) (if c then o₁' else o₂') := by
  by_cases hc : c
  · rw [if_pos hc, if_pos hc]
    exact h₁
  · rw [if_neg hc, if_neg hc]
    exact h₂

/-- An item of one value. -/
theorem item {α β γ : Type} {o : Option γ} {read read' : Option α} (h : Extends read read')
    (f : γ → α → β) :
    Extends (o >>= fun d => read >>= fun a => pure (f d a))
      (o >>= fun d => read' >>= fun a => pure (f d a)) :=
  bind (refl o) fun _ => bind h fun _ => refl _

end Extends

/-- A window on the same buffer with at least the bytes of another. -/
structure Window.Within (mem mem' : Window) : Prop where
  buf : mem'.buf = mem.buf
  first : mem'.first ≤ mem.first
  last : mem.last ≤ mem'.last

section Wider

variable {mem mem' : Window} (h : mem.Within mem')
include h

theorem load_extends (p n : Nat) : Extends (load mem p n) (load mem' p n) := by
  intro bytes hbytes
  have hfirst := h.first
  have hlast := h.last
  unfold load at hbytes ⊢
  split at hbytes
  · next hin => rwa [if_pos ⟨by omega, by omega⟩, h.buf]
  · cases hbytes

theorem U1_extends (p : Nat) : Extends (U1 mem p) (U1 mem' p) := by
  intro byte hbyte
  have hfirst := h.first
  have hlast := h.last
  unfold U1 at hbyte ⊢
  split at hbyte
  · next hin => rwa [if_pos ⟨by omega, by omega⟩, h.buf]
  · cases hbyte

theorem R4_extends (p : Nat) : Extends (R4 mem p) (R4 mem' p) := (load_extends h p 4).map _

theorem scaled3_extends (p : Nat) (d0 d1 d2 : Int) :
    Extends (scaled3 mem p d0 d1 d2) (scaled3 mem' p d0 d1 d2) :=
  .bind ((load_extends h p 2).map _) fun _ => .bind ((load_extends h (p + 2) 2).map _) fun _ =>
    .bind ((load_extends h (p + 4) 2).map _) fun _ => .refl _

theorem float3_extends (p : Nat) : Extends (float3 mem p) (float3 mem' p) :=
  .bind (R4_extends h p) fun _ => .bind (R4_extends h (p + 4)) fun _ =>
    .bind (R4_extends h (p + 8)) fun _ => .refl _

theorem float4_extends (p : Nat) : Extends (float4 mem p) (float4 mem' p) :=
  .bind (R4_extends h p) fun _ => .bind (R4_extends h (p + 4)) fun _ =>
    .bind (R4_extends h (p + 8)) fun _ => .bind (R4_extends h (p + 12)) fun _ => .refl _

theorem imuSolAt_extends (p : Nat) : Extends (imuSolAt mem p) (imuSolAt mem' p) :=
  .bind (U1_extends h (p + 1)) fun _ => .bind (R4_extends h (p + 4)) fun _ =>
    .bind (R4_extends h (p + 8)) fun _ => .bind (float3_extends h (p + 12)) fun _ =>
      .bind (float3_extends h (p + 24)) fun _ => .bind (float3_extends h (p + 36)) fun _ =>
        .bind (float3_extends h (p + 48)) fun _ => .bind (float4_extends h (p + 60)) fun _ =>
          .refl _

theorem parseNodes_extends (count i ofs : Nat) (data : RawData) :
    Extends (parseNodes mem count i ofs data) (parseNodes mem' count i ofs data) := by
  induction count generalizing i ofs data with
  | zero => exact .refl _
  | succ count ih =>
    exact .bind (imuSolAt_extends h _) fun _ => .bind (.refl _) fun _ => ih _ _ _

theorem parseItem_extends (ofs : Nat) (data : RawData) :
    Extends (parseItem mem ofs data) (parseItem mem' ofs data) := by
  refine .bind (U1_extends h _) fun code => ?_
  refine .ite (.item (U1_extends h _) _) ?_
  iterate 4 refine .ite (.item (scaled3_extends h _ _ _ _) _) ?_
  refine .ite (.item (float4_extends h _) _) ?_
  refine .ite (.item (R4_extends h _) _) ?_
  refine .ite (.item (imuSolAt_extends h _) _) ?_
  refine .ite ?_ (.refl _)
  exact .bind (.refl _) fun _ => .bind (U1_extends h _) fun _ => .bind (U1_extends h _) fun _ =>
    parseNodes_extends h _ _ _ _

/-- A run that comes through comes through with more of the buffer, and to the same end. -/
theorem parseLoop_extends (len ofs : Nat) (data : RawData) :
    Extends (parseLoop mem len ofs data) (parseLoop mem' len ofs data) := by
  intro data' hloop
  induction hn : len - ofs using Nat.strongRecOn generalizing ofs data with
  | ind n ih =>
    by_cases hlt : ofs < len
    · cases hitem : parseItem mem ofs data with
      | none =>
        rw [parseLoop_none hlt hitem] at hloop
        cases hloop
      | some r =>
        have hnext := parseItem_advances _ _ _ r.1 r.2 hitem
        rw [parseLoop_item hlt (hitem.trans rfl)] at hloop
        rw [parseLoop_item hlt ((parseItem_extends h ofs data r hitem).trans rfl)]
        exact ih _ (by omega) r.1 r.2 hloop rfl
    · rw [parseLoop_done (by omega)] at hloop ⊢
      exact hloop

end Wider

theorem payload_within_whole (frame : RawFrame) :
    (Window.payload frame).Within (Window.whole frame.buf) :=
  ⟨rfl, Nat.zero_le _, Nat.min_le_right _ _⟩

/-! ### A frame -/

/-- `parse_data` does with nothing but the payload what it does with the whole buffer: it
comes to its end, in its arrays. -/
structure StaysInside (frame : RawFrame) (data data' : RawData) : Prop where
  inside : parseDataIn (.payload frame) frame.len data = some data'
  ends : parseData frame data = some data'
  nitemCode : data'.nitemCode ≤ 8

theorem Filled.payload_eq {frame : RawFrame} {p : List UInt8} (h : Filled frame p) :
    frame.payload = p.drop chHdrSize := by
  have hp : p.length = chHdrSize + frame.len := by
    rw [h.length, h.len, Nat.add_comm]
  have htake : (frame.buf.toList.drop chHdrSize).take frame.len =
      (frame.buf.toList.take (chHdrSize + frame.len)).drop chHdrSize := by
    rw [List.drop_take, Nat.add_sub_cancel_left]
  rw [RawFrame.payload, htake, ← hp, h.kept]

theorem parseDataIn_isSome_iff {frame : RawFrame} {p : List UInt8} (h : Filled frame p)
    (data : RawData) :
    (parseDataIn (.payload frame) frame.len data).isSome ↔
      itemsFit (p.drop chHdrSize) 0 = true := by
  have hlen : frame.len ≤ maxPayload := by
    rw [h.len]
    exact h.short
  rw [parseDataIn, parseLoop_isSome_iff hlen, List.drop_zero, h.payload_eq]

/-- Whatever follows a frame in the buffer, parsing it stays inside exactly
where the items of its payload fit. -/
theorem staysInside_iff {frame : RawFrame} {p : List UInt8} (h : Filled frame p)
    (data : RawData) :
    (∃ data', StaysInside frame data data') ↔ itemsFit (p.drop chHdrSize) 0 = true := by
  rw [← parseDataIn_isSome_iff h data]
  constructor
  · rintro ⟨data', hinside⟩
    rw [hinside.inside]
    rfl
  · intro hsome
    obtain ⟨data', hdata⟩ := Option.isSome_iff_exists.mp hsome
    refine ⟨data', hdata, ?_, ?_⟩
    · exact parseLoop_extends (payload_within_whole frame) _ _ _ data' hdata
    · exact parseLoop_nitemCode (Nat.le_refl chHdrSize) (Nat.zero_le 8) hdata

/-- One block of 76 bytes. -/
def solPayload : List UInt8 := kItemIMUSOL :: List.replicate 75 0

theorem staysInside_sol :
    ∃ data', StaysInside ⟨0, payloadLen (frameOf solPayload), bufOf (frameOf solPayload)⟩
      Raw.zeroed.data data' := by
  have hframe : CrcFrame (frameOf solPayload) := crcFrame_frameOf (by decide)
  have hfilled := filled_bufOf hframe.starts hframe.short hframe.length
  refine (staysInside_iff hfilled Raw.zeroed.data).mpr ?_
  rw [drop_frameOf, solPayload, itemsFit_item (w := 76) (by decide)]
  refine ⟨by decide, ?_⟩
  have hnil : (List.replicate 75 (0 : UInt8)).drop 75 = [] := by simp
  rw [hnil, itemsFit]

/-- A frame whose only byte is the code of an item of two. -/
theorem truncated_item_reads_on :
    ¬ ∀ (frame : RawFrame) (p : List UInt8) (data : RawData), Filled frame p →
      CrcCorrect p → ∃ data', StaysInside frame data data' := by
  intro h
  have hframe : CrcFrame (frameOf [kItemID]) := crcFrame_frameOf (by decide)
  have hfilled := filled_bufOf hframe.starts hframe.short hframe.length
  obtain ⟨data', hinside⟩ := h _ _ Raw.zeroed.data hfilled hframe.crc
  have hfit := parseDataIn_isSome_iff hfilled Raw.zeroed.data
  rw [hinside.inside, drop_frameOf, itemsFit_item (w := 2) (by decide)] at hfit
  exact absurd (hfit.mp rfl).1.2 (by decide)

end Hi229Serial

end MarkitNode
