import MarkitNode.UrlQuery

/-!
Which parameter a handler gets. A query is a list of pairs with distinct keys,
but `parse_url_kv_pair` knows no pairs: it goes on from the first place where
the text of the key stands, in the path, in another key or in a value. A request
is therefore taken apart into the pair that is meant and what stands around it.
-/

namespace MarkitNode

namespace UrlQuery

open CString

/-- The calls of `parse_url_kv_pair`. -/
inductive KvRead
  | systemPower
  | systemUpgrade
  | nvsVariable
  | imuToggle
  | imuDebugToggle
  | blinkMode
  | blinkSeq
  | blinkToggle
  | operationMode
  deriving DecidableEq, Repr

namespace KvRead

def key : KvRead → List UInt8
  | .systemPower | .imuToggle | .blinkToggle => ascii "target_state"
  | .systemUpgrade => ascii "ota_url"
  | .nvsVariable => ascii "value"
  | .imuDebugToggle => ascii ""
  | .blinkMode => ascii "mode"
  | .blinkSeq => ascii "seq"
  | .operationMode => ascii "action"

/-- The size of the buffer, which the handler has cleared. -/
def size : KvRead → Nat
  | .nvsVariable => 65
  | _ => paramValueMaxLen + 1

theorem size_bounds (read : KvRead) : 2 ≤ read.size ∧ read.size ≤ paramValueMaxLen + 1 := by
  cases read <;> decide

end KvRead

abbrev Pair := List UInt8 × List UInt8

structure KeyText (key : List UInt8) : Prop where
  nul : 0 ∉ key
  ampersand : ampersand ∉ key
  equalsSign : equalsSign ∉ key

structure ValueText (value : List UInt8) : Prop where
  nul : 0 ∉ value
  ampersand : ampersand ∉ value

def pairText (p : Pair) : List UInt8 := p.1 ++ equalsSign :: p.2

def queryText : List Pair → List UInt8
  | [] => []
  | p :: rest => pairText p ++ rest.flatMap fun q => ampersand :: pairText q

/-- A request with a query; the URI is a C string. -/
structure Request where
  path : List UInt8
  pairs : List Pair
  path_text : 0 ∉ path ∧ questionMark ∉ path
  keys_text : ∀ p ∈ pairs, KeyText p.1
  values_text : ∀ p ∈ pairs, ValueText p.2
  distinct : (pairs.map Prod.fst).Nodup

def Request.uri (r : Request) : List UInt8 := r.path ++ questionMark :: queryText r.pairs

/-- The handler gets the value `w`. -/
def Gets (read : KvRead) (uri w : List UInt8) : Prop :=
  ∃ value, parseUrlKvPair uri read.key (Vector.replicate read.size 0) = some (.ok value) ∧
    text value.toList = w

/-- The lookup goes by the pairs: the handler gets the decoding of the value of
its key, and an error if there is none. -/
structure LooksUp (read : KvRead) (r : Request) : Prop where
  present : ∀ v w, (read.key, v) ∈ r.pairs → urlDecode v = some w → Gets read r.uri w
  absent : read.key ∉ r.pairs.map Prod.fst →
    ∃ err, parseUrlKvPair r.uri read.key (Vector.replicate read.size 0) = some (.error err)

/-- A request but for the value of one key. -/
structure Around (key : List UInt8) where
  path : List UInt8
  before : List Pair
  after : List Pair
  path_text : 0 ∉ path ∧ questionMark ∉ path
  keys_text : ∀ p ∈ before ++ after, KeyText p.1
  values_text : ∀ p ∈ before ++ after, ValueText p.2
  distinct : (key :: (before ++ after).map Prod.fst).Nodup

theorem keyText (read : KvRead) : KeyText read.key := by
  cases read <;> exact ⟨by decide, by decide, by decide⟩

theorem questionMark_not_mem_key (read : KvRead) : questionMark ∉ read.key := by
  cases read <;> decide

namespace Around

variable {key : List UInt8} (a : Around key)

def request (hkey : KeyText key) {v : List UInt8} (hv : ValueText v) : Request where
  path := a.path
  pairs := a.before ++ (key, v) :: a.after
  path_text := a.path_text
  keys_text := by
    intro p hp
    rcases List.mem_append.mp hp with hbefore | hrest
    · exact a.keys_text p (List.mem_append_left _ hbefore)
    · rcases List.mem_cons.mp hrest with rfl | hafter
      · exact hkey
      · exact a.keys_text p (List.mem_append_right _ hafter)
  values_text := by
    intro p hp
    rcases List.mem_append.mp hp with hbefore | hrest
    · exact a.values_text p (List.mem_append_left _ hbefore)
    · rcases List.mem_cons.mp hrest with rfl | hafter
      · exact hv
      · exact a.values_text p (List.mem_append_right _ hafter)
  distinct := by
    have hperm : ((a.before ++ (key, v) :: a.after).map Prod.fst).Perm
        (key :: (a.before ++ a.after).map Prod.fst) := List.perm_middle.map Prod.fst
    exact hperm.nodup_iff.mpr a.distinct

/-- The URI up to the pair. -/
def lead : List UInt8 :=
  a.path ++ questionMark :: a.before.flatMap fun p => pairText p ++ [ampersand]

/-- The URI behind the pair. -/
def trail : List UInt8 := a.after.flatMap fun p => ampersand :: pairText p

/-- Where the text of the key occurs before the pair, nothing that ends a key or
a pair follows, up to the pair. -/
def Aligned : Prop :=
  ∀ rest, strstr key a.lead = some rest → equalsSign ∉ rest ∧ ampersand ∉ rest

theorem trail_ends : EndsPair a.trail := by
  unfold trail
  cases a.after with
  | nil => nofun
  | cons p rest =>
    intro c hc
    exact (Option.some.inj hc).symm

theorem queryText_append (before : List Pair) (p : Pair) (after : List Pair) :
    queryText (before ++ p :: after) =
      (before.flatMap fun q => pairText q ++ [ampersand]) ++
        (pairText p ++ after.flatMap fun q => ampersand :: pairText q) := by
  induction before with
  | nil => rfl
  | cons q rest ih =>
    have htail : ∀ l : List Pair, l ≠ [] →
        (l.flatMap fun q => ampersand :: pairText q) = ampersand :: queryText l := by
      intro l hl
      cases l with
      | nil => exact absurd rfl hl
      | cons _ _ => rfl
    rw [List.cons_append, queryText, htail _ (by simp), ih, List.flatMap_cons]
    simp

theorem uri_eq (hkey : KeyText key) {v : List UInt8} (hv : ValueText v) :
    (a.request hkey hv).uri = a.lead ++ (key ++ equalsSign :: (v ++ a.trail)) := by
  rw [Request.uri, request, queryText_append]
  simp [lead, trail, pairText]

/-- The lead ends with a character that no key has. -/
theorem lead_eq (hkey : KeyText key) (hquestion : questionMark ∉ key) :
    ∃ front sep, a.lead = front ++ [sep] ∧ sep ∉ key := by
  rcases List.eq_nil_or_concat a.before with hnil | ⟨init, p, hbefore⟩
  · exact ⟨a.path, questionMark, by simp [lead, hnil], hquestion⟩
  · refine ⟨a.path ++ questionMark ::
      (init.flatMap (fun p => pairText p ++ [ampersand]) ++ pairText p), ampersand, ?_,
      hkey.ampersand⟩
    simp [lead, hbefore]

/-- The search finds the key before the pair or in it. -/
theorem strstr_uri (hkey : KeyText key) (hquestion : questionMark ∉ key) {v : List UInt8}
    (hv : ValueText v) :
    strstr key (a.request hkey hv).uri =
      some ((strstr key a.lead).getD [] ++ (key ++ equalsSign :: (v ++ a.trail))) := by
  obtain ⟨front, sep, hlead, hsep⟩ := a.lead_eq hkey hquestion
  rw [uri_eq, hlead, List.append_assoc, List.singleton_append, strstr_append_sep hsep]
  cases strstr key (front ++ [sep]) with
  | none => exact strstr_self_append key _
  | some rest => rfl

end Around

/-- A value that decodes has room in the buffer and no NUL. -/
def Fits (read : KvRead) (v : List UInt8) : Prop :=
  ∀ w, urlDecode v = some w → v.length ≤ paramValueMaxLen ∧ v.length < read.size ∧ 0 ∉ w

/-- The first place where the key stands has a value of a length that is accepted. -/
def Stray (key uri : List UInt8) : Prop :=
  ∃ name v tail, strstr key uri = some (name ++ equalsSign :: (v ++ tail)) ∧
    ampersand ∉ name ∧ equalsSign ∉ name ∧ ampersand ∉ v ∧ EndsPair tail ∧
    v.length ≤ paramValueMaxLen

theorem error_iff_not_stray (read : KvRead) (uri : List UInt8) :
    (∃ err, parseUrlKvPair uri read.key (Vector.replicate read.size 0) = some (.error err)) ↔
      ¬ Stray read.key uri := by
  constructor
  · rintro ⟨err, herr⟩ ⟨name, v, tail, hfound, hname, heq, hv, htail, hlen⟩
    rw [parseUrlKvPair_value _ hfound hname heq hv htail] at herr
    exact Nat.not_lt.mpr hlen ((copyValue_error_iff _ _ _).mp ⟨err, herr⟩)
  · intro hstray
    cases hfound : strstr read.key uri with
    | none => exact ⟨_, parseUrlKvPair_notFound _ hfound⟩
    | some rest =>
      obtain ⟨front, tail, rfl, hfront, htail⟩ := exists_pair_end rest
      by_cases heq : equalsSign ∈ front
      · obtain ⟨name, v, rfl, hname⟩ := List.eq_append_cons_of_mem heq
        rw [List.append_assoc, List.cons_append] at hfound
        have hv : ampersand ∉ v := fun h => hfront (by simp [h])
        have hname' : ampersand ∉ name := fun h => hfront (by simp [h])
        rw [parseUrlKvPair_value _ hfound hname' hname hv htail]
        apply (copyValue_error_iff _ _ _).mpr
        by_contra hlen
        exact hstray ⟨name, v, tail, hfound, hname', hname, hv, htail, Nat.not_lt.mp hlen⟩
      · exact ⟨_, parseUrlKvPair_noValue _ hfound hfront heq htail⟩

theorem gets_iff {read : KvRead} {uri name v tail : List UInt8}
    (h : strstr read.key uri = some (name ++ equalsSign :: (v ++ tail)))
    (hname : ampersand ∉ name) (heq : equalsSign ∉ name) (hv : ampersand ∉ v)
    (htail : EndsPair tail) (w : List UInt8) :
    Gets read uri w ↔ v.length ≤ paramValueMaxLen ∧ v.length < read.size ∧
      text (urlDecodeCopyn (v ++ tail) v.length) = w := by
  rw [Gets, parseUrlKvPair_value _ h hname heq hv htail]
  exact copyValue_gets_iff _ _ _ w

theorem text_eq_self_iff (w : List UInt8) : text w = w ↔ 0 ∉ w := by
  constructor
  · intro h
    rw [← h]
    exact not_mem_text w
  · exact text_of_not_mem

/-- A value that stands for itself. -/
def plain (n : Nat) : List UInt8 := List.replicate n 97

theorem plain_text (n : Nat) : ValueText (plain n) := by
  have hne : ∀ c : UInt8, c ≠ 97 → c ∉ plain n := fun c hc h => hc (List.eq_of_mem_replicate h)
  exact ⟨hne 0 (by decide), hne ampersand (by decide)⟩

theorem urlDecode_plain_text (n : Nat) : urlDecode (plain n) = some (plain n) := by
  induction n with
  | zero => rfl
  | succ n ih =>
    rw [plain, List.replicate_succ, urlDecode.eq_def]
    simp only [if_neg (by decide : ¬ (97 : UInt8) = percent), Option.bind_eq_bind]
    rw [plain] at ih
    rw [ih]
    rfl

theorem plain_fits {read : KvRead} {n : Nat} (h : n ≤ paramValueMaxLen) (h' : n < read.size) :
    Fits read (plain n) := by
  intro w hw
  rw [urlDecode_plain_text, Option.some.injEq] at hw
  rw [← hw]
  exact ⟨by simpa [plain] using h, by simpa [plain] using h', (plain_text n).nul⟩

section Present

variable {read : KvRead} (a : Around read.key)

/-- In a request with the key, only its own pair counts. -/
theorem looksUp_iff {v : List UInt8} (hv : ValueText v) :
    LooksUp read (a.request (keyText read) hv) ↔
      ∀ w, urlDecode v = some w → Gets read (a.request (keyText read) hv).uri w := by
  constructor
  · intro h w hw
    exact h.present v w (List.mem_append_right _ List.mem_cons_self) hw
  · intro h
    constructor
    · intro v' w hmem hw
      have hsame : v' = v := by
        have habsent := (List.nodup_cons.mp a.distinct).1
        rcases List.mem_append.mp hmem with hbefore | hrest
        · refine absurd ?_ habsent
          exact List.mem_map_of_mem (f := Prod.fst) (List.mem_append_left a.after hbefore)
        · rcases List.mem_cons.mp hrest with heq | hafter
          · exact (Prod.mk.inj heq).2
          · refine absurd ?_ habsent
            exact List.mem_map_of_mem (f := Prod.fst) (List.mem_append_right a.before hafter)
      rw [hsame] at hw
      exact h w hw
    · intro habsent
      refine absurd ?_ habsent
      exact List.mem_map_of_mem (f := Prod.fst) (List.mem_append_right a.before List.mem_cons_self)

theorem looksUp_aligned (h : a.Aligned) {v : List UInt8} (hv : ValueText v) :
    LooksUp read (a.request (keyText read) hv) ↔ Fits read v := by
  have hkey := keyText read
  have hstray : equalsSign ∉ (strstr read.key a.lead).getD [] ∧
      ampersand ∉ (strstr read.key a.lead).getD [] := by
    cases hlead : strstr read.key a.lead with
    | none => exact ⟨List.not_mem_nil, List.not_mem_nil⟩
    | some rest => exact h rest hlead
  have hfound := a.strstr_uri hkey (questionMark_not_mem_key read) hv
  rw [← List.append_assoc] at hfound
  have hgets := gets_iff hfound (by simp [hstray.2, hkey.ampersand])
    (by simp [hstray.1, hkey.equalsSign]) hv.ampersand a.trail_ends
  rw [looksUp_iff]
  apply forall_congr'
  intro w
  apply imp_congr_right
  intro hw
  rw [hgets, urlDecodeCopyn_decode hw, text_eq_self_iff]

section All

variable (hall : ∀ v, ∀ hv : ValueText v, Fits read v →
  LooksUp read (a.request (keyText read) hv))

include hall

theorem gets_of_looksUp {n : Nat} (h : n ≤ paramValueMaxLen) (h' : n < read.size) :
    Gets read (a.request (keyText read) (plain_text n)).uri (plain n) :=
  (looksUp_iff a (plain_text n)).mp (hall _ (plain_text n) (plain_fits h h')) _
    (urlDecode_plain_text n)

/-- A pair end behind the stray key: what the handler gets does not depend on
the value. -/
theorem not_ampersand_of_looksUp {rest : List UInt8}
    (hrest : strstr read.key a.lead = some rest) : ampersand ∉ rest := by
  intro hmem
  obtain ⟨front, back, rfl, hfront⟩ := List.eq_append_cons_of_mem hmem
  have hsize := (KvRead.size_bounds read).1
  have hzero := gets_of_looksUp a hall (Nat.zero_le _) (by omega)
  have hone := gets_of_looksUp a hall (by decide : 1 ≤ paramValueMaxLen) (by omega)
  have hfound := fun n =>
    a.strstr_uri (keyText read) (questionMark_not_mem_key read) (plain_text n)
  have hends : ∀ l : List UInt8, EndsPair (ampersand :: l) := by
    intro l c hc
    exact (Option.some.inj hc).symm
  simp only [hrest, Option.getD_some, List.append_assoc, List.cons_append] at hfound
  by_cases heq : equalsSign ∈ front
  · obtain ⟨name, t, rfl, hname⟩ := List.eq_append_cons_of_mem heq
    have ht : ampersand ∉ t := fun h => hfront (by simp [h])
    have hname' : ampersand ∉ name := fun h => hfront (by simp [h])
    simp only [List.append_assoc, List.cons_append] at hfound
    rw [gets_iff (hfound 0) hname' hname ht (hends _)] at hzero
    rw [gets_iff (hfound 1) hname' hname ht (hends _)] at hone
    have htake : ∀ n, (ampersand :: (back ++ (read.key ++ equalsSign ::
        (plain n ++ a.trail)))).take 2 =
          ampersand :: (back ++ (read.key ++ [equalsSign])).take 1 := by
      intro n
      have happ : back ++ (read.key ++ equalsSign :: (plain n ++ a.trail)) =
          (back ++ (read.key ++ [equalsSign])) ++ (plain n ++ a.trail) := by simp
      rw [List.take_succ_cons, happ, List.take_append_of_le_length]
      simp
      omega
    have hsame := urlDecodeCopyn_congr ((htake 0).trans (htake 1).symm) t
    rw [hsame] at hzero
    exact absurd (hzero.2.2.symm.trans hone.2.2) (by decide)
  · obtain ⟨value, hvalue, _⟩ := hzero
    rw [parseUrlKvPair_noValue _ (hfound 0) hfront heq (hends _)] at hvalue
    cases hvalue

/-- An `=` behind the stray key: the value begins there and is too long for some
value that fits. -/
theorem not_equalsSign_of_looksUp {rest : List UInt8}
    (hrest : strstr read.key a.lead = some rest) (hopen : ampersand ∉ rest) :
    equalsSign ∉ rest := by
  intro hmem
  obtain ⟨name, t, rfl, hname⟩ := List.eq_append_cons_of_mem hmem
  have hsize := KvRead.size_bounds read
  have hlong := gets_of_looksUp a hall (show read.size - 1 ≤ paramValueMaxLen by omega) (by omega)
  have hfound := a.strstr_uri (keyText read) (questionMark_not_mem_key read)
    (plain_text (read.size - 1))
  rw [hrest, Option.getD_some] at hfound
  have hvalue : (name ++ equalsSign :: t) ++
      (read.key ++ equalsSign :: (plain (read.size - 1) ++ a.trail)) =
        name ++ equalsSign :: ((t ++ (read.key ++ equalsSign :: plain (read.size - 1))) ++
          a.trail) := by simp
  rw [hvalue] at hfound
  have ht : ampersand ∉ t ++ (read.key ++ equalsSign :: plain (read.size - 1)) := by
    have ht' : ampersand ∉ t := fun h => hopen (by simp [h])
    simp [ht', (keyText read).ampersand, (plain_text (read.size - 1)).ampersand,
      (by decide : ¬ ampersand = equalsSign)]
  have hname' : ampersand ∉ name := fun h => hopen (by simp [h])
  rw [gets_iff hfound hname' hname ht a.trail_ends] at hlong
  have hlen := hlong.2.1
  simp only [List.length_append, List.length_cons, plain, List.length_replicate] at hlen
  omega

end All

end Present

/-- What the lookup does with every request. With the key in the query it goes
by the pairs for all values that fit exactly where no text before the pair
misleads it; without the key it reports the error exactly where it does not
find a value all the same. -/
theorem parseUrlKvPair_looksUp (read : KvRead) :
    (∀ a : Around read.key,
      (∀ v, ∀ hv : ValueText v, Fits read v → LooksUp read (a.request (keyText read) hv)) ↔
        a.Aligned) ∧
    (∀ a : Around read.key, a.Aligned → ∀ v, ∀ hv : ValueText v,
      LooksUp read (a.request (keyText read) hv) ↔ Fits read v) ∧
    ∀ r : Request, read.key ∉ r.pairs.map Prod.fst →
      (LooksUp read r ↔ ¬ Stray read.key r.uri) := by
  refine ⟨?_, ?_, ?_⟩
  · intro a
    constructor
    · intro hall rest hrest
      have hamp := not_ampersand_of_looksUp a hall hrest
      exact ⟨not_equalsSign_of_looksUp a hall hrest hamp, hamp⟩
    · intro h v hv hfits
      exact (looksUp_aligned a h hv).mpr hfits
  · intro a h v hv
    exact looksUp_aligned a h hv
  · intro r habsent
    rw [← error_iff_not_stray]
    constructor
    · intro h
      exact h.absent habsent
    · intro h
      refine ⟨?_, fun _ => h⟩
      intro v w hmem _
      exact absurd (List.mem_map_of_mem (f := Prod.fst) hmem) habsent

/-- `mode` stands at the end of another key. -/
def otherKey : Request where
  path := ascii "/v1/blink/configure"
  pairs := [(ascii "led_mode", ascii "off"), (ascii "mode", ascii "auto")]
  path_text := by decide
  keys_text := by
    intro p hp
    simp only [List.mem_cons, List.not_mem_nil, or_false] at hp
    rcases hp with rfl | rfl <;> exact ⟨by decide, by decide, by decide⟩
  values_text := by
    intro p hp
    simp only [List.mem_cons, List.not_mem_nil, or_false] at hp
    rcases hp with rfl | rfl <;> exact ⟨by decide, by decide⟩
  distinct := by decide

theorem mode_of_other_key : ¬ ∀ read r, LooksUp read r := by
  intro h
  obtain ⟨value, hvalue, htext⟩ := (h .blinkMode otherKey).present (ascii "auto") (ascii "auto")
    (by decide) (by decide)
  have hread : ((parseUrlKvPair otherKey.uri (ascii "mode")
      (Vector.replicate (paramValueMaxLen + 1) 0)).map fun
        | .ok value => text value.toList
        | .error _ => []) = some (ascii "off") := by decide +kernel
  have hsame : some (text value.toList) = some (ascii "off") :=
    (congrArg _ hvalue).symm.trans hread
  rw [htext] at hsame
  exact absurd hsame (by decide)

end UrlQuery

end MarkitNode
