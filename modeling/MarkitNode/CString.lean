import Mathlib.Data.List.TakeWhile
import Mathlib.Tactic.Common

/-!
C strings. Memory is a list of bytes and a pointer is the suffix it points to,
so a string goes up to the first NUL of the list. A function that writes gets
the array it writes to; its result is `none` where it leaves that array or the
memory it reads. The spans count the bytes that a function reads.
-/

namespace MarkitNode

namespace CString

/-- The bytes before the first NUL, all of them where there is none. -/
def text (mem : List UInt8) : List UInt8 := mem.takeWhile (· ≠ 0)

theorem text_cons (b : UInt8) (rest : List UInt8) :
    text (b :: rest) = if b = 0 then [] else b :: text rest := by
  rw [text, text, List.takeWhile_cons]
  by_cases hb : b = 0 <;> simp [hb]

theorem not_mem_text (mem : List UInt8) : 0 ∉ text mem := by
  intro h
  have hne := List.mem_takeWhile_imp h
  simp at hne

/-- A string without a character passes the search for it. -/
theorem passes_of_not_mem {c : UInt8} {s : List UInt8} (h : c ∉ s) :
    ∀ b ∈ s, decide (b ≠ c) = true := by
  intro b hb
  apply decide_eq_true
  intro heq
  exact h (heq ▸ hb)

theorem text_of_not_mem {s : List UInt8} (h : 0 ∉ s) : text s = s :=
  List.takeWhile_eq_self_iff.mpr (passes_of_not_mem h)

theorem length_text_le (mem : List UInt8) : (text mem).length ≤ mem.length :=
  (List.takeWhile_prefix _).length_le

/-- What stands behind a NUL does not count. -/
theorem text_append_nul (s rest : List UInt8) : text (s ++ 0 :: rest) = text s := by
  induction s with
  | nil => rfl
  | cons b tail ih => rw [List.cons_append, text_cons, text_cons, ih]

/-- A terminated string is its text, the NUL, and what follows. -/
theorem eq_text_append {mem : List UInt8} (h : 0 ∈ mem) :
    ∃ rest, mem = text mem ++ 0 :: rest := by
  induction mem with
  | nil => cases h
  | cons b tail ih =>
    by_cases hb : b = 0
    · exact ⟨tail, by rw [text_cons, if_pos hb, hb, List.nil_append]⟩
    · have htail : 0 ∈ tail := (List.mem_cons.mp h).resolve_left (Ne.symm hb)
      obtain ⟨rest, hrest⟩ := ih htail
      refine ⟨rest, ?_⟩
      rw [text_cons, if_neg hb, List.cons_append, ← hrest]

theorem text_append {front : List UInt8} (h : 0 ∈ front) (back : List UInt8) :
    text (front ++ back) = text front := by
  obtain ⟨rest, hrest⟩ := eq_text_append h
  calc text (front ++ back) = text (text front ++ 0 :: (rest ++ back)) := by
        rw [← List.cons_append, ← List.append_assoc, ← hrest]
    _ = text (text front) := text_append_nul _ _
    _ = text front := text_of_not_mem (not_mem_text front)

theorem text_prefix (front back : List UInt8) : text front <+: text (front ++ back) := by
  by_cases hend : 0 ∈ front
  · exact (text_append hend back).symm ▸ List.prefix_rfl
  · rw [text_of_not_mem hend, text, List.takeWhile_append_of_pos (passes_of_not_mem hend)]
    exact List.prefix_append front _

theorem length_text_lt {mem : List UInt8} (h : 0 ∈ mem) : (text mem).length < mem.length := by
  obtain ⟨rest, hrest⟩ := eq_text_append h
  have hlen := congrArg List.length hrest
  rw [List.length_append, List.length_cons] at hlen
  omega

theorem mem_of_length_text_lt {mem : List UInt8} (h : (text mem).length < mem.length) :
    0 ∈ mem := by
  by_contra hopen
  rw [text_of_not_mem hopen] at h
  exact absurd h (Nat.lt_irrefl _)

/-- A prefix that is longer than the text keeps it, with its NUL. -/
theorem text_take {mem : List UInt8} {n : Nat} (h : 0 ∈ mem) (hn : (text mem).length < n) :
    0 ∈ mem.take n ∧ text (mem.take n) = text mem := by
  obtain ⟨rest, hrest⟩ := eq_text_append h
  obtain ⟨k, hk⟩ : ∃ k, n - (text mem).length = k + 1 := ⟨n - (text mem).length - 1, by omega⟩
  have htake : mem.take n = text mem ++ 0 :: rest.take k := by
    conv_lhs => rw [hrest]
    rw [List.take_append, List.take_of_length_le (Nat.le_of_lt hn), hk, List.take_succ_cons]
  rw [htake, text_append_nul]
  exact ⟨List.mem_append_right _ List.mem_cons_self, text_of_not_mem (not_mem_text mem)⟩

theorem length_le_text {front : List UInt8} (h : 0 ∉ front) (back : List UInt8) :
    front.length ≤ (text (front ++ back)).length := by
  rw [text, List.takeWhile_append_of_pos (passes_of_not_mem h), List.length_append]
  exact Nat.le_add_right _ _

def strlen (mem : List UInt8) : Option Nat :=
  if 0 ∈ mem then some (text mem).length else none

def strlenSpan (mem : List UInt8) : Nat := (text mem).length + 1

/-- What `strncpy` writes: the text, cut after `n` bytes or filled up with NULs. -/
def padded (mem : List UInt8) (n : Nat) : List UInt8 :=
  (text mem).take n ++ List.replicate (n - (text mem).length) 0

theorem length_padded (mem : List UInt8) (n : Nat) : (padded mem n).length = n := by
  rw [padded, List.length_append, List.length_take, List.length_replicate]
  omega

def strncpy {m : Nat} (dst : Vector UInt8 m) (src : List UInt8) (n : Nat) :
    Option (Vector UInt8 m) :=
  if h : n ≤ m ∧ (0 ∈ src ∨ n ≤ src.length) then
    some ⟨(padded src n ++ dst.toList.drop n).toArray, by
      rw [List.size_toArray, List.length_append, length_padded, List.length_drop,
        Vector.length_toList]
      omega⟩
  else none

def strncpySpan (src : List UInt8) (n : Nat) : Nat := min n (strlenSpan src)

theorem strncpy_of_terminated {m n : Nat} (dst : Vector UInt8 m) {src : List UInt8}
    (hsrc : 0 ∈ src) (hn : n ≤ m) : ∃ out, strncpy dst src n = some out :=
  ⟨_, dif_pos ⟨hn, Or.inl hsrc⟩⟩

/-- A text shorter than the count arrives whole. -/
theorem strncpy_text {m n : Nat} (dst : Vector UInt8 m) {src : List UInt8} (hsrc : 0 ∈ src)
    (hn : n ≤ m) (hlen : (text src).length < n) :
    ∃ out, strncpy dst src n = some out ∧ text out.toList = text src := by
  refine ⟨_, dif_pos ⟨hn, Or.inl hsrc⟩, ?_⟩
  obtain ⟨k, hk⟩ : ∃ k, n - (text src).length = k + 1 := ⟨n - (text src).length - 1, by omega⟩
  rw [Vector.toList_mk, padded, List.take_of_length_le (Nat.le_of_lt hlen), hk,
    List.replicate_succ, List.append_assoc, List.cons_append]
  exact (text_append_nul _ _).trans (text_of_not_mem (not_mem_text src))

def memcpy {m : Nat} (dst : Vector UInt8 m) (src : List UInt8) : Option (Vector UInt8 m) :=
  if h : src.length ≤ m then
    some ⟨(src ++ dst.toList.drop src.length).toArray, by
      rw [List.size_toArray, List.length_append, List.length_drop, Vector.length_toList]
      omega⟩
  else none

theorem memcpy_toList {m : Nat} (dst : Vector UInt8 m) {src : List UInt8} (h : src.length ≤ m) :
    ∃ out, memcpy dst src = some out ∧ out.toList = src ++ dst.toList.drop src.length :=
  ⟨_, dif_pos h, rfl⟩

/-- `strcpy` of a string that has room. -/
theorem memcpy_nul {m : Nat} (dst : Vector UInt8 m) {s : List UInt8} (h : s.length < m) :
    ∃ out, memcpy dst (s ++ [0]) = some out ∧ 0 ∈ out.toList ∧ text out.toList = text s := by
  have hlen : (s ++ [0]).length ≤ m := by
    rw [List.length_append]
    exact h
  refine ⟨_, dif_pos hlen, ?_⟩
  rw [Vector.toList_mk, List.append_assoc]
  exact ⟨List.mem_append_right s List.mem_cons_self, text_append_nul s _⟩

theorem memcpy_nul_none {m : Nat} (dst : Vector UInt8 m) {s : List UInt8} (h : m ≤ s.length) :
    memcpy dst (s ++ [0]) = none := by
  apply dif_neg
  rw [List.length_append, List.length_singleton]
  omega

/-- An assignment to one element. -/
def assign {m : Nat} (dst : Vector UInt8 m) (i : Nat) (b : UInt8) : Option (Vector UInt8 m) :=
  if h : i < m then some (dst.set i b) else none

theorem assign_toList {m : Nat} (dst : Vector UInt8 m) {i : Nat} (h : i < m) (b : UInt8) :
    ∃ out, assign dst i b = some out ∧ out.toList = dst.toList.set i b :=
  ⟨_, dif_pos h, Vector.toList_set _⟩

/-- One more NUL behind the end of a string is not seen. -/
theorem text_set_nul {s : List UInt8} {i : Nat} (h : s.length ≤ i) (rest : List UInt8) :
    text ((s ++ 0 :: rest).set i 0) = text s := by
  rw [List.set_append_right _ _ h]
  cases i - s.length with
  | zero => exact text_append_nul s rest
  | succ k => exact text_append_nul s (rest.set k 0)

/-! ### Searching -/

def ascii (s : String) : List UInt8 := s.toList.map fun c => UInt8.ofNat c.toNat

def strchr (c : UInt8) : List UInt8 → Option (List UInt8)
  | [] => none
  | b :: rest => if b = c then some (b :: rest) else strchr c rest

def strrchr (c : UInt8) : List UInt8 → Option (List UInt8)
  | [] => none
  | b :: rest =>
      match strrchr c rest with
      | some found => some found
      | none => if b = c then some (b :: rest) else none

/-- Whether `strncmp` finds the two strings equal. -/
def strncmpEq (a b : List UInt8) (n : Nat) : Bool := (a ++ [0]).take n == (b ++ [0]).take n

/-- One call of `strtok`: the token and what is left for the next call. -/
def strtok (delim : UInt8) (s : List UInt8) : Option (List UInt8 × List UInt8) :=
  match s.dropWhile (· = delim) with
  | [] => none
  | b :: rest =>
      some ((b :: rest).takeWhile (· ≠ delim), ((b :: rest).dropWhile (· ≠ delim)).tail)

def strstr (needle : List UInt8) : List UInt8 → Option (List UInt8)
  | [] => if needle = [] then some [] else none
  | b :: rest => if needle <+: b :: rest then some (b :: rest) else strstr needle rest

theorem strchr_append {c : UInt8} {front : List UInt8} (h : c ∉ front) (back : List UInt8) :
    strchr c (front ++ back) = strchr c back := by
  induction front with
  | nil => rfl
  | cons b tail ih =>
    have hb : b ≠ c := fun heq => h (heq ▸ List.mem_cons_self)
    rw [List.cons_append, strchr, if_neg hb, ih (fun hmem => h (List.mem_cons_of_mem b hmem))]

theorem strchr_cons_self (c : UInt8) (rest : List UInt8) :
    strchr c (c :: rest) = some (c :: rest) := if_pos rfl

theorem strchr_of_not_mem {c : UInt8} {s : List UInt8} (h : c ∉ s) : strchr c s = none := by
  have hnone := strchr_append h []
  rwa [List.append_nil] at hnone

/-- The character that is found is the first of its kind. -/
theorem exists_of_strchr {c : UInt8} {s found : List UInt8} (h : strchr c s = some found) :
    ∃ front rest, s = front ++ c :: rest ∧ c ∉ front ∧ found = c :: rest := by
  by_cases hmem : c ∈ s
  · obtain ⟨front, rest, rfl, hfront⟩ := List.eq_append_cons_of_mem hmem
    rw [strchr_append hfront, strchr_cons_self, Option.some.injEq] at h
    exact ⟨front, rest, rfl, hfront, h.symm⟩
  · rw [strchr_of_not_mem hmem] at h
    cases h

theorem length_strchr_le {c : UInt8} {s found : List UInt8} (h : strchr c s = some found) :
    found.length ≤ s.length := by
  induction s with
  | nil => cases h
  | cons b rest ih =>
    rw [strchr] at h
    split at h
    · rw [← Option.some.inj h]
    · exact Nat.le_succ_of_le (ih h)

theorem strtok_spec {delim : UInt8} {s token rest : List UInt8}
    (h : strtok delim s = some (token, rest)) : token ≠ [] ∧ token ⊆ s ∧ rest ⊆ s := by
  have hsub : s.dropWhile (· = delim) ⊆ s := (List.dropWhile_suffix _).subset
  unfold strtok at h
  split at h
  · cases h
  · rename_i b tail hdrop
    rw [hdrop] at hsub
    obtain ⟨rfl, rfl⟩ := Prod.mk.inj (Option.some.inj h)
    have hb : b ≠ delim := by
      intro heq
      have hhead := List.head?_dropWhile_not (fun c => decide (c = delim)) s
      rw [hdrop] at hhead
      simp [heq] at hhead
    refine ⟨?_, ?_, ?_⟩
    · rw [List.takeWhile_cons_of_pos (by simpa using hb)]
      exact List.cons_ne_nil b _
    · exact fun c hc => hsub ((List.takeWhile_prefix _).subset hc)
    · exact fun c hc => hsub ((List.dropWhile_suffix _).subset (List.mem_of_mem_tail hc))

/-- The token, its separator and the rest stand one behind the other. -/
theorem length_strtok {delim : UInt8} {s token rest : List UInt8}
    (h : strtok delim s = some (token, rest)) :
    token.length ≤ s.length ∧ (rest ≠ [] → token.length + 1 + rest.length ≤ s.length) := by
  have hle := (List.dropWhile_suffix (· = delim) (l := s)).length_le
  unfold strtok at h
  split at h
  · cases h
  · rename_i b tail hdrop
    rw [hdrop] at hle
    obtain ⟨rfl, rfl⟩ := Prod.mk.inj (Option.some.inj h)
    have hsum := congrArg List.length
      (List.takeWhile_append_dropWhile (p := (· ≠ delim)) (l := b :: tail))
    rw [List.length_append] at hsum
    have hpos : ∀ l : List UInt8, l.tail ≠ [] → l.length = l.tail.length + 1 := by
      rintro (_ | ⟨c, l⟩) htail
      · exact absurd rfl htail
      · rfl
    refine ⟨by omega, fun hrest => ?_⟩
    have hlen := hpos _ hrest
    omega

/-- A string that does not begin with the separator is cut at the first one. -/
theorem strtok_of_head {delim : UInt8} {s : List UInt8} (hne : s ≠ [])
    (hhead : s.head? ≠ some delim) :
    strtok delim s =
      some (s.takeWhile (· ≠ delim), (s.dropWhile (· ≠ delim)).tail) := by
  cases s with
  | nil => exact absurd rfl hne
  | cons b rest =>
    have hb : b ≠ delim := fun heq => hhead (by rw [heq]; rfl)
    have hdrop : (b :: rest).dropWhile (· = delim) = b :: rest :=
      List.dropWhile_cons_of_neg (by simpa using hb)
    rw [strtok, hdrop]

theorem not_mem_strtok {delim : UInt8} {s token rest : List UInt8}
    (h : strtok delim s = some (token, rest)) : delim ∉ token := by
  unfold strtok at h
  split at h
  · cases h
  · obtain ⟨rfl, rfl⟩ := Prod.mk.inj (Option.some.inj h)
    intro hmem
    have hne := List.mem_takeWhile_imp hmem
    simp at hne

/-- A name that ends inside the string is compared whole. -/
theorem strncmpEq_iff {name b : List UInt8} {c : UInt8} (hname : 0 ∉ name) (hc : c ∉ b)
    {rest s : List UInt8} (hs : s ++ [0] = name ++ c :: rest) :
    strncmpEq s b (max b.length name.length) = true ↔ name = b := by
  rw [strncmpEq, hs, beq_iff_eq]
  constructor
  · intro h
    by_cases hle : b.length ≤ name.length
    · rw [Nat.max_eq_right hle, List.take_left] at h
      rcases Nat.eq_or_lt_of_le hle with heq | hlt
      · rwa [← heq, List.take_left] at h
      · have hlen : (b ++ [0]).length ≤ name.length := by
          rw [List.length_append]
          exact hlt
        rw [List.take_of_length_le hlen] at h
        exact absurd (h ▸ List.mem_append_right b (List.mem_singleton_self 0)) hname
    · rw [Nat.max_eq_left (by omega), List.take_left] at h
      obtain ⟨k, hk⟩ : ∃ k, b.length - name.length = k + 1 :=
        ⟨b.length - name.length - 1, by omega⟩
      rw [List.take_append, hk, List.take_succ_cons] at h
      exact absurd (h ▸ List.mem_append_right _ List.mem_cons_self) hc
  · rintro rfl
    rw [Nat.max_self, List.take_left, List.take_left]

theorem strrchr_append {c : UInt8} {back : List UInt8} (h : c ∉ back) (front : List UInt8) :
    strrchr c (front ++ c :: back) = some (c :: back) := by
  have hback : strrchr c back = none := by
    induction back with
    | nil => rfl
    | cons b rest ih =>
      rw [strrchr, ih (fun hmem => h (List.mem_cons_of_mem b hmem))]
      exact if_neg fun heq : b = c => h (heq ▸ List.mem_cons_self)
  induction front with
  | nil =>
    rw [List.nil_append, strrchr, hback]
    exact if_pos rfl
  | cons b rest ih => rw [List.cons_append, strrchr, ih]

theorem strrchr_suffix {c : UInt8} {s found : List UInt8} (h : strrchr c s = some found) :
    found <:+ s := by
  induction s with
  | nil => cases h
  | cons b rest ih =>
    rw [strrchr] at h
    split at h
    · rename_i later hlater
      exact (ih (hlater.trans h)).trans (List.suffix_cons b rest)
    · split at h
      · have hfound := Option.some.inj h
        exact hfound ▸ List.suffix_rfl
      · cases h

theorem strstr_self_append (needle rest : List UInt8) :
    strstr needle (needle ++ rest) = some (needle ++ rest) := by
  cases hs : needle ++ rest with
  | nil =>
    rw [strstr, if_pos (List.append_eq_nil_iff.mp hs).1]
  | cons b tail =>
    rw [strstr, if_pos (hs ▸ List.prefix_append needle rest)]

theorem strstr_suffix {needle s found : List UInt8} (h : strstr needle s = some found) :
    found <:+ s := by
  induction s with
  | nil =>
    rw [strstr] at h
    split at h
    · exact Option.some.inj h ▸ List.suffix_rfl
    · cases h
  | cons b rest ih =>
    rw [strstr] at h
    split at h
    · exact Option.some.inj h ▸ List.suffix_rfl
    · exact (ih h).trans (List.suffix_cons b rest)

/-- An occurrence of the needle is found, though another may come first. -/
theorem strstr_occurrence (needle front rest : List UInt8) :
    ∃ before after, front ++ (needle ++ rest) = before ++ (needle ++ after) ∧
      strstr needle (front ++ (needle ++ rest)) = some (needle ++ after) := by
  induction front with
  | nil => exact ⟨[], rest, rfl, strstr_self_append needle rest⟩
  | cons b tail ih =>
    rw [List.cons_append, strstr]
    by_cases hp : needle <+: b :: (tail ++ (needle ++ rest))
    · obtain ⟨after, hafter⟩ := hp
      refine ⟨[], after, hafter.symm, ?_⟩
      rw [if_pos ⟨after, hafter⟩, hafter]
    · obtain ⟨before, after, heq, hfound⟩ := ih
      refine ⟨b :: before, after, ?_, ?_⟩
      · rw [heq, List.cons_append]
      · rw [if_neg hp, hfound]

theorem prefix_append_iff {sep : UInt8} {needle front : List UInt8} (hneedle : sep ∉ needle)
    (hfront : sep ∈ front) (back : List UInt8) : needle <+: front ++ back ↔ needle <+: front := by
  constructor
  · intro h
    rcases List.prefix_or_prefix_of_prefix h (List.prefix_append front back) with hin | hover
    · exact hin
    · exact absurd (hover.subset hfront) hneedle
  · intro h
    exact h.trans (List.prefix_append front back)

/-- Where a separator that the needle lacks ends the front, an occurrence lies
in the front or behind it. -/
theorem strstr_append_sep {sep : UInt8} {needle : List UInt8} (hsep : sep ∉ needle)
    (front back : List UInt8) :
    strstr needle (front ++ sep :: back) =
      match strstr needle (front ++ [sep]) with
      | some rest => some (rest ++ back)
      | none => strstr needle back := by
  induction front with
  | nil =>
    by_cases hnil : needle = []
    · rw [hnil]
      rfl
    · have hiff := prefix_append_iff hsep (List.mem_singleton_self sep) back
      have hnot : ¬ needle <+: [sep] := by
        intro h
        rcases List.prefix_cons_iff.mp h with hempty | ⟨tail, rfl, _⟩
        · exact hnil hempty
        · exact hsep List.mem_cons_self
      rw [List.singleton_append] at hiff
      simp only [List.nil_append, strstr, if_neg hnot, if_neg (mt hiff.mp hnot), if_neg hnil]
  | cons b tail ih =>
    have hmem : sep ∈ b :: (tail ++ [sep]) :=
      List.mem_cons_of_mem b (List.mem_append_right tail (List.mem_singleton_self sep))
    have hiff := prefix_append_iff hsep hmem back
    rw [List.cons_append, List.append_assoc, List.singleton_append] at hiff
    simp only [List.cons_append, strstr, hiff, ih]
    by_cases hp : needle <+: b :: (tail ++ [sep])
    · rw [if_pos hp, if_pos hp]
      simp
    · rw [if_neg hp, if_neg hp]

end CString

end MarkitNode
