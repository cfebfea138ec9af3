import MarkitNode.UrlLookup

/-!
The ways to write a value in a URL. A character stands for itself, a `+` for a
space, and two hex digits behind a `%` for any byte. What `parse_url_kv_pair`
hands out is the string that was written, whichever way was taken for each byte.
-/

namespace MarkitNode

namespace UrlQuery

open CString

abbrev hash : UInt8 := 35

/-- One byte and what may be written for it. -/
inductive EncodesByte : UInt8 → List UInt8 → Prop
  | escape {a b : UInt8} {high low : Nat} (ha : hexDigit a = some high)
      (hb : hexDigit b = some low) :
      EncodesByte (UInt8.ofNat (16 * high + low)) [percent, a, b]
  | plus : EncodesByte space [plus]
  | literal {c : UInt8} (hc : c ∉ [percent, plus, ampersand, equalsSign, hash]) :
      EncodesByte c [c]

/-- A string and one of its encodings, byte by byte. -/
inductive Encodes : List UInt8 → List UInt8 → Prop
  | nil : Encodes [] []
  | cons {c : UInt8} {code s enc : List UInt8} (hc : EncodesByte c code) (hs : Encodes s enc) :
      Encodes (c :: s) (code ++ enc)

theorem hexDigit_ampersand : hexDigit ampersand = none := by decide

theorem ampersand_not_mem_byte {c : UInt8} {code : List UInt8} (h : EncodesByte c code) :
    ampersand ∉ code := by
  have hdigit : ∀ {a : UInt8} {d : Nat}, hexDigit a = some d → ampersand ≠ a := by
    intro a d ha heq
    rw [← heq, hexDigit_ampersand] at ha
    cases ha
  cases h with
  | escape ha hb => simp [hdigit ha, hdigit hb, (by decide : ¬ ampersand = percent)]
  | plus => decide
  | literal hc =>
    intro hmem
    apply hc
    rw [← List.mem_singleton.mp hmem]
    decide

theorem ampersand_not_mem {s enc : List UInt8} (h : Encodes s enc) : ampersand ∉ enc := by
  induction h with
  | nil => exact List.not_mem_nil
  | cons hc _ ih =>
    intro hmem
    rcases List.mem_append.mp hmem with hcode | hrest
    · exact ampersand_not_mem_byte hc hcode
    · exact ih hrest

theorem urlDecode_byte {c : UInt8} {code : List UInt8} (h : EncodesByte c code)
    {s enc : List UInt8} (hs : urlDecode enc = some s) :
    urlDecode (code ++ enc) = some (c :: s) := by
  cases h with
  | escape ha hb =>
    rw [List.cons_append, List.cons_append, List.cons_append, List.nil_append, urlDecode,
      if_pos rfl, ha, hb, hs]
    rfl
  | plus =>
    rw [List.singleton_append, urlDecode.eq_def]
    simp only [if_neg (by decide : ¬ plus = percent), hs]
    rfl
  | literal hc =>
    have hpercent : ¬ c = percent := by
      intro heq
      exact hc (by simp [heq])
    have hplus : ¬ c = plus := by
      intro heq
      exact hc (by simp [heq])
    rw [List.singleton_append, urlDecode.eq_def]
    simp only [if_neg hpercent, if_neg hplus, hs]
    rfl

/-- Decoding undoes every encoding. -/
theorem urlDecode_encodes {s enc : List UInt8} (h : Encodes s enc) : urlDecode enc = some s := by
  induction h with
  | nil => rfl
  | cons hc _ ih => exact urlDecode_byte hc ih

/-- The text of the key stands at one place only. -/
def OnlyAt (key front uri : List UInt8) : Prop := ∀ a b, uri = a ++ (key ++ b) → a = front

theorem onlyAt_of_drop {key front uri : List UInt8}
    (h : ∀ n ≤ uri.length, key <+: uri.drop n → uri.take n = front) : OnlyAt key front uri := by
  intro a b huri
  have hlen := congrArg List.length huri
  rw [List.length_append] at hlen
  have htake := h a.length (by omega)
  rw [huri, List.drop_left, List.take_left] at htake
  exact htake (List.prefix_append key b)

theorem strstr_onlyAt {key front rest : List UInt8}
    (h : OnlyAt key front (front ++ (key ++ rest))) :
    strstr key (front ++ (key ++ rest)) = some (key ++ rest) := by
  obtain ⟨before, after, heq, hfound⟩ := strstr_occurrence key front rest
  have hfront := h before after heq
  rw [hfront] at heq
  rw [hfound, List.append_cancel_left heq]

section Parse

variable {s enc front key tail : List UInt8} {size : Nat}

/-- The call yields the string that was encoded. -/
theorem parseUrlKvPair_encoded (value : Vector UInt8 size) (hs : 0 ∉ s) (henc : Encodes s enc)
    (hlen : enc.length ≤ paramValueMaxLen) (hsize : enc.length < size) (hkey : KeyText key)
    (htail : EndsPair tail)
    (honly : OnlyAt key front (front ++ (key ++ equalsSign :: (enc ++ tail)))) :
    ∃ out, parseUrlKvPair (front ++ (key ++ equalsSign :: (enc ++ tail))) key value =
      some (.ok out) ∧ 0 ∈ out.toList ∧ text out.toList = s := by
  have hdecode := urlDecode_encodes henc
  have hcopy := copyValue_eq value (enc ++ tail) enc.length hlen
  rw [if_pos hsize, urlDecodeCopyn_decode hdecode] at hcopy
  obtain ⟨out, hout, htext⟩ := hcopy
  rw [text_of_not_mem hs] at htext
  refine ⟨out, ?_, ?_, htext⟩
  · rw [parseUrlKvPair_value value (strstr_onlyAt honly) hkey.ampersand hkey.equalsSign
      (ampersand_not_mem henc) htail, hout]
  · apply mem_of_length_text_lt
    have hs : s.length ≤ enc.length := by
      rw [← urlDecodeCopyn_decode hdecode []]
      exact length_urlDecodeCopyn _ _
    rw [htext, Vector.length_toList]
    omega

end Parse

theorem encodes_plus_ampersand : Encodes (ascii "1+ &") (ascii "1%2b+%26") := by
  have hplus : EncodesByte 43 (ascii "%2b") :=
    @EncodesByte.escape 50 98 2 11 (by decide) (by decide)
  have hampersand : EncodesByte 38 (ascii "%26") :=
    @EncodesByte.escape 50 54 2 6 (by decide) (by decide)
  exact .cons (.literal (by decide)) (.cons hplus (.cons .plus (.cons hampersand .nil)))

/-- `?seq=1%2b+%26&n=2` -/
theorem parseUrlKvPair_escapes :
    ∃ out, parseUrlKvPair (ascii "?" ++ (ascii "seq" ++ equalsSign ::
        (ascii "1%2b+%26" ++ ascii "&n=2"))) (ascii "seq") (Vector.replicate 129 0) =
      some (.ok out) ∧ 0 ∈ out.toList ∧ text out.toList = ascii "1+ &" := by
  apply parseUrlKvPair_encoded _ (by decide) encodes_plus_ampersand (by decide) (by decide)
  · exact ⟨by decide, by decide, by decide⟩
  · intro c hc
    exact (Option.some.inj hc).symm
  · apply onlyAt_of_drop
    decide

end UrlQuery

end MarkitNode
