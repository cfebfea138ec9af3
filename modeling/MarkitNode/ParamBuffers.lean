import MarkitNode.UrlLookup

/-!
The buffers that the handlers hand to `parse_url_kv_pair`. It accepts values of
128 bytes, whatever buffer it is given, and ends the value at its length in the
URI; the buffer of `nvs_variable_handler` has 65 bytes, all others have 129.
-/

namespace MarkitNode

namespace UrlQuery

/-- The call writes inside the buffer that the handler has passed. -/
def Inside (read : KvRead) (uri : List UInt8) : Prop :=
  (parseUrlKvPair uri read.key (Vector.replicate read.size 0)).isSome

/-- The offsets that the call writes: the decoded bytes, their NUL, and the NUL
at the length of the value. -/
def writtenOffsets (key uri : List UInt8) : List Nat :=
  match foundValue key uri with
  | none => []
  | some (v, tail) =>
      if paramValueMaxLen < v.length then []
      else List.range ((urlDecodeCopyn (v ++ tail) v.length).length + 1) ++ [v.length]

theorem inside_of_missing {read : KvRead} {uri : List UInt8}
    (h : foundValue read.key uri = none) : Inside read uri := by
  obtain ⟨err, herr⟩ := parseUrlKvPair_missing (Vector.replicate read.size 0) h
  rw [Inside, herr]
  rfl

theorem inside_found_iff {read : KvRead} {uri v tail : List UInt8}
    (h : foundValue read.key uri = some (v, tail)) :
    Inside read uri ↔ v.length < read.size ∨ paramValueMaxLen < v.length := by
  rw [Inside, parseUrlKvPair_found _ h, copyValue_isSome_iff]

/-- The last of the writes is the one furthest back. -/
theorem inside_iff_offsets (read : KvRead) (uri : List UInt8) :
    Inside read uri ↔ ∀ ofs ∈ writtenOffsets read.key uri, ofs < read.size := by
  unfold writtenOffsets
  cases hfound : foundValue read.key uri with
  | none => simp [inside_of_missing hfound]
  | some found =>
    obtain ⟨v, tail⟩ := found
    have hdecoded := length_urlDecodeCopyn (v ++ tail) v.length
    rw [inside_found_iff hfound]
    by_cases hlong : paramValueMaxLen < v.length
    · simp [hlong]
    · simp only [if_neg hlong, List.mem_append, List.mem_range, List.mem_singleton]
      constructor
      · intro hsize ofs hofs
        omega
      · intro hall
        exact Or.inl (hall v.length (Or.inr rfl))

/-- Exactly the values that are longer than the buffer and still accepted leave
it, and only one handler has a buffer that is so short. -/
theorem parseUrlKvPair_inside_iff (read : KvRead) (uri : List UInt8) :
    (Inside read uri ↔ ∀ v tail, foundValue read.key uri = some (v, tail) →
      v.length < read.size ∨ paramValueMaxLen < v.length) ∧
    (read ≠ .nvsVariable → Inside read uri) := by
  have hiff : Inside read uri ↔ ∀ v tail, foundValue read.key uri = some (v, tail) →
      v.length < read.size ∨ paramValueMaxLen < v.length := by
    cases hfound : foundValue read.key uri with
    | none => simp [inside_of_missing hfound]
    | some found =>
      obtain ⟨v, tail⟩ := found
      rw [inside_found_iff hfound]
      simp
  refine ⟨hiff, ?_⟩
  intro hread
  have hsize : read.size = paramValueMaxLen + 1 := by
    cases read <;> first | rfl | exact absurd rfl hread
  rw [hiff, hsize]
  intro v tail _
  omega

/-- A value of 65 characters for a variable. -/
def longVariable : List UInt8 :=
  CString.ascii "/v1/nvs/variable/DATA_HOST?value=" ++ plain 65

theorem longVariable_outside : ¬ ∀ read uri, Inside read uri := by
  intro h
  have hinside := h .nvsVariable longVariable
  revert hinside
  unfold Inside
  decide +kernel

end UrlQuery

end MarkitNode
