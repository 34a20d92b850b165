import Mathlib.Tactic.SplitIfs
import NeutralSchema.Text.Bytes

/-!
# Slices of a text

The slice between two offsets is what stands between two parts of the text, the first of which ends
at the first offset and the second of which starts at the other one. Main statements:
`slice?_eq_some_iff`, `isSome_slice?_iff`.
-/
namespace NeutralSchema.Text

theorem splitBytes?_append (part rest : List Char) :
    splitBytes? (byteLength part) (part ++ rest) = some (part, rest) := by
  induction part with
  | nil => simp [splitBytes?]
  | cons c cs ih =>
    obtain ⟨n, size⟩ := Nat.exists_eq_add_one.mpr (Char.utf8Size_pos c)
    have total : byteLength (c :: cs) = n + byteLength cs + 1 := by
      rw [byteLength_cons]
      omega
    have fits : c.utf8Size ≤ n + byteLength cs + 1 := by omega
    have left : n + byteLength cs + 1 - c.utf8Size = byteLength cs := by omega
    rw [total, List.cons_append, splitBytes?, if_pos fits, left, ih]
    rfl

theorem slice?_append (before part after : List Char) :
    slice? (String.ofList (before ++ (part ++ after))) (byteLength before)
      (byteLength before + byteLength part) = some (String.ofList part) := by
  have length : byteLength before + byteLength part - byteLength before = byteLength part := by
    omega
  rw [slice?, if_pos (Nat.le_add_right _ _), String.toList_ofList, splitBytes?_append, length]
  simp only [Option.bind_eq_bind, Option.bind_some, splitBytes?_append]
  rfl

theorem byteLength_toList (text : String) : byteLength text.toList = text.utf8ByteSize := by
  obtain ⟨cs, rfl⟩ : ∃ cs, text = String.ofList cs := ⟨text.toList, String.ofList_toList.symm⟩
  rw [String.toList_ofList]
  induction cs with
  | nil => simp
  | cons c cs ih => simp [ih, String.ofList_cons]

/-- A text can be cut in only one way after a number of bytes. -/
theorem append_inj_of_size {left left' right right' : String}
    (same : left ++ right = left' ++ right') (size : left.utf8ByteSize = left'.utf8ByteSize) :
    left = left' ∧ right = right' := by
  have cut := splitBytes?_append left.toList right.toList
  rw [← String.toList_append, same, byteLength_toList, size, ← byteLength_toList,
    String.toList_append, splitBytes?_append] at cut
  simpa [String.toList_inj, eq_comm] using cut

theorem eq_append_of_splitBytes? {n : Nat} {cs part rest : List Char}
    (split : splitBytes? n cs = some (part, rest)) : cs = part ++ rest ∧ n = byteLength part := by
  induction cs generalizing n part with
  | nil =>
    cases n with
    | zero => cases split; exact ⟨rfl, rfl⟩
    | succ n => cases split
  | cons c cs ih =>
    cases n with
    | zero => cases split; exact ⟨rfl, rfl⟩
    | succ n =>
      rw [splitBytes?] at split
      split_ifs at split with fits
      obtain ⟨⟨later, rest'⟩, found, same⟩ := Option.map_eq_some_iff.mp split
      cases same
      obtain ⟨rfl, left⟩ := ih found
      refine ⟨rfl, ?_⟩
      rw [byteLength_cons, ← left]
      omega

section

variable {text part : String} {start stop : Nat}

theorem slice?_eq_some_iff : slice? text start stop = some part
    ↔ ∃ before after : String, text = before ++ (part ++ after) ∧ before.utf8ByteSize = start
      ∧ before.utf8ByteSize + part.utf8ByteSize = stop := by
  constructor
  · intro sliced
    rw [slice?] at sliced
    split_ifs at sliced with ordered
    simp only [Option.bind_eq_bind, Option.bind_eq_some_iff] at sliced
    obtain ⟨⟨before, rest⟩, first, ⟨cs, after⟩, second, same⟩ := sliced
    obtain ⟨whole, starts⟩ := eq_append_of_splitBytes? first
    obtain ⟨rfl, stops⟩ := eq_append_of_splitBytes? second
    cases same
    refine ⟨String.ofList before, String.ofList after, ?_, ?_, ?_⟩
    · rw [← String.ofList_append, ← String.ofList_append, ← whole, String.ofList_toList]
    · rw [← byteLength_toList, String.toList_ofList, starts]
    · rw [← byteLength_toList, ← byteLength_toList, String.toList_ofList, String.toList_ofList,
        ← starts, ← stops]
      omega
  · rintro ⟨before, after, rfl, rfl, rfl⟩
    have sliced := slice?_append before.toList part.toList after.toList
    rw [byteLength_toList, byteLength_toList] at sliced
    simpa using sliced

/-- Offsets that are in order and between characters are the ends of a slice. -/
theorem isSome_slice?_iff : (slice? text start stop).isSome
    ↔ start ≤ stop ∧ String.Pos.Raw.IsValid text ⟨start⟩ ∧ String.Pos.Raw.IsValid text ⟨stop⟩ := by
  rw [Option.isSome_iff_exists]
  constructor
  · rintro ⟨part, sliced⟩
    obtain ⟨before, after, rfl, rfl, rfl⟩ := slice?_eq_some_iff.mp sliced
    refine ⟨Nat.le_add_right _ _, String.Pos.Raw.isValid_iff_exists_append.mpr
      ⟨before, part ++ after, rfl, rfl⟩, String.Pos.Raw.isValid_iff_exists_append.mpr
      ⟨before ++ part, after, (String.append_assoc ..).symm, ?_⟩⟩
    ext
    simp
  · rintro ⟨ordered, starts, stops⟩
    obtain ⟨before, rest, whole, first⟩ := String.Pos.Raw.isValid_iff_exists_append.mp starts
    obtain ⟨reached, after, again, second⟩ := String.Pos.Raw.isValid_iff_exists_append.mp stops
    have start_eq : start = before.utf8ByteSize := congrArg String.Pos.Raw.byteIdx first
    have stop_eq : stop = reached.utf8ByteSize := congrArg String.Pos.Raw.byteIdx second
    have sameChars : before.toList ++ rest.toList = reached.toList ++ after.toList := by
      rw [← String.toList_append, ← String.toList_append, ← whole, ← again]
    rcases List.append_eq_append_iff.mp sameChars with ⟨part, further, -⟩ | ⟨extra, back, -⟩
    · have reached_eq : reached = before ++ String.ofList part :=
        String.toList_inj.mp (by simpa using further)
      refine ⟨String.ofList part, slice?_eq_some_iff.mpr ⟨before, after, ?_, start_eq.symm, ?_⟩⟩
      · rw [again, reached_eq, String.append_assoc]
      · rw [stop_eq, reached_eq, String.utf8ByteSize_append]
    · -- the second offset is not beyond the first, so that nothing is between them
      have before_eq : before = reached ++ String.ofList extra :=
        String.toList_inj.mp (by simpa using back)
      have sizes := congrArg String.utf8ByteSize before_eq
      rw [String.utf8ByteSize_append] at sizes
      refine ⟨"", slice?_eq_some_iff.mpr ⟨before, rest, ?_, start_eq.symm, ?_⟩⟩
      · rw [whole, String.empty_append]
      · rw [String.utf8ByteSize_empty]
        omega

/-- The bytes of a slice are those between its offsets. -/
theorem toUTF8_of_slice? (sliced : slice? text start stop = some part) :
    part.toUTF8 = text.toUTF8.extract start stop := by
  obtain ⟨before, after, rfl, rfl, rfl⟩ := slice?_eq_some_iff.mp sliced
  have none : before.toByteArray.extract before.utf8ByteSize
      (before.utf8ByteSize + part.utf8ByteSize) = ByteArray.empty := by
    rw [ByteArray.extract_eq_empty_iff, String.size_toByteArray]
    exact Nat.min_le_right _ _
  have all : part.toByteArray.extract 0 part.utf8ByteSize = part.toByteArray := by
    rw [← String.size_toByteArray, ByteArray.extract_zero_size]
  simp [ByteArray.extract_append, none, all]

end

end NeutralSchema.Text
