import Mathlib.Data.List.Basic
import NeutralSchema.Service.Endpoint

/-!
# Paths of URLs

The segments of a path that was read are written as they are: none of them holds a slash, a
character that is escaped, or a step. So they are read back from the text of the path. Main
statement: `readPath_path`.
-/
namespace NeutralSchema.Service.Address

/-- Whether a character is written as it is where a set of characters is escaped. -/
def isKept (set : List Char) (c : Char) : Bool :=
  0x20 ≤ c.toNat && c.toNat < 0x7f && !set.contains c

theorem escape_cons (set : List Char) (c : Char) (cs : List Char) : escape set (c :: cs)
    = (if isKept set c then [c] else (String.utf8EncodeChar c).flatMap escapeByte)
      ++ escape set cs := by
  have kept : (c.toNat < 0x20 || c.toNat ≥ 0x7f || set.contains c) = !isKept set c := by
    rw [Bool.eq_iff_iff]
    simp [isKept]
  simp only [escape, List.flatMap_cons, kept]
  cases isKept set c <;> rfl

theorem escape_cons_of_kept {set : List Char} {c : Char} (kept : isKept set c) (cs : List Char) :
    escape set (c :: cs) = c :: escape set cs := by
  rw [escape_cons, if_pos kept, List.singleton_append]

theorem escape_of_kept {set cs : List Char} (kept : ∀ c ∈ cs, isKept set c) :
    escape set cs = cs := by
  induction cs with
  | nil => rfl
  | cons c cs ih =>
    obtain ⟨first, rest⟩ := List.forall_mem_cons.mp kept
    rw [escape_cons_of_kept first, ih rest]

/-- The bytes of a character outside the ASCII range are outside of it too. -/
theorem toNat_of_mem_utf8EncodeChar {c : Char} {b : UInt8} (mem : b ∈ String.utf8EncodeChar c) :
    b.toNat = c.toNat ∨ 0x80 ≤ b.toNat := by
  have size (n : Nat) : (UInt8.ofNat n).toNat = n % 256 := UInt8.toNat_ofNat'
  simp only [String.utf8EncodeChar] at mem
  split_ifs at mem with ascii two three
  · left
    rw [List.mem_singleton.mp mem, size]
    exact Nat.mod_eq_of_lt (Nat.lt_of_le_of_lt ascii (by decide))
  all_goals
    right
    simp only [List.mem_cons, List.not_mem_nil, or_false] at mem
    rcases mem with rfl | rfl | rfl | rfl <;> rw [size] <;> omega

/-- What an escaped character starts with is no other character. -/
theorem eq_cons_of_escape {set cs rest : List Char} {c : Char} (starts : escape set cs = c :: rest)
    (plain : c ≠ '%') : ∃ cs', cs = c :: cs' ∧ escape set cs' = rest := by
  cases cs with
  | nil => cases starts
  | cons d cs =>
    rw [escape_cons] at starts
    split at starts
    case isTrue =>
      obtain ⟨rfl, rfl⟩ := List.cons.inj starts
      exact ⟨cs, rfl, rfl⟩
    case isFalse =>
      cases bytes : String.utf8EncodeChar d with
      | nil => exact absurd bytes String.utf8EncodeChar_ne_nil
      | cons b bs =>
        rw [bytes, List.flatMap_cons, escapeByte] at starts
        exact absurd (List.cons.inj starts).1.symm plain

theorem eq_nil_of_escape {set cs : List Char} (none : escape set cs = []) : cs = [] := by
  cases cs with
  | nil => rfl
  | cons c cs =>
    rw [escape_cons] at none
    split at none
    case isTrue => cases none
    case isFalse =>
      cases bytes : String.utf8EncodeChar c with
      | nil => exact absurd bytes String.utf8EncodeChar_ne_nil
      | cons b bs =>
        rw [bytes, List.flatMap_cons, escapeByte] at none
        cases none

/-- What escapes to a text without escapes is that text. -/
theorem eq_of_escape {set cs ds : List Char} (plain : ∀ d ∈ ds, d ≠ '%')
    (escaped : escape set cs = ds) : cs = ds := by
  induction ds generalizing cs with
  | nil => exact eq_nil_of_escape escaped
  | cons d ds ih =>
    obtain ⟨first, rest⟩ := List.forall_mem_cons.mp plain
    obtain ⟨later, rfl, left⟩ := eq_cons_of_escape escaped first
    rw [ih rest left]

/-- Whether a character stands in the segments of paths. -/
def isSegmentChar (c : Char) : Bool := isKept pathSet c && c != '/' && c != '\\'

/-- A segment as paths are written with: it has no slash and nothing to be escaped, and is no
step. -/
structure IsSegment (cs : List Char) : Prop where
  chars : ∀ c ∈ cs, isSegmentChar c
  stays : plainDots cs ≠ ['.']
  stands : plainDots cs ≠ ['.', '.']

theorem upperHex_ne : ∀ n < 16, isSegmentChar (upperHex n) ∧ upperHex n ≠ '%' ∧ upperHex n ≠ 'e'
    ∧ (upperHex n = '2' → n = 2) ∧ (upperHex n = 'E' → n = 14) := by
  decide

theorem plainDots_cons {c : Char} (plain : c ≠ '%') (cs : List Char) :
    plainDots (c :: cs) = c :: plainDots cs := by
  rw [plainDots]
  · rintro rest rfl
    exact absurd rfl plain
  · rintro rest rfl
    exact absurd rfl plain

/-- An escaped byte is read back as it is, since no point is escaped. -/
theorem plainDots_escapeByte {b : UInt8} (noPoint : b.toNat ≠ 0x2e) (cs : List Char) :
    plainDots (escapeByte b ++ cs) = escapeByte b ++ plainDots cs := by
  have high : b.toNat / 16 < 16 := by have := b.toNat_lt; omega
  have low : b.toNat % 16 < 16 := Nat.mod_lt _ (by decide)
  obtain ⟨-, highMark, -, two, -⟩ := upperHex_ne _ high
  obtain ⟨-, lowMark, lowSmall, -, fourteen⟩ := upperHex_ne _ low
  have noDot (rest : List Char) (mark : Char) (last : mark = 'e' ∨ mark = 'E') :
      upperHex (b.toNat / 16) :: upperHex (b.toNat % 16) :: cs ≠ '2' :: mark :: rest := by
    intro same
    obtain ⟨first, same⟩ := List.cons.inj same
    obtain ⟨second, -⟩ := List.cons.inj same
    rcases last with rfl | rfl
    · exact lowSmall second
    · have := two first
      have := fourteen second
      omega
  have mark : plainDots ('%' :: upperHex (b.toNat / 16) :: upperHex (b.toNat % 16) :: cs)
      = '%' :: plainDots (upperHex (b.toNat / 16) :: upperHex (b.toNat % 16) :: cs) := by
    rw [plainDots]
    · intro rest _ same
      exact noDot rest 'e' (.inl rfl) same
    · intro rest _ same
      exact noDot rest 'E' (.inr rfl) same
  rw [escapeByte, List.cons_append, List.cons_append, List.cons_append, List.nil_append, mark,
    plainDots_cons highMark, plainDots_cons lowMark]
  rfl

theorem plainDots_escapeBytes {bytes : List UInt8} (noPoint : ∀ b ∈ bytes, b.toNat ≠ 0x2e)
    (cs : List Char) :
    plainDots (bytes.flatMap escapeByte ++ cs) = bytes.flatMap escapeByte ++ plainDots cs := by
  induction bytes with
  | nil => rfl
  | cons b bytes ih =>
    obtain ⟨first, rest⟩ := List.forall_mem_cons.mp noPoint
    rw [List.flatMap_cons, List.append_assoc, plainDots_escapeByte first, ih rest,
      List.append_assoc]

/-- Nothing that is escaped is taken for a point. -/
theorem plainDots_escape (cs : List Char) :
    plainDots (escape pathSet cs) = escape pathSet (plainDots cs) := by
  have point (rest : List Char) : escape pathSet ('.' :: rest) = '.' :: escape pathSet rest :=
    escape_cons_of_kept (by decide) rest
  have mark (last : Char) (kept : isKept pathSet last) (rest : List Char) :
      escape pathSet ('%' :: '2' :: last :: rest) = '%' :: '2' :: last :: escape pathSet rest := by
    rw [escape_cons_of_kept (by decide), escape_cons_of_kept (by decide), escape_cons_of_kept kept]
  fun_induction plainDots cs with
  | case1 rest ih => rw [mark 'e' (by decide), plainDots, ih, point]
  | case2 rest ih => rw [mark 'E' (by decide), plainDots, ih, point]
  | case3 c rest noSmall noBig ih =>
    cases kept : isKept pathSet c with
    | true =>
      have noDot (last : Char) (plain : last ≠ '%') (cs : List Char)
          (same : escape pathSet rest = '2' :: last :: cs) : ∃ cs', rest = '2' :: last :: cs' := by
        obtain ⟨later, rfl, escaped⟩ := eq_cons_of_escape same (by decide)
        obtain ⟨cs', rfl, -⟩ := eq_cons_of_escape escaped plain
        exact ⟨cs', rfl⟩
      rw [escape_cons_of_kept kept, escape_cons_of_kept kept, plainDots, ih]
      · intro cs percent same
        obtain ⟨cs', again⟩ := noDot 'e' (by decide) cs same
        exact noSmall cs' percent again
      · intro cs percent same
        obtain ⟨cs', again⟩ := noDot 'E' (by decide) cs same
        exact noBig cs' percent again
    | false =>
      have noPoint : ∀ b ∈ String.utf8EncodeChar c, b.toNat ≠ 0x2e := by
        intro b mem same
        rcases toNat_of_mem_utf8EncodeChar mem with code | high
        · have : c = '.' := Char.toNat_inj.mp (code.symm.trans same)
          rw [this] at kept
          exact absurd kept (by decide)
        · omega
      simp only [escape_cons, kept, Bool.false_eq_true, if_false, plainDots_escapeBytes noPoint, ih]
  | case4 => rfl

theorem isKept_of_isSegmentChar {c : Char} (inSegment : isSegmentChar c) : isKept pathSet c := by
  simp only [isSegmentChar, Bool.and_eq_true] at inSegment
  exact inSegment.1.1

/-- What is escaped stands in segments if it holds no slashes. -/
theorem isSegmentChar_of_mem_escape {cs : List Char} (noSlash : ∀ c ∈ cs, c ≠ '/' ∧ c ≠ '\\')
    {c : Char} (mem : c ∈ escape pathSet cs) : isSegmentChar c := by
  have hex (n : Nat) (small : n < 16) : isSegmentChar (upperHex n) := (upperHex_ne n small).1
  induction cs with
  | nil => cases mem
  | cons d cs ih =>
    obtain ⟨first, rest⟩ := List.forall_mem_cons.mp noSlash
    rw [escape_cons, List.mem_append] at mem
    rcases mem with here | later
    · split at here
      case isTrue kept =>
        rw [List.mem_singleton.mp here]
        simp [isSegmentChar, kept, first]
      case isFalse =>
        obtain ⟨b, -, inByte⟩ := List.mem_flatMap.mp here
        simp only [escapeByte, List.mem_cons, List.not_mem_nil, or_false] at inByte
        rcases inByte with rfl | rfl | rfl
        · decide
        · exact hex _ (by have := b.toNat_lt; omega)
        · exact hex _ (Nat.mod_lt _ (by decide))
    · exact ih rest later

/-- A segment that is no step is one when it is escaped. -/
theorem isSegment_escape {cs : List Char} (noSlash : ∀ c ∈ cs, c ≠ '/' ∧ c ≠ '\\')
    (stays : plainDots cs ≠ ['.']) (stands : plainDots cs ≠ ['.', '.']) :
    IsSegment (escape pathSet cs) where
  chars _ mem := isSegmentChar_of_mem_escape noSlash mem
  stays step := stays (eq_of_escape (by simp) ((plainDots_escape cs).symm.trans step))
  stands step := stands (eq_of_escape (by simp) ((plainDots_escape cs).symm.trans step))

theorem isSegment_nil : IsSegment [] :=
  ⟨fun _ mem => absurd mem List.not_mem_nil, by decide, by decide⟩

section

variable {done segments : List (List Char)}

/-- Segments without steps are kept as they are. -/
theorem follow_of_isSegment (all : ∀ s ∈ segments, IsSegment s) :
    follow done segments = done ++ segments := by
  induction segments generalizing done with
  | nil => exact (List.append_nil done).symm
  | cons s segments ih =>
    obtain ⟨first, rest⟩ := List.forall_mem_cons.mp all
    have written : escape pathSet s = s :=
      escape_of_kept fun c mem => isKept_of_isSegmentChar (first.chars c mem)
    rw [follow]
    split
    · exact absurd ‹_› first.stays
    · exact absurd ‹_› first.stands
    · rw [written, ih rest, List.append_assoc, List.singleton_append]

/-- What a path leads to is made of segments, whatever its steps are. -/
theorem isSegment_of_mem_follow (done_all : ∀ s ∈ done, IsSegment s)
    (noSlash : ∀ s ∈ segments, ∀ c ∈ s, c ≠ '/' ∧ c ≠ '\\') :
    ∀ s ∈ follow done segments, IsSegment s := by
  induction segments generalizing done with
  | nil => exact done_all
  | cons s segments ih =>
    obtain ⟨first, rest⟩ := List.forall_mem_cons.mp noSlash
    have closed (before : List (List Char)) (all : ∀ s ∈ before, IsSegment s) :
        ∀ s ∈ before ++ if segments.isEmpty then [[]] else [], IsSegment s := by
      intro t mem
      rcases List.mem_append.mp mem with mem | mem
      · exact all t mem
      · split at mem
        · rw [List.mem_singleton.mp mem]
          exact isSegment_nil
        · cases mem
    rw [follow]
    split
    · exact ih (closed done done_all) rest
    · exact ih (closed _ fun t mem => done_all t (List.dropLast_subset done mem)) rest
    case h_3 stays stands =>
      refine ih (fun t mem => ?_) rest
      rcases List.mem_append.mp mem with mem | mem
      · exact done_all t mem
      · rw [List.mem_singleton.mp mem]
        exact isSegment_escape first stays stands

/-- Every path leads to some segment, if only to an empty one. -/
theorem follow_ne_nil (some : segments ≠ []) : follow done segments ≠ [] := by
  induction segments generalizing done with
  | nil => exact absurd rfl some
  | cons s segments ih =>
    cases segments with
    | nil =>
      rw [follow]
      split <;> simp [follow]
    | cons t segments =>
      rw [follow]
      split <;> exact ih (List.cons_ne_nil t segments)

end

theorem mem_of_mem_splitOn {x : Char} {cs piece : List Char} (mem : piece ∈ cs.splitOn x) :
    ∀ c ∈ piece, c ∈ cs ∧ c ≠ x := by
  induction cs generalizing piece with
  | nil =>
    rw [List.splitOn_nil, List.mem_singleton] at mem
    rw [mem]
    exact fun c none => absurd none List.not_mem_nil
  | cons d cs ih =>
    rw [List.splitOn_cons_eq_if_modifyHead] at mem
    split_ifs at mem with same
    · rcases List.mem_cons.mp mem with rfl | mem
      · exact fun c none => absurd none List.not_mem_nil
      · exact fun c inPiece => (ih mem c inPiece).imp_left (List.mem_cons_of_mem d)
    · obtain ⟨first, others, pieces⟩ := List.exists_cons_of_ne_nil (List.splitOn_ne_nil x cs)
      rw [pieces, List.modifyHead_cons] at mem
      rcases List.mem_cons.mp mem with rfl | mem
      · intro c inPiece
        rcases List.mem_cons.mp inPiece with rfl | inPiece
        · exact ⟨List.mem_cons_self, by simpa using same⟩
        · exact (ih (pieces ▸ List.mem_cons_self) c inPiece).imp_left (List.mem_cons_of_mem d)
      · exact fun c inPiece => (ih (pieces ▸ List.mem_cons_of_mem first mem) c inPiece).imp_left
          (List.mem_cons_of_mem d)

theorem noSlash_splitSegments {cs segment : List Char} (mem : segment ∈ splitSegments cs) :
    ∀ c ∈ segment, c ≠ '/' ∧ c ≠ '\\' := by
  intro c inSegment
  obtain ⟨inText, noSlash⟩ := mem_of_mem_splitOn mem c inSegment
  obtain ⟨d, -, rfl⟩ := List.mem_map.mp inText
  refine ⟨noSlash, ?_⟩
  split <;> simp_all

/-- The characters of a path with some segments. -/
def pathChars (segments : List (List Char)) : List Char := segments.flatMap ('/' :: ·)

theorem pathChars_eq_intercalate {segments : List (List Char)} (some : segments ≠ []) :
    pathChars segments = '/' :: ['/'].intercalate segments := by
  induction segments with
  | nil => exact absurd rfl some
  | cons s segments ih =>
    cases segments with
    | nil => simp [pathChars]
    | cons t segments =>
      rw [pathChars, List.flatMap_cons, ← pathChars, ih (List.cons_ne_nil t segments),
        List.intercalate_cons_cons]
      simp

theorem isSegmentChar_of_mem_pathChars {segments : List (List Char)}
    (all : ∀ s ∈ segments, IsSegment s) {c : Char} (mem : c ∈ pathChars segments) :
    c = '/' ∨ isSegmentChar c := by
  obtain ⟨s, inSegments, inPart⟩ := List.mem_flatMap.mp mem
  exact (List.mem_cons.mp inPart).imp_right ((all s inSegments).chars c)

/-- Segments are read back from the characters of their path. -/
theorem follow_pathChars {segments : List (List Char)} (some : segments ≠ [])
    (all : ∀ s ∈ segments, IsSegment s) :
    follow [] (splitSegments (withoutSlash (pathChars segments))) = segments := by
  have plain : ∀ c ∈ ['/'].intercalate segments, c ≠ '\\' := by
    intro c mem
    have inPath : c ∈ pathChars segments :=
      pathChars_eq_intercalate some ▸ List.mem_cons_of_mem '/' mem
    rintro rfl
    exact absurd (isSegmentChar_of_mem_pathChars all inPath) (by decide)
  have unchanged : (['/'].intercalate segments).map (fun c => if c = '\\' then '/' else c)
      = ['/'].intercalate segments := by
    rw [List.map_congr_left fun c mem => if_neg (plain c mem), List.map_id']
  have noSlash : ∀ s ∈ segments, '/' ∉ s := by
    intro s mem slash
    exact absurd ((all s mem).chars '/' slash) (by decide)
  rw [pathChars_eq_intercalate some, withoutSlash, splitSegments, unchanged,
    List.splitOn_intercalate '/' noSlash some, follow_of_isSegment all, List.nil_append]

end NeutralSchema.Service.Address

namespace NeutralSchema.Service.Url

open Address

/-- Whether the path of a URL has segments as they are written. -/
structure HasPath (u : Url) : Prop where
  some : u.segments ≠ []
  all : ∀ s ∈ u.segments, IsSegment s.toList

theorem toList_path (u : Url) : u.path.toList = pathChars (u.segments.map String.toList) := by
  simp [path, String.toList_join, pathChars, List.flatMap_map]

/-- Setting the path of a URL to its own text and a slash adds an empty segment. -/
theorem setPath_path {u : Url} (written : u.HasPath) :
    u.setPath (u.path ++ "/") = { u with segments := u.segments ++ [""] } := by
  have all : ∀ s ∈ u.segments.map String.toList ++ [[]], IsSegment s := by
    intro s mem
    rcases List.mem_append.mp mem with mem | mem
    · obtain ⟨segment, inPath, rfl⟩ := List.mem_map.mp mem
      exact written.all segment inPath
    · rw [List.mem_singleton.mp mem]
      exact isSegment_nil
  have text : (u.path ++ "/").toList = pathChars (u.segments.map String.toList ++ [[]]) := by
    rw [String.toList_append, toList_path, pathChars, pathChars, List.flatMap_append]
    rfl
  have unbroken : withoutBreaks (pathChars (u.segments.map String.toList ++ [[]]))
      = pathChars (u.segments.map String.toList ++ [[]]) := by
    rw [withoutBreaks, List.filter_eq_self]
    intro c mem
    rcases isSegmentChar_of_mem_pathChars all mem with rfl | inSegment
    · decide
    · have visible := isKept_of_isSegmentChar inSegment
      have ne (d : Char) (hidden : isKept pathSet d = false) : c ≠ d := by
        rintro rfl
        exact absurd visible (Bool.eq_false_iff.mp hidden)
      simp [ne '\t' (by decide), ne '\n' (by decide), ne '\r' (by decide)]
  rw [setPath, text, unbroken, readPath, List.map_nil, follow_pathChars (by simp) all]
  simp

/-- A path ends in a slash exactly if its last segment is empty. -/
theorem path_endsInSlash_iff {u : Url} (written : u.HasPath) :
    u.path.toList.getLast? = some '/' ↔ u.segments.getLast? = some "" := by
  obtain ⟨before, last, segments⟩ := List.eq_nil_or_concat' u.segments |>.resolve_left written.some
  have text : u.path.toList = pathChars (before.map String.toList) ++ ('/' :: last.toList) := by
    rw [toList_path, segments, List.map_append, pathChars, List.flatMap_append]
    simp [pathChars]
  rw [text, segments, List.getLast?_append, List.getLast?_concat, Option.some.injEq,
    ← String.toList_eq_nil_iff]
  cases chars : last.toList with
  | nil => simp
  | cons c cs =>
    have noSlash : (c :: cs).getLast (List.cons_ne_nil c cs) ≠ '/' := by
      have inside := (written.all last (by simp [segments])).chars
      rw [chars] at inside
      intro same
      exact absurd (same ▸ inside _ (List.getLast_mem _)) (by decide)
    simpa [List.getLast?_eq_some_getLast] using noSlash

end NeutralSchema.Service.Url
