import NeutralSchema.Text.Folded

/-!
# Folded texts

The lines of a folded text are the text, but for the blanks and line breaks where lines end. Main
statement: `fold_isFold`.
-/
namespace NeutralSchema.Text

/-- Whether lines stand in a text one after the other, with nothing left out but blanks and line
breaks after a line. -/
inductive Folded : List (List Char) → List Char → Prop
  | nil : Folded [] []
  | cons {lines : List (List Char)} {rest : List Char} (line gap : List Char)
    (blank : ∀ c ∈ gap, c = ' ' ∨ c = '\n') (others : Folded lines rest) :
    Folded (line :: lines) (line ++ gap ++ rest)

/-- Whether a text shows another in lines of its own, after `lead` and then after `indent`. -/
def IsFold (lead indent text shown : String) : Prop :=
  ∃ lines, Folded lines text.toList
    ∧ shown = lead ++ String.intercalate ("\n" ++ indent) (lines.map String.ofList)

/-- Words with the blanks after them. -/
def spelled (ws : List Word) : List Char := ws.flatMap fun w => w.text ++ List.replicate w.blanks ' '

@[simp] theorem spelled_nil : spelled [] = [] := rfl

@[simp] theorem spelled_cons (w : Word) (ws : List Word) :
    spelled (w :: ws) = w.text ++ List.replicate w.blanks ' ' ++ spelled ws := by
  simp [spelled]

@[simp] theorem spelled_append (vs ws : List Word) : spelled (vs ++ ws) = spelled vs ++ spelled ws :=
  List.flatMap_append

theorem spelled_words (before : List Char) (blanks : Nat) (cs : List Char) :
    spelled (words before blanks cs) = before.reverse ++ List.replicate blanks ' ' ++ cs := by
  induction cs generalizing before blanks with
  | nil =>
    rw [words]
    split
    · next nothing =>
      simp only [Bool.and_eq_true, List.isEmpty_iff, decide_eq_true_eq] at nothing
      simp [nothing]
    · simp
  | cons c cs ih =>
    rw [words]
    split
    · next blank => simp [ih, blank, List.replicate_succ']
    · split
      · next together =>
        split <;> simp [ih, together]
      · split <;> simp [ih]

theorem hyphenated_ne_nil (before cs : List Char) : hyphenated before cs ≠ [] := by
  fun_induction hyphenated before cs <;> simp_all

theorem flatten_hyphenated (before cs : List Char) :
    (hyphenated before cs).flatten = before.reverse ++ cs := by
  fun_induction hyphenated before cs <;> simp_all

theorem cut_ne_nil (width : Nat) (cs : List Char) : cut width cs ≠ [] := by
  rw [cut]
  split <;> exact List.cons_ne_nil _ _

theorem flatten_cut (width : Nat) (cs : List Char) : (cut width cs).flatten = cs := by
  fun_induction cut width cs with
  | case1 cs fits => simp
  | case2 cs long ih => rw [List.flatten_cons, ih, List.take_append_drop]

theorem spelled_withBlanks (blanks : Nat) {ps : List (List Char)} (some : ps ≠ []) :
    spelled (withBlanks blanks ps) = ps.flatten ++ List.replicate blanks ' ' := by
  fun_induction withBlanks blanks ps with
  | case1 => exact absurd rfl some
  | case2 last => simp
  | case3 piece pieces more ih => simp [ih more]

/-- The pieces of a word make up the word. -/
theorem spelled_pieces (width : Nat) (w : Word) :
    spelled (pieces width w) = w.text ++ List.replicate w.blanks ' ' := by
  have parts : (hyphenated [] w.text).flatMap (cut width) ≠ [] := by
    obtain ⟨part, others, split⟩ := List.exists_cons_of_ne_nil (hyphenated_ne_nil [] w.text)
    simp [split, cut_ne_nil]
  rw [pieces, spelled_withBlanks w.blanks parts, List.flatMap_def, List.flatten_flatten,
    List.map_map]
  simp only [Function.comp_def, flatten_cut, List.map_id', flatten_hyphenated, List.reverse_nil,
    List.nil_append]

theorem flatten_fill (current : List Word) (length width rest : Nat) (ws : List Word) :
    (fill current length width rest ws).flatten = current.reverse ++ ws := by
  induction ws generalizing current length width with
  | nil => simp [fill]
  | cons w ws ih =>
    rw [fill]
    split <;> simp [ih]

theorem fill_ne_nil (current : List Word) (length width rest : Nat) (ws : List Word) :
    fill current length width rest ws ≠ [] := by
  induction ws generalizing current length width with
  | nil => simp [fill]
  | cons w ws ih =>
    rw [fill]
    split
    · exact List.cons_ne_nil _ _
    · exact ih _ _ _

/-- A line leaves out the blanks after its last word. -/
theorem spelled_eq_lineText (ws : List Word) :
    ∃ blanks, spelled ws = lineText ws ++ List.replicate blanks ' ' := by
  fun_induction lineText ws with
  | case1 => exact ⟨0, rfl⟩
  | case2 w => exact ⟨w.blanks, by simp⟩
  | case3 w ws more ih =>
    obtain ⟨blanks, rest⟩ := ih
    exact ⟨blanks, by simp [rest]⟩

theorem folded_map_lineText (lines : List (List Word)) :
    Folded (lines.map lineText) (spelled lines.flatten) := by
  induction lines with
  | nil => exact .nil
  | cons line lines ih =>
    obtain ⟨blanks, shown⟩ := spelled_eq_lineText line
    rw [List.map_cons, List.flatten_cons, spelled_append, shown]
    exact .cons _ _ (fun c mem => .inl (List.eq_of_mem_replicate mem)) ih

theorem spelled_flatMap_pieces (width : Nat) (ws : List Word) :
    spelled (ws.flatMap (pieces width)) = spelled ws := by
  induction ws with
  | nil => rfl
  | cons w ws ih => rw [List.flatMap_cons, spelled_append, spelled_pieces, ih, spelled_cons]

theorem folded_foldLine (width : Nat) (lead indent : String) (line : List Char) :
    Folded (foldLine width lead indent line) line := by
  let room := width - indent.length
  have lines := folded_map_lineText
    (fill [⟨[], 0⟩] 0 (width - lead.length) room ((words [] 0 line).flatMap (pieces room)))
  rw [flatten_fill, spelled_append, spelled_flatMap_pieces, spelled_words] at lines
  exact lines

theorem foldLine_ne_nil (width : Nat) (lead indent : String) (line : List Char) :
    foldLine width lead indent line ≠ [] := by
  simp [foldLine, fill_ne_nil]

/-- A line break ends a line. -/
theorem Folded.append {lines others : List (List Char)} {text rest : List Char}
    (first : Folded lines text) (present : lines ≠ []) (second : Folded others rest) :
    Folded (lines ++ others) (text ++ '\n' :: rest) := by
  induction first with
  | nil => exact absurd rfl present
  | @cons lines text line gap blank following ih =>
    cases lines with
    | nil =>
      cases following
      have ends : ∀ c ∈ gap ++ ['\n'], c = ' ' ∨ c = '\n' := by
        intro c mem
        rcases List.mem_append.mp mem with mem | mem
        · exact blank c mem
        · exact .inr (List.mem_singleton.mp mem)
      simpa using Folded.cons line _ ends second
    | cons next lines =>
      simpa using Folded.cons line gap blank (ih (List.cons_ne_nil _ _))

theorem folded_foldLines (width : Nat) (lead indent : String) (first : List Char)
    (others : List (List Char)) :
    Folded (foldLine width lead indent first ++ others.flatMap (foldLine width indent indent))
      (['\n'].intercalate (first :: others)) := by
  induction others generalizing lead first with
  | nil => simpa using folded_foldLine width lead indent first
  | cons next others ih =>
    rw [List.flatMap_cons, List.intercalate_cons_cons, List.append_assoc, List.singleton_append]
    exact (folded_foldLine width lead indent first).append (foldLine_ne_nil _ _ _ _) (ih indent next)

/-- A folded text is the text, in lines that end at blanks or where they are cut. -/
theorem fold_isFold (width : Nat) (lead indent text : String) :
    IsFold lead indent text (fold width lead indent text) := by
  have whole : ['\n'].intercalate (text.toList.splitOn '\n') = text.toList :=
    List.intercalate_splitOn '\n'
  rw [fold]
  cases split : text.toList.splitOn '\n' with
  | nil =>
    rw [split] at whole
    exact ⟨[], whole ▸ .nil, rfl⟩
  | cons first others =>
    rw [split] at whole
    exact ⟨_, whole ▸ folded_foldLines width lead indent first others, rfl⟩

end NeutralSchema.Text
