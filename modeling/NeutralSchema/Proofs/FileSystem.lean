import Mathlib.Data.List.Infix
import NeutralSchema.FileSystem

/-!
# Reading from a file system and writing to it

A path is read exactly if it leads to a file whose bytes are a text. A text that was written is read
back, and nothing else has changed. Main statements: `FileSystem.read_eq_ok_iff`,
`FileSystem.write_ok`.
-/
namespace NeutralSchema.FileSystem

/-- Whether a location is on the way to an entry or to the working directory. -/
def leadsOn (fs : FileSystem) (place : Location) : Bool :=
  place.isPrefixOf fs.workingDirectory || fs.entries.any fun e => place.isPrefixOf e.1

/-- Whether a file system is another one after a text was written to a path: the text is there, and
every other location is as it was. -/
def HasWritten (fs written : FileSystem) (path text : String) : Prop :=
  written.read path = .ok text
    ∧ ∃ place, fs.locate path = .ok place ∧ written.locate path = .ok place
      ∧ ∀ other, other ≠ place → written.entryAt? other = fs.entryAt? other

/-- Whether a path leads to a file with some text: its bytes are those of the text. -/
def HasText (fs : FileSystem) (path text : String) : Prop :=
  ∃ place, fs.locate path = .ok place ∧ fs.entryAt? place = some (.file text.toUTF8)

section

variable {fs : FileSystem} {place other : Location} {entry : FileEntry}

theorem entryAt?_eq : fs.entryAt? place
    = (fs.entries.lookup place).or (if fs.leadsOn place then some .directory else none) := by
  rw [entryAt?]
  cases fs.entries.lookup place <;> rfl

theorem leadsOn_iff : fs.leadsOn place
    ↔ place <+: fs.workingDirectory ∨ ∃ e ∈ fs.entries, place <+: e.1 := by
  simp [leadsOn]

/-- What is on the way to a location is on the way to whatever comes after it. -/
theorem leadsOn_of_prefix (above : other <+: place) (known : fs.leadsOn place) :
    fs.leadsOn other := by
  rw [leadsOn_iff] at known ⊢
  rcases known with before | ⟨e, mem, before⟩
  · exact .inl (above.trans before)
  · exact .inr ⟨e, mem, above.trans before⟩

theorem leadsOn_of_entryAt? (found : fs.entryAt? place = some entry) : fs.leadsOn place := by
  by_contra notOn
  rw [entryAt?_eq, if_neg notOn, Option.or_none] at found
  obtain ⟨before, after, entries, -⟩ := List.lookup_eq_some_iff.mp found
  apply notOn
  rw [leadsOn_iff, entries]
  exact .inr ⟨(place, entry), by simp, List.prefix_rfl⟩

/-- The locations above one that is there, or whose directory is there. -/
theorem leadsOn_above (known : fs.leadsOn place ∨ fs.leadsOn place.dropLast)
    (above : other <+: place) (different : other ≠ place) : fs.leadsOn other := by
  rcases known with here | directory
  · exact leadsOn_of_prefix above here
  · apply leadsOn_of_prefix _ directory
    rcases List.eq_nil_or_concat' place with rfl | ⟨start, last, rfl⟩
    · exact absurd (List.prefix_nil.mp above) different
    · rw [List.dropLast_concat]
      exact (List.prefix_concat_iff.mp above).resolve_left different

theorem lookup_filter_ne (different : other ≠ place) (entries : List (Location × FileEntry)) :
    (entries.filter (·.1 != place)).lookup other = entries.lookup other := by
  induction entries with
  | nil => rfl
  | cons e entries ih =>
    by_cases same : e.1 = place
    · have unlike : (other == e.1) = false := by simpa [same] using different
      rw [List.filter_cons_of_neg (by simp [same]), List.lookup_cons, unlike, ih]
    · rw [List.filter_cons_of_pos (by simp [same]), List.lookup_cons, List.lookup_cons, ih]

theorem entryAt?_put_self : (fs.put place entry).entryAt? place = some entry := by
  simp [entryAt?, put]

/-- What is put somewhere leaves all other locations as they are, if the ones above were on the way
to something before. -/
theorem entryAt?_put_of_ne (known : fs.leadsOn place ∨ fs.leadsOn place.dropLast)
    (different : other ≠ place) : (fs.put place entry).entryAt? other = fs.entryAt? other := by
  have own : (fs.put place entry).entries.lookup other = fs.entries.lookup other := by
    rw [put, List.lookup_cons, beq_false_of_ne different]
    exact lookup_filter_ne different fs.entries
  have onTheWay : (fs.put place entry).leadsOn other = fs.leadsOn other := by
    rw [Bool.eq_iff_iff]
    constructor
    · intro leads
      rcases leadsOn_iff.mp leads with before | ⟨e, mem, before⟩
      · exact leadsOn_iff.mpr (.inl before)
      · rcases List.mem_cons.mp mem with rfl | mem
        · exact leadsOn_above known before different
        · exact leadsOn_iff.mpr (.inr ⟨e, List.mem_of_mem_filter mem, before⟩)
    · intro leads
      rw [leadsOn_iff]
      rcases leadsOn_iff.mp leads with before | ⟨e, mem, before⟩
      · exact .inl before
      · by_cases same : e.1 = place
        · exact .inr ⟨(place, entry), List.mem_cons_self, same ▸ before⟩
        · refine .inr ⟨e, List.mem_cons_of_mem _ (List.mem_filter.mpr ⟨mem, ?_⟩), before⟩
          simpa using same
  rw [entryAt?_eq, entryAt?_eq, own, onTheWay]

end

section

variable {fs written : FileSystem}

/-- A path leads where it did as long as no directory goes missing. -/
theorem follow_eq_ok (kept : ∀ p, fs.entryAt? p = some .directory →
    written.entryAt? p = some .directory) {steps : List String} {start place : Location}
    (found : fs.follow start steps = .ok place) : written.follow start steps = .ok place := by
  induction steps generalizing start with
  | nil => exact found
  | cons step rest ih =>
    rw [follow] at found ⊢
    split at found
    case isTrue stay =>
      rw [if_pos stay]
      exact ih found
    case isFalse go =>
      rw [if_neg go]
      split at found
      case isTrue back =>
        rw [if_pos back]
        exact ih found
      case isFalse onward =>
        rw [if_neg onward]
        split at found
        case isTrue => cases found
        case isFalse short =>
          rw [if_neg short]
          dsimp only at found ⊢
          split at found
          case isTrue last =>
            rw [if_pos last]
            exact found
          case isFalse further =>
            rw [if_neg further]
            split at found
            case h_1 directory =>
              rw [kept _ directory]
              exact ih found
            case h_2 => cases found
            case h_3 => cases found

theorem locate_eq_ok (kept : ∀ p, fs.entryAt? p = some .directory →
    written.entryAt? p = some .directory)
    (home : written.workingDirectory = fs.workingDirectory) {path : String} {place : Location}
    (found : fs.locate path = .ok place) : written.locate path = .ok place := by
  rw [locate] at found ⊢
  rw [home]
  split_ifs at found ⊢
  all_goals exact follow_eq_ok kept found

/-- A successful write puts the text where the path leads, which is no directory but is in one. -/
theorem write_eq_ok {path text : String} (done : fs.write path text = .ok written) :
    ∃ place, fs.locate path = .ok place ∧ written = fs.put place (.file text.toUTF8)
      ∧ fs.entryAt? place ≠ some .directory
      ∧ (fs.leadsOn place ∨ fs.leadsOn place.dropLast) := by
  rw [write] at done
  cases located : fs.locate path with
  | error e =>
    rw [located] at done
    cases done
  | ok place =>
    simp only [located, bind, Except.bind] at done
    refine ⟨place, rfl, ?_⟩
    cases here : fs.entryAt? place with
    | some entry =>
      rw [here] at done
      cases entry with
      | file content =>
        exact ⟨(Except.ok.inj done).symm, by simp, .inl (leadsOn_of_entryAt? here)⟩
      | directory => cases done
      | unreadable e => cases done
    | none =>
      simp only [here] at done
      cases above : fs.entryAt? place.dropLast with
      | some entry =>
        rw [above] at done
        cases entry with
        | directory =>
          exact ⟨(Except.ok.inj done).symm, by simp, .inr (leadsOn_of_entryAt? above)⟩
        | file content => cases done
        | unreadable e => cases done
      | none =>
        rw [above] at done
        cases done

theorem fromUTF8?_toUTF8 (text : String) : String.fromUTF8? text.toUTF8 = some text := by
  simp only [String.fromUTF8?]
  exact dif_pos text.isValidUTF8

theorem fromUTF8?_eq_some {bytes : ByteArray} {text : String}
    (valid : String.fromUTF8? bytes = some text) : bytes = text.toUTF8 := by
  rw [String.fromUTF8?] at valid
  split_ifs at valid
  cases valid
  rfl

theorem read_of_file {path text : String} {place : Location}
    (located : fs.locate path = .ok place)
    (found : fs.entryAt? place = some (.file text.toUTF8)) : fs.read path = .ok text := by
  have bytes : fs.readBytes path = .ok text.toUTF8 := by
    rw [readBytes, located]
    simp only [bind, Except.bind, found]
    rfl
  rw [read, bytes]
  simp only [bind, Except.bind, fromUTF8?_toUTF8]
  rfl

/-- Reading succeeds exactly if there is a file and its bytes are a text. -/
theorem read_eq_ok_iff {path text : String} : fs.read path = .ok text ↔ fs.HasText path text := by
  refine ⟨fun done => ?_, fun ⟨place, located, found⟩ => read_of_file located found⟩
  rw [read, readBytes] at done
  cases located : fs.locate path with
  | error e =>
    rw [located] at done
    cases done
  | ok place =>
    simp only [located, bind, Except.bind] at done
    refine ⟨place, located, ?_⟩
    cases found : fs.entryAt? place with
    | none =>
      rw [found] at done
      cases done
    | some entry =>
      rw [found] at done
      cases entry with
      | directory => cases done
      | unreadable e => cases done
      | file content =>
        simp only [pure, Except.pure] at done
        cases decoded : String.fromUTF8? content with
        | none =>
          rw [decoded] at done
          cases done
        | some text' =>
          rw [decoded] at done
          cases done
          rw [fromUTF8?_eq_some decoded]

/-- A text that was written is read back, and nothing else has changed. -/
theorem write_ok {path text : String} (done : fs.write path text = .ok written) :
    fs.HasWritten written path text := by
  obtain ⟨place, located, rfl, notDirectory, known⟩ := write_eq_ok done
  have others (other : Location) (different : other ≠ place) :
      (fs.put place (.file text.toUTF8)).entryAt? other = fs.entryAt? other :=
    entryAt?_put_of_ne known different
  have kept (p : Location) (directory : fs.entryAt? p = some .directory) :
      (fs.put place (.file text.toUTF8)).entryAt? p = some .directory := by
    rw [others p, directory]
    rintro rfl
    exact notDirectory directory
  have again : (fs.put place (.file text.toUTF8)).locate path = .ok place :=
    locate_eq_ok kept rfl located
  exact ⟨read_of_file again entryAt?_put_self, place, located, again, others⟩

end

end NeutralSchema.FileSystem
