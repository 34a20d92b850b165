import Mathlib.Data.List.TakeWhile
import NeutralSchema.Proofs.Service.Path

/-!
# Reading URLs

What the URL of a text is made of, and what becomes of it when a slash is added to the text. Main
statements: `read_eq_web_iff`, `read_slash`.
-/
namespace NeutralSchema.Service

namespace Address

/-- Whether a character ends the part of a web URL that holds the host. -/
def endsHost (c : Char) : Bool := c = '/' || c = '?' || c = '#' || c = '\\'

/-- The part of a web URL that holds the host, in what follows the scheme. -/
def hostPart (cs : List Char) : List Char := (cs.dropWhile isSlash).takeWhile (!endsHost ·)

/-- What follows the part of a web URL that holds the host. -/
def tailPart (cs : List Char) : List Char := (cs.dropWhile isSlash).dropWhile (!endsHost ·)

/-- The URL of a scheme, a host and what follows it. -/
def assemble (scheme : Scheme) (authority : Authority) (tail : Tail) : Url :=
  ⟨scheme, String.ofList authority.credentials, authority.host, authority.socket,
    readPath [] tail.path, tail.query, tail.fragment⟩

theorem webScheme?_eq_some_iff {name : String} {scheme : Scheme} :
    webScheme? name = some scheme ↔ name = scheme.name := by
  unfold webScheme?
  split
  · cases scheme <;> simp [Scheme.name]
  · cases scheme <;> simp [Scheme.name]
  case h_3 noHttp noHttps =>
    constructor
    · intro none
      cases none
    · rintro rfl
      cases scheme
      · exact absurd rfl noHttp
      · exact absurd rfl noHttps

theorem formOf_name (scheme : Scheme) : Form.of scheme.name = .hosted scheme.defaultSocket := by
  cases scheme <;> rfl

variable {naming : Host.Naming}

theorem endsAuthority_hosted (default : Nat) : endsAuthority (.hosted default) = endsHost := by
  funext c
  simp [endsAuthority, endsHost, Form.hasBackslash]

theorem readAfterSlashes_eq (name : String) (default : Nat) (cs : List Char) :
    readAfterSlashes naming name default cs
      = (readAuthority naming default (hostPart cs)).map fun authority =>
        match webScheme? name with
        | none => .foreign name
        | some scheme => .web (assemble scheme authority (Tail.read (tailPart cs))) := by
  simp only [readAfterSlashes, endsAuthority_hosted]
  rw [← hostPart, ← tailPart]
  cases readAuthority naming default (hostPart cs) with
  | error e => rfl
  | ok authority =>
    cases webScheme? name <;> rfl

/-- What follows the name of a scheme of the web is read as a URL of that scheme, or not at all. -/
theorem readAfter_name (scheme : Scheme) (cs : List Char) :
    readAfter naming scheme.name cs
      = (readAuthority naming scheme.defaultSocket (hostPart cs)).map fun authority =>
        .web (assemble scheme authority (Tail.read (tailPart cs))) := by
  rw [readAfter, formOf_name]
  dsimp only
  rw [readAfterSlashes_eq, webScheme?_eq_some_iff.mpr rfl]

/-- What follows any other scheme is no URL of the web. -/
theorem readAfter_foreign {name : String} (foreign : webScheme? name = none) (cs : List Char) :
    readAfter naming name cs = (readAfter naming name cs).map fun _ => .foreign name := by
  rw [readAfter]
  split
  · rw [readAfterSlashes_eq, foreign]
    cases readAuthority naming _ (hostPart cs) <;> rfl
  · cases checkFile naming cs <;> rfl
  · cases checkFree cs <;> rfl

theorem read_eq_web_iff {text : String} {u : Url} : Address.read naming text = .ok (.web u)
    ↔ ∃ (scheme : Scheme) (rest : List Char) (authority : Authority),
      splitScheme (strip text.toList) = some (scheme.name, rest)
        ∧ readAuthority naming scheme.defaultSocket (hostPart rest) = .ok authority
        ∧ u = assemble scheme authority (Tail.read (tailPart rest)) := by
  constructor
  · intro found
    rw [Address.read] at found
    split at found
    case h_1 => cases found
    case h_2 name rest named =>
      cases known : webScheme? name with
      | none =>
        rw [readAfter_foreign known] at found
        cases outcome : readAfter naming name rest <;> rw [outcome] at found <;> cases found
      | some scheme =>
        obtain rfl := webScheme?_eq_some_iff.mp known
        rw [readAfter_name] at found
        cases hosted : readAuthority naming scheme.defaultSocket (hostPart rest) with
        | error e =>
          rw [hosted] at found
          cases found
        | ok authority =>
          rw [hosted] at found
          cases found
          exact ⟨scheme, rest, authority, named, hosted, rfl⟩
  · rintro ⟨scheme, rest, authority, named, hosted, rfl⟩
    rw [Address.read, named]
    dsimp only
    rw [readAfter_name, hosted]
    rfl

/-- A URL that is not of the web has another scheme. -/
theorem webScheme?_of_read {text name : String}
    (found : Address.read naming text = .ok (.foreign name)) : webScheme? name = none := by
  rw [Address.read] at found
  split at found
  case h_1 => cases found
  case h_2 given rest _ =>
    cases known : webScheme? given with
    | none =>
      rw [readAfter_foreign known] at found
      cases outcome : readAfter naming given rest with
      | error e =>
        rw [outcome] at found
        cases found
      | ok address =>
        rw [outcome] at found
        cases found
        exact known
    | some scheme =>
      obtain rfl := webScheme?_eq_some_iff.mp known
      rw [readAfter_name] at found
      cases hosted : readAuthority naming scheme.defaultSocket (hostPart rest) <;>
        rw [hosted] at found <;> cases found

/-- The path of a URL that was read has segments as they are written. -/
theorem hasPath_of_read {text : String} {u : Url}
    (found : Address.read naming text = .ok (.web u)) : u.HasPath := by
  obtain ⟨scheme, rest, authority, -, -, rfl⟩ := read_eq_web_iff.mp found
  refine ⟨?_, ?_⟩
  · simp [assemble, readPath, splitSegments, follow_ne_nil]
  · intro s mem
    obtain ⟨segment, inPath, rfl⟩ := List.mem_map.mp mem
    rw [String.toList_ofList]
    exact isSegment_of_mem_follow (fun _ none => absurd none List.not_mem_nil)
      (fun _ => noSlash_splitSegments) segment inPath

section

variable {c : Char} {cs rest : List Char} {p : Char → Bool}

/-- What is dropped from the start of a text ends before a character that stays. -/
theorem dropWhile_append_cons (stays : p c = false) (cs rest : List Char) :
    (cs ++ c :: rest).dropWhile p = cs.dropWhile p ++ c :: rest := by
  have stopped : (c :: rest).dropWhile p = c :: rest := List.dropWhile_cons_of_neg (by simp [stays])
  rw [List.dropWhile_append, stopped]
  split
  case isTrue empty => rw [List.isEmpty_iff.mp empty, List.nil_append]
  case isFalse => rfl

theorem takeWhile_append_cons (stops : p c = false) (cs : List Char) :
    (cs ++ [c]).takeWhile p = cs.takeWhile p := by
  induction cs with
  | nil => simp [stops]
  | cons d cs ih => simp [List.takeWhile_cons, ih]

theorem withoutBreaks_of_visible {cs : List Char} (visible : ∀ c ∈ cs, isEdge c = false) :
    withoutBreaks cs = cs := by
  rw [withoutBreaks, List.filter_eq_self]
  intro c mem
  have ne (d : Char) (edge : isEdge d) : c ≠ d := by
    rintro rfl
    exact absurd edge (Bool.eq_false_iff.mp (visible c mem))
  simp [ne '\t' (by decide), ne '\n' (by decide), ne '\r' (by decide)]

/-- Visible characters at the end of a text stay there. -/
theorem strip_append (cs : List Char) (visible : ∀ d ∈ c :: rest, isEdge d = false) :
    strip (cs ++ c :: rest) = withoutBreaks (cs.dropWhile isEdge) ++ c :: rest := by
  obtain ⟨front, last, ends⟩ : ∃ front last, c :: rest = front ++ [last] :=
    (List.eq_nil_or_concat' (c :: rest)).resolve_left (List.cons_ne_nil c rest)
  have stays : isEdge last = false := visible last (by simp [ends])
  have untouched : (cs.dropWhile isEdge ++ c :: rest).reverse.dropWhile isEdge
      = (cs.dropWhile isEdge ++ c :: rest).reverse := by
    rw [ends, ← List.append_assoc, List.reverse_append, List.reverse_singleton,
      List.singleton_append, List.dropWhile_cons_of_neg (by simp [stays])]
  rw [strip, dropWhile_append_cons (visible c List.mem_cons_self), untouched, List.reverse_reverse,
    withoutBreaks, List.filter_append, ← withoutBreaks, ← withoutBreaks,
    withoutBreaks_of_visible visible]

theorem splitScheme_append {name : String} (named : splitScheme cs = some (name, rest)) (c : Char) :
    splitScheme (cs ++ [c]) = some (name, rest ++ [c]) := by
  simp only [splitScheme] at named ⊢
  split_ifs at named with scheme
  cases named
  have shorter : (cs.takeWhile (· != ':')).length < cs.length := by
    simp only [Bool.and_eq_true, decide_eq_true_eq] at scheme
    exact scheme.1.1
  have same : (cs ++ [c]).takeWhile (· != ':') = cs.takeWhile (· != ':') := by
    rw [List.takeWhile_append, if_neg (Nat.ne_of_lt shorter)]
  have longer : (cs.takeWhile (· != ':')).length < (cs ++ [c]).length :=
    Nat.lt_of_lt_of_le shorter (by simp)
  rw [same, if_pos (by simp_all), List.drop_append_of_le_length shorter]

/-- What follows the scheme ends in what the text ends in, if that is no colon. -/
theorem eq_append_of_splitScheme {name : String} (noColon : c ≠ ':')
    (named : splitScheme (cs ++ [c]) = some (name, rest)) : ∃ before, rest = before ++ [c] := by
  simp only [splitScheme] at named
  split_ifs at named with scheme
  cases named
  simp only [Bool.and_eq_true, decide_eq_true_eq] at scheme
  have before : ((cs ++ [c]).takeWhile (· != ':')).length < cs.length := by
    have ends := scheme.1.1
    rw [List.takeWhile_append] at ends ⊢
    split_ifs at ends ⊢ with all
    · simp [noColon] at ends
    · exact Nat.lt_of_le_of_ne (List.takeWhile_sublist _).length_le all
  exact ⟨_, List.drop_append_of_le_length before⟩

end

/-- The segments of a path without an empty last one. -/
def directory (segments : List String) : List String :=
  if segments.getLast? = some "" then segments.dropLast else segments

/-- A segment with others after it changes where they start. -/
theorem exists_follow_cons (done : List (List Char)) (s : List Char) :
    ∃ start, ∀ rest, rest ≠ [] → follow done (s :: rest) = follow start rest := by
  have more (rest : List (List Char)) (some : rest ≠ []) : rest.isEmpty = false := by
    simpa using some
  by_cases stays : plainDots s = ['.']
  · exact ⟨done, fun rest some => by simp [follow, stays, more rest some]⟩
  by_cases back : plainDots s = ['.', '.']
  · exact ⟨done.dropLast, fun rest some => by simp [follow, back, more rest some]⟩
  · refine ⟨done ++ [escape pathSet s], fun rest _ => ?_⟩
    rw [follow]
    split
    · contradiction
    · contradiction
    · rfl

/-- One more slash adds an empty segment, unless the last segment is a step. -/
theorem follow_append_nil (done front : List (List Char)) (last : List Char) :
    follow done (front ++ [last] ++ [[]]) = follow done (front ++ [last])
      ∨ follow done (front ++ [last] ++ [[]]) = follow done (front ++ [last]) ++ [[]]
        ∧ (follow done (front ++ [last])).getLast? = some (escape pathSet last) := by
  induction front generalizing done with
  | nil =>
    have empty : plainDots [] = [] := rfl
    simp only [List.nil_append, List.singleton_append, follow, List.isEmpty_nil, List.isEmpty_cons]
    split
    · left
      simp [empty, escape]
    · left
      simp [empty, escape]
    · right
      simp [empty, escape]
  | cons s front ih =>
    obtain ⟨start, onward⟩ := exists_follow_cons done s
    rw [List.cons_append, List.cons_append, onward _ (by simp), onward _ (by simp)]
    exact ih start

theorem splitSegments_append_slash (cs : List Char) :
    splitSegments (cs ++ ['/']) = splitSegments cs ++ [[]] := by
  rw [splitSegments, List.map_append]
  exact List.splitOn_append_cons_self _ []

/-- The last segment ends in what the path ends in, if that is no slash. -/
theorem exists_splitSegments_append {c : Char} (plain : isSlash c = false) (cs : List Char) :
    ∃ front last, splitSegments (cs ++ [c]) = front ++ [last ++ [c]] := by
  have noSlash : c ≠ '/' ∧ c ≠ '\\' := by simpa [isSlash] using plain
  rw [splitSegments, List.map_append, List.map_singleton, if_neg noSlash.2]
  induction cs.map fun c => if c = '\\' then '/' else c with
  | nil =>
    refine ⟨[], [], ?_⟩
    exact List.splitOn_eq_singleton (by simpa using Ne.symm noSlash.1)
  | cons d ds ih =>
    obtain ⟨front, last, pieces⟩ := ih
    rw [List.cons_append, List.splitOn_cons_eq_if_modifyHead, pieces]
    split
    case isTrue => exact ⟨[] :: front, last, rfl⟩
    case isFalse =>
      cases front with
      | nil => exact ⟨[], d :: last, rfl⟩
      | cons first front => exact ⟨(d :: first) :: front, last, rfl⟩

/-- One more slash after a path that ends in no slash makes no difference to the segments before
the last one. -/
theorem directory_readPath_slash {c : Char} (plain : isSlash c = false) {start : Char}
    (slash : isSlash start) (cs : List Char) :
    directory (readPath [] (start :: cs ++ [c] ++ ['/']))
      = directory (readPath [] (start :: cs ++ [c])) := by
  have without (rest : List Char) : withoutSlash (start :: rest) = rest := by
    simp only [isSlash, Bool.or_eq_true, decide_eq_true_eq] at slash
    rcases slash with rfl | rfl <;> rfl
  obtain ⟨front, last, pieces⟩ := exists_splitSegments_append plain cs
  simp only [readPath, List.cons_append, without, splitSegments_append_slash, pieces]
  rcases follow_append_nil (List.map String.toList []) front (last ++ [c]) with same | ⟨more, ends⟩
  · rw [same]
  · have nonempty : escape pathSet (last ++ [c]) ≠ [] := fun none => by
      simpa using eq_nil_of_escape none
    rw [more]
    generalize follow (List.map String.toList []) (front ++ [last ++ [c]]) = segments at ends
    have named : (segments.map String.ofList).getLast? ≠ some "" := by
      rw [List.getLast?_map, ends]
      simpa using nonempty
    rw [List.map_append, List.map_singleton, String.ofList_nil, directory,
      if_pos List.getLast?_concat, List.dropLast_concat, directory, if_neg named]

/-- A text without marks is all path. -/
theorem Tail.read_of_plain {cs : List Char} (noQuery : '?' ∉ cs) (noFragment : '#' ∉ cs) :
    Tail.read cs = ⟨cs, none, none⟩ := by
  have whole (mark : Char) (absent : mark ∉ cs) : splitAtMark mark cs = (cs, none) := by
    have all : ∀ c ∈ cs, (c != mark) = true := by
      intro c mem
      rw [bne_iff_ne]
      rintro rfl
      exact absent mem
    rw [splitAtMark, List.takeWhile_eq_self_iff.mpr all, List.dropWhile_eq_nil_iff.mpr all]
    rfl
  rw [Tail.read, whole '#' noFragment]
  dsimp only
  rw [whole '?' noQuery]
  rfl

theorem isEdge_of_isAlphanum {c : Char} (alphanum : c.isAlphanum) : isEdge c = false := by
  have edges : ∀ n < 33, (Char.ofNat n).isAlphanum = false := by decide
  simp only [isEdge, decide_eq_false_iff_not]
  intro edge
  have other := edges c.toNat (Nat.lt_succ_of_le edge)
  rw [Char.ofNat_toNat, alphanum] at other
  cases other

section

variable {c : Char} (plain : endsHost c = false)

include plain

theorem isSlash_of_endsHost : isSlash c = false := by
  simp only [endsHost, isSlash, Bool.or_eq_false_iff] at plain ⊢
  exact ⟨plain.1.1.1, plain.2⟩

/-- One more slash is no part of what holds the host. -/
theorem hostPart_append_slash (cs : List Char) :
    hostPart (cs ++ [c] ++ ['/']) = hostPart (cs ++ [c]) := by
  have slash := isSlash_of_endsHost plain
  rw [hostPart, hostPart, List.append_assoc, List.singleton_append, dropWhile_append_cons slash,
    dropWhile_append_cons slash, ← List.singleton_append, ← List.append_assoc,
    takeWhile_append_cons (by decide)]

/-- What follows the host is nothing, or it starts with a mark and ends in what the text ends in. -/
theorem tailPart_append (cs : List Char) :
    (tailPart (cs ++ [c]) = [] ∧ tailPart (cs ++ [c] ++ ['/']) = ['/'])
      ∨ ∃ mark before, endsHost mark ∧ tailPart (cs ++ [c]) = mark :: before ++ [c]
        ∧ tailPart (cs ++ [c] ++ ['/']) = mark :: before ++ [c] ++ ['/'] := by
  have slash := isSlash_of_endsHost plain
  have later : tailPart (cs ++ [c] ++ ['/']) = tailPart (cs ++ [c]) ++ ['/'] := by
    rw [tailPart, tailPart, List.append_assoc, List.singleton_append, dropWhile_append_cons slash,
      dropWhile_append_cons slash, ← List.singleton_append, ← List.append_assoc,
      dropWhile_append_cons (by decide)]
  rw [later, tailPart, dropWhile_append_cons slash, List.dropWhile_append]
  cases found : (cs.dropWhile isSlash).dropWhile (!endsHost ·) with
  | nil =>
    left
    simp [plain]
  | cons mark before =>
    right
    refine ⟨mark, before, ?_, by simp, by simp⟩
    have stopped := List.head?_dropWhile_not (fun c => !endsHost c) (cs.dropWhile isSlash)
    rw [found] at stopped
    simpa using stopped

end

theorem strip_subset (cs : List Char) : strip cs ⊆ cs := by
  intro c mem
  have inner := List.mem_reverse.mp (List.mem_of_mem_filter mem)
  have back := (List.dropWhile_sublist _).subset inner
  exact (List.dropWhile_sublist _).subset (List.mem_reverse.mp back)

theorem tailPart_subset (cs : List Char) : tailPart cs ⊆ cs :=
  ((List.dropWhile_sublist _).trans (List.dropWhile_sublist _)).subset

theorem subset_of_splitScheme {cs rest : List Char} {name : String}
    (named : splitScheme cs = some (name, rest)) : rest ⊆ cs := by
  simp only [splitScheme] at named
  split_ifs at named
  cases named
  exact (List.drop_sublist _ _).subset

/-- The text of a web URL that ends in no mark is read as the URL of the same host when a slash is
added to it, and the path has the same segments apart from an empty last one. -/
theorem read_slash {text : String} {u : Url} {c : Char}
    (found : Address.read naming text = .ok (.web u)) (last : text.toList.getLast? = some c)
    (alphanum : c.isAlphanum) (noQuery : '?' ∉ text.toList) (noFragment : '#' ∉ text.toList) :
    ∃ segments, Address.read naming (text ++ "/") = .ok (.web { u with segments })
      ∧ directory segments = directory u.segments := by
  obtain ⟨scheme, rest, authority, named, hosted, rfl⟩ := read_eq_web_iff.mp found
  have visible : isEdge c = false := isEdge_of_isAlphanum alphanum
  have ne (d : Char) (mark : d.isAlphanum = false) : c ≠ d := by
    rintro rfl
    exact absurd alphanum (Bool.eq_false_iff.mp mark)
  have plain : endsHost c = false := by
    simp [endsHost, ne '/' (by decide), ne '?' (by decide), ne '#' (by decide),
      ne '\\' (by decide)]
  obtain ⟨before, chars⟩ : ∃ before, text.toList = before ++ [c] :=
    List.getLast?_eq_some_iff.mp last
  have added : (text ++ "/").toList = before ++ c :: ['/'] := by
    rw [String.toList_append, chars, List.append_assoc]
    rfl
  rw [chars, strip_append before (by simpa using visible)] at named
  obtain ⟨after, rfl⟩ := eq_append_of_splitScheme (ne ':' (by decide)) named
  have named' := splitScheme_append named '/'
  have hosted' : readAuthority naming scheme.defaultSocket (hostPart (after ++ [c] ++ ['/']))
      = .ok authority := by
    rw [hostPart_append_slash plain, hosted]
  have again (tail : Tail) (same : Tail.read (tailPart (after ++ [c] ++ ['/'])) = tail) :
      Address.read naming (text ++ "/") = .ok (.web (assemble scheme authority tail)) := by
    refine read_eq_web_iff.mpr ⟨scheme, after ++ [c] ++ ['/'], authority, ?_, hosted', by rw [same]⟩
    rw [added, strip_append before (by simpa [visible] using by decide), ← named',
      List.append_assoc]
    rfl
  have absent (mark : Char) (none : mark ∉ text.toList) : mark ∉ tailPart (after ++ [c]) := by
    intro mem
    have inRest := subset_of_splitScheme named (tailPart_subset _ mem)
    rw [← strip_append before (by simpa using visible), ← chars] at inRest
    exact none (strip_subset _ inRest)
  have noQuery' := absent '?' noQuery
  have noFragment' := absent '#' noFragment
  rw [Tail.read_of_plain noQuery' noFragment']
  rcases tailPart_append plain after with ⟨empty, slash⟩ | ⟨mark, middle, ends, tail, slash⟩
  · rw [empty]
    refine ⟨readPath [] ['/'], again ⟨['/'], none, none⟩ ?_, rfl⟩
    rw [slash, Tail.read_of_plain (by decide) (by decide)]
  · rw [tail] at noQuery' noFragment' ⊢
    have starts : isSlash mark := by
      have noMark : mark ≠ '?' ∧ mark ≠ '#' := by
        constructor <;> rintro rfl <;> simp_all
      simpa [endsHost, isSlash, noMark] using ends
    refine ⟨readPath [] (mark :: middle ++ [c] ++ ['/']),
      again ⟨mark :: middle ++ [c] ++ ['/'], none, none⟩ ?_,
      directory_readPath_slash (isSlash_of_endsHost plain) starts middle⟩
    rw [slash, Tail.read_of_plain]
    · rw [List.mem_append]
      exact fun mem => mem.elim noQuery' (by decide)
    · rw [List.mem_append]
      exact fun mem => mem.elim noFragment' (by decide)

end Address

end NeutralSchema.Service
