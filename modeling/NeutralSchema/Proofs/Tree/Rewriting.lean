import Mathlib.Data.List.Basic
import NeutralSchema.Proofs.Json.Entries
import NeutralSchema.Tree.Decode

/-!
# Other documents of a tree

A tree has more documents than the one that it is encoded as. Entries of an object may stand in
any order, fields that have their default may be left out, and entries that nobody knows may be put
in. Decoding notices none of this: it finds every field of a record, once or with its default. Main
definitions: `Rewritten` and `Carried`.
-/
namespace NeutralSchema.Tree

open Json

/-- The default of a field that may be left out. Some records have to have a field of such a name,
but it never has this value there. -/
def defaultOf? : String → Option Json
  | "span" => some Span.zero.encode
  | "modifiers" => some Modifiers.none.encode
  | "id" => some (natural 0)
  | "path" => some (.string "")
  | "is_static" | "readonly" => some (.bool false)
  | "visibility" | "type" | "initializer" | "return_type" | "body" | "else_branch"
  | "expression" | "condition" | "incrementor" => some .null
  | "type_arguments" | "arguments" | "elements" | "statements" | "parameters" | "members"
  | "items" => some (.array [])
  | _ => none

/-- Whether the entries are those of the name of a type or of a loop initializer, whose only key
names its variant. -/
def isVariant : Fields → Bool
  | [(key, _)] => key ∈ ["intrinsic", "symbol", "declarations", "expression"]
  | _ => false

mutual

/-- Whether a document comes of an encoding by reordering entries, leaving out defaults and putting
in unknown entries, at any depth. The encoding has every field that is known where it stands. -/
inductive Rewritten : Json → Json → Prop
  | null : Rewritten .null .null
  | bool (b : Bool) : Rewritten (.bool b) (.bool b)
  | number (n : Json.Number) : Rewritten (.number n) (.number n)
  | string (s : String) : Rewritten (.string s) (.string s)
  | array {vs ws : List Json} (elements : RewrittenAll vs ws) : Rewritten (.array vs) (.array ws)
  | object {fields kept extra entries : Fields} (known : RewrittenFields fields kept)
    (unknown : ∀ e ∈ extra, e.1 ∉ fields.map Prod.fst) (closed : isVariant fields → extra = [])
    (order : entries.Perm (kept ++ extra)) : Rewritten (.object fields) (.object entries)

inductive RewrittenAll : List Json → List Json → Prop
  | nil : RewrittenAll [] []
  | cons {v w : Json} {vs ws : List Json} (first : Rewritten v w) (rest : RewrittenAll vs ws) :
    RewrittenAll (v :: vs) (w :: ws)

inductive RewrittenFields : Fields → Fields → Prop
  | nil : RewrittenFields [] []
  | keep {key : String} {v w : Json} {fields kept : Fields} (first : Rewritten v w)
    (rest : RewrittenFields fields kept) : RewrittenFields ((key, v) :: fields) ((key, w) :: kept)
  | drop {key : String} {v : Json} {fields kept : Fields} (default : defaultOf? key = some v)
    (rest : RewrittenFields fields kept) : RewrittenFields ((key, v) :: fields) kept

end

mutual

/-- A document with a value may stay as it is. -/
theorem rewritten_refl : ∀ v : Json, v.hasValue → Rewritten v v
  | .null, _ => .null
  | .bool b, _ => .bool b
  | .number n, _ => .number n
  | .string s, _ => .string s
  | .array vs, valued => .array (rewrittenAll_refl vs valued)
  | .object fields, valued => by
    apply Rewritten.object (rewrittenFields_refl fields valued)
    · exact List.forall_mem_nil _
    · intro _
      rfl
    · rw [List.append_nil]

theorem rewrittenAll_refl : ∀ vs : List Json, leavesAll isValue vs → RewrittenAll vs vs
  | [], _ => .nil
  | v :: vs, valued => by
    simp only [leavesAll, Bool.and_eq_true] at valued
    exact .cons (rewritten_refl v valued.1) (rewrittenAll_refl vs valued.2)

theorem rewrittenFields_refl : ∀ fields : Fields, leavesEntries isValue fields →
    RewrittenFields fields fields
  | [], _ => .nil
  | (key, v) :: fields, valued => by
    simp only [leavesEntries, Bool.and_eq_true] at valued
    exact .keep (rewritten_refl v valued.1) (rewrittenFields_refl fields valued.2)

end

/-- What stands for a field of an encoding among the entries of an object that it was rewritten to:
one entry with the field rewritten, or none for a default. -/
inductive Carried (room : Nat) (entries : Fields) (key : String) (v : Json) : Prop
  | absent (missing : entriesOf key entries = []) (default : defaultOf? key = some v)
  | present {w : Json} (once : entriesOf key entries = [(key, w)]) (same : Rewritten v w)
    (fits : Fits room w)

/-- All fields are carried. -/
def Carries (room : Nat) (fields entries : Fields) : Prop :=
  fields.Forall fun e => Carried room entries e.1 e.2

theorem RewrittenFields.keys_subset {fields kept : Fields} (known : RewrittenFields fields kept) :
    kept.map Prod.fst ⊆ fields.map Prod.fst := by
  induction fields generalizing kept with
  | nil =>
    cases known
    exact List.Subset.refl _
  | cons e fields ih =>
    cases known with
    | keep first rest => exact List.cons_subset_cons _ (ih rest)
    | drop default rest => exact List.Subset.trans (ih rest) (List.subset_cons_self _ _)

/-- Each field is kept once or left out. -/
theorem RewrittenFields.kept_or_dropped {fields kept : Fields} (known : RewrittenFields fields kept)
    (nodup : (fields.map Prod.fst).Nodup) {key : String} {v : Json} (mem : (key, v) ∈ fields) :
    (entriesOf key kept = [] ∧ defaultOf? key = some v)
      ∨ ∃ w, entriesOf key kept = [(key, w)] ∧ Rewritten v w := by
  induction fields generalizing kept with
  | nil => exact absurd mem List.not_mem_nil
  | cons e fields ih =>
    obtain ⟨name, other⟩ := e
    rw [List.map_cons, List.nodup_cons] at nodup
    rcases List.mem_cons.mp mem with same | later
    · cases same
      cases known with
      | keep first rest =>
        have fresh := fun inside => nodup.1 (rest.keys_subset inside)
        right
        refine ⟨_, ?_, first⟩
        rw [entriesOf_cons_self, entriesOf_eq_nil_iff.mpr fresh]
      | drop default rest =>
        have fresh := fun inside => nodup.1 (rest.keys_subset inside)
        left
        exact ⟨entriesOf_eq_nil_iff.mpr fresh, default⟩
    · have different : name ≠ key := by
        rintro rfl
        exact nodup.1 (List.mem_map.mpr ⟨_, later, rfl⟩)
      cases known with
      | keep first rest =>
        rw [entriesOf_cons_of_ne different]
        exact ih rest nodup.2 later
      | drop default rest => exact ih rest nodup.2 later

theorem carries_of_rewritten {fields kept extra entries : Fields} {room : Nat}
    (known : RewrittenFields fields kept) (unknown : ∀ e ∈ extra, e.1 ∉ fields.map Prod.fst)
    (order : entries.Perm (kept ++ extra)) (nodup : (fields.map Prod.fst).Nodup)
    (fits : ∀ e ∈ entries, Fits room e.2) : Carries room fields entries := by
  rw [Carries, List.forall_iff_forall_mem]
  intro e mem
  obtain ⟨key, v⟩ := e
  have strange : entriesOf key extra = [] := by
    rw [entriesOf_eq_nil_iff]
    intro inside
    obtain ⟨e, there, same⟩ := List.mem_map.mp inside
    exact unknown e there (same ▸ List.mem_map_of_mem mem)
  have all : (entriesOf key entries).Perm (entriesOf key kept) := by
    have filtered := order.filter (·.1 == key)
    rw [List.filter_append] at filtered
    change (entriesOf key entries).Perm (entriesOf key kept ++ entriesOf key extra) at filtered
    rw [strange, List.append_nil] at filtered
    exact filtered
  rcases known.kept_or_dropped nodup mem with ⟨missing, default⟩ | ⟨w, once, same⟩
  · rw [missing, List.perm_nil] at all
    exact .absent all default
  · rw [once, List.perm_singleton] at all
    have there : (key, w) ∈ entriesOf key entries := all ▸ List.mem_singleton_self _
    exact .present all same (fits _ (List.mem_of_mem_filter there))

section

variable {α : Type} {room : Nat} {entries : Fields} {key : String} {v : Json} {a : α}
  {decode : Json → Decoded α}

theorem lookup_of_absent (missing : entriesOf key entries = []) : entries.lookup key = none := by
  rw [lookup_eq_head?_entriesOf, missing]
  rfl

theorem lookup_of_once {w : Json} (once : entriesOf key entries = [(key, w)]) :
    entries.lookup key = some w := by
  rw [lookup_eq_head?_entriesOf, once]
  rfl

theorem Carried.withDefault (carried : Carried room entries key v) {default : α}
    (whenAbsent : defaultOf? key = some v → default = a)
    (decoded : ∀ w, Rewritten v w → Fits room w → decode w = .ok a) :
    entries.withDefault key default decode = .ok a := by
  cases carried with
  | absent missing omitted =>
    rw [Fields.withDefault, lookup_of_absent missing, whenAbsent omitted]
  | present once same fits =>
    rw [Fields.withDefault, lookup_of_once once]
    exact decoded _ same fits

theorem Carried.required_of_ne (carried : Carried room entries key v)
    (needed : defaultOf? key ≠ some v)
    (decoded : ∀ w, Rewritten v w → Fits room w → decode w = .ok a) :
    entries.required key decode = .ok a := by
  cases carried with
  | absent missing omitted => exact absurd omitted needed
  | present once same fits =>
    rw [Fields.required, lookup_of_once once]
    exact decoded _ same fits

/-- A field that no record may leave out. -/
theorem Carried.required (carried : Carried room entries key v) (needed : defaultOf? key = none)
    (decoded : ∀ w, Rewritten v w → Fits room w → decode w = .ok a) :
    entries.required key decode = .ok a :=
  carried.required_of_ne (by rw [needed]; exact Option.some_ne_none v |>.symm) decoded

/-- A field that other records may leave out where they have no part. -/
theorem Carried.requiredPart (carried : Carried room entries key v)
    (elsewhere : defaultOf? key = some .null) (there : v ≠ .null)
    (decoded : ∀ w, Rewritten v w → Fits room w → decode w = .ok a) :
    entries.required key decode = .ok a :=
  carried.required_of_ne (by rw [elsewhere, Ne, Option.some.injEq]; exact there.symm) decoded

theorem eq_null_of_rewritten (same : Rewritten v .null) : v = .null := by
  cases same
  rfl

theorem Carried.optional {encode : α → Json} {part : Option α}
    (carried : Carried room entries key (encodeOption encode part))
    (nullable : defaultOf? key = some .null) (there : ∀ a, encode a ≠ .null)
    (decoded : ∀ a ∈ part, ∀ w, Rewritten (encode a) w → Fits room w → decode w = .ok a) :
    entries.optional key decode = .ok part := by
  apply carried.withDefault
  · intro omitted
    cases part with
    | none => rfl
    | some a => exact absurd (Option.some.inj (nullable.symm.trans omitted)).symm (there a)
  · intro w same fits
    cases part with
    | none =>
      cases same
      rfl
    | some a =>
      have value := decoded a rfl w same fits
      unfold decodeNullable
      split
      · exact absurd (eq_null_of_rewritten same) (there a)
      · rw [value]
        rfl

/-- A record takes the entries as they are if they carry its fields. -/
theorem Carries.named {fields : Fields} (carries : Carries room fields entries)
    {known : List Field} (names : known.map (·.name) = fields.map Prod.fst) :
    named known entries = .ok entries := by
  apply named_of_entriesOf
  intro field mem
  have inside : field.name ∈ fields.map Prod.fst := names ▸ List.mem_map_of_mem mem
  obtain ⟨e, there, same⟩ := List.mem_map.mp inside
  rw [← same]
  cases List.forall_iff_forall_mem.mp carries e there with
  | absent missing => exact missing ▸ Nat.zero_le 1
  | present once => exact once ▸ Nat.le_refl 1

end

section

variable {α κ : Type}

/-- A decoder reads a value from all rewritten documents of a document that there is room for. -/
def Reads (decode : Nat → Json → Decoded α) (v : Json) (a : α) : Prop :=
  ∀ room w, Rewritten v w → Fits room w → decode room w = .ok a

theorem reads_string (s : String) : Reads (fun _ => decodeString) (.string s) s := by
  intro room w same _
  cases same
  rfl

theorem reads_bool (b : Bool) : Reads (fun _ => decodeBool) (.bool b) b := by
  intro room w same _
  cases same
  rfl

theorem reads_word32 (n : UInt32) : Reads (fun _ => decodeWord32) (natural n.toNat) n := by
  intro room w same _
  cases same
  have fits : n.toNat < UInt32.size := n.toNat_lt
  simp [decodeWord32, fits]

/-- Decoding one after the other reads the elements of a list. -/
def ReadsAll (decode : Nat → Json → Decoded α) (vs : List Json) (as : List α) : Prop :=
  ∀ room ws, RewrittenAll vs ws → (∀ w ∈ ws, Fits room w) → ws.mapM (decode room) = .ok as

theorem readsAll_nil {decode : Nat → Json → Decoded α} : ReadsAll decode [] [] := by
  intro room ws same _
  cases same
  rfl

theorem ReadsAll.cons {decode : Nat → Json → Decoded α} {v : Json} {vs : List Json} {a : α}
    {as : List α} (first : Reads decode v a) (rest : ReadsAll decode vs as) :
    ReadsAll decode (v :: vs) (a :: as) := by
  intro room ws same fits
  cases same with
  | cons sameFirst sameRest =>
    rw [List.forall_mem_cons] at fits
    rw [List.mapM_cons, first room _ sameFirst fits.1, rest room _ sameRest fits.2]
    rfl

theorem ReadsAll.decodeList {decode : Nat → Json → Decoded α} {vs : List Json} {as : List α}
    (elements : ReadsAll decode vs as) : Reads (Json.decodeList decode) (.array vs) as := by
  intro room w same fits
  cases same with
  | array each =>
    obtain ⟨inner, rfl, inside⟩ := fits_array fits
    exact elements inner _ each inside

theorem readsAll_map {encode : α → Json} {decode : Nat → Json → Decoded α}
    (each : ∀ a, Reads decode (encode a) a) (as : List α) :
    ReadsAll decode (as.map encode) as := by
  induction as with
  | nil => exact readsAll_nil
  | cons a as ih => exact ReadsAll.cons (each a) ih

theorem carries_of_object {fields entries : Fields} {room : Nat}
    (same : Rewritten (.object fields) (.object entries)) (nodup : (fields.map Prod.fst).Nodup)
    (fits : ∀ e ∈ entries, Fits room e.2) : Carries room fields entries := by
  cases same with
  | object known unknown closed order => exact carries_of_rewritten known unknown order nodup fits

theorem reads_record {access : Access} {owner : String} {known : List Field} {fields : Fields}
    {build : Nat → Fields → Decoded α} {a : α}
    (names : known.map (·.name) = fields.map Prod.fst) (nodup : (known.map (·.name)).Nodup)
    (built : ∀ room entries, Carries room fields entries → build room entries = .ok a) :
    Reads (decodeRecord access owner known build) (.object fields) a := by
  intro room w same fits
  cases w with
  | object entries =>
    obtain ⟨inner, rfl, inside⟩ := fits_object fits
    have carries := carries_of_object same (names ▸ nodup) inside
    rw [decodeRecord, record, carries.named names, ok_bind]
    exact built inner entries carries
  | _ => cases same

theorem spanEncode_injective {s t : Span} (same : s.encode = t.encode) : s = t := by
  obtain ⟨start, stop⟩ := s
  obtain ⟨otherStart, otherStop⟩ := t
  simp only [Span.encode, natural, Json.object.injEq, List.cons.injEq, Prod.mk.injEq,
    Json.number.injEq, Number.integer.injEq, Int.natCast_inj, UInt32.toNat_inj] at same
  rw [same.1.2, same.2.1.2]

theorem reads_span (access : Access) (s : Span) : Reads (Span.decode access) s.encode s := by
  apply reads_record rfl (by decide)
  intro room entries carries
  obtain ⟨start, stop⟩ := carries
  rw [start.required rfl (reads_word32 _ room), ok_bind, stop.required rfl (reads_word32 _ room)]
  rfl

theorem Carried.span {room : Nat} {entries : Fields} {s : Span}
    (carried : Carried room entries "span" s.encode) (access : Access) :
    entries.span access room = .ok s := by
  apply carried.withDefault _ (reads_span access s room)
  intro omitted
  exact spanEncode_injective (Option.some.inj omitted)

/-- A list that may be left out where it is empty. -/
theorem Carried.list {decode : Nat → Json → Decoded α} {room : Nat} {entries : Fields}
    {key : String} {vs : List Json} {as : List α} (carried : Carried room entries key (.array vs))
    (omittable : defaultOf? key = some (.array [])) (elements : ReadsAll decode vs as) :
    entries.withDefault key [] (decodeList decode room) = .ok as := by
  apply carried.withDefault _ (elements.decodeList room)
  intro omitted
  rw [omittable, Option.some.injEq, Json.array.injEq] at omitted
  rw [← omitted] at elements
  exact Except.ok.inj (elements room [] .nil (List.forall_mem_nil _))

theorem decodeNewtype_of_rewritten [Enumerated κ] (access : Access) {room : Nat} {key : String}
    {v w : Json} {kind : κ} (tag : variant key = .ok kind) (closed : isVariant [(key, v)])
    (needed : defaultOf? key ≠ some v) (same : Rewritten (.object [(key, v)]) w)
    (fits : Fits room w) :
    ∃ inner content, room = inner + 1 ∧ decodeNewtype access room w = .ok (kind, content)
      ∧ Rewritten v content ∧ Fits inner content := by
  cases same with
  | object known unknown alone order =>
    rw [alone closed, List.append_nil] at order
    cases known with
    | drop omitted rest => exact absurd omitted needed
    | keep first rest =>
      cases rest
      obtain rfl := List.perm_singleton.mp order
      obtain ⟨inner, rfl, inside⟩ := fits_object fits
      refine ⟨inner, _, rfl, ?_, first, inside _ (List.mem_singleton_self _)⟩
      simp only [decodeNewtype, decodeVariant, tag]
      rfl

theorem entriesOf_filter_ne {key own : String} (other : key ≠ own) (entries : Fields) :
    entriesOf key (entries.filter (·.1 != own)) = entriesOf key entries := by
  rw [entriesOf, List.filter_filter, entriesOf]
  apply List.filter_congr
  intro e mem
  by_cases same : e.1 = key
  · simp [same, other]
  · simp [same]

theorem Carries.filter_ne {room : Nat} {fields entries : Fields} {own : String}
    (carries : Carries room fields entries) (fresh : own ∉ fields.map Prod.fst) :
    Carries room fields (entries.filter (·.1 != own)) := by
  rw [Carries, List.forall_iff_forall_mem] at carries ⊢
  intro e mem
  have other : e.1 ≠ own := by
    rintro rfl
    exact fresh (List.mem_map_of_mem mem)
  cases carries e mem with
  | absent missing omitted =>
    exact .absent ((entriesOf_filter_ne other entries).trans missing) omitted
  | present once same fits =>
    exact .present ((entriesOf_filter_ne other entries).trans once) same fits

theorem tagged_of_carried [Enumerated κ] (access : Access) {room : Nat} {entries : Fields}
    {name : String} {kind : κ} (carried : Carried room entries "kind" (.string name))
    (known : variant name = .ok kind) :
    tagged access "kind" entries = .ok (kind, entries.filter (·.1 != "kind")) := by
  cases carried with
  | absent missing omitted => exact absurd omitted.symm (Option.some_ne_none _)
  | present once same fits =>
    cases same
    have only : entries.filter (·.1 == "kind") = [("kind", .string name)] := once
    rw [tagged, only]
    simp only [decodeTag, known, Except.map]

theorem Carries.cons {room : Nat} {e : String × Json} {fields entries : Fields} :
    Carries room (e :: fields) entries
      ↔ Carried room entries e.1 e.2 ∧ Carries room fields entries :=
  List.forall_cons _ _ _

/-- The declaration of a kind with some fields. -/
theorem reads_declaration [Enumerated κ] {access : Access} {owner name : String} (kind : κ)
    (known : List Field) {fields : Fields} {build : Nat → κ → Content → Decoded α} {a : α}
    (tag : variant name = .ok kind) (names : known.map (·.name) = fields.map Prod.fst)
    (nodup : ("kind" :: known.map (·.name)).Nodup)
    (built : ∀ room entries, named known entries = .ok entries → Carries room fields entries →
      build room kind (.entries entries) = .ok a) :
    Reads (decodeDeclaration access owner build) (declaration name fields) a := by
  rw [names] at nodup
  intro room w same fits
  cases w with
  | object entries =>
    obtain ⟨inner, rfl, inside⟩ := fits_object fits
    obtain ⟨kindCarried, carries⟩ := Carries.cons.mp (carries_of_object same nodup inside)
    have collected : collect access (inner + 1) (.object entries) = .ok () := by
      cases access with
      | collected => rfl
      | streamed => exact congrArg (Except.mapError DecodeError.malformed) fits
    have own := carries.filter_ne (List.nodup_cons.mp nodup).1
    have kindRead := tagged_of_carried access kindCarried tag
    rw [decodeDeclaration, collected, ok_bind, decodeTagged, kindRead]
    exact built inner _ (own.named names) own
  | _ => cases same

/-- What a node with a span, a kind and some fields is taken apart into. -/
theorem decodeFlattened_of_rewritten [Enumerated κ] (access : Access) (owner : String)
    (known : List Field) {room : Nat} {w : Json} {span : Span} {name : String} {kind : κ}
    {fields : Fields} (tag : variant name = .ok kind)
    (names : known.map (·.name) = fields.map Prod.fst)
    (nodup : ("span" :: "kind" :: known.map (·.name)).Nodup)
    (same : Rewritten (node span name fields) w) (fits : Fits room w) :
    ∃ inner own entries, room = inner + 1
      ∧ decodeFlattened access owner "span" "kind" inner w = .ok (own, kind, entries)
      ∧ decodeSpan access inner own = .ok span ∧ named known entries = .ok entries
      ∧ Carries inner fields entries := by
  rw [names] at nodup
  cases w with
  | object entries =>
    obtain ⟨inner, rfl, inside⟩ := fits_object fits
    obtain ⟨spanCarried, later⟩ := Carries.cons.mp (carries_of_object same nodup inside)
    have others := later.filter_ne (List.nodup_cons.mp nodup).1
    obtain ⟨kindCarried, carries⟩ := Carries.cons.mp others
    have kindRead := tagged_of_carried .collected kindCarried tag
    have own := carries.filter_ne (List.nodup_cons.mp (List.nodup_cons.mp nodup).2).1
    have readable : (readableEntries inner (entries.filter (·.1 != "span"))).mapError
        DecodeError.malformed = .ok () := by
      have rest : ∀ e ∈ entries.filter (·.1 != "span"), Fits inner e.2 :=
        fun e mem => inside e (List.mem_of_mem_filter mem)
      rw [readableEntries_eq_ok_iff.mpr rest]
      rfl
    cases spanCarried with
    | absent missing omitted =>
      have none : entries.filter (·.1 == "span") = [] := missing
      have zero : Span.zero = span := spanEncode_injective (Option.some.inj omitted)
      refine ⟨inner, .none, _, rfl, ?_, congrArg Except.ok zero, own.named names, own⟩
      cases access with
      | collected => simp only [decodeFlattened, none, kindRead]; rfl
      | streamed => simp only [decodeFlattened, readable, none, kindRead]; rfl
    | present once sameSpan fitsSpan =>
      have only : entries.filter (·.1 == "span") = [("span", _)] := once
      refine ⟨inner, some _, _, rfl, ?_, reads_span access span inner _ sameSpan fitsSpan,
        own.named names, own⟩
      cases access with
      | collected => simp only [decodeFlattened, only, kindRead]; rfl
      | streamed => simp only [decodeFlattened, readable, only, kindRead]; rfl
  | _ => cases same

end

end NeutralSchema.Tree
