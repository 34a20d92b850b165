import Mathlib.Data.List.Nodup
import NeutralSchema.Proofs.Tree.Rewriting

/-!
# Damaged documents

A document of a tree is damaged where a field that it has to have is missing, or where a field that
is no option is `null`. What refuses damage refuses it wherever it is. Main definitions: `Damaged`
and `Strict`.
-/
namespace NeutralSchema.Tree

open Json

/-- The kind that the entries of an object name. -/
def kindOf (fields : Fields) : Option String :=
  match fields.lookup "kind" with
  | some (.string name) => some name
  | _ => none

/-- Whether a field is an option. Some names are those of options in some kinds of nodes only. -/
def isNullable (kind : Option String) : String → Bool
  | "type" | "visibility" | "else_branch" | "incrementor" | "return_type" => true
  | "expression" => kind = some "return"
  | "initializer" => kind ≠ some "for_of"
  | "condition" => kind = some "for"
  | "body" => kind = some "method" || kind = some "constructor"
  | _ => false

/-- Whether a field has a default. Options have one. -/
def isOmittable (kind : Option String) (key : String) : Bool :=
  isNullable kind key || key ∈ ["id", "path", "items", "span", "members", "parameters",
    "modifiers", "is_static", "readonly", "statements", "arguments", "elements", "type_arguments"]

/-- Whether a document is another one with one field that has no default taken out, or one field
that is no option set to `null`, at any depth. -/
inductive Damaged : Json → Json → Prop
  | missing {before after : Fields} {key : String} {v : Json}
    (needed : ¬isOmittable (kindOf (before ++ (key, v) :: after)) key) :
    Damaged (.object (before ++ (key, v) :: after)) (.object (before ++ after))
  | nulled {before after : Fields} {key : String} {v : Json}
    (needed : ¬isNullable (kindOf (before ++ (key, v) :: after)) key) :
    Damaged (.object (before ++ (key, v) :: after)) (.object (before ++ (key, .null) :: after))
  | entry {before after : Fields} {key : String} {v w : Json} (inside : Damaged v w) :
    Damaged (.object (before ++ (key, v) :: after)) (.object (before ++ (key, w) :: after))
  | element {before after : List Json} {v w : Json} (inside : Damaged v w) :
    Damaged (.array (before ++ v :: after)) (.array (before ++ w :: after))

theorem Damaged.ne_null {v w : Json} (damaged : Damaged v w) : w ≠ .null := by
  cases damaged <;> exact Json.noConfusion

theorem leavesAll_append (p : Json → Bool) (vs ws : List Json) :
    leavesAll p (vs ++ ws) = (leavesAll p vs && leavesAll p ws) := by
  induction vs with
  | nil => rfl
  | cons v vs ih => simp only [List.cons_append, leavesAll, ih, Bool.and_assoc]

theorem leavesEntries_append (p : Json → Bool) (es fs : Fields) :
    leavesEntries p (es ++ fs) = (leavesEntries p es && leavesEntries p fs) := by
  induction es with
  | nil => rfl
  | cons e es ih => simp only [List.cons_append, leavesEntries, ih, Bool.and_assoc]

theorem Damaged.leaves {p : Json → Bool} (null : p .null) {v w : Json} (damaged : Damaged v w)
    (holds : v.leaves p) : w.leaves p := by
  induction damaged with
  | missing needed =>
    simp only [Json.leaves, leavesEntries_append, leavesEntries, Bool.and_eq_true] at holds ⊢
    exact ⟨holds.1, holds.2.2⟩
  | nulled needed =>
    simp only [Json.leaves, leavesEntries_append, leavesEntries, Bool.and_eq_true] at holds ⊢
    exact ⟨holds.1, null, holds.2.2⟩
  | entry inside ih =>
    simp only [Json.leaves, leavesEntries_append, leavesEntries, Bool.and_eq_true] at holds ⊢
    exact ⟨holds.1, ih holds.2.1, holds.2.2⟩
  | element inside ih =>
    simp only [Json.leaves, leavesAll_append, leavesAll, Bool.and_eq_true] at holds ⊢
    exact ⟨holds.1, ih holds.2.1, holds.2.2⟩

/-- Damage takes no room. -/
theorem Damaged.fits {room : Nat} {v w : Json} (damaged : Damaged v w) (fits : Fits room v) :
    Fits room w := by
  induction damaged generalizing room with
  | missing needed =>
    obtain ⟨inner, rfl, each⟩ := fits_object fits
    simp only [List.forall_mem_append, List.forall_mem_cons] at each
    refine readableEntries_eq_ok_iff.mpr ?_
    simp only [List.forall_mem_append]
    exact ⟨each.1, each.2.2⟩
  | nulled needed =>
    obtain ⟨inner, rfl, each⟩ := fits_object fits
    simp only [List.forall_mem_append, List.forall_mem_cons] at each
    refine readableEntries_eq_ok_iff.mpr ?_
    simp only [List.forall_mem_append, List.forall_mem_cons]
    exact ⟨each.1, rfl, each.2.2⟩
  | entry inside ih =>
    obtain ⟨inner, rfl, each⟩ := fits_object fits
    simp only [List.forall_mem_append, List.forall_mem_cons] at each
    refine readableEntries_eq_ok_iff.mpr ?_
    simp only [List.forall_mem_append, List.forall_mem_cons]
    exact ⟨each.1, ih each.2.1, each.2.2⟩
  | element inside ih =>
    obtain ⟨inner, rfl, each⟩ := fits_array fits
    simp only [List.forall_mem_append, List.forall_mem_cons] at each
    refine readableAll_eq_ok_iff.mpr ?_
    simp only [List.forall_mem_append, List.forall_mem_cons]
    exact ⟨each.1, ih each.2.1, each.2.2⟩

/-- The field is among the entries as it was. -/
structure Kept (room : Nat) (entries : Fields) (key : String) (v : Json) : Prop where
  once : entriesOf key entries = [(key, v)]
  fits : Fits room v

/-- The field is missing among the entries, or `null`, or damaged. -/
inductive Hurt (kind : Option String) (room : Nat) (entries : Fields) (key : String) (v : Json) :
    Prop
  | missing (needed : ¬isOmittable kind key) (absent : entriesOf key entries = [])
  | nulled (needed : ¬isNullable kind key) (once : entriesOf key entries = [(key, .null)])
  | inside {w : Json} (damaged : Damaged v w) (once : entriesOf key entries = [(key, w)])
    (fits : Fits room w)

/-- One of the fields is hurt, and the others are kept. -/
inductive Hurts (kind : Option String) (room : Nat) (entries : Fields) : Fields → Prop
  | here {key : String} {v : Json} {fields : Fields} (hurt : Hurt kind room entries key v)
    (rest : ∀ e ∈ fields, Kept room entries e.1 e.2) : Hurts kind room entries ((key, v) :: fields)
  | later {key : String} {v : Json} {fields : Fields} (kept : Kept room entries key v)
    (rest : Hurts kind room entries fields) : Hurts kind room entries ((key, v) :: fields)

section

variable {kind : Option String} {room : Nat} {entries : Fields} {key : String} {v : Json}

theorem kept_of_mem (nodup : (entries.map Prod.fst).Nodup) (fits : ∀ e ∈ entries, Fits room e.2)
    {e : String × Json} (mem : e ∈ entries) : Kept room entries e.1 e.2 :=
  ⟨entriesOf_of_mem nodup mem, fits e mem⟩

theorem hurts_of_split {before after : Fields} (hurt : Hurt kind room entries key v)
    (kept : ∀ e ∈ before ++ after, Kept room entries e.1 e.2) :
    Hurts kind room entries (before ++ (key, v) :: after) := by
  induction before with
  | nil => exact .here hurt kept
  | cons e before ih =>
    rw [List.cons_append, List.forall_mem_cons] at kept
    exact .later kept.1 (ih kept.2)

theorem hurts_of_replaced {before after : Fields} {w : Json}
    (fits : ∀ e ∈ before ++ (key, w) :: after, Fits room e.2)
    (nodup : ((before ++ (key, w) :: after).map Prod.fst).Nodup)
    (hurt : Kept room (before ++ (key, w) :: after) key w →
      Hurt kind room (before ++ (key, w) :: after) key v) :
    Hurts kind room (before ++ (key, w) :: after) (before ++ (key, v) :: after) := by
  apply hurts_of_split
  · exact hurt (kept_of_mem nodup fits List.mem_append_cons_self)
  · intro e mem
    apply kept_of_mem nodup fits
    rw [List.mem_append] at mem ⊢
    exact mem.imp_right (List.mem_cons_of_mem _)

/-- A damaged object is an object, and one of its fields is hurt. -/
theorem hurts_of_damaged {fields : Fields} {w : Json} (damaged : Damaged (.object fields) w)
    (fits : Fits room w) (nodup : (fields.map Prod.fst).Nodup) :
    ∃ inner entries, room = inner + 1 ∧ w = .object entries ∧ (entries.map Prod.fst).Nodup
      ∧ Hurts (kindOf fields) inner entries fields := by
  cases damaged with
  | @missing before after key v needed =>
    obtain ⟨inner, rfl, each⟩ := fits_object fits
    rw [List.map_append, List.map_cons, List.nodup_middle, List.nodup_cons,
      ← List.map_append] at nodup
    refine ⟨inner, _, rfl, rfl, nodup.2, hurts_of_split ?_ fun e mem => ?_⟩
    · exact .missing needed (entriesOf_eq_nil_iff.mpr nodup.1)
    · exact kept_of_mem nodup.2 each mem
  | @nulled before after key v needed =>
    obtain ⟨inner, rfl, each⟩ := fits_object fits
    have same : ((before ++ (key, Json.null) :: after).map Prod.fst).Nodup := by
      simpa using nodup
    exact ⟨inner, _, rfl, rfl, same,
      hurts_of_replaced each same fun kept => .nulled needed kept.once⟩
  | @entry before after key v w damaged =>
    obtain ⟨inner, rfl, each⟩ := fits_object fits
    have same : ((before ++ (key, w) :: after).map Prod.fst).Nodup := by
      simpa using nodup
    exact ⟨inner, _, rfl, rfl, same,
      hurts_of_replaced each same fun kept => .inside damaged kept.once kept.fits⟩

/-- A record takes the entries as they are if no key is repeated. -/
theorem named_of_nodup {known : List Field} (nodup : (entries.map Prod.fst).Nodup) :
    named known entries = .ok entries := by
  apply named_of_entriesOf
  intro field mem
  cases found : entriesOf field.name entries with
  | nil => exact Nat.zero_le 1
  | cons e rest =>
    have mem : e ∈ entriesOf field.name entries := found ▸ List.mem_cons_self
    obtain ⟨inside, same⟩ := List.mem_filter.mp mem
    have single := entriesOf_of_mem nodup inside
    rw [eq_of_beq same, found] at single
    exact Nat.le_of_eq (congrArg List.length single)

theorem Kept.filter_ne (kept : Kept room entries key v) {own : String} (other : key ≠ own) :
    Kept room (entries.filter (·.1 != own)) key v :=
  ⟨(entriesOf_filter_ne other entries).trans kept.once, kept.fits⟩

theorem Hurt.filter_ne (hurt : Hurt kind room entries key v) {own : String} (other : key ≠ own) :
    Hurt kind room (entries.filter (·.1 != own)) key v := by
  have same := entriesOf_filter_ne other entries
  cases hurt with
  | missing needed absent => exact .missing needed (same.trans absent)
  | nulled needed once => exact .nulled needed (same.trans once)
  | inside damaged once fits => exact .inside damaged (same.trans once) fits

theorem Hurts.filter_ne {fields : Fields} (hurts : Hurts kind room entries fields) {own : String}
    (fresh : own ∉ fields.map Prod.fst) :
    Hurts kind room (entries.filter (·.1 != own)) fields := by
  induction hurts with
  | here hurt rest =>
    rw [List.map_cons, List.mem_cons, not_or] at fresh
    refine .here (hurt.filter_ne (Ne.symm fresh.1)) fun e mem => (rest e mem).filter_ne ?_
    rintro rfl
    exact fresh.2 (List.mem_map_of_mem mem)
  | later kept rest ih =>
    rw [List.map_cons, List.mem_cons, not_or] at fresh
    exact .later (kept.filter_ne (Ne.symm fresh.1)) (ih fresh.2)

end

/-- Decoding fails, and not because the text is malformed. -/
def Refused {α : Type} (x : Decoded α) : Prop := ∃ d, x = .error (.unfit d)

theorem Refused.bind {α β : Type} {x : Decoded α} (refused : Refused x) (f : α → Decoded β) :
    Refused (x >>= f) := by
  obtain ⟨d, rfl⟩ := refused
  exact ⟨d, rfl⟩

theorem Refused.map {α β : Type} {x : Decoded α} (refused : Refused x) (f : α → β) :
    Refused (x.map f) := by
  obtain ⟨d, rfl⟩ := refused
  exact ⟨d, rfl⟩

mutual

theorem hasValue_of_fits {room : Nat} : ∀ {v : Json}, Fits room v → v.hasValue
  | .null, _ | .bool _, _ | .number _, _ | .string _, _ => rfl
  | .unreadable _, fits => nomatch fits
  | .array vs, fits => by
    obtain ⟨inner, rfl, each⟩ := fits_array fits
    exact leavesAll_of_fits each
  | .object entries, fits => by
    obtain ⟨inner, rfl, each⟩ := fits_object fits
    exact leavesEntries_of_fits each

theorem leavesAll_of_fits {room : Nat} : ∀ {vs : List Json}, (∀ v ∈ vs, Fits room v) →
    leavesAll isValue vs
  | [], _ => rfl
  | v :: vs, each => by
    rw [List.forall_mem_cons] at each
    rw [leavesAll, Bool.and_eq_true]
    exact ⟨hasValue_of_fits each.1, leavesAll_of_fits each.2⟩

theorem leavesEntries_of_fits {room : Nat} : ∀ {entries : Fields}, (∀ e ∈ entries, Fits room e.2) →
    leavesEntries isValue entries
  | [], _ => rfl
  | (_, v) :: entries, each => by
    rw [List.forall_mem_cons] at each
    rw [leavesEntries, Bool.and_eq_true]
    exact ⟨hasValue_of_fits each.1, leavesEntries_of_fits each.2⟩

end

/-- A decoder reads a value from a document, and refuses `null` and every damaged document. -/
structure Strict {α : Type} (decode : Nat → Json → Decoded α) (v : Json) (a : α) : Prop where
  reads : Reads decode v a
  null : ∀ room, Refused (decode room .null)
  damaged : ∀ room w, Damaged v w → Fits room w → Refused (decode room w)

section

variable {α β : Type} {decode : Nat → Json → Decoded α} {v : Json} {a : α}
  {kind : Option String} {room : Nat} {entries fields : Fields} {key : String}

theorem Strict.of_fits (strict : Strict decode v a) (fits : Fits room v) :
    decode room v = .ok a :=
  strict.reads room v (rewritten_refl v (hasValue_of_fits fits)) fits

theorem Strict.ne_null (strict : Strict decode v a) : v ≠ .null := by
  rintro rfl
  obtain ⟨d, refused⟩ := strict.null 0
  cases refused.symm.trans (strict.of_fits rfl)

/-- A decoder refuses a field that it needs where it is missing, `null` or damaged. -/
theorem Hurts.required (hurts : Hurts kind room entries ((key, v) :: fields))
    (strict : Strict decode v a) {f : α → Decoded β}
    (next : Hurts kind room entries fields → Refused (f a)) :
    Refused (entries.required key (decode room) >>= f) := by
  rw [Fields.required]
  cases hurts with
  | here hurt rest =>
    cases hurt with
    | missing needed absent =>
      rw [lookup_of_absent absent]
      exact ⟨_, rfl⟩
    | nulled needed once =>
      rw [lookup_of_once once]
      exact (strict.null room).bind f
    | inside damaged once fits =>
      rw [lookup_of_once once]
      exact (strict.damaged room _ damaged fits).bind f
  | later kept rest =>
    simp only [lookup_of_once kept.once, strict.of_fits kept.fits, ok_bind]
    exact next rest

theorem Hurts.withDefault (hurts : Hurts kind room entries ((key, v) :: fields))
    (omittable : isOmittable kind key) {default : α} (strict : Strict decode v a)
    {f : α → Decoded β} (next : Hurts kind room entries fields → Refused (f a)) :
    Refused (entries.withDefault key default (decode room) >>= f) := by
  rw [Fields.withDefault]
  cases hurts with
  | here hurt rest =>
    cases hurt with
    | missing needed absent => exact absurd omittable needed
    | nulled needed once =>
      rw [lookup_of_once once]
      exact (strict.null room).bind f
    | inside damaged once fits =>
      rw [lookup_of_once once]
      exact (strict.damaged room _ damaged fits).bind f
  | later kept rest =>
    simp only [lookup_of_once kept.once, strict.of_fits kept.fits, ok_bind]
    exact next rest

theorem decodeNullable_of_ne_null {w : Json} (there : w ≠ .null) :
    decodeNullable (decode room) w = (decode room w).map some := by
  cases w <;> first | rfl | exact absurd rfl there

theorem Hurts.optional {encode : α → Json} {part : Option α}
    (hurts : Hurts kind room entries ((key, encodeOption encode part) :: fields))
    (nullable : isNullable kind key) (strict : ∀ a ∈ part, Strict decode (encode a) a)
    {f : Option α → Decoded β} (next : Hurts kind room entries fields → Refused (f part)) :
    Refused (entries.optional key (decode room) >>= f) := by
  rw [Fields.optional, Fields.withDefault]
  cases hurts with
  | here hurt rest =>
    cases hurt with
    | missing needed absent =>
      have omittable : isOmittable kind key := by rw [isOmittable, nullable, Bool.true_or]
      exact absurd omittable needed
    | nulled needed once => exact absurd nullable needed
    | inside damaged once fits =>
      cases part with
      | none => cases damaged
      | some a =>
        have refused := (strict a rfl).damaged room _ damaged fits
        rw [lookup_of_once once]
        simp only [decodeNullable_of_ne_null damaged.ne_null]
        exact (refused.map some).bind f
  | later kept rest =>
    rw [lookup_of_once kept.once]
    cases part with
    | none => exact next rest
    | some a =>
      have value := (strict a rfl).of_fits kept.fits
      have there := (strict a rfl).ne_null
      simp only [encodeOption, ofOption, Option.map_some, decodeNullable_of_ne_null there, value]
      exact next rest

theorem strict_string (s : String) : Strict (fun _ => decodeString) (.string s) s :=
  ⟨reads_string s, fun _ => ⟨_, rfl⟩, nofun⟩

theorem strict_bool (b : Bool) : Strict (fun _ => decodeBool) (.bool b) b :=
  ⟨reads_bool b, fun _ => ⟨_, rfl⟩, nofun⟩

theorem strict_word32 (n : UInt32) : Strict (fun _ => decodeWord32) (natural n.toNat) n :=
  ⟨reads_word32 n, fun _ => ⟨_, rfl⟩, nofun⟩

theorem strict_record {access : Access} {owner : String} {known : List Field}
    {build : Nat → Fields → Decoded α}
    (reads : Reads (decodeRecord access owner known build) (.object fields) a)
    (names : known.map (·.name) = fields.map Prod.fst) (nodup : (known.map (·.name)).Nodup)
    (plain : kindOf fields = none)
    (built : ∀ room entries, Hurts none room entries fields → Refused (build room entries)) :
    Strict (decodeRecord access owner known build) (.object fields) a := by
  rw [names] at nodup
  refine ⟨reads, fun room => ?_, fun room w damaged fits => ?_⟩
  · cases room <;> exact ⟨_, rfl⟩
  · obtain ⟨inner, entries, rfl, rfl, unique, hurts⟩ := hurts_of_damaged damaged fits nodup
    rw [plain] at hurts
    rw [decodeRecord, record, named_of_nodup unique, ok_bind]
    exact built inner entries hurts

theorem readsAll_of_strict {vs : List Json} {as : List α}
    (elements : vs.Forall₂ (Strict decode) as) : ReadsAll decode vs as := by
  induction elements with
  | nil => exact readsAll_nil
  | cons first rest ih => exact ReadsAll.cons first.reads ih

theorem mapM_refused {before after : List Json} {w : Json} {as : List α}
    (elements : (before ++ v :: after).Forall₂ (Strict decode) as) (damaged : Damaged v w)
    (fits : ∀ x ∈ before ++ w :: after, Fits room x) :
    Refused ((before ++ w :: after).mapM (decode room)) := by
  induction before generalizing as with
  | nil =>
    cases elements with
    | cons first rest =>
      rw [List.nil_append, List.mapM_cons]
      exact (first.damaged room w damaged (fits w List.mem_cons_self)).bind _
  | cons x before ih =>
    cases elements with
    | cons first rest =>
      rw [List.cons_append, List.forall_mem_cons] at fits
      rw [List.cons_append, List.mapM_cons, first.of_fits fits.1, ok_bind]
      exact (ih rest fits.2).bind _

theorem strict_list {vs : List Json} {as : List α} (elements : vs.Forall₂ (Strict decode) as) :
    Strict (decodeList decode) (.array vs) as := by
  refine ⟨(readsAll_of_strict elements).decodeList, fun room => ?_, fun room w damaged fits => ?_⟩
  · cases room <;> exact ⟨_, rfl⟩
  · cases damaged with
    | element damaged =>
      obtain ⟨inner, rfl, each⟩ := fits_array fits
      exact mapM_refused elements damaged each

theorem strict_map {encode : α → Json} (each : ∀ a, Strict decode (encode a) a) (as : List α) :
    Strict (decodeList decode) (.array (as.map encode)) as := by
  apply strict_list
  rw [List.forall₂_map_left_iff, List.forall₂_same]
  exact fun a _ => each a

end

section

variable {α β κ : Type} [Enumerated κ]

theorem eq_of_singleton_eq_append {x y : String × Json} {before after : Fields}
    (same : [x] = before ++ y :: after) : before = [] ∧ y = x ∧ after = [] := by
  cases before with
  | nil =>
    cases same
    exact ⟨rfl, rfl, rfl⟩
  | cons z before => simp at same

theorem damaged_singleton {key : String} {v w : Json} (damaged : Damaged (.object [(key, v)]) w) :
    w = .object [] ∨ ∃ x, w = .object [(key, x)] ∧ (x = .null ∨ Damaged v x) := by
  generalize alone : Json.object [(key, v)] = whole at damaged
  cases damaged with
  | missing needed =>
    obtain ⟨rfl, -, rfl⟩ := eq_of_singleton_eq_append (Json.object.inj alone)
    exact .inl rfl
  | nulled needed =>
    obtain ⟨rfl, same, rfl⟩ := eq_of_singleton_eq_append (Json.object.inj alone)
    cases same
    exact .inr ⟨_, rfl, .inl rfl⟩
  | entry damaged =>
    obtain ⟨rfl, same, rfl⟩ := eq_of_singleton_eq_append (Json.object.inj alone)
    cases same
    exact .inr ⟨_, rfl, .inr damaged⟩
  | element damaged => cases alone

/-- A variant whose single key is missing is refused, and so is one with content that is refused. -/
theorem newtype_refused {decode : Nat → Json → Decoded α} {a : α} {room : Nat} {key : String}
    {v w : Json} {kind : κ} {build : κ × Json → Decoded β} (tag : variant key = .ok kind)
    (strict : Strict decode v a) (damaged : Damaged (.object [(key, v)]) w) (fits : Fits room w)
    (built : ∀ inner content, room = inner + 1 → Refused (decode inner content) →
      Refused (build (kind, content))) :
    Refused (decodeNewtype .collected room w >>= build) := by
  rcases damaged_singleton damaged with rfl | ⟨content, rfl, hurt⟩
  · exact ⟨_, rfl⟩
  · obtain ⟨inner, rfl, each⟩ := fits_object fits
    have read : decodeNewtype .collected (inner + 1) (.object [(key, content)])
        = .ok (kind, content) := by
      simp only [decodeNewtype, decodeVariant, tag]
      rfl
    rw [read]
    apply built inner content rfl
    rcases hurt with rfl | damaged
    · exact strict.null inner
    · exact strict.damaged inner content damaged (each _ (List.mem_singleton_self _))

theorem tagged_of_kept {access : Access} {room : Nat} {entries : Fields} {name : String} {kind : κ}
    (tag : variant name = .ok kind) (kept : Kept room entries "kind" (.string name)) :
    tagged access "kind" entries = .ok (kind, entries.filter (·.1 != "kind")) :=
  tagged_of_carried access (.present kept.once (.string name) kept.fits) tag

/-- A tag that is hurt is refused. -/
theorem tagged_of_hurt {access : Access} {node : Option String} {room : Nat} {entries : Fields}
    {name : String} (hurt : Hurt node room entries "kind" (.string name)) :
    Refused (tagged access "kind" entries : Decoded (κ × Fields)) := by
  have found : entries.filter (·.1 == "kind") = entriesOf "kind" entries := rfl
  rw [tagged, found]
  cases hurt with
  | missing needed absent => exact ⟨_, by rw [absent]; rfl⟩
  | nulled needed once => exact ⟨_, by rw [once]; rfl⟩
  | inside damaged once fits => cases damaged

/-- A declaration of a kind with some fields. -/
theorem strict_declaration {access : Access} {owner name : String} {fields : Fields}
    {build : Nat → κ → Content → Decoded α} {a : α}
    (reads : Reads (decodeDeclaration access owner build) (declaration name fields) a) (kind : κ)
    (known : List Field) (tag : variant name = .ok kind)
    (names : known.map (·.name) = fields.map Prod.fst)
    (nodup : ("kind" :: known.map (·.name)).Nodup)
    (built : ∀ room entries, named known entries = .ok entries →
      Hurts (some name) room entries fields → Refused (build room kind (.entries entries))) :
    Strict (decodeDeclaration access owner build) (declaration name fields) a := by
  rw [names] at nodup
  refine ⟨reads, fun room => ?_, fun room w damaged fits => ?_⟩
  · cases room with
    | zero => exact ⟨_, rfl⟩
    | succ room => cases access <;> exact ⟨_, rfl⟩
  change Damaged (.object (("kind", .string name) :: fields)) w at damaged
  obtain ⟨inner, entries, rfl, rfl, unique, hurts⟩ := hurts_of_damaged damaged fits nodup
  have collected : collect access (inner + 1) (.object entries) = .ok () := by
    cases access with
    | collected => rfl
    | streamed => exact congrArg (Except.mapError DecodeError.malformed) fits
  rw [decodeDeclaration, collected, ok_bind, decodeTagged]
  cases hurts with
  | here hurt rest => exact ((tagged_of_hurt hurt).map _).bind _
  | later kept rest =>
    have others := (entries.filter_sublist (p := (·.1 != "kind"))).map Prod.fst
    rw [tagged_of_kept tag kept]
    exact built inner _ (named_of_nodup (unique.sublist others))
      (rest.filter_ne (List.nodup_cons.mp nodup).1)

theorem strict_span (s : Span) : Strict (Span.decode .collected) s.encode s := by
  apply strict_record (reads_span .collected s) rfl (by decide) rfl
  intro room entries hurts
  refine hurts.required (strict_word32 s.start) fun hurts => ?_
  exact hurts.required (strict_word32 s.stop) nofun

/-- The span of a node, its kind and its fields. -/
def header (owner : String) (room : Nat) (v : Json) : Decoded (Span × κ × Fields) := do
  let (own, kind, entries) ← decodeFlattened .collected owner "span" "kind" room v
  let span ← decodeSpan .collected room own
  return (span, kind, entries)

/-- What reads the header of a node refuses it if the header is refused. -/
theorem refused_of_header {owner : String} {room : Nat} {v : Json}
    {build : Option Json × κ × Fields → Decoded α}
    (stops : ∀ own kind entries, Refused (decodeSpan .collected room own) →
      Refused (build (own, kind, entries)))
    (refused : Refused (header owner room v : Decoded (Span × κ × Fields))) :
    Refused (decodeFlattened .collected owner "span" "kind" room v >>= build) := by
  obtain ⟨d, failed⟩ := refused
  rw [header] at failed
  cases flat : (decodeFlattened .collected owner "span" "kind" room v :
      Decoded (Option Json × κ × Fields)) with
  | error e =>
    rw [flat] at failed
    cases failed
    exact ⟨d, rfl⟩
  | ok node =>
    obtain ⟨own, kind, entries⟩ := node
    simp only [flat, ok_bind] at failed ⊢
    apply stops
    cases span : decodeSpan .collected room own with
    | error e =>
      rw [span] at failed
      cases failed
      exact ⟨d, rfl⟩
    | ok s =>
      rw [span] at failed
      cases failed

theorem decodeFlattened_of_once {owner own tag : String} {room : Nat} {entries : Fields} {v : Json}
    (once : entriesOf own entries = [(own, v)]) :
    (decodeFlattened .collected owner own tag room (.object entries) :
        Decoded (Option Json × κ × Fields))
      = (tagged .collected tag (entries.filter (·.1 != own))).map fun node => (some v, node) := by
  have only : entries.filter (·.1 == own) = [(own, v)] := once
  simp only [decodeFlattened, only]
  rfl

/-- A node that is damaged has a header that is refused, or fields one of which is hurt. -/
theorem header_of_damaged {owner : String} (known : List Field) {room : Nat} {w : Json}
    {span : Span} {name : String} {kind : κ} {fields : Fields} (tag : variant name = .ok kind)
    (names : known.map (·.name) = fields.map Prod.fst)
    (nodup : ("span" :: "kind" :: known.map (·.name)).Nodup)
    (damaged : Damaged (node span name fields) w) (fits : Fits room w) :
    ∃ inner, room = inner + 1
      ∧ (Refused (header owner inner w : Decoded (Span × κ × Fields))
        ∨ ∃ own entries, decodeFlattened .collected owner "span" "kind" inner w
            = .ok (own, kind, entries)
          ∧ decodeSpan .collected inner own = .ok span ∧ named known entries = .ok entries
          ∧ Hurts (some name) inner entries fields) := by
  rw [names] at nodup
  change Damaged (.object (("span", span.encode) :: ("kind", .string name) :: fields)) w at damaged
  obtain ⟨inner, entries, rfl, rfl, unique, hurts⟩ := hurts_of_damaged damaged fits nodup
  refine ⟨inner, rfl, ?_⟩
  cases hurts with
  | here hurt rest =>
    have kept := (rest _ List.mem_cons_self).filter_ne (show "kind" ≠ "span" by decide)
    have refused {v : Json} (once : entriesOf "span" entries = [("span", v)])
        (failed : Refused (Span.decode .collected inner v)) :
        Refused (header owner inner (.object entries) : Decoded (Span × κ × Fields)) := by
      rw [header, decodeFlattened_of_once once, tagged_of_kept tag kept]
      exact failed.bind _
    left
    cases hurt with
    | missing needed absent => exact absurd rfl needed
    | nulled needed once => exact refused once ((strict_span span).null inner)
    | inside damaged once fits =>
      exact refused once ((strict_span span).damaged inner _ damaged fits)
  | later kept rest =>
    have fresh := List.nodup_cons.mp nodup
    have flat : (decodeFlattened .collected owner "span" "kind" inner (.object entries) :
        Decoded (Option Json × κ × Fields)) = _ := decodeFlattened_of_once kept.once
    cases rest.filter_ne fresh.1 with
    | here hurt rest =>
      left
      rw [header, flat]
      exact ((tagged_of_hurt hurt).map _).bind _
    | later kindKept rest =>
      right
      have others := ((entries.filter (·.1 != "span")).filter_sublist
        (p := (·.1 != "kind"))).trans entries.filter_sublist
      rw [tagged_of_kept tag kindKept] at flat
      exact ⟨_, _, flat, (strict_span span).of_fits kept.fits,
        named_of_nodup (unique.sublist (others.map Prod.fst)),
        rest.filter_ne (List.nodup_cons.mp fresh.2).1⟩

/-- A node of a kind with some fields. -/
theorem strict_node {decode : Nat → Json → Decoded α} {owner : String} {span : Span} {name : String}
    {kind : κ} {fields : Fields} {a : α} (reads : Reads decode (node span name fields) a)
    (null : ∀ room, Refused (decode room .null))
    (head : ∀ room w, Refused (header owner room w : Decoded (Span × κ × Fields)) →
      Refused (decode (room + 1) w))
    (known : List Field) (tag : variant name = .ok kind)
    (names : known.map (·.name) = fields.map Prod.fst)
    (nodup : ("span" :: "kind" :: known.map (·.name)).Nodup)
    (built : ∀ room w own entries,
      decodeFlattened .collected owner "span" "kind" room w = .ok (own, kind, entries) →
      decodeSpan .collected room own = .ok span → named known entries = .ok entries →
      Hurts (some name) room entries fields → Refused (decode (room + 1) w)) :
    Strict decode (node span name fields) a := by
  refine ⟨reads, null, fun room w damaged fits => ?_⟩
  obtain ⟨inner, rfl, refused | ⟨own, entries, flat, spanRead, taken, hurts⟩⟩ :=
    header_of_damaged known tag names nodup damaged fits
  · exact head inner w refused
  · exact built inner w own entries flat spanRead taken hurts

end

end NeutralSchema.Tree
