import NeutralSchema.Json.Text
import NeutralSchema.Proofs.Tree.Exact
import NeutralSchema.Proofs.Tree.Rewriting

/-!
# Decoding the documents of a tree

Every document that the encoding of a tree is rewritten to decodes to that tree, where it is not too
deep and all of it has a value. Main statement: `decodeText_rewritten`.
-/
namespace NeutralSchema.Tree

open Json

theorem Ident.reads (access : Access) (i : Ident) : Reads (Ident.decode access) i.encode i := by
  apply reads_record rfl (by decide)
  intro room entries carries
  obtain ⟨text, span⟩ := carries
  rw [text.required rfl (reads_string _ room), ok_bind, span.span access]
  rfl

theorem TypeName.reads (access : Access) (t : TypeName) :
    Reads (TypeName.decode access) t.encode t := by
  intro room w same fits
  cases t with
  | intrinsic name =>
    obtain ⟨inner, content, rfl, read, sameName, -⟩ := decodeNewtype_of_rewritten access
      (show variant "intrinsic" = .ok TypeNameKind.intrinsic from rfl) rfl
      (Option.some_ne_none _).symm same fits
    cases sameName
    rw [TypeName.decode, read]
    rfl
  | symbol name =>
    obtain ⟨inner, content, rfl, read, sameName, -⟩ := decodeNewtype_of_rewritten access
      (show variant "symbol" = .ok TypeNameKind.symbol from rfl) rfl
      (Option.some_ne_none _).symm same fits
    cases sameName
    rw [TypeName.decode, read]
    rfl

theorem ResolvedType.decodeAll_eq (access : Access) (room : Nat) :
    ResolvedType.decodeAll access room = decodeList (ResolvedType.decode access) room := by
  funext v
  cases room <;> rfl

theorem ResolvedType.decode_eq (access : Access) :
    ResolvedType.decode access
      = decodeRecord access "struct ResolvedType" [field "name", omittable "type_arguments"]
          fun room fields => do
            let name ← fields.required "name" (TypeName.decode access room)
            let arguments ←
              fields.withDefault "type_arguments" [] (decodeList (ResolvedType.decode access) room)
            return ⟨name, arguments⟩ := by
  funext room v
  cases room with
  | zero => rfl
  | succ room => rw [ResolvedType.decode, ResolvedType.decodeAll_eq]; rfl

mutual

theorem ResolvedType.reads (access : Access) : ∀ t : ResolvedType,
    Reads (ResolvedType.decode access) t.encode t
  | .mk name arguments => by
    have elements := ResolvedType.readsAll access arguments
    rw [ResolvedType.decode_eq, ResolvedType.encode]
    apply reads_record rfl (by decide)
    intro room entries carries
    obtain ⟨own, others⟩ := carries
    rw [own.required rfl (TypeName.reads access name room), ok_bind, others.list rfl elements]
    rfl

theorem ResolvedType.readsAll (access : Access) : ∀ ts : List ResolvedType,
    ReadsAll (ResolvedType.decode access) (ResolvedType.encodeAll ts) ts
  | [] => readsAll_nil
  | t :: ts => ReadsAll.cons (ResolvedType.reads access t) (ResolvedType.readsAll access ts)

end

theorem ResolvedType.encode_ne_null (t : ResolvedType) : t.encode ≠ .null := by
  cases t
  rw [ResolvedType.encode]
  exact Json.noConfusion

theorem variant_exprKind (kind : ExprKind) : variant kind.name = .ok kind := by
  cases kind with
  | unary side => cases side <;> rfl
  | self word => cases word <;> rfl
  | wrapped form => cases form <;> rfl
  | bare form => cases form <;> rfl
  | _ => rfl

theorem Expr.encode_ne_null (e : Expr) : e.encode ≠ .null := by
  cases e <;> simp [Expr.encode, node]

theorem Expr.decodeAll_eq (room : Nat) :
    Expr.decodeAll room = decodeList (Expr.decode .collected) room := by
  funext v
  cases room <;> rfl

mutual

theorem Expr.reads : ∀ (e : Expr) (access : Access), Reads (Expr.decode access) e.encode e
  | .call s callee arguments, access => by
    intro room w same fits
    obtain ⟨inner, own, entries, rfl, flat, span, named, first, second⟩ :=
      decodeFlattened_of_rewritten access "struct Expr" [field "callee", omittable "arguments"]
        (variant_exprKind .call) rfl (by decide) same fits
    simp only [Expr.decode, flat, span, named, ok_bind, Expr.decodeAll_eq]
    rw [first.required rfl (Expr.reads callee .collected inner), ok_bind,
      second.list rfl (Expr.readsAll arguments)]
    rfl
  | .binary s left operator right, access => by
    intro room w same fits
    obtain ⟨inner, own, entries, rfl, flat, span, named, first, sign, second⟩ :=
      decodeFlattened_of_rewritten access "struct Expr"
        [field "left", field "operator", field "right"]
        (variant_exprKind .binary) rfl (by decide) same fits
    simp only [Expr.decode, flat, span, named, ok_bind]
    rw [first.required rfl (Expr.reads left .collected inner), ok_bind,
      sign.required rfl (reads_string operator inner), ok_bind,
      second.required rfl (Expr.reads right .collected inner)]
    rfl
  | .member s target name, access => by
    intro room w same fits
    obtain ⟨inner, own, entries, rfl, flat, span, named, object, ident⟩ :=
      decodeFlattened_of_rewritten access "struct Expr" [field "object", field "name"]
        (variant_exprKind .member) rfl (by decide) same fits
    simp only [Expr.decode, flat, span, named, ok_bind]
    rw [object.required rfl (Expr.reads target .collected inner), ok_bind,
      ident.required rfl (Ident.reads .collected name inner)]
    rfl
  | .element s target index, access => by
    intro room w same fits
    obtain ⟨inner, own, entries, rfl, flat, span, named, object, place⟩ :=
      decodeFlattened_of_rewritten access "struct Expr" [field "object", field "index"]
        (variant_exprKind .element) rfl (by decide) same fits
    simp only [Expr.decode, flat, span, named, ok_bind]
    rw [object.required rfl (Expr.reads target .collected inner), ok_bind,
      place.required rfl (Expr.reads index .collected inner)]
    rfl
  | .identifier s name, access => by
    intro room w same fits
    obtain ⟨inner, own, entries, rfl, flat, span, named, text⟩ :=
      decodeFlattened_of_rewritten access "struct Expr" [field "name"]
        (variant_exprKind .identifier) rfl (by decide) same fits
    simp only [Expr.decode, flat, span, named, ok_bind]
    rw [text.required rfl (reads_string name inner)]
    rfl
  | .new s type arguments, access => by
    intro room w same fits
    obtain ⟨inner, own, entries, rfl, flat, span, named, first, second⟩ :=
      decodeFlattened_of_rewritten access "struct Expr" [omittable "type", omittable "arguments"]
        (variant_exprKind .new) rfl (by decide) same fits
    simp only [Expr.decode, flat, span, named, ok_bind, Expr.decodeAll_eq]
    rw [first.optional rfl ResolvedType.encode_ne_null
        (fun t _ => ResolvedType.reads .collected t inner),
      ok_bind, second.list rfl (Expr.readsAll arguments)]
    rfl
  | .conditional s condition whenTrue whenFalse, access => by
    intro room w same fits
    obtain ⟨inner, own, entries, rfl, flat, span, named, first, second, third⟩ :=
      decodeFlattened_of_rewritten access "struct Expr"
        [field "condition", field "when_true", field "when_false"]
        (variant_exprKind .conditional) rfl (by decide) same fits
    simp only [Expr.decode, flat, span, named, ok_bind]
    rw [first.requiredPart rfl (Expr.encode_ne_null condition)
        (Expr.reads condition .collected inner),
      ok_bind, second.required rfl (Expr.reads whenTrue .collected inner), ok_bind,
      third.required rfl (Expr.reads whenFalse .collected inner)]
    rfl
  | .literal s (.string value), access => by
    intro room w same fits
    obtain ⟨inner, own, entries, rfl, flat, span, named, content⟩ :=
      decodeFlattened_of_rewritten access "struct Expr" [field "value"]
        (variant_exprKind .stringLiteral) rfl (by decide) same fits
    simp only [Expr.decode, flat, span, named, ok_bind]
    rw [content.required rfl (reads_string value inner)]
    rfl
  | .literal s (.numeric text), access => by
    intro room w same fits
    obtain ⟨inner, own, entries, rfl, flat, span, named, content⟩ :=
      decodeFlattened_of_rewritten access "struct Expr" [field "text"]
        (variant_exprKind .numericLiteral) rfl (by decide) same fits
    simp only [Expr.decode, flat, span, named, ok_bind]
    rw [content.required rfl (reads_string text inner)]
    rfl
  | .literal s (.boolean value), access => by
    intro room w same fits
    obtain ⟨inner, own, entries, rfl, flat, span, named, content⟩ :=
      decodeFlattened_of_rewritten access "struct Expr" [field "value"]
        (variant_exprKind .booleanLiteral) rfl (by decide) same fits
    simp only [Expr.decode, flat, span, named, ok_bind]
    rw [content.required rfl (reads_bool value inner)]
    rfl
  | .literal s .null, access => by
    intro room w same fits
    obtain ⟨inner, own, entries, rfl, flat, span, -, -⟩ :=
      decodeFlattened_of_rewritten access "struct Expr" [] (variant_exprKind .nullLiteral) rfl
        (by decide) same fits
    simp only [Expr.decode, flat, span, ok_bind]
    rfl
  | .parenthesized s inside, access => by
    intro room w same fits
    obtain ⟨inner, own, entries, rfl, flat, span, named, content⟩ :=
      decodeFlattened_of_rewritten access "struct Expr" [field "expression"]
        (variant_exprKind .parenthesized) rfl (by decide) same fits
    simp only [Expr.decode, flat, span, named, ok_bind]
    rw [content.requiredPart rfl (Expr.encode_ne_null inside) (Expr.reads inside .collected inner)]
    rfl
  | .unary s side operator operand, access => by
    intro room w same fits
    obtain ⟨inner, own, entries, rfl, flat, span, named, sign, content⟩ :=
      decodeFlattened_of_rewritten access "struct Expr" [field "operator", field "operand"]
        (variant_exprKind (.unary side)) rfl (by decide) same fits
    simp only [Expr.decode, flat, span, named, ok_bind]
    rw [sign.required rfl (reads_string operator inner), ok_bind,
      content.required rfl (Expr.reads operand .collected inner)]
    rfl
  | .array s elements, access => by
    intro room w same fits
    obtain ⟨inner, own, entries, rfl, flat, span, named, content⟩ :=
      decodeFlattened_of_rewritten access "struct Expr" [omittable "elements"]
        (variant_exprKind .array) rfl (by decide) same fits
    simp only [Expr.decode, flat, span, named, ok_bind, Expr.decodeAll_eq]
    rw [content.list rfl (Expr.readsAll elements)]
    rfl
  | .self s word, access => by
    intro room w same fits
    obtain ⟨inner, own, entries, rfl, flat, span, -, -⟩ :=
      decodeFlattened_of_rewritten access "struct Expr" [] (variant_exprKind (.self word)) rfl
        (by decide) same fits
    simp only [Expr.decode, flat, span, ok_bind]
    rfl
  | .wrapped s form inside, access => by
    intro room w same fits
    obtain ⟨inner, own, entries, rfl, flat, span, named, content⟩ :=
      decodeFlattened_of_rewritten access "struct Expr" [field "expression"]
        (variant_exprKind (.wrapped form)) rfl (by decide) same fits
    simp only [Expr.decode, flat, span, named, ok_bind]
    rw [content.requiredPart rfl (Expr.encode_ne_null inside) (Expr.reads inside .collected inner)]
    rfl
  | .bare s form, access => by
    intro room w same fits
    obtain ⟨inner, own, entries, rfl, flat, span, -, -⟩ :=
      decodeFlattened_of_rewritten access "struct Expr" [] (variant_exprKind (.bare form)) rfl
        (by decide) same fits
    simp only [Expr.decode, flat, span, ok_bind]
    rfl
  | .other s construct, access => by
    intro room w same fits
    obtain ⟨inner, own, entries, rfl, flat, span, named, content⟩ :=
      decodeFlattened_of_rewritten access "struct Expr" [field "construct"]
        (variant_exprKind .other) rfl (by decide) same fits
    simp only [Expr.decode, flat, span, named, ok_bind]
    rw [content.required rfl (reads_string construct inner)]
    rfl

theorem Expr.readsAll : ∀ es : List Expr,
    ReadsAll (Expr.decode .collected) (Expr.encodeAll es) es
  | [] => readsAll_nil
  | e :: es => ReadsAll.cons (Expr.reads e .collected) (Expr.readsAll es)

end

theorem Declarator.reads (access : Access) (d : Declarator) :
    Reads (Declarator.decode access) d.encode d := by
  apply reads_record rfl (by decide)
  intro room entries carries
  obtain ⟨name, type, initializer, span⟩ := carries
  rw [name.required rfl (Ident.reads access d.name room), ok_bind,
    type.optional rfl ResolvedType.encode_ne_null (fun t _ => ResolvedType.reads access t room),
    ok_bind, initializer.optional rfl Expr.encode_ne_null (fun e _ => Expr.reads e access room),
    ok_bind, span.span access]
  rfl

theorem LoopInitializer.encode_ne_null (l : LoopInitializer) : l.encode ≠ .null := by
  cases l <;> exact Json.noConfusion

theorem LoopInitializer.reads (access : Access) (l : LoopInitializer) :
    Reads (LoopInitializer.decode access) l.encode l := by
  intro room w same fits
  cases l with
  | declarators ds =>
    obtain ⟨inner, content, rfl, read, sameContent, inside⟩ := decodeNewtype_of_rewritten access
      (show variant "declarations" = .ok LoopInitializerKind.declarators from rfl) rfl
      (Option.some_ne_none _).symm same fits
    have elements := readsAll_map (Declarator.reads access) ds
    simp only [LoopInitializer.decode, read, ok_bind, Nat.add_sub_cancel]
    rw [elements.decodeList inner content sameContent inside]
    rfl
  | expression e =>
    have there : defaultOf? "expression" ≠ some e.encode := by
      intro omitted
      exact Expr.encode_ne_null e (Option.some.inj omitted).symm
    obtain ⟨inner, content, rfl, read, sameContent, inside⟩ := decodeNewtype_of_rewritten access
      (show variant "expression" = .ok LoopInitializerKind.expression from rfl) rfl there same fits
    simp only [LoopInitializer.decode, read, ok_bind, Nat.add_sub_cancel]
    rw [Expr.reads e access inner content sameContent inside]
    rfl

theorem variant_stmtKind (kind : StmtKind) : variant kind.name = .ok kind := by
  cases kind with
  | bare form => cases form <;> rfl
  | _ => rfl

theorem Stmt.encode_ne_null (s : Stmt) : s.encode ≠ .null := by
  cases s <;> simp [Stmt.encode, node]

theorem Stmt.encodeOption_eq (s : Option Stmt) :
    Stmt.encodeOption s = Tree.encodeOption Stmt.encode s := by
  cases s <;> rfl

theorem Stmt.decodeAll_eq (access : Access) (room : Nat) :
    Stmt.decodeAll access room = decodeList (Stmt.decode access) room := by
  funext v
  cases room <;> rfl

mutual

theorem Stmt.reads : ∀ (s : Stmt) (access : Access), Reads (Stmt.decode access) s.encode s
  | .if s condition thenBranch elseBranch, access => by
    intro room w same fits
    obtain ⟨inner, own, entries, rfl, flat, span, named, first, second, third⟩ :=
      decodeFlattened_of_rewritten access "struct Stmt"
        [field "condition", field "then_branch", omittable "else_branch"]
        (variant_stmtKind .if) rfl (by decide) same fits
    rw [Stmt.encodeOption_eq] at third
    simp only [Stmt.decode, flat, span, named, ok_bind]
    rw [first.requiredPart rfl (Expr.encode_ne_null condition)
        (Expr.reads condition .collected inner),
      ok_bind, second.required rfl (Stmt.reads thenBranch .collected inner), ok_bind,
      third.optional rfl Stmt.encode_ne_null
        (fun s mem => Stmt.readsElse elseBranch s mem inner)]
    rfl
  | .return s value, access => by
    intro room w same fits
    obtain ⟨inner, own, entries, rfl, flat, span, named, content⟩ :=
      decodeFlattened_of_rewritten access "struct Stmt" [omittable "expression"]
        (variant_stmtKind .return) rfl (by decide) same fits
    simp only [Stmt.decode, flat, span, named, ok_bind]
    rw [content.optional rfl Expr.encode_ne_null (fun e _ => Expr.reads e .collected inner)]
    rfl
  | .throw s value, access => by
    intro room w same fits
    obtain ⟨inner, own, entries, rfl, flat, span, named, content⟩ :=
      decodeFlattened_of_rewritten access "struct Stmt" [field "expression"]
        (variant_stmtKind .throw) rfl (by decide) same fits
    simp only [Stmt.decode, flat, span, named, ok_bind]
    rw [content.requiredPart rfl (Expr.encode_ne_null value)
        (Expr.reads value .collected inner)]
    rfl
  | .expression s value, access => by
    intro room w same fits
    obtain ⟨inner, own, entries, rfl, flat, span, named, content⟩ :=
      decodeFlattened_of_rewritten access "struct Stmt" [field "expression"]
        (variant_stmtKind .expression) rfl (by decide) same fits
    simp only [Stmt.decode, flat, span, named, ok_bind]
    rw [content.requiredPart rfl (Expr.encode_ne_null value)
        (Expr.reads value .collected inner)]
    rfl
  | .variable s declarators, access => by
    intro room w same fits
    obtain ⟨inner, own, entries, rfl, flat, span, named, content⟩ :=
      decodeFlattened_of_rewritten access "struct Stmt" [field "declarations"]
        (variant_stmtKind .variable) rfl (by decide) same fits
    have elements := readsAll_map (Declarator.reads .collected) declarators
    simp only [Stmt.decode, flat, span, named, ok_bind]
    rw [content.required rfl (elements.decodeList inner)]
    rfl
  | .while s condition body, access => by
    intro room w same fits
    obtain ⟨inner, own, entries, rfl, flat, span, named, test, content⟩ :=
      decodeFlattened_of_rewritten access "struct Stmt" [field "condition", field "body"]
        (variant_stmtKind .while) rfl (by decide) same fits
    simp only [Stmt.decode, flat, span, named, ok_bind]
    rw [test.requiredPart rfl (Expr.encode_ne_null condition)
        (Expr.reads condition .collected inner),
      ok_bind, content.requiredPart rfl (Stmt.encode_ne_null body)
        (Stmt.reads body .collected inner)]
    rfl
  | .forOf s initializer items body, access => by
    intro room w same fits
    obtain ⟨inner, own, entries, rfl, flat, span, named, clause, values, content⟩ :=
      decodeFlattened_of_rewritten access "struct Stmt"
        [field "initializer", field "expression", field "body"]
        (variant_stmtKind .forOf) rfl (by decide) same fits
    simp only [Stmt.decode, flat, span, named, ok_bind]
    rw [clause.requiredPart rfl (LoopInitializer.encode_ne_null initializer)
        (LoopInitializer.reads .collected initializer inner),
      ok_bind, values.requiredPart rfl (Expr.encode_ne_null items)
        (Expr.reads items .collected inner),
      ok_bind, content.requiredPart rfl (Stmt.encode_ne_null body)
        (Stmt.reads body .collected inner)]
    rfl
  | .for s initializer condition step body, access => by
    intro room w same fits
    obtain ⟨inner, own, entries, rfl, flat, span, named, clause, test, next, content⟩ :=
      decodeFlattened_of_rewritten access "struct Stmt"
        [omittable "initializer", omittable "condition", omittable "incrementor", field "body"]
        (variant_stmtKind .for) rfl (by decide) same fits
    simp only [Stmt.decode, flat, span, named, ok_bind]
    rw [clause.optional rfl LoopInitializer.encode_ne_null
        (fun a _ => LoopInitializer.reads .collected a inner),
      ok_bind, test.optional rfl Expr.encode_ne_null (fun e _ => Expr.reads e .collected inner),
      ok_bind, next.optional rfl Expr.encode_ne_null (fun e _ => Expr.reads e .collected inner),
      ok_bind, content.requiredPart rfl (Stmt.encode_ne_null body)
        (Stmt.reads body .collected inner)]
    rfl
  | .block s statements, access => by
    intro room w same fits
    obtain ⟨inner, own, entries, rfl, flat, span, named, content⟩ :=
      decodeFlattened_of_rewritten access "struct Stmt" [omittable "statements"]
        (variant_stmtKind .block) rfl (by decide) same fits
    simp only [Stmt.decode, flat, span, named, ok_bind, Stmt.decodeAll_eq]
    rw [content.list rfl (Stmt.readsAll .collected statements)]
    rfl
  | .bare s form, access => by
    intro room w same fits
    obtain ⟨inner, own, entries, rfl, flat, span, -, -⟩ :=
      decodeFlattened_of_rewritten access "struct Stmt" [] (variant_stmtKind (.bare form)) rfl
        (by decide) same fits
    simp only [Stmt.decode, flat, span, ok_bind]
    rfl
  | .other s construct, access => by
    intro room w same fits
    obtain ⟨inner, own, entries, rfl, flat, span, named, content⟩ :=
      decodeFlattened_of_rewritten access "struct Stmt" [field "construct"]
        (variant_stmtKind .other) rfl (by decide) same fits
    simp only [Stmt.decode, flat, span, named, ok_bind]
    rw [content.required rfl (reads_string construct inner)]
    rfl

theorem Stmt.readsElse : ∀ (branch : Option Stmt), ∀ s ∈ branch,
    Reads (Stmt.decode .collected) s.encode s
  | none, _, mem => nomatch mem
  | some s, _, rfl => Stmt.reads s .collected

theorem Stmt.readsAll (access : Access) : ∀ ss : List Stmt,
    ReadsAll (Stmt.decode access) (Stmt.encodeAll ss) ss
  | [] => readsAll_nil
  | s :: ss => ReadsAll.cons (Stmt.reads s access) (Stmt.readsAll access ss)

end

theorem Block.encode_ne_null (b : Block) : Block.encode b ≠ .null := Json.noConfusion

theorem Block.reads (access : Access) (b : Block) :
    Reads (Block.decode access) (Block.encode b) b := by
  apply reads_record rfl (by decide)
  intro room entries carries
  rw [Stmt.decodeAll_eq]
  exact Carried.list carries rfl (Stmt.readsAll access b)

theorem reads_visibility (access : Access) (v : Visibility) :
    Reads (decodeName access) (.string v.name) v := by
  intro room w same _
  cases same
  cases v <;> rfl

/-- A truth value that may be left out where it is false. -/
theorem Carried.flag {room : Nat} {entries : Fields} {key : String} {b : Bool}
    (carried : Carried room entries key (.bool b))
    (omittable : defaultOf? key = some (.bool false)) :
    entries.withDefault key false decodeBool = .ok b := by
  apply carried.withDefault _ (reads_bool b room)
  intro omitted
  rw [omittable, Option.some.injEq, Json.bool.injEq] at omitted
  exact omitted

theorem Modifiers.reads (access : Access) (m : Modifiers) :
    Reads (Modifiers.decode access) m.encode m := by
  apply reads_record rfl (by decide)
  intro room entries carries
  obtain ⟨visibility, isStatic, isReadonly⟩ := carries
  rw [visibility.optional rfl (fun _ => Json.noConfusion)
      (fun v _ => reads_visibility access v room),
    ok_bind, isStatic.flag rfl, ok_bind, isReadonly.flag rfl]
  rfl

theorem Modifiers.eq_none_of_encode {m : Modifiers} (same : Modifiers.none.encode = m.encode) :
    .none = m := by
  obtain ⟨visibility, isStatic, isReadonly⟩ := m
  simp only [Modifiers.encode, Modifiers.none, Json.object.injEq, List.cons.injEq, Prod.mk.injEq,
    Json.bool.injEq] at same
  obtain ⟨⟨-, absent⟩, ⟨-, rfl⟩, ⟨-, rfl⟩, -⟩ := same
  cases visibility with
  | none => rfl
  | some v => exact Json.noConfusion absent

theorem Carried.modifiers {room : Nat} {entries : Fields} {m : Modifiers}
    (carried : Carried room entries "modifiers" m.encode) (access : Access) :
    entries.withDefault "modifiers" .none (Modifiers.decode access room) = .ok m := by
  apply carried.withDefault _ (Modifiers.reads access m room)
  intro omitted
  exact Modifiers.eq_none_of_encode (Option.some.inj omitted)

theorem Parameter.reads (access : Access) (p : Parameter) :
    Reads (Parameter.decode access) p.encode p := by
  apply reads_record rfl (by decide)
  intro room entries carries
  obtain ⟨name, type, modifiers, span⟩ := carries
  rw [name.required rfl (Ident.reads access p.name room), ok_bind,
    type.optional rfl ResolvedType.encode_ne_null (fun t _ => ResolvedType.reads access t room),
    ok_bind, modifiers.modifiers access, ok_bind, span.span access]
  rfl

theorem Property.ofFields_eq {room : Nat} {entries : Fields} {p : Property}
    (carries : Carries room p.fields entries) : Property.ofFields room entries = .ok p := by
  obtain ⟨name, type, modifiers, initializer, span⟩ := carries
  rw [Property.ofFields, name.required rfl (Ident.reads .collected p.name room), ok_bind,
    type.optional rfl ResolvedType.encode_ne_null (fun t _ => ResolvedType.reads .collected t room),
    ok_bind, modifiers.modifiers .collected, ok_bind,
    initializer.optional rfl Expr.encode_ne_null (fun e _ => Expr.reads e .collected room), ok_bind,
    span.span .collected]
  rfl

theorem Method.ofFields_eq {room : Nat} {entries : Fields} {m : Method}
    (carries : Carries room m.fields entries) : Method.ofFields room entries = .ok m := by
  obtain ⟨name, parameters, type, modifiers, body, span⟩ := carries
  rw [Method.ofFields, name.required rfl (Ident.reads .collected m.name room), ok_bind,
    parameters.list rfl (readsAll_map (Parameter.reads .collected) m.parameters), ok_bind,
    type.optional rfl ResolvedType.encode_ne_null (fun t _ => ResolvedType.reads .collected t room),
    ok_bind, modifiers.modifiers .collected, ok_bind,
    body.optional rfl Block.encode_ne_null (fun b _ => Block.reads .collected b room), ok_bind,
    span.span .collected]
  rfl

theorem Constructor.ofFields_eq {room : Nat} {entries : Fields} {k : Constructor}
    (carries : Carries room k.fields entries) : Constructor.ofFields room entries = .ok k := by
  obtain ⟨parameters, body, span⟩ := carries
  rw [Constructor.ofFields,
    parameters.list rfl (readsAll_map (Parameter.reads .collected) k.parameters), ok_bind,
    body.optional rfl Block.encode_ne_null (fun b _ => Block.reads .collected b room), ok_bind,
    span.span .collected]
  rfl

theorem decodeOther_eq {owner : String} {room : Nat} {entries : Fields} {construct : String}
    {span : Span} (named : named [field "construct", omittable "span"] entries = .ok entries)
    (carries : Carries room (otherFields construct span) entries) :
    decodeOther owner room (.entries entries) = .ok (construct, span) := by
  obtain ⟨name, own⟩ := carries
  rw [decodeOther, Content.fields, named, ok_bind, name.required rfl (reads_string construct room),
    ok_bind, own.span .collected]
  rfl

theorem ClassMember.reads (access : Access) (m : ClassMember) :
    Reads (ClassMember.decode access) m.encode m := by
  cases m with
  | property p =>
    apply reads_declaration ClassMemberKind.property Property.known rfl rfl (by decide)
    intro room entries named carries
    simp only [Content.fields, named, ok_bind, Property.ofFields_eq carries]
    rfl
  | method m =>
    apply reads_declaration ClassMemberKind.method Method.known rfl rfl (by decide)
    intro room entries named carries
    simp only [Content.fields, named, ok_bind, Method.ofFields_eq carries]
    rfl
  | constructor k =>
    apply reads_declaration ClassMemberKind.constructor Constructor.known rfl rfl (by decide)
    intro room entries named carries
    simp only [Content.fields, named, ok_bind, Constructor.ofFields_eq carries]
    rfl
  | other construct span =>
    apply reads_declaration ClassMemberKind.other [field "construct", omittable "span"] rfl rfl
      (by decide)
    intro room entries named carries
    simp only [decodeOther_eq named carries, ok_bind]
    rfl

theorem Class.ofFields_eq {room : Nat} {entries : Fields} {c : Class}
    (carries : Carries room c.fields entries) : Class.ofFields room entries = .ok c := by
  obtain ⟨name, members, span⟩ := carries
  rw [Class.ofFields, name.required rfl (Ident.reads .collected c.name room), ok_bind,
    members.list rfl (readsAll_map (ClassMember.reads .collected) c.members), ok_bind,
    span.span .collected]
  rfl

theorem EnumMember.reads (access : Access) (m : EnumMember) :
    Reads (EnumMember.decode access) m.encode m := by
  apply reads_record rfl (by decide)
  intro room entries carries
  obtain ⟨name, initializer⟩ := carries
  rw [name.required rfl (Ident.reads access m.name room), ok_bind,
    initializer.optional rfl Expr.encode_ne_null (fun e _ => Expr.reads e access room)]
  rfl

theorem Enum.ofFields_eq {room : Nat} {entries : Fields} {e : Enum}
    (carries : Carries room e.fields entries) : Enum.ofFields room entries = .ok e := by
  obtain ⟨name, members, span⟩ := carries
  rw [Enum.ofFields, name.required rfl (Ident.reads .collected e.name room), ok_bind,
    members.list rfl (readsAll_map (EnumMember.reads .collected) e.members), ok_bind,
    span.span .collected]
  rfl

theorem Item.reads (access : Access) (i : Item) : Reads (Item.decode access) i.encode i := by
  cases i with
  | enumDecl e =>
    apply reads_declaration ItemKind.enumDecl Enum.known rfl rfl (by decide)
    intro room entries named carries
    simp only [Content.fields, named, ok_bind, Enum.ofFields_eq carries]
    rfl
  | classDecl c =>
    apply reads_declaration ItemKind.classDecl Class.known rfl rfl (by decide)
    intro room entries named carries
    simp only [Content.fields, named, ok_bind, Class.ofFields_eq carries]
    rfl
  | other construct span =>
    apply reads_declaration ItemKind.other [field "construct", omittable "span"] rfl rfl
      (by decide)
    intro room entries named carries
    simp only [decodeOther_eq named carries, ok_bind]
    rfl

theorem File.reads (access : Access) (f : File) : Reads (File.decode access) f.encode f := by
  apply reads_record rfl (by decide)
  intro room entries carries
  obtain ⟨id, path, text, items⟩ := carries
  have ids : entries.withDefault "id" 0 decodeWord32 = .ok f.id := by
    apply id.withDefault _ (reads_word32 f.id room)
    intro omitted
    have same : natural 0 = natural f.id.toNat := Option.some.inj omitted
    simp only [natural, Json.number.injEq, Number.integer.injEq, Int.natCast_inj] at same
    exact UInt32.toNat_inj.mp same
  have paths : entries.withDefault "path" "" decodeString = .ok f.path := by
    apply path.withDefault _ (reads_string f.path room)
    intro omitted
    exact Json.string.inj (Option.some.inj omitted)
  rw [ids, ok_bind, paths, ok_bind, text.required rfl (reads_string f.text room), ok_bind,
    items.list rfl (readsAll_map (Item.reads access) f.items)]
  rfl

/-- Decoding gives back a file from every text of a document that its encoding was rewritten to, by
reordering entries, leaving out defaults and putting in entries that nobody knows, if the document
nests at most as many containers as the limit allows and all of it has a value. The encoding itself,
in either layout, is such a text for every file that nests within the limit. -/
theorem decodeText_rewritten (f : File) :
    (∀ text w, Json.read text = .ok w → Rewritten f.encode w → w.depth ≤ nestingLimit →
      w.hasValue → decodeText File.decode text = .ok f)
    ∧ (f.encode.depth ≤ nestingLimit →
      decodeText File.decode (compact f.encode) = .ok f
        ∧ decodeText File.decode (indented f.encode) = .ok f) := by
  have decoded : ∀ text w, Json.read text = .ok w → Rewritten f.encode w →
      w.depth ≤ nestingLimit → w.hasValue → decodeText File.decode text = .ok f := by
    intro text w read same shallow valued
    rw [decodeText, read]
    exact File.reads .streamed f nestingLimit w same (fits_of_depth_le valued shallow)
  refine ⟨decoded, fun shallow => ?_⟩
  have exactly := f.isExact_encode
  have valued := hasValue_of_isExact exactly
  have same := rewritten_refl f.encode valued
  exact ⟨decoded _ _ (read_compact_of_isExact exactly) same shallow valued,
    decoded _ _ (read_indented_of_isExact exactly) same shallow valued⟩

/-- A file all of whose fields but two have their defaults. -/
def sparseFile : File := ⟨0, "", "x", [.enumDecl ⟨⟨"E\n", .zero⟩, [], .zero⟩]⟩

/-- Its document without them, in another order and with a key that nobody knows. -/
def sparseDocument : Json :=
  .object [("items", .array [.object [("note", .array [.null]), ("note", .bool true),
      ("name", .object [("text", .string "E\n")]), ("kind", .string "enum")]]),
    ("text", .string "x")]

theorem rewritten_sparseDocument : Rewritten sparseFile.encode sparseDocument := by
  have name : Rewritten (Ident.encode ⟨"E\n", .zero⟩) (.object [("text", .string "E\n")]) :=
    .object (.keep (.string _) (.drop rfl .nil)) (List.forall_mem_nil _) (fun _ => rfl) (.refl _)
  have item : Rewritten (Item.encode (.enumDecl ⟨⟨"E\n", .zero⟩, [], .zero⟩))
      (.object [("note", .array [.null]), ("note", .bool true),
        ("name", .object [("text", .string "E\n")]), ("kind", .string "enum")]) := by
    apply @Rewritten.object _ _ [("note", .bool true), ("note", .array [.null])] _
      (.keep (.string _) (.keep name (.drop rfl (.drop rfl .nil))))
    · decide
    · intro closed
      exact absurd closed (by decide)
    · exact List.reverse_perm [_, _, _, _]
  apply Rewritten.object (.drop rfl (.drop rfl (.keep (.string _)
    (.keep (.array (.cons item .nil)) .nil))))
  · exact List.forall_mem_nil _
  · intro _
    rfl
  · exact .swap _ _ _

theorem decodeText_sparseDocument :
    Rewritten sparseFile.encode sparseDocument
      ∧ decodeText File.decode (compact sparseDocument) = .ok sparseFile
      ∧ sparseFile.encode.depth ≤ nestingLimit
      ∧ decodeText File.decode (compact sparseFile.encode) = .ok sparseFile := by
  obtain ⟨rewritten, itself⟩ := decodeText_rewritten sparseFile
  have shallow : sparseFile.encode.depth ≤ nestingLimit := by decide
  have read : Json.read (compact sparseDocument) = .ok sparseDocument :=
    read_compact_of_isExact (by decide)
  exact ⟨rewritten_sparseDocument,
    rewritten _ _ read rewritten_sparseDocument (by decide) (by decide), shallow,
    (itself shallow).1⟩

end NeutralSchema.Tree
