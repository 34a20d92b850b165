import NeutralSchema.Proofs.Tree.Damage
import NeutralSchema.Proofs.Tree.Decoding

/-!
# Decoding refuses damage

Nothing that a document of a tree has to have is made up where it is missing. Main statement:
`decodeText_damaged`.
-/
namespace NeutralSchema.Tree

open Json

theorem Ident.strict (i : Ident) : Strict (Ident.decode .collected) i.encode i := by
  apply strict_record (Ident.reads .collected i) rfl (by decide) rfl
  intro room entries hurts
  refine hurts.required (strict_string i.text) fun hurts => ?_
  exact hurts.withDefault rfl (strict_span i.span) nofun

theorem TypeName.strict (t : TypeName) : Strict (TypeName.decode .collected) t.encode t := by
  refine ⟨TypeName.reads .collected t, fun _ => ⟨_, rfl⟩, fun room w damaged fits => ?_⟩
  cases t with
  | intrinsic name =>
    exact newtype_refused (show variant "intrinsic" = .ok TypeNameKind.intrinsic from rfl)
      (strict_string name) damaged fits fun inner content _ refused => refused.bind _
  | symbol name =>
    exact newtype_refused (show variant "symbol" = .ok TypeNameKind.symbol from rfl)
      (strict_string name) damaged fits fun inner content _ refused => refused.bind _

mutual

theorem ResolvedType.strict : ∀ t : ResolvedType,
    Strict (ResolvedType.decode .collected) t.encode t
  | .mk name arguments => by
    have reads := ResolvedType.reads .collected (.mk name arguments)
    have elements := ResolvedType.strictAll arguments
    rw [ResolvedType.decode_eq, ResolvedType.encode] at reads ⊢
    apply strict_record reads rfl (by decide) rfl
    intro room entries hurts
    refine hurts.required (TypeName.strict name) fun hurts => ?_
    exact hurts.withDefault rfl (strict_list elements) nofun

theorem ResolvedType.strictAll : ∀ ts : List ResolvedType,
    (ResolvedType.encodeAll ts).Forall₂ (Strict (ResolvedType.decode .collected)) ts
  | [] => .nil
  | t :: ts => .cons (ResolvedType.strict t) (ResolvedType.strictAll ts)

end

theorem Expr.strict_node {e : Expr} {span : Span} {name : String} {kind : ExprKind}
    {fields : Fields} (encoded : e.encode = node span name fields) (known : List Field)
    (tag : variant name = .ok kind) (names : known.map (·.name) = fields.map Prod.fst)
    (nodup : ("span" :: "kind" :: known.map (·.name)).Nodup)
    (built : ∀ room w own entries,
      decodeFlattened .collected "struct Expr" "span" "kind" room w = .ok (own, kind, entries) →
      decodeSpan .collected room own = .ok span → named known entries = .ok entries →
      Hurts (some name) room entries fields → Refused (Expr.decode .collected (room + 1) w)) :
    Strict (Expr.decode .collected) e.encode e := by
  have reads := Expr.reads e .collected
  rw [encoded] at reads ⊢
  refine Tree.strict_node reads (fun room => ?_) (fun room w refused => ?_) known tag names nodup
    built
  · cases room <;> exact ⟨_, rfl⟩
  · rw [Expr.decode]
    exact refused_of_header (fun own kind entries stops => stops.bind _) refused

mutual

theorem Expr.strict : ∀ e : Expr, Strict (Expr.decode .collected) e.encode e
  | .call s callee arguments => by
    refine Expr.strict_node rfl [field "callee", omittable "arguments"]
      (variant_exprKind .call) rfl (by decide) fun room w own entries flat span named hurts => ?_
    simp only [Expr.decode, flat, span, named, ok_bind, Expr.decodeAll_eq]
    refine hurts.required (Expr.strict callee) fun hurts => ?_
    exact hurts.withDefault rfl (strict_list (Expr.strictAll arguments)) nofun
  | .binary s left operator right => by
    refine Expr.strict_node rfl [field "left", field "operator", field "right"]
      (variant_exprKind .binary) rfl (by decide) fun room w own entries flat span named hurts => ?_
    simp only [Expr.decode, flat, span, named, ok_bind]
    refine hurts.required (Expr.strict left) fun hurts => ?_
    refine hurts.required (strict_string operator) fun hurts => ?_
    exact hurts.required (Expr.strict right) nofun
  | .member s target name => by
    refine Expr.strict_node rfl [field "object", field "name"]
      (variant_exprKind .member) rfl (by decide) fun room w own entries flat span named hurts => ?_
    simp only [Expr.decode, flat, span, named, ok_bind]
    refine hurts.required (Expr.strict target) fun hurts => ?_
    exact hurts.required (Ident.strict name) nofun
  | .element s target index => by
    refine Expr.strict_node rfl [field "object", field "index"]
      (variant_exprKind .element) rfl (by decide) fun room w own entries flat span named hurts => ?_
    simp only [Expr.decode, flat, span, named, ok_bind]
    refine hurts.required (Expr.strict target) fun hurts => ?_
    exact hurts.required (Expr.strict index) nofun
  | .identifier s name => by
    refine Expr.strict_node rfl [field "name"] (variant_exprKind .identifier) rfl (by decide)
      fun room w own entries flat span named hurts => ?_
    simp only [Expr.decode, flat, span, named, ok_bind]
    exact hurts.required (strict_string name) nofun
  | .new s type arguments => by
    refine Expr.strict_node rfl [omittable "type", omittable "arguments"]
      (variant_exprKind .new) rfl (by decide) fun room w own entries flat span named hurts => ?_
    simp only [Expr.decode, flat, span, named, ok_bind, Expr.decodeAll_eq]
    refine hurts.optional rfl (fun t _ => ResolvedType.strict t) fun hurts => ?_
    exact hurts.withDefault rfl (strict_list (Expr.strictAll arguments)) nofun
  | .conditional s condition whenTrue whenFalse => by
    refine Expr.strict_node rfl [field "condition", field "when_true", field "when_false"]
      (variant_exprKind .conditional) rfl (by decide)
      fun room w own entries flat span named hurts => ?_
    simp only [Expr.decode, flat, span, named, ok_bind]
    refine hurts.required (Expr.strict condition) fun hurts => ?_
    refine hurts.required (Expr.strict whenTrue) fun hurts => ?_
    exact hurts.required (Expr.strict whenFalse) nofun
  | .literal s (.string value) => by
    refine Expr.strict_node rfl [field "value"] (variant_exprKind .stringLiteral) rfl (by decide)
      fun room w own entries flat span named hurts => ?_
    simp only [Expr.decode, flat, span, named, ok_bind]
    exact hurts.required (strict_string value) nofun
  | .literal s (.numeric text) => by
    refine Expr.strict_node rfl [field "text"] (variant_exprKind .numericLiteral) rfl (by decide)
      fun room w own entries flat span named hurts => ?_
    simp only [Expr.decode, flat, span, named, ok_bind]
    exact hurts.required (strict_string text) nofun
  | .literal s (.boolean value) => by
    refine Expr.strict_node rfl [field "value"] (variant_exprKind .booleanLiteral) rfl (by decide)
      fun room w own entries flat span named hurts => ?_
    simp only [Expr.decode, flat, span, named, ok_bind]
    exact hurts.required (strict_bool value) nofun
  | .literal s .null =>
    Expr.strict_node rfl [] (variant_exprKind .nullLiteral) rfl (by decide) nofun
  | .parenthesized s inside => by
    refine Expr.strict_node rfl [field "expression"]
      (variant_exprKind .parenthesized) rfl (by decide)
      fun room w own entries flat span named hurts => ?_
    simp only [Expr.decode, flat, span, named, ok_bind]
    exact hurts.required (Expr.strict inside) nofun
  | .unary s side operator operand => by
    refine Expr.strict_node rfl [field "operator", field "operand"]
      (variant_exprKind (.unary side)) rfl (by decide)
      fun room w own entries flat span named hurts => ?_
    simp only [Expr.decode, flat, span, named, ok_bind]
    refine hurts.required (strict_string operator) fun hurts => ?_
    exact hurts.required (Expr.strict operand) nofun
  | .array s elements => by
    refine Expr.strict_node rfl [omittable "elements"] (variant_exprKind .array) rfl (by decide)
      fun room w own entries flat span named hurts => ?_
    simp only [Expr.decode, flat, span, named, ok_bind, Expr.decodeAll_eq]
    exact hurts.withDefault rfl (strict_list (Expr.strictAll elements)) nofun
  | .self s word => Expr.strict_node rfl [] (variant_exprKind (.self word)) rfl (by decide) nofun
  | .wrapped s form inside => by
    refine Expr.strict_node rfl [field "expression"]
      (variant_exprKind (.wrapped form)) rfl (by decide)
      fun room w own entries flat span named hurts => ?_
    simp only [Expr.decode, flat, span, named, ok_bind]
    exact hurts.required (Expr.strict inside) nofun
  | .bare s form => Expr.strict_node rfl [] (variant_exprKind (.bare form)) rfl (by decide) nofun
  | .other s construct => by
    refine Expr.strict_node rfl [field "construct"] (variant_exprKind .other) rfl (by decide)
      fun room w own entries flat span named hurts => ?_
    simp only [Expr.decode, flat, span, named, ok_bind]
    exact hurts.required (strict_string construct) nofun

theorem Expr.strictAll : ∀ es : List Expr,
    (Expr.encodeAll es).Forall₂ (Strict (Expr.decode .collected)) es
  | [] => .nil
  | e :: es => .cons (Expr.strict e) (Expr.strictAll es)

end

theorem Declarator.strict (d : Declarator) : Strict (Declarator.decode .collected) d.encode d := by
  apply strict_record (Declarator.reads .collected d) rfl (by decide) rfl
  intro room entries hurts
  refine hurts.required (Ident.strict d.name) fun hurts => ?_
  refine hurts.optional rfl (fun t _ => ResolvedType.strict t) fun hurts => ?_
  refine hurts.optional rfl (fun e _ => Expr.strict e) fun hurts => ?_
  exact hurts.withDefault rfl (strict_span d.span) nofun

theorem LoopInitializer.strict (l : LoopInitializer) :
    Strict (LoopInitializer.decode .collected) l.encode l := by
  refine ⟨LoopInitializer.reads .collected l, fun _ => ⟨_, rfl⟩, fun room w damaged fits => ?_⟩
  cases l with
  | declarators ds =>
    apply newtype_refused
      (show variant "declarations" = .ok LoopInitializerKind.declarators from rfl)
      (strict_map Declarator.strict ds) damaged fits
    rintro inner content rfl refused
    exact refused.bind _
  | expression e =>
    apply newtype_refused (show variant "expression" = .ok LoopInitializerKind.expression from rfl)
      (Expr.strict e) damaged fits
    rintro inner content rfl refused
    exact refused.bind _

theorem Stmt.strict_node {s : Stmt} {span : Span} {name : String} {kind : StmtKind}
    {fields : Fields} (encoded : s.encode = node span name fields) (known : List Field)
    (tag : variant name = .ok kind) (names : known.map (·.name) = fields.map Prod.fst)
    (nodup : ("span" :: "kind" :: known.map (·.name)).Nodup)
    (built : ∀ room w own entries,
      decodeFlattened .collected "struct Stmt" "span" "kind" room w = .ok (own, kind, entries) →
      decodeSpan .collected room own = .ok span → named known entries = .ok entries →
      Hurts (some name) room entries fields → Refused (Stmt.decode .collected (room + 1) w)) :
    Strict (Stmt.decode .collected) s.encode s := by
  have reads := Stmt.reads s .collected
  rw [encoded] at reads ⊢
  refine Tree.strict_node reads (fun room => ?_) (fun room w refused => ?_) known tag names nodup
    built
  · cases room <;> exact ⟨_, rfl⟩
  · rw [Stmt.decode]
    exact refused_of_header (fun own kind entries stops => stops.bind _) refused

mutual

theorem Stmt.strict : ∀ s : Stmt, Strict (Stmt.decode .collected) s.encode s
  | .if s condition thenBranch elseBranch => by
    refine Stmt.strict_node rfl [field "condition", field "then_branch", omittable "else_branch"]
      (variant_stmtKind .if) rfl (by decide) fun room w own entries flat span named hurts => ?_
    simp only [Stmt.decode, flat, span, named, ok_bind]
    rw [Stmt.encodeOption_eq] at hurts
    refine hurts.required (Expr.strict condition) fun hurts => ?_
    refine hurts.required (Stmt.strict thenBranch) fun hurts => ?_
    exact hurts.optional rfl (Stmt.strictElse elseBranch) nofun
  | .return s value => by
    refine Stmt.strict_node rfl [omittable "expression"] (variant_stmtKind .return) rfl (by decide)
      fun room w own entries flat span named hurts => ?_
    simp only [Stmt.decode, flat, span, named, ok_bind]
    exact hurts.optional rfl (fun e _ => Expr.strict e) nofun
  | .throw s value => by
    refine Stmt.strict_node rfl [field "expression"] (variant_stmtKind .throw) rfl (by decide)
      fun room w own entries flat span named hurts => ?_
    simp only [Stmt.decode, flat, span, named, ok_bind]
    exact hurts.required (Expr.strict value) nofun
  | .expression s value => by
    refine Stmt.strict_node rfl [field "expression"] (variant_stmtKind .expression) rfl (by decide)
      fun room w own entries flat span named hurts => ?_
    simp only [Stmt.decode, flat, span, named, ok_bind]
    exact hurts.required (Expr.strict value) nofun
  | .variable s declarators => by
    refine Stmt.strict_node rfl [field "declarations"] (variant_stmtKind .variable) rfl (by decide)
      fun room w own entries flat span named hurts => ?_
    simp only [Stmt.decode, flat, span, named, ok_bind]
    exact hurts.required (strict_map Declarator.strict declarators) nofun
  | .while s condition body => by
    refine Stmt.strict_node rfl [field "condition", field "body"]
      (variant_stmtKind .while) rfl (by decide) fun room w own entries flat span named hurts => ?_
    simp only [Stmt.decode, flat, span, named, ok_bind]
    refine hurts.required (Expr.strict condition) fun hurts => ?_
    exact hurts.required (Stmt.strict body) nofun
  | .forOf s initializer items body => by
    refine Stmt.strict_node rfl [field "initializer", field "expression", field "body"]
      (variant_stmtKind .forOf) rfl (by decide) fun room w own entries flat span named hurts => ?_
    simp only [Stmt.decode, flat, span, named, ok_bind]
    refine hurts.required (LoopInitializer.strict initializer) fun hurts => ?_
    refine hurts.required (Expr.strict items) fun hurts => ?_
    exact hurts.required (Stmt.strict body) nofun
  | .for s initializer condition step body => by
    refine Stmt.strict_node rfl
      [omittable "initializer", omittable "condition", omittable "incrementor", field "body"]
      (variant_stmtKind .for) rfl (by decide) fun room w own entries flat span named hurts => ?_
    simp only [Stmt.decode, flat, span, named, ok_bind]
    refine hurts.optional rfl (fun l _ => LoopInitializer.strict l) fun hurts => ?_
    refine hurts.optional rfl (fun e _ => Expr.strict e) fun hurts => ?_
    refine hurts.optional rfl (fun e _ => Expr.strict e) fun hurts => ?_
    exact hurts.required (Stmt.strict body) nofun
  | .block s statements => by
    refine Stmt.strict_node rfl [omittable "statements"] (variant_stmtKind .block) rfl (by decide)
      fun room w own entries flat span named hurts => ?_
    simp only [Stmt.decode, flat, span, named, ok_bind, Stmt.decodeAll_eq]
    exact hurts.withDefault rfl (strict_list (Stmt.strictAll statements)) nofun
  | .bare s form => Stmt.strict_node rfl [] (variant_stmtKind (.bare form)) rfl (by decide) nofun
  | .other s construct => by
    refine Stmt.strict_node rfl [field "construct"] (variant_stmtKind .other) rfl (by decide)
      fun room w own entries flat span named hurts => ?_
    simp only [Stmt.decode, flat, span, named, ok_bind]
    exact hurts.required (strict_string construct) nofun

theorem Stmt.strictElse : ∀ (branch : Option Stmt), ∀ s ∈ branch,
    Strict (Stmt.decode .collected) s.encode s
  | none, _, mem => nomatch mem
  | some s, _, rfl => Stmt.strict s

theorem Stmt.strictAll : ∀ ss : List Stmt,
    (Stmt.encodeAll ss).Forall₂ (Strict (Stmt.decode .collected)) ss
  | [] => .nil
  | s :: ss => .cons (Stmt.strict s) (Stmt.strictAll ss)

end

theorem Block.strict (b : Block) : Strict (Block.decode .collected) (Block.encode b) b := by
  apply strict_record (Block.reads .collected b) rfl (by decide) rfl
  intro room entries hurts
  rw [Stmt.decodeAll_eq, ← bind_pure (entries.withDefault "statements" [] _)]
  exact hurts.withDefault rfl (strict_list (Stmt.strictAll b)) nofun

theorem strict_visibility (v : Visibility) :
    Strict (decodeName .collected) (.string v.name) v :=
  ⟨reads_visibility .collected v, fun _ => ⟨_, rfl⟩, nofun⟩

theorem Modifiers.strict (m : Modifiers) : Strict (Modifiers.decode .collected) m.encode m := by
  apply strict_record (Modifiers.reads .collected m) rfl (by decide) rfl
  intro room entries hurts
  refine hurts.optional rfl (fun v _ => strict_visibility v) fun hurts => ?_
  refine hurts.withDefault rfl (strict_bool m.isStatic) fun hurts => ?_
  exact hurts.withDefault rfl (strict_bool m.isReadonly) nofun

theorem Parameter.strict (p : Parameter) : Strict (Parameter.decode .collected) p.encode p := by
  apply strict_record (Parameter.reads .collected p) rfl (by decide) rfl
  intro room entries hurts
  refine hurts.required (Ident.strict p.name) fun hurts => ?_
  refine hurts.optional rfl (fun t _ => ResolvedType.strict t) fun hurts => ?_
  refine hurts.withDefault rfl (Modifiers.strict p.modifiers) fun hurts => ?_
  exact hurts.withDefault rfl (strict_span p.span) nofun

theorem Property.ofFields_refused {room : Nat} {entries : Fields} {p : Property}
    (hurts : Hurts (some "property") room entries p.fields) :
    Refused (Property.ofFields room entries) := by
  refine hurts.required (Ident.strict p.name) fun hurts => ?_
  refine hurts.optional rfl (fun t _ => ResolvedType.strict t) fun hurts => ?_
  refine hurts.withDefault rfl (Modifiers.strict p.modifiers) fun hurts => ?_
  refine hurts.optional rfl (fun e _ => Expr.strict e) fun hurts => ?_
  exact hurts.withDefault rfl (strict_span p.span) nofun

theorem Method.ofFields_refused {room : Nat} {entries : Fields} {m : Method}
    (hurts : Hurts (some "method") room entries m.fields) :
    Refused (Method.ofFields room entries) := by
  refine hurts.required (Ident.strict m.name) fun hurts => ?_
  refine hurts.withDefault rfl (strict_map Parameter.strict m.parameters) fun hurts => ?_
  refine hurts.optional rfl (fun t _ => ResolvedType.strict t) fun hurts => ?_
  refine hurts.withDefault rfl (Modifiers.strict m.modifiers) fun hurts => ?_
  refine hurts.optional rfl (fun b _ => Block.strict b) fun hurts => ?_
  exact hurts.withDefault rfl (strict_span m.span) nofun

theorem Constructor.ofFields_refused {room : Nat} {entries : Fields} {k : Constructor}
    (hurts : Hurts (some "constructor") room entries k.fields) :
    Refused (Constructor.ofFields room entries) := by
  refine hurts.withDefault rfl (strict_map Parameter.strict k.parameters) fun hurts => ?_
  refine hurts.optional rfl (fun b _ => Block.strict b) fun hurts => ?_
  exact hurts.withDefault rfl (strict_span k.span) nofun

theorem decodeOther_refused {owner : String} {room : Nat} {entries : Fields} {construct : String}
    {span : Span} (named : named [field "construct", omittable "span"] entries = .ok entries)
    (hurts : Hurts (some "other") room entries (otherFields construct span)) :
    Refused (decodeOther owner room (.entries entries)) := by
  rw [decodeOther, Content.fields, named, ok_bind]
  refine hurts.required (strict_string construct) fun hurts => ?_
  refine hurts.withDefault rfl (strict_span span) fun hurts => ?_
  cases hurts

theorem ClassMember.strict (m : ClassMember) :
    Strict (ClassMember.decode .collected) m.encode m := by
  have reads := ClassMember.reads .collected m
  cases m with
  | property p =>
    apply strict_declaration reads ClassMemberKind.property Property.known rfl rfl (by decide)
    intro room entries named hurts
    simp only [Content.fields, named, ok_bind]
    exact (Property.ofFields_refused hurts).bind _
  | method m =>
    apply strict_declaration reads ClassMemberKind.method Method.known rfl rfl (by decide)
    intro room entries named hurts
    simp only [Content.fields, named, ok_bind]
    exact (Method.ofFields_refused hurts).bind _
  | constructor k =>
    apply strict_declaration reads ClassMemberKind.constructor Constructor.known rfl rfl (by decide)
    intro room entries named hurts
    simp only [Content.fields, named, ok_bind]
    exact (Constructor.ofFields_refused hurts).bind _
  | other construct span =>
    apply strict_declaration reads ClassMemberKind.other [field "construct", omittable "span"] rfl
      rfl (by decide)
    intro room entries named hurts
    exact (decodeOther_refused named hurts).bind _

theorem Class.ofFields_refused {room : Nat} {entries : Fields} {c : Class}
    (hurts : Hurts (some "class") room entries c.fields) :
    Refused (Class.ofFields room entries) := by
  refine hurts.required (Ident.strict c.name) fun hurts => ?_
  refine hurts.withDefault rfl (strict_map ClassMember.strict c.members) fun hurts => ?_
  exact hurts.withDefault rfl (strict_span c.span) nofun

theorem EnumMember.strict (m : EnumMember) : Strict (EnumMember.decode .collected) m.encode m := by
  apply strict_record (EnumMember.reads .collected m) rfl (by decide) rfl
  intro room entries hurts
  refine hurts.required (Ident.strict m.name) fun hurts => ?_
  exact hurts.optional rfl (fun e _ => Expr.strict e) nofun

theorem Enum.ofFields_refused {room : Nat} {entries : Fields} {e : Enum}
    (hurts : Hurts (some "enum") room entries e.fields) :
    Refused (Enum.ofFields room entries) := by
  refine hurts.required (Ident.strict e.name) fun hurts => ?_
  refine hurts.withDefault rfl (strict_map EnumMember.strict e.members) fun hurts => ?_
  exact hurts.withDefault rfl (strict_span e.span) nofun

theorem Item.strict (access : Access) (i : Item) : Strict (Item.decode access) i.encode i := by
  have reads := Item.reads access i
  cases i with
  | enumDecl e =>
    apply strict_declaration reads ItemKind.enumDecl Enum.known rfl rfl (by decide)
    intro room entries named hurts
    simp only [Content.fields, named, ok_bind]
    exact (Enum.ofFields_refused hurts).bind _
  | classDecl c =>
    apply strict_declaration reads ItemKind.classDecl Class.known rfl rfl (by decide)
    intro room entries named hurts
    simp only [Content.fields, named, ok_bind]
    exact (Class.ofFields_refused hurts).bind _
  | other construct span =>
    apply strict_declaration reads ItemKind.other [field "construct", omittable "span"] rfl rfl
      (by decide)
    intro room entries named hurts
    exact (decodeOther_refused named hurts).bind _

theorem File.strict (access : Access) (f : File) : Strict (File.decode access) f.encode f := by
  apply strict_record (File.reads access f) rfl (by decide) rfl
  intro room entries hurts
  refine hurts.withDefault rfl (strict_word32 f.id) fun hurts => ?_
  refine hurts.withDefault rfl (strict_string f.path) fun hurts => ?_
  refine hurts.required (strict_string f.text) fun hurts => ?_
  exact hurts.withDefault rfl (strict_map (Item.strict access) f.items) nofun

/-- A document in which a field without a default is taken out of the encoding of a file that
nests within the limit, or a field that is no option is set to `null`, is a document of no file:
decoding any text of it fails, and not because the text is malformed. Either layout of it is such a
text. -/
theorem decodeText_damaged {f : File} {w : Json} (shallow : f.encode.depth ≤ nestingLimit)
    (damaged : Damaged f.encode w) :
    (∀ text, Json.read text = .ok w → ∃ d, decodeText File.decode text = .error (.unfit d))
    ∧ Json.read (compact w) = .ok w ∧ Json.read (indented w) = .ok w := by
  have exactly := damaged.leaves rfl f.isExact_encode
  have fits := damaged.fits (fits_of_depth_le (hasValue_of_isExact f.isExact_encode) shallow)
  refine ⟨fun text read => ?_, read_compact_of_isExact exactly, read_indented_of_isExact exactly⟩
  rw [decodeText, read]
  exact (File.strict .streamed f).damaged nestingLimit w damaged fits

/-- A file with nothing but a function, which lowering passes over. -/
def functionFile : File := ⟨0, "", "x", [.other "function" .zero]⟩

/-- Its document without the construct of the function. -/
def namelessFunction : Json :=
  .object [("id", natural 0), ("path", .string ""), ("text", .string "x"),
    ("items", .array [.object [("kind", .string "other"), ("span", Span.zero.encode)]])]

theorem damaged_namelessFunction : Damaged functionFile.encode namelessFunction := by
  have item : Damaged (Item.encode (.other "function" .zero))
      (.object [("kind", .string "other"), ("span", Span.zero.encode)]) :=
    @Damaged.missing [("kind", .string "other")] [("span", Span.zero.encode)] "construct" _
      (by decide)
  exact @Damaged.entry [("id", natural 0), ("path", .string ""), ("text", .string "x")] []
    "items" _ _ (@Damaged.element [] [] _ _ item)

theorem decodeText_damaged_namelessFunction :
    functionFile.encode.depth ≤ nestingLimit ∧ Damaged functionFile.encode namelessFunction
      ∧ ∃ d, decodeText File.decode (compact namelessFunction) = .error (.unfit d) := by
  have shallow : functionFile.encode.depth ≤ nestingLimit := by decide
  obtain ⟨refused, read, -⟩ := decodeText_damaged shallow damaged_namelessFunction
  exact ⟨shallow, damaged_namelessFunction, refused _ read⟩

end NeutralSchema.Tree
