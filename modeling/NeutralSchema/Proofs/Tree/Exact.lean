import NeutralSchema.Proofs.Json.Printed
import NeutralSchema.Tree.Encode

/-!
# Documents of trees are exact

The numbers in the document of a tree are the offsets of spans and the number of the file. Main
statement: `File.isExact_encode`.
-/
namespace NeutralSchema.Tree

open Json

@[simp] theorem leaves_natural (n : UInt32) : (natural n.toNat).leaves isExactScalar := by
  have small : n.toNat < UInt32.size := n.toNat_lt
  have fits : (n.toNat : Int) < (UInt64.size : Nat) :=
    Int.ofNat_lt.mpr (Nat.lt_trans small (by decide))
  simp only [natural, leaves, isExactScalar, fits, Int.natCast_nonneg, decide_true, Bool.and_true]

@[simp] theorem leaves_span (s : Span) : s.encode.leaves isExactScalar := by
  simp [Span.encode, leaves, leavesEntries]

theorem leaves_part {α : Type} {encode : α → Json}
    (exactly : ∀ a, (encode a).leaves isExactScalar) (part : Option α) :
    (encodeOption encode part).leaves isExactScalar := by
  cases part with
  | none => rfl
  | some a => exact exactly a

theorem leavesAll_map {α : Type} {encode : α → Json}
    (exactly : ∀ a, (encode a).leaves isExactScalar) (as : List α) :
    leavesAll isExactScalar (as.map encode) := by
  induction as with
  | nil => rfl
  | cons a as ih => simp [leavesAll, exactly, ih]

@[simp] theorem leaves_node (s : Span) (kind : String) (fields : Fields) :
    (node s kind fields).leaves isExactScalar = leavesEntries isExactScalar fields := by
  simp [node, leaves, leavesEntries]

@[simp] theorem leaves_ident (i : Ident) : i.encode.leaves isExactScalar := by
  simp [Ident.encode, leaves, leavesEntries]

@[simp] theorem leaves_typeName (t : TypeName) : t.encode.leaves isExactScalar := by
  cases t <;> rfl

mutual

theorem ResolvedType.leaves_encode : ∀ t : ResolvedType, t.encode.leaves isExactScalar
  | .mk name arguments => by
    have inner := ResolvedType.leavesAll_encodeAll arguments
    simp [ResolvedType.encode, leaves, leavesEntries, inner]

theorem ResolvedType.leavesAll_encodeAll : ∀ ts : List ResolvedType,
    leavesAll isExactScalar (ResolvedType.encodeAll ts)
  | [] => rfl
  | t :: ts => by
    have first := ResolvedType.leaves_encode t
    have rest := ResolvedType.leavesAll_encodeAll ts
    simp [ResolvedType.encodeAll, leavesAll, first, rest]

end

theorem leaves_type (type : Option ResolvedType) :
    (encodeOption ResolvedType.encode type).leaves isExactScalar :=
  leaves_part ResolvedType.leaves_encode type

mutual

theorem Expr.leaves_encode : ∀ e : Expr, e.encode.leaves isExactScalar
  | .call s callee arguments => by
    have first := Expr.leaves_encode callee
    have rest := Expr.leavesAll_encodeAll arguments
    simp [Expr.encode, leaves, leavesEntries, first, rest]
  | .binary s left operator right => by
    have first := Expr.leaves_encode left
    have second := Expr.leaves_encode right
    simp [Expr.encode, leaves, leavesEntries, first, second]
  | .member s target name => by
    have object := Expr.leaves_encode target
    simp [Expr.encode, leavesEntries, object]
  | .element s target index => by
    have object := Expr.leaves_encode target
    have place := Expr.leaves_encode index
    simp [Expr.encode, leavesEntries, object, place]
  | .new s type arguments => by
    have rest := Expr.leavesAll_encodeAll arguments
    simp [Expr.encode, leaves, leavesEntries, leaves_type, rest]
  | .conditional s condition whenTrue whenFalse => by
    have first := Expr.leaves_encode condition
    have second := Expr.leaves_encode whenTrue
    have third := Expr.leaves_encode whenFalse
    simp [Expr.encode, leavesEntries, first, second, third]
  | .literal s value => by
    cases value <;> simp [Expr.encode, Literal.fields, leaves, leavesEntries]
  | .parenthesized s inner | .wrapped s _ inner => by
    have content := Expr.leaves_encode inner
    simp [Expr.encode, leavesEntries, content]
  | .unary s side operator operand => by
    have content := Expr.leaves_encode operand
    simp [Expr.encode, leaves, leavesEntries, content]
  | .array s elements => by
    have rest := Expr.leavesAll_encodeAll elements
    simp [Expr.encode, leaves, leavesEntries, rest]
  | .identifier .. | .self .. | .bare .. | .other .. => by
    simp [Expr.encode, leaves, leavesEntries]

theorem Expr.leavesAll_encodeAll : ∀ es : List Expr, leavesAll isExactScalar (Expr.encodeAll es)
  | [] => rfl
  | e :: es => by
    have first := Expr.leaves_encode e
    have rest := Expr.leavesAll_encodeAll es
    simp [Expr.encodeAll, leavesAll, first, rest]

end

theorem leaves_optional (e : Option Expr) :
    (encodeOption Expr.encode e).leaves isExactScalar :=
  leaves_part Expr.leaves_encode e

theorem Declarator.leaves_encode (d : Declarator) : d.encode.leaves isExactScalar := by
  simp [Declarator.encode, leaves, leavesEntries, leaves_type, leaves_optional]

theorem LoopInitializer.leaves_encode (l : LoopInitializer) : l.encode.leaves isExactScalar := by
  cases l with
  | declarators ds =>
    simp [LoopInitializer.encode, leaves, leavesEntries, leavesAll_map Declarator.leaves_encode]
  | expression e => simp [LoopInitializer.encode, leaves, leavesEntries, Expr.leaves_encode]

mutual

theorem Stmt.leaves_encode : ∀ s : Stmt, s.encode.leaves isExactScalar
  | .if s condition thenBranch elseBranch => by
    have first := Stmt.leaves_encode thenBranch
    have second := Stmt.leaves_encodeOption elseBranch
    simp [Stmt.encode, leavesEntries, Expr.leaves_encode, first, second]
  | .return s value => by
    simp [Stmt.encode, leavesEntries, leaves_optional]
  | .throw s value | .expression s value => by
    simp [Stmt.encode, leavesEntries, Expr.leaves_encode]
  | .variable s declarators => by
    simp [Stmt.encode, leaves, leavesEntries, leavesAll_map Declarator.leaves_encode]
  | .while s condition body => by
    have content := Stmt.leaves_encode body
    simp [Stmt.encode, leavesEntries, Expr.leaves_encode, content]
  | .forOf s initializer items body => by
    have content := Stmt.leaves_encode body
    simp [Stmt.encode, leavesEntries, LoopInitializer.leaves_encode, Expr.leaves_encode, content]
  | .for s initializer condition step body => by
    have clause := leaves_part LoopInitializer.leaves_encode initializer
    have content := Stmt.leaves_encode body
    simp [Stmt.encode, leavesEntries, clause, leaves_optional, content]
  | .block s statements => by
    have content := Stmt.leavesAll_encodeAll statements
    simp [Stmt.encode, leaves, leavesEntries, content]
  | .bare .. | .other .. => by
    simp [Stmt.encode, leaves, leavesEntries]

theorem Stmt.leaves_encodeOption : ∀ s : Option Stmt,
    (Stmt.encodeOption s).leaves isExactScalar
  | none => rfl
  | some s => Stmt.leaves_encode s

theorem Stmt.leavesAll_encodeAll : ∀ ss : List Stmt, leavesAll isExactScalar (Stmt.encodeAll ss)
  | [] => rfl
  | s :: ss => by
    have first := Stmt.leaves_encode s
    have rest := Stmt.leavesAll_encodeAll ss
    simp [Stmt.encodeAll, leavesAll, first, rest]

end

theorem leaves_body (body : Option Block) :
    (encodeOption Block.encode body).leaves isExactScalar := by
  apply leaves_part
  intro b
  simp [Block.encode, leaves, leavesEntries, Stmt.leavesAll_encodeAll]

theorem leaves_modifiers (m : Modifiers) : m.encode.leaves isExactScalar := by
  have visibility : (encodeOption (fun v : Visibility => .string v.name) m.visibility).leaves
      isExactScalar := by
    apply leaves_part
    intro v
    rfl
  simp [Modifiers.encode, leaves, leavesEntries, visibility]

theorem Parameter.leaves_encode (p : Parameter) : p.encode.leaves isExactScalar := by
  simp [Parameter.encode, leaves, leavesEntries, leaves_type, leaves_modifiers]

theorem ClassMember.leaves_encode (m : ClassMember) : m.encode.leaves isExactScalar := by
  cases m with
  | property p =>
    simp [ClassMember.encode, declaration, Property.fields, leaves, leavesEntries, leaves_type,
      leaves_modifiers, leaves_optional]
  | method m =>
    simp [ClassMember.encode, declaration, Method.fields, leaves, leavesEntries, leaves_type,
      leaves_modifiers, leaves_body, leavesAll_map Parameter.leaves_encode]
  | constructor k =>
    simp [ClassMember.encode, declaration, Constructor.fields, leaves, leavesEntries, leaves_body,
      leavesAll_map Parameter.leaves_encode]
  | other construct span =>
    simp [ClassMember.encode, declaration, otherFields, leaves, leavesEntries]

theorem EnumMember.leaves_encode (m : EnumMember) : m.encode.leaves isExactScalar := by
  simp [EnumMember.encode, leaves, leavesEntries, leaves_optional]

theorem Item.leaves_encode (i : Item) : i.encode.leaves isExactScalar := by
  cases i with
  | enumDecl e =>
    simp [Item.encode, declaration, Enum.fields, leaves, leavesEntries,
      leavesAll_map EnumMember.leaves_encode]
  | classDecl c =>
    simp [Item.encode, declaration, Class.fields, leaves, leavesEntries,
      leavesAll_map ClassMember.leaves_encode]
  | other construct span =>
    simp [Item.encode, declaration, otherFields, leaves, leavesEntries]

theorem File.isExact_encode (f : File) : f.encode.isExact := by
  simp [isExact, File.encode, leaves, leavesEntries, leavesAll_map Item.leaves_encode]

end NeutralSchema.Tree
