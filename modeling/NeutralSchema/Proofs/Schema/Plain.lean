import NeutralSchema.Proofs.Json.Decoding
import NeutralSchema.Schema.Encode

/-!
# Documents of schemas are plain

Main statement: `File.isPlain_encode`.
-/
namespace NeutralSchema.Schema

open Json

mutual

theorem DataType.isPlain_encode : ∀ t : DataType, t.encode.isPlain
  | .int32 | .string | .boolean | .void => rfl
  | .array [] | .named _ [] => rfl
  | .array (t :: ts) | .named _ (t :: ts) => by
    have first := isPlain_encode t
    have rest := isPlainAll_encodeAll ts
    simp [DataType.encode, DataType.argumentsEntry, isPlain, isPlainEntries, isPlainAll, first,
      rest]

theorem DataType.isPlainAll_encodeAll : ∀ ts : List DataType,
    isPlainAll (DataType.encodeAll ts)
  | [] => rfl
  | t :: ts => by
    have first := isPlain_encode t
    have rest := isPlainAll_encodeAll ts
    simp [DataType.encodeAll, isPlainAll, first, rest]

end

mutual

theorem Expression.isPlain_encode : ∀ e : Expression, e.encode.isPlain
  | .call method arguments => by
    have first := isPlain_encodeSlot method
    have rest := isPlainAll_encodeSlots arguments
    simp [Expression.encode, node, isPlain, isPlainEntries, first, rest]
  | .binary left right operator => by
    have first := isPlain_encodeSlot left
    have second := isPlain_encodeSlot right
    simp [Expression.encode, node, isPlain, isPlainEntries, first, second]
  | .access target property => by
    have first := isPlain_encodeSlot target
    have second := isPlain_encodeSlot property
    simp [Expression.encode, node, isPlain, isPlainEntries, first, second]
  | .identifier text => rfl
  | .new type arguments => by
    have rest := isPlainAll_encodeSlots arguments
    simp [Expression.encode, node, isPlain, isPlainEntries, DataType.isPlain_encode, rest]
  | .conditional condition whenTrue whenFalse => by
    have first := isPlain_encodeSlot condition
    have second := isPlain_encodeSlot whenTrue
    have third := isPlain_encodeSlot whenFalse
    simp [Expression.encode, node, isPlain, isPlainEntries, first, second, third]
  | .literal kind value => rfl
  | .parenthesized inner => by
    have content := isPlain_encodeSlot inner
    simp [Expression.encode, node, isPlain, isPlainEntries, content]
  | .unary side operator operand => by
    have content := isPlain_encodeSlot operand
    simp [Expression.encode, node, isPlain, isPlainEntries, content]
  | .array items => by
    have rest := isPlainAll_encodeSlots items
    simp [Expression.encode, node, isPlain, isPlainEntries, rest]

theorem Expression.isPlain_encodeSlot : ∀ e : Option Expression,
    (Expression.encodeSlot e).isPlain
  | none => rfl
  | some e => isPlain_encode e

theorem Expression.isPlainAll_encodeSlots : ∀ es : List (Option Expression),
    isPlainAll (Expression.encodeSlots es)
  | [] => rfl
  | e :: es => by
    have first := isPlain_encodeSlot e
    have rest := isPlainAll_encodeSlots es
    simp [Expression.encodeSlots, isPlainAll, first, rest]

end

theorem Variable.isPlain_encodeSlot (v : Option Variable) : (Variable.encodeSlot v).isPlain := by
  cases v with
  | none => rfl
  | some v =>
    simp [Variable.encodeSlot, Variable.encode, Variable.fields, ofOption, isPlain, isPlainEntries,
      Expression.isPlain_encodeSlot]

mutual

theorem Statement.isPlain_encode : ∀ s : Statement, s.encode.isPlain
  | .if condition thenBlock elseBlock => by
    have first := isPlainAll_encodeAll thenBlock
    have second := isPlainEntries_elseEntry elseBlock
    simp [Statement.encode, node, isPlain, isPlainEntries, Expression.isPlain_encodeSlot, first,
      second]
  | .return value | .throw value | .expression value => by
    simp [Statement.encode, node, isPlain, isPlainEntries, Expression.isPlain_encodeSlot]
  | .variable declared => by
    simp [Statement.encode, Variable.fields, node, isPlain, isPlainEntries,
      Expression.isPlain_encodeSlot]
  | .while condition body => by
    have content := isPlainAll_encodeAll body
    simp [Statement.encode, node, isPlain, isPlainEntries, Expression.isPlain_encodeSlot, content]
  | .foreach item items body => by
    have content := isPlainAll_encodeAll body
    simp [Statement.encode, node, isPlain, isPlainEntries, Expression.isPlain_encodeSlot,
      Variable.isPlain_encodeSlot, content]
  | .for item condition step body => by
    have content := isPlainAll_encodeAll body
    simp [Statement.encode, node, isPlain, isPlainEntries, Expression.isPlain_encodeSlot,
      Variable.isPlain_encodeSlot, content]

theorem Statement.isPlainEntries_elseEntry : ∀ block : Option (List Statement),
    isPlainEntries (Statement.elseEntry block)
  | none => rfl
  | some block => by
    have content := isPlainAll_encodeAll block
    simp [Statement.elseEntry, isPlain, isPlainEntries, content]

theorem Statement.isPlainAll_encodeAll : ∀ ss : List Statement,
    isPlainAll (Statement.encodeAll ss)
  | [] => rfl
  | s :: ss => by
    have first := isPlain_encode s
    have rest := isPlainAll_encodeAll ss
    simp [Statement.encodeAll, isPlainAll, first, rest]

end

theorem Block.isPlain_encode (b : Block) : (Block.encode b).isPlain := by
  simp [Block.encode, isPlain, isPlainEntries, Statement.isPlainAll_encodeAll]

theorem Field.isPlain_encode (f : Field) : f.encode.isPlain := by
  have entry : isPlainEntries (optionalEntry "defaultValue" (f.defaultValue.map .string)) := by
    cases f.defaultValue <;> rfl
  simp [Field.encode, isPlain, isPlainEntries, DataType.isPlain_encode, entry]

theorem Parameter.isPlain_encode (p : Parameter) : p.encode.isPlain := by
  simp [Parameter.encode, isPlain, isPlainEntries, DataType.isPlain_encode]

theorem Method.isPlain_encode (m : Method) : m.encode.isPlain := by
  simp [Method.encode, isPlain, isPlainEntries, isPlainAll_map Parameter.isPlain_encode,
    DataType.isPlain_encode, Block.isPlain_encode]

theorem Constructor.isPlain_encode (c : Constructor) : c.encode.isPlain := by
  simp [Constructor.encode, isPlain, isPlainEntries, isPlainAll_map Parameter.isPlain_encode,
    Block.isPlain_encode]

theorem isPlain_encodeMap {α : Type} {encode : α → Json} (plain : ∀ a, (encode a).isPlain)
    (m : OrderedMap α) : (encodeMap encode m).isPlain :=
  isPlainEntries_map plain m.toList

theorem Class.isPlain_encode (c : Class) : c.encode.isPlain := by
  have entry : isPlainEntries (optionalEntry "constructor" (c.constructor.map Constructor.encode)) := by
    cases c.constructor with
    | none => rfl
    | some k => simp [optionalEntry, isPlainEntries, Constructor.isPlain_encode]
  simp [Class.encode, isPlain, isPlainEntries, isPlain_encodeMap Field.isPlain_encode,
    isPlain_encodeMap Method.isPlain_encode, entry]

theorem Enum.isPlain_encode (e : Enum) : e.encode.isPlain := by
  have values : isPlainAll (e.values.map fun name => Json.object [("name", .string name)]) :=
    isPlainAll_map (fun _ => rfl) e.values
  simp [Enum.encode, isPlain, isPlainEntries, values]

theorem File.isPlain_encode (f : File) : f.encode.isPlain := by
  simp [File.encode, isPlain, isPlainEntries, isPlain_encodeMap Enum.isPlain_encode,
    isPlain_encodeMap Class.isPlain_encode]

end NeutralSchema.Schema
