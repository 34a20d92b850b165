import NeutralSchema.Proofs.OrderedMap
import NeutralSchema.Proofs.Schema.Plain
import NeutralSchema.Schema.Decode

/-!
# Decoding encoded schemas

The document of a schema decodes to that schema as long as there is room for all its containers.
Main statement: `File.decode_encode`.
-/
namespace NeutralSchema.Schema

open Json

theorem DataTypeKind.decodeTagged (access : Access) (owner : String) (kind : DataTypeKind)
    {fields : Fields} (others : fields.all (·.1 != "type")) :
    Json.decodeTagged access owner "type" (.object (("type", .string kind.name) :: fields))
      = .ok (kind, .entries fields) :=
  decodeTagged_first access owner "type" kind (by cases kind <;> rfl) others

mutual

theorem DataType.decode_encode (access : Access) (room : Nat) : ∀ t : DataType,
    DataType.decode access room t.encode = within room t.encode.depth t
  | .int32 | .string | .boolean | .void => by
    cases room with
    | zero => rfl
    | succ room =>
      rw [DataType.decode]
      refine collect_bind (DataType.isPlain_encode _) ?_
      rw [DataType.encode, DataTypeKind.decodeTagged access _ _ rfl]
      rfl
  | .array arguments => by
    cases room with
    | zero => rfl
    | succ room =>
      have entry := DataType.withDefault_argumentsEntry room arguments
      have others : (DataType.argumentsEntry arguments).all (·.1 != "type") := by
        cases arguments <;> rfl
      have nodup : ((DataType.argumentsEntry arguments).map Prod.fst).Nodup := by
        cases arguments <;> simp [DataType.argumentsEntry]
      rw [DataType.decode]
      refine collect_bind (DataType.isPlain_encode _) ?_
      rw [DataType.encode, DataTypeKind.decodeTagged access _ _ others]
      simp [Content.fields, named_of_nodup _ nodup, entry, depth, depthEntries]
  | .named name arguments => by
    cases room with
    | zero => rfl
    | succ room =>
      have entry := DataType.withDefault_argumentsEntry room arguments
      have others : (("className", Json.string name) :: DataType.argumentsEntry arguments).all
          (·.1 != "type") := by
        cases arguments <;> rfl
      have nodup : ((("className", Json.string name) :: DataType.argumentsEntry arguments).map
          Prod.fst).Nodup := by
        cases arguments <;> simp [DataType.argumentsEntry]
      rw [DataType.decode]
      refine collect_bind (DataType.isPlain_encode _) ?_
      rw [DataType.encode, DataTypeKind.decodeTagged access _ _ others]
      simp [Content.fields, named_of_nodup _ nodup, entry, decodeString, depth, depthEntries]

/-- The type arguments of a node, left out where there are none. -/
theorem DataType.withDefault_argumentsEntry (room : Nat) : ∀ ts : List DataType,
    Fields.withDefault (DataType.argumentsEntry ts) "typeArguments" []
        (DataType.decodeAll room)
      = within room (depthEntries (DataType.argumentsEntry ts)) ts
  | [] => rfl
  | t :: ts => by
    cases room with
    | zero => rfl
    | succ room =>
      have first := DataType.decode_encode .collected room t
      have rest := DataType.mapM_encodeAll room ts
      simp [DataType.argumentsEntry, DataType.decodeAll, decodeElements, first, rest, within_bind,
        within_max, depth, depthEntries, depthAll]

theorem DataType.mapM_encodeAll (room : Nat) : ∀ ts : List DataType,
    (DataType.encodeAll ts).mapM (DataType.decode .collected room)
      = within room (depthAll (DataType.encodeAll ts)) ts
  | [] => rfl
  | t :: ts => by
    have first := DataType.decode_encode .collected room t
    have rest := DataType.mapM_encodeAll room ts
    simp [DataType.encodeAll, first, rest, within_bind, within_max, depthAll]

end

theorem ExpressionKind.decodeTagged (access : Access) (owner : String) (kind : ExpressionKind)
    {fields : Fields} (others : fields.all (·.1 != "kind")) :
    Json.decodeTagged access owner "kind" (node kind.name fields)
      = .ok (kind, .entries fields) :=
  decodeTagged_first access owner "kind" kind (by cases kind <;> rfl) others

theorem decodeName_name {κ : Type} [Enumerated κ] {access : Access} {room : Nat} {kind : κ}
    {name : String} (known : variant name = .ok kind) :
    decodeName access room (.string name) = .ok kind := by
  rw [decodeName, decodeVariant, known]
  rfl

theorem Expression.decodeSlots_of_mapM (room : Nat) {vs : List Json}
    {es : List (Option Expression)}
    (decoded : ∀ room, vs.mapM (decodeNullable (Expression.decode .collected room))
      = within room (depthAll vs) es) :
    Expression.decodeSlots room (.array vs) = within room (Json.array vs).depth es := by
  cases room with
  | zero => rfl
  | succ room => rw [Expression.decodeSlots, decodeElements, decoded room, depth, within_succ]

mutual

theorem Expression.decode_encode (access : Access) (room : Nat) : ∀ e : Expression,
    Expression.decode access room e.encode = within room e.encode.depth e
  | .call method arguments => by
    cases room with
    | zero => rfl
    | succ room =>
      have first := Expression.decodeNullable_encodeSlot room method
      have rest := Expression.decodeSlots_of_mapM room fun room => Expression.mapM_encodeSlots room arguments
      rw [Expression.decode]
      refine collect_bind (Expression.isPlain_encode _) ?_
      rw [Expression.encode, ExpressionKind.decodeTagged access _ _ rfl]
      simp [Content.fields, named_of_nodup, first, rest, within_bind, within_max, node, depth,
        depthEntries]
  | .binary left right operator => by
    cases room with
    | zero => rfl
    | succ room =>
      have first := Expression.decodeNullable_encodeSlot room left
      have second := Expression.decodeNullable_encodeSlot room right
      rw [Expression.decode]
      refine collect_bind (Expression.isPlain_encode _) ?_
      rw [Expression.encode, ExpressionKind.decodeTagged access _ _ rfl]
      simp [Content.fields, named_of_nodup, first, second, decodeString, within_bind, within_max,
        node, depth, depthEntries]
  | .access target property => by
    cases room with
    | zero => rfl
    | succ room =>
      have first := Expression.decodeNullable_encodeSlot room target
      have second := Expression.decodeNullable_encodeSlot room property
      rw [Expression.decode]
      refine collect_bind (Expression.isPlain_encode _) ?_
      rw [Expression.encode, ExpressionKind.decodeTagged access _ _ rfl]
      simp [Content.fields, named_of_nodup, first, second, within_bind, within_max, node, depth,
        depthEntries]
  | .identifier text => by
    cases room with
    | zero => rfl
    | succ room =>
      rw [Expression.decode]
      refine collect_bind (Expression.isPlain_encode _) ?_
      rw [Expression.encode, ExpressionKind.decodeTagged access _ _ rfl]
      simp [Content.fields, named_of_nodup, decodeString, node, depth, depthEntries]
  | .new type arguments => by
    cases room with
    | zero => rfl
    | succ room =>
      have rest := Expression.decodeSlots_of_mapM room fun room => Expression.mapM_encodeSlots room arguments
      rw [Expression.decode]
      refine collect_bind (Expression.isPlain_encode _) ?_
      rw [Expression.encode, ExpressionKind.decodeTagged access _ _ rfl]
      simp [Content.fields, named_of_nodup, DataType.decode_encode, rest, within_bind, within_max,
        node, depth, depthEntries]
  | .conditional condition whenTrue whenFalse => by
    cases room with
    | zero => rfl
    | succ room =>
      have first := Expression.decodeNullable_encodeSlot room condition
      have second := Expression.decodeNullable_encodeSlot room whenTrue
      have third := Expression.decodeNullable_encodeSlot room whenFalse
      rw [Expression.decode]
      refine collect_bind (Expression.isPlain_encode _) ?_
      rw [Expression.encode, ExpressionKind.decodeTagged access _ _ rfl]
      simp [Content.fields, named_of_nodup, first, second, third, within_bind, within_max, node,
        depth, depthEntries]
  | .literal kind value => by
    cases room with
    | zero => rfl
    | succ room =>
      have known : variant kind.name = .ok kind := by cases kind <;> rfl
      rw [Expression.decode]
      refine collect_bind (Expression.isPlain_encode _) ?_
      rw [Expression.encode, ExpressionKind.decodeTagged access _ _ rfl]
      simp [Content.fields, named_of_nodup, decodeName_name known, decodeString, node, depth,
        depthEntries]
  | .parenthesized inner => by
    cases room with
    | zero => rfl
    | succ room =>
      have content := Expression.decodeNullable_encodeSlot room inner
      rw [Expression.decode]
      refine collect_bind (Expression.isPlain_encode _) ?_
      rw [Expression.encode, ExpressionKind.decodeTagged access _ _ rfl]
      simp [Content.fields, named_of_nodup, content, node, depth, depthEntries]
  | .unary side operator operand => by
    cases room with
    | zero => rfl
    | succ room =>
      have known : variant side.name = .ok side := by cases side <;> rfl
      have content := Expression.decodeNullable_encodeSlot room operand
      rw [Expression.decode]
      refine collect_bind (Expression.isPlain_encode _) ?_
      rw [Expression.encode, ExpressionKind.decodeTagged access _ _ rfl]
      simp [Content.fields, named_of_nodup, decodeName_name known, decodeString, content, node,
        depth, depthEntries]
  | .array items => by
    cases room with
    | zero => rfl
    | succ room =>
      have rest := Expression.decodeSlots_of_mapM room fun room => Expression.mapM_encodeSlots room items
      rw [Expression.decode]
      refine collect_bind (Expression.isPlain_encode _) ?_
      rw [Expression.encode, ExpressionKind.decodeTagged access _ _ rfl]
      simp [Content.fields, named_of_nodup, rest, node, depth, depthEntries]

theorem Expression.decodeNullable_encodeSlot (room : Nat) : ∀ e : Option Expression,
    decodeNullable (Expression.decode .collected room) (Expression.encodeSlot e)
      = within room (Expression.encodeSlot e).depth e
  | none => rfl
  | some e => by
    have content := Expression.decode_encode .collected room e
    have present : e.encode ≠ .null := by cases e <;> simp [Expression.encode, node]
    rw [Expression.encodeSlot, decodeNullable]
    · rw [content, exceptMap_within]
    · exact present

theorem Expression.mapM_encodeSlots (room : Nat) : ∀ es : List (Option Expression),
    (Expression.encodeSlots es).mapM (decodeNullable (Expression.decode .collected room))
      = within room (depthAll (Expression.encodeSlots es)) es
  | [] => rfl
  | e :: es => by
    have first := Expression.decodeNullable_encodeSlot room e
    have rest := Expression.mapM_encodeSlots room es
    simp [Expression.encodeSlots, first, rest, within_bind, within_max, depthAll]

end

theorem StatementKind.decodeTagged (access : Access) (owner : String) (kind : StatementKind)
    {fields : Fields} (others : fields.all (·.1 != "kind")) :
    Json.decodeTagged access owner "kind" (node kind.name fields)
      = .ok (kind, .entries fields) :=
  decodeTagged_first access owner "kind" kind (by cases kind <;> rfl) others

theorem Variable.ofFields_fields (room : Nat) (v : Variable) :
    Variable.ofFields .collected room v.fields = within room (depthEntries v.fields) v := by
  simp [Variable.ofFields, Variable.fields, decodeString, Expression.decodeNullable_encodeSlot,
    depth, depthEntries]

theorem Variable.decodeNullable_encodeSlot (room : Nat) (v : Option Variable) :
    decodeNullable (Variable.decode .collected room) (Variable.encodeSlot v)
      = within room (Variable.encodeSlot v).depth v := by
  cases v with
  | none => rfl
  | some v =>
    have content : Variable.decode .collected room v.encode = within room v.encode.depth v := by
      cases room with
      | zero => rfl
      | succ room =>
        have nodup : (v.fields.map Prod.fst).Nodup := by simp [Variable.fields]
        simp [Variable.decode, decodeRecord, Variable.encode, record, named_of_nodup _ nodup,
          Variable.ofFields_fields, depth]
    show (Variable.decode .collected room v.encode).map some = _
    rw [content, exceptMap_within]
    rfl

theorem Statement.decodeBlock_of_mapM (access : Access) (room : Nat) {vs : List Json}
    {ss : List Statement}
    (decoded : ∀ room, vs.mapM (Statement.decode access room) = within room (depthAll vs) ss) :
    Statement.decodeBlock access room (.object [("statements", .array vs)])
      = within room (Json.object [("statements", .array vs)]).depth ss := by
  match room with
  | 0 => rfl
  | 1 =>
    simp [Statement.decodeBlock, record, named_of_nodup, Statement.decodeAll, noRoom, depth,
      depthEntries, within_no_room]
  | room + 2 =>
    simp [Statement.decodeBlock, record, named_of_nodup, Statement.decodeAll, decodeElements,
      decoded, depth, depthEntries]

mutual

theorem Statement.decode_encode (access : Access) (room : Nat) : ∀ s : Statement,
    Statement.decode access room s.encode = within room s.encode.depth s
  | .if condition thenBlock elseBlock => by
    cases room with
    | zero => rfl
    | succ room =>
      have first := Statement.decodeBlock_of_mapM .collected room fun room =>
        Statement.mapM_encodeAll .collected room thenBlock
      have second := Statement.optional_elseEntry room elseBlock
      have others (v w : Json) : (("condition", v) :: ("then", w)
          :: Statement.elseEntry elseBlock).all (·.1 != "kind") := by
        cases elseBlock <;> rfl
      have nodup (v w : Json) : ((("condition", v) :: ("then", w)
          :: Statement.elseEntry elseBlock).map Prod.fst).Nodup := by
        cases elseBlock <;> simp [Statement.elseEntry]
      rw [Statement.decode]
      refine collect_bind (Statement.isPlain_encode _) ?_
      rw [Statement.encode, StatementKind.decodeTagged access _ _ (others _ _)]
      simp [Content.fields, named_of_nodup _ (nodup _ _), Expression.decodeNullable_encodeSlot,
        first, second, within_bind, within_max, node, depth, depthEntries]
  | .return value | .throw value | .expression value => by
    cases room with
    | zero => rfl
    | succ room =>
      rw [Statement.decode]
      refine collect_bind (Statement.isPlain_encode _) ?_
      rw [Statement.encode, StatementKind.decodeTagged access _ _ rfl]
      simp [Content.fields, named_of_nodup, Expression.decodeNullable_encodeSlot, node, depth,
        depthEntries]
  | .variable declared => by
    cases room with
    | zero => rfl
    | succ room =>
      have nodup : (declared.fields.map Prod.fst).Nodup := by simp [Variable.fields]
      rw [Statement.decode]
      refine collect_bind (Statement.isPlain_encode _) ?_
      rw [Statement.encode, StatementKind.decodeTagged access _ _ rfl]
      simp [Content.fields, named_of_nodup _ nodup, Variable.ofFields_fields, node, depth,
        depthEntries]
  | .while condition body => by
    cases room with
    | zero => rfl
    | succ room =>
      have content := Statement.decodeBlock_of_mapM .collected room fun room =>
        Statement.mapM_encodeAll .collected room body
      rw [Statement.decode]
      refine collect_bind (Statement.isPlain_encode _) ?_
      rw [Statement.encode, StatementKind.decodeTagged access _ _ rfl]
      simp [Content.fields, named_of_nodup, Expression.decodeNullable_encodeSlot, content,
        within_bind, within_max, node, depth, depthEntries]
  | .foreach item items body => by
    cases room with
    | zero => rfl
    | succ room =>
      have content := Statement.decodeBlock_of_mapM .collected room fun room =>
        Statement.mapM_encodeAll .collected room body
      rw [Statement.decode]
      refine collect_bind (Statement.isPlain_encode _) ?_
      rw [Statement.encode, StatementKind.decodeTagged access _ _ rfl]
      simp [Content.fields, named_of_nodup, Expression.decodeNullable_encodeSlot,
        Variable.decodeNullable_encodeSlot, content, within_bind, within_max, node, depth,
        depthEntries]
  | .for item condition step body => by
    cases room with
    | zero => rfl
    | succ room =>
      have content := Statement.decodeBlock_of_mapM .collected room fun room =>
        Statement.mapM_encodeAll .collected room body
      rw [Statement.decode]
      refine collect_bind (Statement.isPlain_encode _) ?_
      rw [Statement.encode, StatementKind.decodeTagged access _ _ rfl]
      simp [Content.fields, named_of_nodup, Expression.decodeNullable_encodeSlot,
        Variable.decodeNullable_encodeSlot, content, within_bind, within_max, node, depth,
        depthEntries]

/-- The else block of a node, left out where there is none. -/
theorem Statement.optional_elseEntry (room : Nat) : ∀ block : Option (List Statement),
    Fields.optional (Statement.elseEntry block) "else" (Statement.decodeBlock .collected room)
      = within room (depthEntries (Statement.elseEntry block)) block
  | none => rfl
  | some block => by
    have content := Statement.decodeBlock_of_mapM .collected room fun room =>
      Statement.mapM_encodeAll .collected room block
    simp [Statement.elseEntry, decodeNullable, content, depthEntries]

theorem Statement.mapM_encodeAll (access : Access) (room : Nat) : ∀ ss : List Statement,
    (Statement.encodeAll ss).mapM (Statement.decode access room)
      = within room (depthAll (Statement.encodeAll ss)) ss
  | [] => rfl
  | s :: ss => by
    have first := Statement.decode_encode access room s
    have rest := Statement.mapM_encodeAll access room ss
    simp [Statement.encodeAll, first, rest, within_bind, within_max, depthAll]

end

theorem Block.decode_encode (access : Access) (room : Nat) (b : Block) :
    Statement.decodeBlock access room (Block.encode b) = within room (Block.encode b).depth b :=
  Statement.decodeBlock_of_mapM access room fun room => Statement.mapM_encodeAll access room b

theorem decodeMap_encodeMap {α : Type} {encode : α → Json} {decode : Nat → Json → Decoded α}
    (decoded : ∀ room a, decode room (encode a) = within room (encode a).depth a) (room : Nat)
    (m : OrderedMap α) :
    decodeMap decode room (encodeMap encode m) = within room (encodeMap encode m).depth m := by
  rw [decodeMap, encodeMap, decodeEntries_encode decoded, exceptMap_within,
    OrderedMap.ofList_toList]

theorem Field.decode_encode (access : Access) (room : Nat) (f : Field) :
    Field.decode access room f.encode = within room f.encode.depth f := by
  have known : variant f.visibility.name = .ok f.visibility := by cases f.visibility <;> rfl
  have entry : Fields.optional (optionalEntry "defaultValue" (f.defaultValue.map .string))
      "defaultValue" decodeString = .ok f.defaultValue := by
    cases f.defaultValue <;> rfl
  have flat : depthEntries (optionalEntry "defaultValue" (f.defaultValue.map .string)) = 0 := by
    cases f.defaultValue <;> rfl
  refine decodeRecord_object access _ _ room ?_ fun room => ?_
  · cases f.defaultValue <;> simp [optionalEntry]
  · simp [DataType.decode_encode, decodeName_name known, entry, flat, within_bind, depth,
      depthEntries]

theorem Parameter.decode_encode (access : Access) (room : Nat) (p : Parameter) :
    Parameter.decode access room p.encode = within room p.encode.depth p := by
  refine decodeRecord_object access _ _ room (by simp) fun room => ?_
  simp [DataType.decode_encode, decodeString, depth, depthEntries]

theorem Method.decode_encode (access : Access) (room : Nat) (m : Method) :
    Method.decode access room m.encode = within room m.encode.depth m := by
  refine decodeRecord_object access _ _ room (by simp) fun room => ?_
  simp [DataType.decode_encode, decodeList_encode (Parameter.decode_encode access),
    Block.decode_encode, within_bind, within_max, depthEntries]

theorem Constructor.decode_encode (access : Access) (room : Nat) (c : Constructor) :
    Constructor.decode access room c.encode = within room c.encode.depth c := by
  refine decodeRecord_object access _ _ room (by simp) fun room => ?_
  simp [decodeList_encode (Parameter.decode_encode access), Block.decode_encode, within_bind,
    within_max, depthEntries]

theorem Class.decode_encode (access : Access) (room : Nat) (c : Class) :
    Class.decode access room c.encode = within room c.encode.depth c := by
  have entry (room : Nat) :
      Fields.optional (optionalEntry "constructor" (c.constructor.map Constructor.encode))
          "constructor" (Constructor.decode access room)
        = within room
          (depthEntries (optionalEntry "constructor" (c.constructor.map Constructor.encode)))
          c.constructor := by
    cases c.constructor with
    | none => rfl
    | some k =>
      have content := Constructor.decode_encode access room k
      have present : decodeNullable (Constructor.decode access room) k.encode
          = (Constructor.decode access room k.encode).map some := rfl
      simp [optionalEntry, present, content, depthEntries]
  refine decodeRecord_object access _ _ room ?_ fun room => ?_
  · cases c.constructor <;> simp [optionalEntry]
  · simp [decodeMap_encodeMap (Field.decode_encode access),
      decodeMap_encodeMap (Method.decode_encode access), entry, within_bind, within_max,
      depthEntries]

theorem Enum.decode_encode (access : Access) (room : Nat) (e : Enum) :
    Enum.decode access room e.encode = within room e.encode.depth e := by
  have value (room : Nat) (name : String) :
      decodeEnumValue access room (.object [("name", .string name)])
        = within room (Json.object [("name", .string name)]).depth name := by
    refine decodeRecord_object access _ _ room (by simp) fun room => ?_
    simp [decodeString, depth, depthEntries]
  refine decodeRecord_object access _ _ room (by simp) fun room => ?_
  simp [decodeList_encode value, depthEntries]

/-- The document of a schema decodes to that schema, if there is room for it. -/
theorem File.decode_encode (access : Access) (room : Nat) (f : File) :
    File.decode access room f.encode = within room f.encode.depth f := by
  refine decodeRecord_object access _ _ room (by simp) fun room => ?_
  simp [decodeMap_encodeMap (Enum.decode_encode access),
    decodeMap_encodeMap (Class.decode_encode access), within_bind, within_max, depthEntries]

end NeutralSchema.Schema
