import NeutralSchema.Lowering.Statement
import NeutralSchema.Text.Bytes

/-!
# Lowering declarations and files

Enums and the instance members of classes make up a schema. Static members, accessors and other
declarations are skipped, and of the constructors of a class only the first one counts.
-/
namespace NeutralSchema

open Schema (Block Parameter Field Method Constructor Enum)

/-- The source text under a span, if the span lies inside the file. -/
def Tree.File.textAt? (f : Tree.File) (span : Span) : Option String :=
  Text.slice? f.text span.start.toNat span.stop.toNat

def sourceText (f : Tree.File) (span : Span) : Lowering String :=
  match f.textAt? span with
  | some text => return text
  | none => throw (.spanOutOfBounds f.path (f.fileSpan span) (Text.byteLength f.text.toList))

/-- Members without an explicit modifier belong to the class alone. -/
def lowerVisibility : Option Tree.Visibility → Schema.Visibility
  | some .everywhere => .everywhere
  | some .subclasses => .subclasses
  | some .inside | none => .inside

def lowerEnumMembers (file : FileId) : List Tree.EnumMember → Lowering (List String)
  | [] => return []
  | m :: ms => do
    let name ← lowerName m.name.text ⟨file, m.name.span⟩
    return name :: (← lowerEnumMembers file ms)

def lowerEnum (file : FileId) (e : Tree.Enum) : Lowering (String × Enum) := do
  let name ← lowerName e.name.text ⟨file, e.name.span⟩
  return (name, ⟨← lowerEnumMembers file e.members⟩)

def lowerParameter (file : FileId) (className : String) (p : Tree.Parameter) :
    Lowering Parameter := do
  let name ← lowerName p.name.text ⟨file, p.name.span⟩
  let type ← lowerDeclaredType (.parameter className name) ⟨file, p.span⟩ p.type
  return ⟨name, type⟩

def lowerParameters (file : FileId) (className : String) :
    List Tree.Parameter → Lowering (List Parameter)
  | [] => return []
  | p :: ps => do
    let p ← lowerParameter file className p
    return p :: (← lowerParameters file className ps)

def lowerOwnedBody (owner : Owner) (source : FileSpan) : Option Tree.Block → Lowering Block
  | some block => lowerStatements source.file block
  | none => throw (.missingBody owner source)

def lowerDefault (f : Tree.File) : Option Tree.Expr → Lowering (Option String)
  | none => return none
  | some e => return some (← sourceText f e.span)

def lowerProperty (f : Tree.File) (className : String) (p : Tree.Property) :
    Lowering (String × Field) := do
  let name ← lowerName p.name.text (f.fileSpan p.name.span)
  let type ← lowerDeclaredType (.field className name) (f.fileSpan p.span) p.type
  let defaultValue ← lowerDefault f p.initializer
  return (name, ⟨type, lowerVisibility p.modifiers.visibility, defaultValue⟩)

def lowerMethod (file : FileId) (className : String) (m : Tree.Method) :
    Lowering (String × Method) := do
  let name ← lowerName m.name.text ⟨file, m.name.span⟩
  let returns ← lowerDeclaredType (.returnType className name) ⟨file, m.span⟩ m.returnType
  let parameters ← lowerParameters file className m.parameters
  let body ← lowerOwnedBody (.method className name) ⟨file, m.span⟩ m.body
  return (name, ⟨parameters, returns, body⟩)

/-- The fields that parameters declare, added to those of the class. -/
def lowerPromoted (file : FileId) (className : String) (fields : OrderedMap Field) :
    List Tree.Parameter → Lowering (OrderedMap Field)
  | [] => return fields
  | p :: ps =>
    if p.isPromoted then do
      let lowered ← lowerParameter file className p
      let promoted : Field := ⟨lowered.type, lowerVisibility p.modifiers.visibility, none⟩
      lowerPromoted file className (fields.insert lowered.name promoted) ps
    else lowerPromoted file className fields ps

def lowerConstructor (file : FileId) (className : String) (c : Tree.Constructor) :
    Lowering Constructor := do
  let parameters ← lowerParameters file className c.parameters
  let body ← lowerOwnedBody (.constructor className) ⟨file, c.span⟩ c.body
  return ⟨parameters, body⟩

/-- Adds a member to the class that is declared as `declared` and named `className`. -/
def lowerMember (f : Tree.File) (declared className : String) (c : Schema.Class) :
    Tree.ClassMember → Lowering Schema.Class
  | .property p =>
    if p.modifiers.isStatic then return c
    else do
      let (name, lowered) ← lowerProperty f className p
      return { c with fields := c.fields.insert name lowered }
  | .method m =>
    if m.modifiers.isStatic then return c
    else do
      let (name, lowered) ← lowerMethod f.id className m
      return { c with methods := c.methods.insert name lowered }
  | .constructor k =>
    match c.constructor with
    | some _ => do
      report ⟨.multipleConstructors,
        "Multiple constructors in class `" ++ declared ++ "`; only the first is kept",
        some (f.fileSpan k.span)⟩
      return c
    | none => do
      let fields ← lowerPromoted f.id className c.fields k.parameters
      return { c with fields, constructor := some (← lowerConstructor f.id className k) }
  | .other _ _ => return c

def lowerMembers (f : Tree.File) (declared className : String) (c : Schema.Class) :
    List Tree.ClassMember → Lowering Schema.Class
  | [] => return c
  | m :: ms => do
    let c ← lowerMember f declared className c m
    lowerMembers f declared className c ms

def lowerClass (f : Tree.File) (c : Tree.Class) : Lowering (String × Schema.Class) := do
  let name ← lowerName c.name.text (f.fileSpan c.name.span)
  return (name, ← lowerMembers f c.name.text name .empty c.members)

def lowerItem (f : Tree.File) (s : Schema.File) : Tree.Item → Lowering Schema.File
  | .enumDecl e => do
    let (name, lowered) ← lowerEnum f.id e
    return { s with enums := s.enums.insert name lowered }
  | .classDecl c => do
    let (name, lowered) ← lowerClass f c
    return { s with classes := s.classes.insert name lowered }
  | .other _ _ => return s

def lowerItems (f : Tree.File) (s : Schema.File) : List Tree.Item → Lowering Schema.File
  | [] => return s
  | i :: is => do
    let s ← lowerItem f s i
    lowerItems f s is

def lowerFile (f : Tree.File) : Lowering Schema.File := lowerItems f .empty f.items

end NeutralSchema
