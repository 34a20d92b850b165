import NeutralSchema.Proofs.Json.Yields
import NeutralSchema.Tree.Decode

/-!
# How deeply trees nest

The nesting of a tree counts the containers that every document of the tree nests at least, apart
from those of names and spans. A tree that was decoded with some room does not nest more. Main
statement: `File.nesting_decode`.
-/
namespace NeutralSchema.Tree

open Json

/-- The nesting of a list that is left out where it is empty. -/
def listNesting {α : Type} (size : α → Nat) : List α → Nat
  | [] => 0
  | a :: as => max (size a + 1) (listNesting size as)

mutual

def ResolvedType.nesting : ResolvedType → Nat
  | .mk _ arguments => ResolvedType.nestingAll arguments + 1

def ResolvedType.nestingAll : List ResolvedType → Nat
  | [] => 0
  | t :: ts => max (t.nesting + 1) (ResolvedType.nestingAll ts)

end

def typeNesting (type : Option ResolvedType) : Nat := (type.map ResolvedType.nesting).getD 0

mutual

def Expr.nesting : Expr → Nat
  | .call _ callee arguments => max callee.nesting (Expr.nestingAll arguments) + 1
  | .binary _ left _ right => max left.nesting right.nesting + 1
  | .member _ target _ => target.nesting + 1
  | .element _ target index => max target.nesting index.nesting + 1
  | .new _ type arguments => max (typeNesting type) (Expr.nestingAll arguments) + 1
  | .conditional _ condition whenTrue whenFalse =>
    max condition.nesting (max whenTrue.nesting whenFalse.nesting) + 1
  | .parenthesized _ inner => inner.nesting + 1
  | .unary _ _ _ operand => operand.nesting + 1
  | .array _ elements => Expr.nestingAll elements + 1
  | .wrapped _ _ inner => inner.nesting + 1
  | .identifier .. | .literal .. | .self .. | .bare .. | .other .. => 1

def Expr.nestingAll : List Expr → Nat
  | [] => 0
  | e :: es => max (e.nesting + 1) (Expr.nestingAll es)

end

def optionalNesting (e : Option Expr) : Nat := (e.map Expr.nesting).getD 0

def Declarator.nesting (d : Declarator) : Nat := optionalNesting d.initializer + 1

def LoopInitializer.nesting : LoopInitializer → Nat
  | .declarators ds => listNesting Declarator.nesting ds + 1
  | .expression e => e.nesting + 1

mutual

def Stmt.nesting : Stmt → Nat
  | .if _ condition thenBranch elseBranch =>
    max condition.nesting (max thenBranch.nesting (Stmt.nestingElse elseBranch)) + 1
  | .return _ value => optionalNesting value + 1
  | .throw _ value => value.nesting + 1
  | .expression _ value => value.nesting + 1
  | .variable _ declarators => listNesting Declarator.nesting declarators + 1
  | .while _ condition body => max condition.nesting body.nesting + 1
  | .forOf _ initializer items body =>
    max initializer.nesting (max items.nesting body.nesting) + 1
  | .for _ initializer condition step body =>
    max ((initializer.map LoopInitializer.nesting).getD 0)
      (max (optionalNesting condition) (max (optionalNesting step) body.nesting)) + 1
  | .block _ statements => Stmt.nestingAll statements + 1
  | .bare .. | .other .. => 1

def Stmt.nestingElse : Option Stmt → Nat
  | none => 0
  | some s => s.nesting

def Stmt.nestingAll : List Stmt → Nat
  | [] => 0
  | s :: ss => max (s.nesting + 1) (Stmt.nestingAll ss)

end

def bodyNesting (body : Option Block) : Nat :=
  (body.map fun statements => Stmt.nestingAll statements + 1).getD 0

def Parameter.nesting (p : Parameter) : Nat := typeNesting p.type + 1

def Property.nesting (p : Property) : Nat := typeNesting p.type + 1

def Method.nesting (m : Method) : Nat :=
  max (listNesting Parameter.nesting m.parameters)
    (max (typeNesting m.returnType) (bodyNesting m.body)) + 1

def Constructor.nesting (k : Constructor) : Nat :=
  max (listNesting Parameter.nesting k.parameters) (bodyNesting k.body) + 1

def ClassMember.nesting : ClassMember → Nat
  | .property p => p.nesting
  | .method m => m.nesting
  | .constructor k => k.nesting
  | .other _ _ => 1

def Class.nesting (c : Class) : Nat := listNesting ClassMember.nesting c.members + 1

def Enum.nesting (e : Enum) : Nat := listNesting (fun _ => 1) e.members + 1

def Item.nesting : Item → Nat
  | .enumDecl e => e.nesting
  | .classDecl c => c.nesting
  | .other _ _ => 1

/-- How many containers a document of the file nests at least. -/
def File.nesting (f : File) : Nat := listNesting Item.nesting f.items + 1

theorem listNesting_le_iff {α : Type} {size : α → Nat} {as : List α} {n : Nat} :
    listNesting size as ≤ n ↔ ∀ a ∈ as, size a < n := by
  induction as with
  | nil => simp [listNesting]
  | cons a as ih =>
    rw [listNesting, List.forall_mem_cons, ← ih]
    exact Nat.max_le

theorem ResolvedType.nestingAll_eq (ts : List ResolvedType) :
    ResolvedType.nestingAll ts = listNesting ResolvedType.nesting ts := by
  induction ts with
  | nil => rfl
  | cons t ts ih => rw [ResolvedType.nestingAll, listNesting, ih]

theorem Expr.nestingAll_eq (es : List Expr) :
    Expr.nestingAll es = listNesting Expr.nesting es := by
  induction es with
  | nil => rfl
  | cons e es ih => rw [Expr.nestingAll, listNesting, ih]

theorem Stmt.nestingAll_eq (ss : List Stmt) :
    Stmt.nestingAll ss = listNesting Stmt.nesting ss := by
  induction ss with
  | nil => rfl
  | cons s ss ih => rw [Stmt.nestingAll, listNesting, ih]

theorem typeNesting_le_iff {type : Option ResolvedType} {n : Nat} :
    typeNesting type ≤ n ↔ ∀ t ∈ type, t.nesting ≤ n := by
  cases type <;> simp [typeNesting]

theorem optionalNesting_le_iff {e : Option Expr} {n : Nat} :
    optionalNesting e ≤ n ↔ ∀ a ∈ e, a.nesting ≤ n := by
  cases e <;> simp [optionalNesting]

mutual

theorem ResolvedType.nesting_decode (access : Access) : ∀ (room : Nat) (v : Json),
    Yields (ResolvedType.decode access room v) (·.nesting ≤ room)
  | 0, v => .noRoom _ v
  | room + 1, v => by
    rw [ResolvedType.decode]
    refine .bind (.any _) fun fields _ => .bind (.any _) fun name _ => ?_
    refine .bind (.withDefault fields _ (ResolvedType.nesting_decodeAll access room)
      (Nat.zero_le _)) fun arguments less => .pure ?_
    rw [ResolvedType.nesting]
    omega

theorem ResolvedType.nesting_decodeAll (access : Access) : ∀ (room : Nat) (v : Json),
    Yields (ResolvedType.decodeAll access room v) (ResolvedType.nestingAll · ≤ room)
  | 0, v => .noRoom _ v
  | room + 1, v => by
    refine (Yields.decodeElements (ResolvedType.nesting_decode access room) v).mono fun ts less => ?_
    rw [ResolvedType.nestingAll_eq, listNesting_le_iff]
    exact fun t mem => Nat.lt_succ_of_le (less t mem)

end

mutual

theorem Expr.nesting_decode (access : Access) : ∀ (room : Nat) (v : Json),
    Yields (Expr.decode access room v) (·.nesting ≤ room)
  | 0, v => .noRoomNode _ v
  | room + 1, v => by
    have part := Expr.nesting_decode .collected room
    have parts := Expr.nesting_decodeAll room
    rw [Expr.decode]
    refine .bind (.any _) fun ⟨own, kind, entries⟩ _ => .bind (.any _) fun span _ => ?_
    cases kind with
    | call =>
      refine .bind (.any _) fun fields _ => .bind (.required fields _ part) fun callee first => ?_
      refine .bind (.withDefault fields _ parts (Nat.zero_le _)) fun arguments rest => .pure ?_
      simp only [Expr.nesting]
      omega
    | binary =>
      refine .bind (.any _) fun fields _ => .bind (.required fields _ part) fun left first => ?_
      refine .bind (.any _) fun operator _ => .bind (.required fields _ part) fun right second => ?_
      refine .pure ?_
      simp only [Expr.nesting]
      omega
    | member =>
      refine .bind (.any _) fun fields _ => .bind (.required fields _ part) fun target first => ?_
      refine .bind (.any _) fun name _ => .pure ?_
      simp only [Expr.nesting]
      omega
    | element =>
      refine .bind (.any _) fun fields _ => .bind (.required fields _ part) fun target first => ?_
      refine .bind (.required fields _ part) fun index second => .pure ?_
      simp only [Expr.nesting]
      omega
    | new =>
      refine .bind (.any _) fun fields _ => ?_
      refine .bind (.optional fields _ (ResolvedType.nesting_decode .collected room))
        fun type first => ?_
      refine .bind (.withDefault fields _ parts (Nat.zero_le _)) fun arguments rest => .pure ?_
      have less := typeNesting_le_iff.mpr first
      simp only [Expr.nesting]
      omega
    | conditional =>
      refine .bind (.any _) fun fields _ => .bind (.required fields _ part) fun condition first => ?_
      refine .bind (.required fields _ part) fun whenTrue second => ?_
      refine .bind (.required fields _ part) fun whenFalse third => .pure ?_
      simp only [Expr.nesting]
      omega
    | parenthesized =>
      refine .bind (.any _) fun fields _ => .bind (.required fields _ part) fun inner less => ?_
      exact .pure (Nat.succ_le_succ less)
    | unary side =>
      refine .bind (.any _) fun fields _ => .bind (.any _) fun operator _ => ?_
      refine .bind (.required fields _ part) fun operand less => .pure ?_
      exact Nat.succ_le_succ less
    | array =>
      refine .bind (.any _) fun fields _ => ?_
      refine .bind (.withDefault fields _ parts (Nat.zero_le _)) fun elements less => .pure ?_
      exact Nat.succ_le_succ less
    | wrapped form =>
      refine .bind (.any _) fun fields _ => .bind (.required fields _ part) fun inner less => ?_
      exact .pure (Nat.succ_le_succ less)
    | identifier | stringLiteral | numericLiteral | booleanLiteral | other =>
      refine .bind (.any _) fun fields _ => .bind (.any _) fun value _ => .pure ?_
      simp [Expr.nesting]
    | nullLiteral | self | bare =>
      refine .pure ?_
      simp [Expr.nesting]

theorem Expr.nesting_decodeAll : ∀ (room : Nat) (v : Json),
    Yields (Expr.decodeAll room v) (Expr.nestingAll · ≤ room)
  | 0, v => .noRoom _ v
  | room + 1, v => by
    refine (Yields.decodeElements (Expr.nesting_decode .collected room) v).mono fun es less => ?_
    rw [Expr.nestingAll_eq, listNesting_le_iff]
    exact fun e mem => Nat.lt_succ_of_le (less e mem)

end

theorem Declarator.nesting_decode (access : Access) (room : Nat) (v : Json) :
    Yields (Declarator.decode access room v) (·.nesting ≤ room) := by
  refine .decodeRecord (fun room fields => ?_) room v
  refine .bind (.any _) fun name _ => .bind (.any _) fun type _ => ?_
  refine .bind (.optional fields _ (Expr.nesting_decode access room)) fun initializer less => ?_
  refine .bind (.any _) fun span _ => .pure ?_
  exact Nat.succ_le_succ (optionalNesting_le_iff.mpr less)

/-- A variant with content needs room for its container. -/
theorem pos_of_decodeNewtype {κ : Type} [Enumerated κ] (access : Access) (room : Nat) (v : Json) :
    Yields (decodeNewtype access room v : Decoded (κ × Json)) fun _ => 0 < room := by
  have variant : Yields (decodeVariant access room v : Decoded (κ × Option Json))
      fun p => p.2.isSome → 0 < room := by
    unfold decodeVariant
    split
    · exact .map ((Yields.any _).mono fun a _ => by simp)
    · split
      · exact .malformed _
      · exact .map ((Yields.any _).mono fun a _ _ => by omega)
    · exact .malformed _
    · split
      · exact .malformed _
      · exact .unfit _
      · exact .mismatch _ _
  refine .bind variant fun ⟨a, content⟩ needed => ?_
  cases content with
  | none => exact .unfit _
  | some content => exact .pure (needed rfl)

theorem LoopInitializer.nesting_decode (access : Access) (room : Nat) (v : Json) :
    Yields (LoopInitializer.decode access room v) (·.nesting ≤ room) := by
  refine .bind (pos_of_decodeNewtype access room v) fun ⟨kind, content⟩ positive => ?_
  cases kind with
  | declarators =>
    refine .bind (.decodeList (Declarator.nesting_decode access) _ _) fun ds less => .pure ?_
    have all := listNesting_le_iff.mpr less
    simp only [LoopInitializer.nesting]
    omega
  | expression =>
    refine .bind (Expr.nesting_decode access _ _) fun e less => .pure ?_
    simp only [LoopInitializer.nesting]
    omega

mutual

theorem Stmt.nesting_decode (access : Access) : ∀ (room : Nat) (v : Json),
    Yields (Stmt.decode access room v) (·.nesting ≤ room)
  | 0, v => .noRoomNode _ v
  | room + 1, v => by
    have part := Stmt.nesting_decode .collected room
    have value := Expr.nesting_decode .collected room
    have clause := LoopInitializer.nesting_decode .collected room
    rw [Stmt.decode]
    refine .bind (.any _) fun ⟨own, kind, entries⟩ _ => .bind (.any _) fun span _ => ?_
    cases kind with
    | «if» =>
      refine .bind (.any _) fun fields _ => .bind (.required fields _ value) fun condition first => ?_
      refine .bind (.required fields _ part) fun thenBranch second => ?_
      refine .bind (.optional fields _ part) fun elseBranch third => .pure ?_
      have less : Stmt.nestingElse elseBranch ≤ room := by
        cases elseBranch with
        | none => exact Nat.zero_le _
        | some s => exact third s rfl
      simp only [Stmt.nesting]
      omega
    | «return» =>
      refine .bind (.any _) fun fields _ => .bind (.optional fields _ value) fun e less => .pure ?_
      exact Nat.succ_le_succ (optionalNesting_le_iff.mpr less)
    | throw =>
      refine .bind (.any _) fun fields _ => .bind (.required fields _ value) fun e less => .pure ?_
      exact Nat.succ_le_succ less
    | expression =>
      refine .bind (.any _) fun fields _ => .bind (.required fields _ value) fun e less => .pure ?_
      exact Nat.succ_le_succ less
    | «variable» =>
      refine .bind (.any _) fun fields _ => ?_
      refine .bind (.required fields _ (.decodeList (Declarator.nesting_decode .collected) room))
        fun ds less => .pure ?_
      exact Nat.succ_le_succ (listNesting_le_iff.mpr less)
    | «while» =>
      refine .bind (.any _) fun fields _ => .bind (.required fields _ value) fun condition first => ?_
      refine .bind (.required fields _ part) fun body second => .pure ?_
      simp only [Stmt.nesting]
      omega
    | forOf =>
      refine .bind (.any _) fun fields _ => .bind (.required fields _ clause) fun item first => ?_
      refine .bind (.required fields _ value) fun items second => ?_
      refine .bind (.required fields _ part) fun body third => .pure ?_
      simp only [Stmt.nesting]
      omega
    | «for» =>
      refine .bind (.any _) fun fields _ => .bind (.optional fields _ clause) fun item first => ?_
      refine .bind (.optional fields _ value) fun condition second => ?_
      refine .bind (.optional fields _ value) fun step third => ?_
      refine .bind (.required fields _ part) fun body fourth => .pure ?_
      have itemLess : (item.map LoopInitializer.nesting).getD 0 ≤ room := by
        cases item with
        | none => exact Nat.zero_le _
        | some i => exact first i rfl
      have conditionLess := optionalNesting_le_iff.mpr second
      have stepLess := optionalNesting_le_iff.mpr third
      simp only [Stmt.nesting]
      omega
    | block =>
      refine .bind (.any _) fun fields _ => ?_
      refine .bind (.withDefault fields _ (Stmt.nesting_decodeAll .collected room) (Nat.zero_le _))
        fun ss less => .pure ?_
      exact Nat.succ_le_succ less
    | bare form =>
      refine .pure ?_
      simp [Stmt.nesting]
    | other =>
      refine .bind (.any _) fun fields _ => .bind (.any _) fun construct _ => .pure ?_
      simp [Stmt.nesting]

theorem Stmt.nesting_decodeAll (access : Access) : ∀ (room : Nat) (v : Json),
    Yields (Stmt.decodeAll access room v) (Stmt.nestingAll · ≤ room)
  | 0, v => .noRoom _ v
  | room + 1, v => by
    refine (Yields.decodeElements (Stmt.nesting_decode access room) v).mono fun ss less => ?_
    rw [Stmt.nestingAll_eq, listNesting_le_iff]
    exact fun s mem => Nat.lt_succ_of_le (less s mem)

end

theorem Block.nesting_decode (access : Access) (room : Nat) (v : Json) :
    Yields (Block.decode access room v) (Stmt.nestingAll · + 1 ≤ room) := by
  refine .decodeRecord (fun room fields => ?_) room v
  refine (Yields.withDefault fields _ (Stmt.nesting_decodeAll access room) (Nat.zero_le _)).mono
    fun ss less => ?_
  exact Nat.succ_le_succ less

theorem bodyNesting_le_iff {body : Option Block} {n : Nat} :
    bodyNesting body ≤ n ↔ ∀ ss ∈ body, Stmt.nestingAll ss + 1 ≤ n := by
  cases body <;> simp [bodyNesting]

theorem Parameter.nesting_decode (access : Access) (room : Nat) (v : Json) :
    Yields (Parameter.decode access room v) (·.nesting ≤ room) := by
  refine .decodeRecord (fun room fields => ?_) room v
  refine .bind (.any _) fun name _ => ?_
  refine .bind (.optional fields _ (ResolvedType.nesting_decode access room)) fun type less => ?_
  refine .bind (.any _) fun modifiers _ => .bind (.any _) fun span _ => .pure ?_
  exact Nat.succ_le_succ (typeNesting_le_iff.mpr less)

theorem Property.nesting_ofFields (room : Nat) (fields : Fields) :
    Yields (Property.ofFields room fields) (·.nesting ≤ room + 1) := by
  refine .bind (.any _) fun name _ => ?_
  refine .bind (.optional fields _ (ResolvedType.nesting_decode .collected room))
    fun type less => ?_
  refine .bind (.any _) fun modifiers _ => .bind (.any _) fun initializer _ => ?_
  refine .bind (.any _) fun span _ => .pure ?_
  exact Nat.succ_le_succ (typeNesting_le_iff.mpr less)

theorem Method.nesting_ofFields (room : Nat) (fields : Fields) :
    Yields (Method.ofFields room fields) (·.nesting ≤ room + 1) := by
  refine .bind (.any _) fun name _ => ?_
  refine .bind (.withDefault fields _ (.decodeList (Parameter.nesting_decode .collected) room)
    (by simp)) fun ps first => ?_
  refine .bind (.optional fields _ (ResolvedType.nesting_decode .collected room))
    fun returnType second => .bind (.any _) fun modifiers _ => ?_
  refine .bind (.optional fields _ (Block.nesting_decode .collected room)) fun body third => ?_
  refine .bind (.any _) fun span _ => .pure ?_
  have parametersLess := listNesting_le_iff.mpr first
  have typeLess := typeNesting_le_iff.mpr second
  have bodyLess := bodyNesting_le_iff.mpr third
  simp only [Method.nesting]
  omega

theorem Constructor.nesting_ofFields (room : Nat) (fields : Fields) :
    Yields (Constructor.ofFields room fields) (·.nesting ≤ room + 1) := by
  refine .bind (.withDefault fields _ (.decodeList (Parameter.nesting_decode .collected) room)
    (by simp)) fun ps first => ?_
  refine .bind (.optional fields _ (Block.nesting_decode .collected room)) fun body second => ?_
  refine .bind (.any _) fun span _ => .pure ?_
  have parametersLess := listNesting_le_iff.mpr first
  have bodyLess := bodyNesting_le_iff.mpr second
  simp only [Constructor.nesting]
  omega

/-- The parts of a tagged declaration have one container less of room. -/
theorem nesting_decodeDeclaration {κ α : Type} [Enumerated κ] {access : Access} {owner : String}
    {build : Nat → κ → Content → Decoded α} {size : α → Nat}
    (built : ∀ room kind content, Yields (build room kind content) (size · ≤ room + 1))
    (room : Nat) (v : Json) : Yields (decodeDeclaration access owner build room v) (size · ≤ room) := by
  cases room with
  | zero => exact .noRoom owner v
  | succ room =>
    refine .bind (.any _) fun _ _ => .bind (.any _) fun ⟨kind, content⟩ _ => ?_
    exact built room kind content

theorem ClassMember.nesting_decode (access : Access) (room : Nat) (v : Json) :
    Yields (ClassMember.decode access room v) (·.nesting ≤ room) := by
  refine nesting_decodeDeclaration (fun room kind content => ?_) room v
  cases kind with
  | property =>
    refine .bind (.any _) fun fields _ => ?_
    exact .bind (Property.nesting_ofFields room fields) fun p less => .pure less
  | method =>
    refine .bind (.any _) fun fields _ => ?_
    exact .bind (Method.nesting_ofFields room fields) fun m less => .pure less
  | constructor =>
    refine .bind (.any _) fun fields _ => ?_
    exact .bind (Constructor.nesting_ofFields room fields) fun k less => .pure less
  | other =>
    refine .bind (.any _) fun ⟨construct, span⟩ _ => .pure ?_
    exact Nat.le_add_left 1 room

theorem Class.nesting_ofFields (room : Nat) (fields : Fields) :
    Yields (Class.ofFields room fields) (·.nesting ≤ room + 1) := by
  refine .bind (.any _) fun name _ => ?_
  refine .bind (.withDefault fields _ (.decodeList (ClassMember.nesting_decode .collected) room)
    (by simp)) fun members less => .bind (.any _) fun span _ => .pure ?_
  exact Nat.succ_le_succ (listNesting_le_iff.mpr less)

theorem EnumMember.one_le_of_decode (access : Access) (room : Nat) (v : Json) :
    Yields (EnumMember.decode access room v) fun _ => 1 ≤ room := by
  refine .decodeRecord (fun room fields => ?_) room v
  exact (Yields.any _).mono fun _ _ => Nat.le_add_left 1 room

theorem Enum.nesting_ofFields (room : Nat) (fields : Fields) :
    Yields (Enum.ofFields room fields) (·.nesting ≤ room + 1) := by
  refine .bind (.any _) fun name _ => ?_
  refine .bind (.withDefault fields _ (.decodeList (EnumMember.one_le_of_decode .collected) room)
    (by simp)) fun members less => .bind (.any _) fun span _ => .pure ?_
  exact Nat.succ_le_succ (listNesting_le_iff.mpr less)

theorem Item.nesting_decode (access : Access) (room : Nat) (v : Json) :
    Yields (Item.decode access room v) (·.nesting ≤ room) := by
  refine nesting_decodeDeclaration (fun room kind content => ?_) room v
  cases kind with
  | enumDecl =>
    refine .bind (.any _) fun fields _ => ?_
    exact .bind (Enum.nesting_ofFields room fields) fun e less => .pure less
  | classDecl =>
    refine .bind (.any _) fun fields _ => ?_
    exact .bind (Class.nesting_ofFields room fields) fun c less => .pure less
  | other =>
    refine .bind (.any _) fun ⟨construct, span⟩ _ => .pure ?_
    exact Nat.le_add_left 1 room

/-- A file that was decoded with some room does not nest more. -/
theorem File.nesting_decode (access : Access) (room : Nat) (v : Json) :
    Yields (File.decode access room v) (·.nesting ≤ room) := by
  refine .decodeRecord (fun room fields => ?_) room v
  refine .bind (.any _) fun id _ => .bind (.any _) fun path _ => .bind (.any _) fun text _ => ?_
  refine .bind (.withDefault fields _ (.decodeList (Item.nesting_decode access) room)
    (by simp)) fun items less => .pure ?_
  exact Nat.succ_le_succ (listNesting_le_iff.mpr less)

end NeutralSchema.Tree
