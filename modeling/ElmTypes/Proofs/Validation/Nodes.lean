import ElmTypes.DataType.OfSource
import ElmTypes.Proofs.Source.Induction

namespace ElmTypes

inductive Node where
  | declaration (d : Declaration)
  | type (e : TypeExpr)

namespace Node

def problem? : Node → Option Problem
  | .declaration ⟨.alias .., _⟩ => none
  | .declaration ⟨.custom name _ [], span⟩ => some ⟨.noConstructors name, span⟩
  | .declaration ⟨.custom _ _ (_ :: _), _⟩ => none
  | .declaration ⟨declared, span⟩ =>
      some ⟨.unsupported (.declaration declared.description declared.name), span⟩
  | .type (.unit span) => some ⟨.unsupported .unit, span⟩
  | .type (.extensible _ _ span) => some ⟨.unsupported .extensible, span⟩
  | .type (.function _ _ span) => some ⟨.unsupported .function, span⟩
  | .type (.named n arguments span) =>
      match Container.ofTypeName? n with
      | some c =>
          if arguments.length = c.arity then none
          else some ⟨.wrongArity c arguments.length, span⟩
      | none => none
  | .type _ => none

def isOffending (n : Node) : Bool := n.problem?.isSome

/-- Whether the node is rejected without a look at what stands inside it. -/
def isOpaque : Node → Bool
  | .declaration ⟨declared, _⟩ => declared.typeName?.isNone
  | .type (.extensible ..) | .type (.function ..) => true
  | .type _ => false

end Node

def Declared.types : Declared → List TypeExpr
  | .alias _ _ type | .port _ type => [type]
  | .custom _ _ variants => variants.flatMap Variant.arguments
  | .value _ signature => signature.toList
  | .fixity .. => []

theorem Declared.types_mapNames (f : TypeName → TypeName) (d : Declared) :
    (d.mapNames f).types = d.types.map (TypeExpr.mapNames f) := by
  cases d with
  | custom name parameters variants =>
      simp [Declared.mapNames, types, List.flatMap_map, List.map_flatMap]
  | value name signature => cases signature <;> rfl
  | _ => rfl

structure Visit where
  node : Node
  around : List Node

namespace TypeExpr

mutual

def visits (around : List Node) : TypeExpr → List Visit
  | .variable name s => [⟨.type (.variable name s), around⟩]
  | .named n arguments s =>
      ⟨.type (.named n arguments s), around⟩
        :: visitsAll (.type (.named n arguments s) :: around) arguments
  | .unit s => [⟨.type (.unit s), around⟩]
  | .tuple elements s =>
      ⟨.type (.tuple elements s), around⟩
        :: visitsAll (.type (.tuple elements s) :: around) elements
  | .record fields s =>
      ⟨.type (.record fields s), around⟩
        :: visitsFields (.type (.record fields s) :: around) fields
  | .extensible base fields s =>
      ⟨.type (.extensible base fields s), around⟩
        :: visitsFields (.type (.extensible base fields s) :: around) fields
  | .function domain codomain s =>
      ⟨.type (.function domain codomain s), around⟩
        :: (domain.visits (.type (.function domain codomain s) :: around)
          ++ codomain.visits (.type (.function domain codomain s) :: around))

def visitsAll (around : List Node) : List TypeExpr → List Visit
  | [] => []
  | e :: es => e.visits around ++ visitsAll around es

def visitsFields (around : List Node) : List (RecordField TypeExpr) → List Visit
  | [] => []
  | ⟨_, e, _⟩ :: fields => e.visits around ++ visitsFields around fields

end

theorem visitsAll_eq_flatMap (around : List Node) (es : List TypeExpr) :
    visitsAll around es = es.flatMap (visits around) := by
  induction es with
  | nil => rfl
  | cons e es ih => simp [visitsAll, ih]

theorem visitsFields_eq_flatMap (around : List Node) (fields : List (RecordField TypeExpr)) :
    visitsFields around fields = (fields.map RecordField.type).flatMap (visits around) := by
  induction fields with
  | nil => rfl
  | cons f fields ih => simp [visitsFields, ih]

theorem visits_eq_cons (around : List Node) (e : TypeExpr) :
    e.visits around =
      ⟨.type e, around⟩ :: e.parts.flatMap (visits (.type e :: around)) := by
  cases e <;> simp [visits, parts, visitsAll_eq_flatMap, visitsFields_eq_flatMap]

end TypeExpr

namespace Visit

/-- Whether the node is a container with the wrong number of arguments, one of which holds an
offending node. -/
def isDeferred : Visit → Bool
  | ⟨.type (.named _ arguments _), _⟩ =>
      (TypeExpr.visitsAll [] arguments).any fun v => v.node.isOffending
  | _ => false

/-- Whether the node is to be reported: it is offending, it can be seen from outside, and nothing
inside it has to be put right first. -/
def isReported (v : Visit) : Bool :=
  v.node.isOffending && v.around.all (!·.isOpaque) && !v.isDeferred

end Visit

def Declaration.visits (d : Declaration) : List Visit :=
  ⟨.declaration d, []⟩ :: TypeExpr.visitsAll [.declaration d] d.declared.types

def SourceFile.visits (f : SourceFile) : List Visit := f.declarations.flatMap Declaration.visits

end ElmTypes
