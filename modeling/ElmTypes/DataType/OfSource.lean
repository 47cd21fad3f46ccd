import ElmTypes.DataType.Declaration
import ElmTypes.Problem
import ElmTypes.Source.File
import ElmTypes.Validated

namespace ElmTypes

def Container.saturated? : Container → List DataType → Option DataType
  | .list, [element] => some (.list element)
  | .maybe, [element] => some (.maybe element)
  | .dict, [key, value] => some (.dict key value)
  | .result, [error, value] => some (.result error value)
  | _, _ => none

theorem Container.isSome_saturated? (c : Container) (arguments : List DataType) :
    (c.saturated? arguments).isSome = true ↔ arguments.length = c.arity := by
  cases c <;> rcases arguments with _ | ⟨a, _ | ⟨b, _ | ⟨d, rest⟩⟩⟩ <;>
    simp [Container.saturated?, Container.arity]

namespace DataType

def ofName (n : TypeName) (arguments : List DataType) (span : Span) : Validated Problem DataType :=
  match Container.ofTypeName? n with
  | none => .ok (.base (.ofTypeName n) arguments)
  | some container =>
      match container.saturated? arguments with
      | some t => .ok t
      | none => .error [⟨.wrongArity container arguments.length, span⟩]

mutual

def ofTypeExpr : TypeExpr → Validated Problem DataType
  | .variable name _ => .ok (.base (.other name) [])
  | .named name arguments span =>
      match ofTypeExprs arguments with
      | .ok ts => ofName name ts span
      | .error ps => .error ps
  | .unit span => .error [⟨.unsupported .unit, span⟩]
  | .tuple elements _ => (ofTypeExprs elements).map .tuple
  | .record fields _ => (ofFields fields).map .record
  | .extensible _ _ span => .error [⟨.unsupported .extensible, span⟩]
  | .function _ _ span => .error [⟨.unsupported .function, span⟩]

def ofTypeExprs : List TypeExpr → Validated Problem (List DataType)
  | [] => .ok []
  | e :: es => Validated.cons (ofTypeExpr e) (ofTypeExprs es)

def ofFields : List (RecordField TypeExpr) → Validated Problem (List (String × DataType))
  | [] => .ok []
  | ⟨name, e, _⟩ :: fields =>
      Validated.cons ((ofTypeExpr e).map fun t => (name, t)) (ofFields fields)

end

theorem ofTypeExprs_eq_accumulate (es : List TypeExpr) :
    ofTypeExprs es = Validated.accumulate (es.map ofTypeExpr) := by
  induction es with
  | nil => rfl
  | cons e es ih => simp [ofTypeExprs, ih]

theorem ofFields_eq_accumulate (fields : List (RecordField TypeExpr)) :
    ofFields fields =
      Validated.accumulate (fields.map fun f => (ofTypeExpr f.type).map fun t => (f.name, t)) := by
  induction fields with
  | nil => rfl
  | cons f fields ih => simp [ofFields, ih]

end DataType

def Constructor.ofVariant (v : Variant) : Validated Problem Constructor :=
  (DataType.ofTypeExprs v.arguments).map fun arguments => ⟨v.name, arguments⟩

namespace TypeDecl

def ofConstructors (name : String) (parameters : List String) (span : Span) :
    List Constructor → Validated Problem TypeDecl
  | first :: rest => .ok (.custom name parameters first rest)
  | [] => .error [⟨.noConstructors name, span⟩]

def ofDeclaration (d : Declaration) : Validated Problem TypeDecl :=
  match d.declared with
  | .alias name parameters type => (DataType.ofTypeExpr type).map (.alias name parameters)
  | .custom name parameters variants =>
      match Validated.accumulate (variants.map Constructor.ofVariant) with
      | .ok constructors => ofConstructors name parameters d.span constructors
      | .error ps => .error ps
  | declared =>
      .error [⟨.unsupported (.declaration declared.description declared.name), d.span⟩]

def ofFile (f : SourceFile) : Validated Problem (List TypeDecl) :=
  Validated.accumulate (f.declarations.map ofDeclaration)

end TypeDecl

end ElmTypes
