import ElmTypes.Source.TypeExpr

namespace ElmTypes

structure Variant where
  name : String
  arguments : List TypeExpr
  span : Span

inductive Associativity where
  | left | right | non
deriving DecidableEq

inductive Declared where
  | alias (name : String) (parameters : List String) (type : TypeExpr)
  | custom (name : String) (parameters : List String) (variants : List Variant)
  | value (name : String) (signature : Option TypeExpr)
  | port (name : String) (type : TypeExpr)
  | fixity (associativity : Associativity) (precedence : Nat) (operator function : String)

structure Declaration where
  declared : Declared
  span : Span

namespace Declared

def description : Declared → String
  | .alias .. => "type alias"
  | .custom .. => "custom type"
  | .value .. => "function declaration"
  | .port .. => "port declaration"
  | .fixity .. => "infix declaration"

def name : Declared → String
  | .alias name .. | .custom name .. | .value name _ | .port name _ => name
  | .fixity _ _ operator _ => "(" ++ operator ++ ")"

def typeName? : Declared → Option String
  | .alias name .. | .custom name .. => some name
  | _ => none

def mapNames (f : TypeName → TypeName) : Declared → Declared
  | .alias name parameters type => .alias name parameters (type.mapNames f)
  | .custom name parameters variants =>
      .custom name parameters
        (variants.map fun v => { v with arguments := v.arguments.map (TypeExpr.mapNames f) })
  | .value name signature => .value name (signature.map (TypeExpr.mapNames f))
  | .port name type => .port name (type.mapNames f)
  | .fixity associativity precedence operator function =>
      .fixity associativity precedence operator function

@[simp] theorem typeName?_mapNames (f : TypeName → TypeName) (d : Declared) :
    (d.mapNames f).typeName? = d.typeName? := by
  cases d <;> rfl

end Declared

def Declaration.mapNames (f : TypeName → TypeName) (d : Declaration) : Declaration :=
  ⟨d.declared.mapNames f, d.span⟩

end ElmTypes
