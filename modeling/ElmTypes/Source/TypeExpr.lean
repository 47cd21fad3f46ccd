import ElmTypes.Source.TypeName
import ElmTypes.Text.Phrase

namespace ElmTypes

structure RecordField (α : Type) where
  name : String
  type : α
  span : Span

inductive TypeExpr where
  | variable (name : String) (span : Span)
  | named (name : TypeName) (arguments : List TypeExpr) (span : Span)
  | unit (span : Span)
  | tuple (elements : List TypeExpr) (span : Span)
  | record (fields : List (RecordField TypeExpr)) (span : Span)
  | extensible (base : String) (fields : List (RecordField TypeExpr)) (span : Span)
  | function (domain codomain : TypeExpr) (span : Span)

namespace TypeExpr

def span : TypeExpr → Span
  | .variable _ s | .named _ _ s | .unit s | .tuple _ s | .record _ s | .extensible _ _ s
  | .function _ _ s => s

def withSpan (s : Span) : TypeExpr → TypeExpr
  | .variable name _ => .variable name s
  | .named name arguments _ => .named name arguments s
  | .unit _ => .unit s
  | .tuple elements _ => .tuple elements s
  | .record fields _ => .record fields s
  | .extensible base fields _ => .extensible base fields s
  | .function domain codomain _ => .function domain codomain s

@[simp] theorem span_withSpan (s : Span) (a : TypeExpr) : (a.withSpan s).span = s := by
  cases a <;> rfl

def isCompound : TypeExpr → Bool
  | .named _ arguments _ => !arguments.isEmpty
  | .function .. => true
  | _ => false

def isFunction : TypeExpr → Bool
  | .function .. => true
  | _ => false

mutual

def text : TypeExpr → String
  | .variable name _ => name
  | .named name arguments _ => " ".intercalate (name.text :: argumentTexts arguments)
  | .unit _ => "()"
  | .tuple elements _ => "( " ++ ", ".intercalate (elementTexts elements) ++ " )"
  | .record [] _ => "\x7b\x7d"
  | .record (field :: fields) _ =>
      "\x7b " ++ ", ".intercalate (fieldTexts (field :: fields)) ++ " \x7d"
  | .extensible base fields _ =>
      "\x7b " ++ base ++ " | " ++ ", ".intercalate (fieldTexts fields) ++ " \x7d"
  | .function domain codomain _ =>
      parenthesize domain.isFunction domain.text ++ " -> " ++ codomain.text

def argumentTexts : List TypeExpr → List String
  | [] => []
  | a :: as => parenthesize a.isCompound a.text :: argumentTexts as

def elementTexts : List TypeExpr → List String
  | [] => []
  | a :: as => a.text :: elementTexts as

def fieldTexts : List (RecordField TypeExpr) → List String
  | [] => []
  | ⟨name, a, _⟩ :: fields => (name ++ " : " ++ a.text) :: fieldTexts fields

end

mutual

def mapNames (f : TypeName → TypeName) : TypeExpr → TypeExpr
  | .variable name s => .variable name s
  | .named name arguments s => .named (f name) (mapNamesAll f arguments) s
  | .unit s => .unit s
  | .tuple elements s => .tuple (mapNamesAll f elements) s
  | .record fields s => .record (mapNamesFields f fields) s
  | .extensible base fields s => .extensible base (mapNamesFields f fields) s
  | .function domain codomain s => .function (domain.mapNames f) (codomain.mapNames f) s

def mapNamesAll (f : TypeName → TypeName) : List TypeExpr → List TypeExpr
  | [] => []
  | a :: as => a.mapNames f :: mapNamesAll f as

def mapNamesFields (f : TypeName → TypeName) :
    List (RecordField TypeExpr) → List (RecordField TypeExpr)
  | [] => []
  | ⟨name, a, s⟩ :: fields => ⟨name, a.mapNames f, s⟩ :: mapNamesFields f fields

end

theorem mapNamesAll_eq_map (f : TypeName → TypeName) (as : List TypeExpr) :
    mapNamesAll f as = as.map (mapNames f) := by
  induction as with
  | nil => rfl
  | cons a as ih => simp [mapNamesAll, ih]

@[simp] theorem span_mapNames (f : TypeName → TypeName) (a : TypeExpr) :
    (a.mapNames f).span = a.span := by
  cases a <;> simp [mapNames, span]

end TypeExpr

end ElmTypes
