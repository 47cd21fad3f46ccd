import ElmTypes.DataType.Declaration
import ElmTypes.Text.Quoted

namespace ElmTypes

inductive Outline where
  | atom (text : String)
  | list (items : List Outline)
  | tagged (tag : String) (items : List Outline)
  | labelled (tag : String) (fields : List (String × Outline))

namespace Outline

def indent (depth : Nat) : String := String.ofList (List.replicate (4 * depth) ' ')

def enclose (spread : Bool) (depth : Nat) (opening gap closing : String) (parts : List String) :
    String :=
  if spread then
    opening ++ "\n" ++ String.join (parts.map fun p => indent (depth + 1) ++ p ++ ",\n")
      ++ indent depth ++ closing
  else opening ++ gap ++ ", ".intercalate parts ++ gap ++ closing

mutual

def text (spread : Bool) (depth : Nat) : Outline → String
  | .atom text => text
  | .list [] => "[]"
  | .list (o :: os) => enclose spread depth "[" "" "]" (texts spread (depth + 1) (o :: os))
  | .tagged tag items =>
      enclose spread depth (tag ++ "(") "" ")" (texts spread (depth + 1) items)
  | .labelled tag fields =>
      enclose spread depth (tag ++ " \x7b") " " "\x7d" (fieldTexts spread (depth + 1) fields)

def texts (spread : Bool) (depth : Nat) : List Outline → List String
  | [] => []
  | o :: os => o.text spread depth :: texts spread depth os

def fieldTexts (spread : Bool) (depth : Nat) : List (String × Outline) → List String
  | [] => []
  | (name, o) :: fields => (name ++ ": " ++ o.text spread depth) :: fieldTexts spread depth fields

end

end Outline

def BaseType.outline : BaseType → Outline
  | .string => .atom "TString"
  | .int => .atom "TInt"
  | .float => .atom "TFloat"
  | .other name => .tagged "TOther" [.atom (Quoted.string name)]

namespace DataType

def typedOutline (tag : String) (parts : List Outline) : Outline :=
  .tagged "Typed" [.tagged tag parts]

mutual

def outline : DataType → Outline
  | .record fields => .tagged "Record" [.list (fieldOutlines fields)]
  | .tuple elements => .tagged "Tuple" [.list (outlines elements)]
  | .list t => typedOutline "ListDef" [t.outline]
  | .maybe t => typedOutline "MaybeDef" [t.outline]
  | .dict k v => typedOutline "DictDef" [k.outline, v.outline]
  | .result e v => typedOutline "ResultDef" [e.outline, v.outline]
  | .base b arguments => typedOutline "Type" [b.outline, .list (outlines arguments)]

def outlines : List DataType → List Outline
  | [] => []
  | t :: ts => t.outline :: outlines ts

def fieldOutlines : List (String × DataType) → List Outline
  | [] => []
  | (name, t) :: fields =>
      .labelled "Field" [("name", .atom (Quoted.string name)), ("annotation", t.outline)]
        :: fieldOutlines fields

end

end DataType

def Constructor.outline (c : Constructor) : Outline :=
  .labelled "Constructor"
    [("name", .atom (Quoted.string c.name)), ("arguments", .list (DataType.outlines c.arguments))]

def TypeDecl.outline (d : TypeDecl) : Outline :=
  let name := Outline.atom (Quoted.string d.name)
  let parameters := Outline.list (d.parameters.map fun v => .atom (Quoted.string v))
  match d with
  | .alias _ _ type =>
      .labelled "TypeAlias"
        [("name", name), ("generics", parameters), ("annotation", type.outline)]
  | .custom _ _ first rest =>
      .labelled "CustomType"
        [("name", name), ("generics", parameters), ("first", first.outline),
          ("rest", .list (rest.map Constructor.outline))]

end ElmTypes
