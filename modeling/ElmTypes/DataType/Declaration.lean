import ElmTypes.DataType.Basic

namespace ElmTypes

structure Constructor where
  name : String
  arguments : List DataType
deriving DecidableEq

inductive TypeDecl where
  | alias (name : String) (parameters : List String) (type : DataType)
  | custom (name : String) (parameters : List String) (first : Constructor)
      (rest : List Constructor)
deriving DecidableEq

def Constructor.text (c : Constructor) : String :=
  DataType.applied c.name (DataType.argumentTexts c.arguments)

namespace TypeDecl

def name : TypeDecl → String
  | .alias name .. | .custom name .. => name

def parameters : TypeDecl → List String
  | .alias _ parameters _ | .custom _ parameters _ _ => parameters

def constructors : TypeDecl → List Constructor
  | .alias .. => []
  | .custom _ _ first rest => first :: rest

def text : TypeDecl → String
  | .alias name parameters type =>
      "type alias " ++ " ".intercalate (name :: parameters) ++ " = " ++ type.text
  | .custom name parameters first rest =>
      "type " ++ " ".intercalate (name :: parameters) ++ " = "
        ++ " | ".intercalate ((first :: rest).map Constructor.text)

end TypeDecl

end ElmTypes
