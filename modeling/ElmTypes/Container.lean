import ElmTypes.Source.TypeName

namespace ElmTypes

inductive Container where
  | list | maybe | dict | result
deriving DecidableEq

namespace Container

def all : List Container := [.list, .maybe, .dict, .result]

def name : Container → String
  | .list => "List"
  | .maybe => "Maybe"
  | .dict => "Dict"
  | .result => "Result"

def arity : Container → Nat
  | .list | .maybe => 1
  | .dict | .result => 2

def named? (name : String) : Option Container := all.find? fun c => c.name == name

def ofTypeName? (n : TypeName) : Option Container := all.find? fun c => n.refersTo c.name c.name

end Container

end ElmTypes
