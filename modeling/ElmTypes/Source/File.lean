import ElmTypes.Source.Declaration

namespace ElmTypes

inductive Exposed where
  | value (name : String)
  | type (name : String) (isOpen : Bool)
  | operator (text : String)
deriving DecidableEq

inductive Exposing where
  | all
  | only (names : List Exposed)
deriving DecidableEq

inductive ModuleKind where
  | normal | port | effect
deriving DecidableEq

structure Header where
  kind : ModuleKind
  name : String
  exposing : Exposing
  span : Span
deriving DecidableEq

structure Import where
  module : String
  shortName : Option String
  exposing : Option Exposing
  span : Span
deriving DecidableEq

structure SourceFile where
  header : Option Header
  imports : List Import
  declarations : List Declaration

def SourceFile.moduleName (f : SourceFile) : String :=
  match f.header with
  | some header => header.name
  | none => "Main"

end ElmTypes
