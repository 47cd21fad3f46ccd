import ElmTypes.Container
import ElmTypes.Text.Phrase

namespace ElmTypes

inductive Construct where
  | unit
  | extensible
  | function
  | declaration (kind name : String)
deriving DecidableEq

def Construct.text : Construct → String
  | .unit => "the unit type `()`"
  | .extensible => "extensible record"
  | .function => "function type"
  | .declaration kind name => kind ++ " `" ++ name ++ "`"

inductive ProblemCause where
  | unsupported (construct : Construct)
  | wrongArity (container : Container) (given : Nat)
  | noConstructors (name : String)
deriving DecidableEq

namespace ProblemCause

def message : ProblemCause → String
  | .unsupported construct => "unsupported construct: " ++ construct.text
  | .wrongArity container given =>
      "invalid arity: `" ++ container.name ++ "` expects "
        ++ counted container.arity "type argument" ++ ", but was given " ++ toString given
  | .noConstructors name => "custom type `" ++ name ++ "` has no constructors"

def label : ProblemCause → String
  | .unsupported _ => "not supported"
  | .wrongArity _ given => "given " ++ counted given "type argument"
  | .noConstructors _ => "declared without constructors"

def help : ProblemCause → String
  | .unsupported .unit => "use a record or a custom type instead"
  | .unsupported .extensible => "write out every field of the record"
  | .unsupported .function => "only data can be described; functions cannot"
  | .unsupported (.declaration ..) => "only `type` and `type alias` declarations are supported"
  | .wrongArity container _ =>
      "write `" ++ container.name ++ "` followed by " ++ counted container.arity "type argument"
  | .noConstructors name => "add a constructor, ex. `type " ++ name ++ " = " ++ name ++ "`"

end ProblemCause

structure Problem where
  cause : ProblemCause
  span : Span
deriving DecidableEq

end ElmTypes
