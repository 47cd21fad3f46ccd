import ElmTypes.Check
import ElmTypes.Text.Phrase

namespace ElmTypes

inductive Level where
  | trace | info | warning | error
deriving DecidableEq

def Level.text : Level → String
  | .trace => "trace"
  | .info => "info"
  | .warning => "warning"
  | .error => "error"

inductive Event where
  | lexing (characters : Nat)
  | parsing (tokens : Nat)
  | resolving (module : String)
  | classifying (description : String)
  | collision (container : Container)
  | validated (types : Nat)
  | rejected (problems : Nat)
deriving DecidableEq

namespace Event

def level : Event → Level
  | .collision _ => .warning
  | _ => .trace

def text : Event → String
  | .lexing characters => "lexing " ++ toString characters ++ " characters"
  | .parsing tokens => "parsing " ++ toString tokens ++ " tokens"
  | .resolving module => "resolving names in module " ++ module
  | .classifying description => "classifying " ++ description
  | .collision container =>
      "`" ++ container.name ++ "` has the same name as the built-in `" ++ container.name ++ "."
        ++ container.name ++ "`; references to it in this module mean the local type"
  | .validated types => "validated " ++ toString types ++ " type declarations"
  | .rejected problems => "validation found " ++ toString problems ++ " problems"

def ofDeclaration (d : Declaration) : List Event :=
  .classifying d.declared.description
    :: (d.declared.typeName?.bind Container.named?).toList.map .collision

def ofTypes : Validated Problem (List TypeDecl) → Event
  | .ok types => .validated types.length
  | .error problems => .rejected problems.length

end Event

def journal (source : String) : List Event :=
  .lexing source.length ::
    match lex source with
    | .error _ => []
    | .ok tokens =>
        .parsing tokens.length ::
          match SourceFile.ofTokens tokens with
          | .error _ => []
          | .ok file =>
              .resolving file.moduleName
                :: file.declarations.flatMap Event.ofDeclaration
                ++ [.ofTypes (TypeDecl.ofFile file.resolve)]

end ElmTypes
