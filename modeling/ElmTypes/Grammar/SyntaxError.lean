import ElmTypes.Grammar.Expected
import ElmTypes.Lexeme.Basic

namespace ElmTypes

inductive SyntaxCause where
  | lexical (cause : LexicalCause)
  | unexpectedToken (found : TokenKind) (expected : List Expected)
  | unexpectedEnd (expected : List Expected)
  | qualifiedName (name : String)
  | indented (found : TokenKind)
  | danglingSignature (name : String) (found : Option TokenKind)
  | missingBody (name : String)

namespace SyntaxCause

def message : SyntaxCause → String
  | .lexical cause => cause.message
  | .unexpectedToken found _ | .indented found => "unexpected token `" ++ found.text ++ "`"
  | .unexpectedEnd _ => "unexpected end of file"
  | .qualifiedName name => "expected an unqualified name, found `" ++ name ++ "`"
  | .danglingSignature name _ =>
      "the type annotation for `" ++ name ++ "` is not followed by its definition"
  | .missingBody name => "`" ++ name ++ "` has no body"

def expectedNotes : List Expected → List String
  | [] => []
  | e :: es => ["expected " ++ ", ".intercalate ((e :: es).map Expected.text)]

def notes : SyntaxCause → List String
  | .lexical cause => cause.notes
  | .unexpectedToken _ expected | .unexpectedEnd expected => expectedNotes expected
  | .qualifiedName _ => ["names being declared cannot have a module prefix"]
  | .indented _ => ["top-level declarations must start at the beginning of a line"]
  | .danglingSignature _ (some found) => ["found `" ++ found.text ++ "` instead"]
  | .danglingSignature _ none => ["found the end of the file instead"]
  | .missingBody _ => []

end SyntaxCause

structure SyntaxError where
  cause : SyntaxCause
  span : Span

namespace SyntaxError

def message (e : SyntaxError) : String := e.cause.message

def notes (e : SyntaxError) : List String := e.cause.notes

def ofLexical (e : LexicalError) : SyntaxError := ⟨.lexical e.cause, e.span⟩

end SyntaxError

end ElmTypes
