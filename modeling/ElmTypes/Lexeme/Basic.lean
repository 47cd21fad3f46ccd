import ElmTypes.Token.Basic

namespace ElmTypes

inductive Unfinished where
  | escape | string | character | comment | shader
deriving DecidableEq

def Unfinished.text : Unfinished → String
  | .escape => "an escape sequence"
  | .string => "a string literal"
  | .character => "a character literal"
  | .comment => "a block comment"
  | .shader => "a shader block"

inductive LexicalCause where
  | unexpectedCharacter (c : Char)
  | emptyInteger (text : String)
  | hugeInteger (text : String)
  | malformedFloat (text : String)
  | invalidEscape (text : String)
  | notOneCharacter
  | unfinished (what : Unfinished)
deriving DecidableEq

namespace LexicalCause

def message : LexicalCause → String
  | .unexpectedCharacter c => s!"unexpected character `{c}`"
  | .emptyInteger text | .hugeInteger text => s!"could not parse {text} as an integer"
  | .malformedFloat text => s!"could not parse {text} as a float"
  | .invalidEscape text => "invalid escape `\\" ++ text ++ "`"
  | .notOneCharacter => "a character literal must contain exactly one character"
  | .unfinished what => s!"unexpected end of file while lexing {what.text}"

def notes : LexicalCause → List String
  | .emptyInteger _ => ["str::parse says: cannot parse integer from empty string"]
  | .hugeInteger _ => ["str::parse says: number too large to fit in target type"]
  | .malformedFloat _ => ["str::parse says: invalid float literal"]
  | _ => []

end LexicalCause

structure LexicalError where
  cause : LexicalCause
  span : Span
deriving DecidableEq

def LexicalError.shift (n : Nat) (e : LexicalError) : LexicalError := ⟨e.cause, e.span.shift n⟩

/-- A lexeme by the token it is, none for blanks and comments, and the number of its characters
after the first. -/
structure Lexeme where
  kind : Option TokenKind
  tail : Nat
deriving DecidableEq

namespace Lexeme

def token (kind : TokenKind) (tail : List Char) : Lexeme := ⟨some kind, tail.length⟩

def single (kind : TokenKind) : Lexeme := ⟨some kind, 0⟩

def skipped (tail : Nat) : Lexeme := ⟨none, tail⟩

def place (l : Lexeme) (offset column : Nat) : List Token :=
  l.kind.toList.map fun kind => ⟨kind, ⟨offset, l.tail + 1⟩, column⟩

end Lexeme

end ElmTypes
