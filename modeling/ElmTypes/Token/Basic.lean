import ElmTypes.Number.Decimal
import ElmTypes.Span
import ElmTypes.Text.Quoted

namespace ElmTypes

inductive Bracket where
  | brace | round | square
deriving DecidableEq

namespace Bracket

def opening : Bracket → Char
  | .brace => '{'
  | .round => '('
  | .square => '['

def closing : Bracket → Char
  | .brace => '}'
  | .round => ')'
  | .square => ']'

end Bracket

inductive Symbol where
  | comma | equals | bar | arrow | colon | dots
deriving DecidableEq

namespace Symbol

def text : Symbol → String
  | .comma => ","
  | .equals => "="
  | .bar => "|"
  | .arrow => "->"
  | .colon => ":"
  | .dots => ".."

def operators : List Symbol := [.equals, .bar, .arrow, .colon, .dots]

def ofOperator? (operator : String) : Option Symbol := operators.find? fun s => s.text == operator

end Symbol

inductive TokenKind where
  | word (text : String)
  | opening (bracket : Bracket)
  | closing (bracket : Bracket)
  | integer (value : Nat)
  | float (value : Binary64)
  | string (text : String)
  | char (value : Char)
  | symbol (symbol : Symbol)
  | operator (text : String)
deriving DecidableEq

namespace TokenKind

def floatLayout : Decimal.Layout := ⟨-4, 16⟩

def text : TokenKind → String
  | .word text => text
  | .opening bracket => bracket.opening.toString
  | .closing bracket => bracket.closing.toString
  | .integer value => toString value
  | .float value => value.render floatLayout
  | .string text => Quoted.string text
  | .char value => Quoted.char value
  | .symbol s => s.text
  | .operator text => text

def ofOperator (operator : String) : TokenKind :=
  match Symbol.ofOperator? operator with
  | some s => .symbol s
  | none => .operator operator

end TokenKind

structure Token where
  kind : TokenKind
  span : Span
  column : Nat
deriving DecidableEq

namespace Token

def startsDeclaration (t : Token) : Bool := t.column == 0

end Token

end ElmTypes
