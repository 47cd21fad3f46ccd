import ElmTypes.Token.Basic
import ElmTypes.Token.Word

namespace ElmTypes

inductive Expected where
  | keyword (keyword : Keyword)
  | lowercaseName
  | capitalisedName
  | integer
  | opening (bracket : Bracket)
  | closing (bracket : Bracket)
  | symbol (symbol : Symbol)
  | operator
  | typeExpr
  | declaration
deriving DecidableEq

namespace TokenKind

def lowercaseName? : TokenKind → Option String
  | .word text => if Word.isLowercase text then some text else none
  | _ => none

def capitalisedName? : TokenKind → Option String
  | .word text => if Word.isCapitalised text then some text else none
  | _ => none

def integer? : TokenKind → Option Nat
  | .integer value => some value
  | _ => none

def operator? : TokenKind → Option String
  | .operator text => some text
  | .symbol s => some s.text
  | _ => none

def keyword? : TokenKind → Option Keyword
  | .word text => Keyword.ofText? text
  | _ => none

end TokenKind

namespace Expected

def accepts : Expected → TokenKind → Bool
  | .keyword k, kind => kind.keyword? == some k
  | .lowercaseName, kind => kind.lowercaseName?.isSome
  | .capitalisedName, kind => kind.capitalisedName?.isSome
  | .integer, kind => kind.integer?.isSome
  | .opening b, kind => kind == .opening b
  | .closing b, kind => kind == .closing b
  | .symbol s, kind => kind == .symbol s
  | .operator, .operator _ => true
  | _, _ => false

def text : Expected → String
  | .keyword k => "`" ++ k.text ++ "`"
  | .lowercaseName => "lowercase name"
  | .capitalisedName => "capitalized name"
  | .integer => "integer literal"
  | .opening b => "`" ++ b.opening.toString ++ "`"
  | .closing b => "`" ++ b.closing.toString ++ "`"
  | .symbol s => "`" ++ s.text ++ "`"
  | .operator => "operator"
  | .typeExpr => "type annotation"
  | .declaration => "declaration"

end Expected

end ElmTypes
