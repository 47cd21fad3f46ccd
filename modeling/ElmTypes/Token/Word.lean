import ElmTypes.Unicode.Uppercase

namespace ElmTypes

inductive Keyword where
  | type | alias | port | module | effect | where | import | as | exposing | fixity
  | if | then | else | case | of | let | in
deriving DecidableEq

namespace Keyword

def text : Keyword → String
  | .type => "type"
  | .alias => "alias"
  | .port => "port"
  | .module => "module"
  | .effect => "effect"
  | .where => "where"
  | .import => "import"
  | .as => "as"
  | .exposing => "exposing"
  | .fixity => "infix"
  | .if => "if"
  | .then => "then"
  | .else => "else"
  | .case => "case"
  | .of => "of"
  | .let => "let"
  | .in => "in"

def all : List Keyword :=
  [.type, .alias, .port, .module, .effect, .where, .import, .as, .exposing, .fixity,
   .if, .then, .else, .case, .of, .let, .in]

def ofText? (word : String) : Option Keyword := all.find? fun k => k.text == word

def isContextual : Keyword → Bool
  | .alias | .effect | .fixity => true
  | _ => false

theorem text_of_ofText? {word : String} {k : Keyword} (h : ofText? word = some k) :
    k.text = word := by
  simpa using List.find?_some h

end Keyword

namespace Word

/-- Whether every segment between dots begins with an uppercase character; `fresh` says that a
segment is just about to begin. -/
def segmentsCapitalised (fresh : Bool) : List Char → Bool
  | [] => !fresh
  | c :: cs =>
      if fresh then Unicode.isUppercase c && segmentsCapitalised false cs
      else segmentsCapitalised (c == '.') cs

def isCapitalised (word : String) : Bool := segmentsCapitalised true word.toList

def beginsUppercase (word : String) : Bool := word.toList.head?.any Unicode.isUppercase

def isLowercase (word : String) : Bool :=
  (Keyword.ofText? word).all Keyword.isContextual
    && !word.toList.contains '.' && !beginsUppercase word

end Word

end ElmTypes
