import ElmTypes.Lexeme.Comment
import ElmTypes.Lexeme.Name
import ElmTypes.Lexeme.Number
import ElmTypes.Lexeme.Quoted
import ElmTypes.Lexeme.Shader

namespace ElmTypes.Lexeme

def isOperator (c : Char) : Bool :=
  ['+', '-', '*', '/', '=', '<', '>', '!', '&', '|', ':', '^', '%', '.', '$', '#', '~', '?', '@',
    '\\'].contains c

def isBlank (c : Char) : Bool := c == ' ' || c == '\t' || c == '\n' || c == '\r'

def delimiter? : Char → Option TokenKind
  | '(' => some (.opening .round)
  | ')' => some (.closing .round)
  | '{' => some (.opening .brace)
  | '}' => some (.closing .brace)
  | '[' => some (.opening .square)
  | ']' => some (.closing .square)
  | ',' => some (.symbol .comma)
  | _ => none

def readOperator (c : Char) (cs : List Char) : Lexeme :=
  let tail := cs.takeWhile isOperator
  .token (.ofOperator (String.ofList (c :: tail))) tail

def scan (c : Char) (cs : List Char) : Except LexicalError Lexeme :=
  if Name.canBegin c then .ok (Name.read c cs)
  else if c.isDigit then Number.read c cs
  else if c = '"' then Quoted.readString cs
  else if c = '\'' then Quoted.readChar cs
  else if c = '{' && cs.head? = some '-' then Comment.readBlock cs
  else if c = '-' && cs.head? = some '-' then .ok (.skipped (Comment.line cs).length)
  else if c = '[' && Shader.mark.isPrefixOf cs then Shader.read cs
  else match delimiter? c with
    | some kind => .ok (.single kind)
    | none =>
        if isOperator c then .ok (readOperator c cs)
        else if isBlank c then .ok (.skipped 0)
        else .error ⟨.unexpectedCharacter c, ⟨0, 1⟩⟩

end ElmTypes.Lexeme
