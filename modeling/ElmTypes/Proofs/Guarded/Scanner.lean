import ElmTypes.Proofs.Guarded.Fault
import ElmTypes.Lexeme.Scan

namespace ElmTypes.Guarded

structure Piece where
  kind : Option TokenKind
  span : Span
  column : Nat
deriving DecidableEq

structure Tape where
  text : List Char
  position : Nat
  lineStart : Nat

abbrev Scanner := Run LexicalError Tape

namespace Scanner

open Lexeme

variable {α : Type}

def position : Scanner Nat := return (← get).position

def peekAt (n : Nat) : Scanner (Option Char) := do
  let t ← get
  return t.text[t.position + n]?

def comesNext (mark : List Char) : Scanner Bool := do
  let t ← get
  return mark.isPrefixOf (t.text.drop t.position)

def next : Scanner (Option Char) := do
  let t ← get
  match t.text[t.position]? with
  | none => return none
  | some c => do
      set { t with
        position := t.position + 1
        lineStart := if c = '\n' then t.position + 1 else t.lineStart }
      return some c

def nextIf (p : Char → Bool) : Scanner (Option Char) := do
  match ← peekAt 0 with
  | none => return none
  | some c => if p c then next else return none

def skip : (count : Nat) → Scanner Unit
  | 0 => return
  | count + 1 => do
      let _ ← next
      skip count

def columnOf (index : Nat) : Scanner Nat := do minus index (← get).lineStart

def lengthFrom (start : Nat) : Scanner Nat := do minus (← position) start

def failFrom (start : Nat) (cause : LexicalCause) : Scanner α := do
  let length ← lengthFrom start
  fail ⟨cause, ⟨start, length⟩⟩

def bounded (read : Nat → Scanner α) : Scanner α := do
  let t ← get
  read ((t.text.drop t.position).length + 1)

def takeWhileAt (p : Char → Bool) : (bound : Nat) → Scanner (List Char)
  | 0 => fault .endless
  | bound + 1 => do
      match ← nextIf p with
      | none => return []
      | some c => do
          let cs ← takeWhileAt p bound
          return c :: cs

def takeWhile (p : Char → Bool) : Scanner (List Char) := bounded (takeWhileAt p)

def textFrom (text : List Char) (start : Nat) : Scanner (List Char) :=
  if start ≤ text.length then return text.drop start else fault .outside

def segments : (bound : Nat) → (name : List Char) → Scanner (List Char)
  | 0, _ => fault .endless
  | bound + 1, name => do
      let start := name.length
      let name := name ++ (← takeWhile Name.canContinue)
      let segment ← textFrom name start
      let goesOn := (← peekAt 0) == some '.' && (← peekAt 1).any Unicode.isAlphabetic
      if segment.head?.any Unicode.isUppercase && goesOn then
        let dot ← next
        segments bound (name ++ [dot.getD '.'])
      else
        return name

def word : Scanner (Option TokenKind) := do
  let name ← bounded fun bound => segments bound []
  return some (.word (String.ofList name))

def floatRest : (bound : Nat) → Scanner (List Char)
  | 0 => fault .endless
  | bound + 1 => do
      match ← nextIf fun c => c.isDigit || c == '.' || c == 'e' with
      | none => return []
      | some c => do
          let sign ← if c = 'e' then nextIf (fun c => c == '-' || c == '+') else pure none
          let cs ← floatRest bound
          return c :: (sign.toList ++ cs)

def literal (start : Nat) : Except LexicalCause TokenKind → Scanner (Option TokenKind)
  | .ok kind => return some kind
  | .error cause => failFrom start cause

def number (start : Nat) : Scanner (Option TokenKind) := do
  if ← comesNext ['0', 'x'] then
    skip 2
    let digits ← takeWhile Digits.isHex
    literal start (Number.integer? 16 "0x" digits)
  else
    let digits ← takeWhile Char.isDigit
    let hasFraction := (← peekAt 0) == some '.' && (← peekAt 1).any Char.isDigit
    let hasExponent := (← peekAt 0) == some 'e'
    if hasFraction || hasExponent then
      let rest ← bounded floatRest
      literal start (Number.float? (digits ++ rest))
    else
      literal start (Number.integer? 10 "" digits)

def escape (start : Nat) : Scanner Char := do
  match ← next with
  | none => failFrom start (.unfinished .escape)
  | some c =>
      if c == 'u' && (← peekAt 0) == some '{' then
        let _ ← next
        let hex ← takeWhile fun c => c != '}' && c != '\n'
        let closed := (← nextIf (· == '}')).isSome
        match (Quoted.scalar? hex).filter fun _ => closed with
        | some c => return c
        | none => failFrom start (.invalidEscape ("u\x7b" ++ String.ofList hex ++ "\x7d"))
      else
        match Quoted.control? c with
        | some d => return d
        | none => failFrom start (.invalidEscape c.toString)

def quoted (q : Quoted.Quote) (start : Nat) : (bound : Nat) → Scanner (List Char)
  | 0 => fault .endless
  | bound + 1 => do
      if ← comesNext q.mark then
        skip q.mark.length
        return []
      let here ← position
      let unfinished : Scanner (List Char) := do
        let length ← minus here start
        fail ⟨.unfinished q.unfinished, ⟨start, length⟩⟩
      match ← next with
      | none => unfinished
      | some c =>
          if c = '\\' then
            let d ← escape here
            let ds ← quoted q start bound
            return d :: ds
          else if c = '\n' && !q.spansLines then unfinished
          else
            let ds ← quoted q start bound
            return c :: ds

def string (start : Nat) : Scanner (Option TokenKind) := do
  let q := if ← comesNext Quoted.Quote.triple.mark then Quoted.Quote.triple else .double
  skip q.mark.length
  let text ← bounded (quoted q start)
  return some (.string (String.ofList text))

def character (start : Nat) : Scanner (Option TokenKind) := do
  skip 1
  let text ← bounded (quoted .apostrophe start)
  match text with
  | [c] => return some (.char c)
  | _ => failFrom start .notOneCharacter

def closeComments (start : Nat) : (bound depth : Nat) → Scanner Unit
  | 0, _ => fault .endless
  | bound + 1, depth => do
      if ← comesNext ['{', '-'] then
        skip 2
        closeComments start bound (depth + 1)
      else if ← comesNext ['-', '}'] then
        skip 2
        let depth ← minus depth 1
        if depth = 0 then return else closeComments start bound depth
      else
        match ← next with
        | none => fail ⟨.unfinished .comment, ⟨start, 2⟩⟩
        | some _ => closeComments start bound depth

def blockComment (start : Nat) : Scanner (Option TokenKind) := do
  bounded fun bound => closeComments start bound 0
  return none

def lineComment : Scanner (Option TokenKind) := do
  let _ ← takeWhile fun c => c != '\n' && c != '\r'
  return none

def shaderText (start : Nat) : (bound : Nat) → Scanner (List Char)
  | 0 => fault .endless
  | bound + 1 => do
      if ← comesNext ['|', ']'] then return []
      match ← next with
      | none => fail ⟨.unfinished .shader, ⟨start, Shader.mark.length + 1⟩⟩
      | some c => do
          let cs ← shaderText start bound
          return c :: cs

def shader (start : Nat) : Scanner (Option TokenKind) := do
  skip (Shader.mark.length + 1)
  let text ← bounded (shaderText start)
  skip 2
  return some (.string (String.ofList text))

def operator : Scanner (Option TokenKind) := do
  let text ← takeWhile isOperator
  return some (.ofOperator (String.ofList text))

def single (kind : Option TokenKind) : Scanner (Option TokenKind) := do
  let _ ← next
  return kind

def kindOf (c : Char) (start : Nat) : Scanner (Option TokenKind) := do
  let second ← peekAt 1
  let atShader ← comesNext ('[' :: Shader.mark)
  if Name.canBegin c then word
  else if c.isDigit then number start
  else if c = '"' then string start
  else if c = '\'' then character start
  else if c = '{' && second = some '-' then blockComment start
  else if c = '-' && second = some '-' then lineComment
  else if atShader then shader start
  else match delimiter? c with
    | some kind => single (some kind)
    | none =>
        if isOperator c then operator
        else if isBlank c then single none
        else fail ⟨.unexpectedCharacter c, ⟨start, 1⟩⟩

def piece (c : Char) : Scanner Piece := do
  let start ← position
  let column ← columnOf start
  let kind ← kindOf c start
  let length ← lengthFrom start
  return ⟨kind, ⟨start, length⟩, column⟩

def pieces : (bound : Nat) → Scanner (List Piece)
  | 0 => fault .endless
  | bound + 1 => do
      match ← peekAt 0 with
      | none => return []
      | some c => do
          let p ← piece c
          let ps ← pieces bound
          return if p.kind.isSome then p :: ps else ps

end Scanner

def lex (source : String) : Except (Stop LexicalError) (List Piece) :=
  match (Scanner.bounded Scanner.pieces).run ⟨source.toList, 0, 0⟩ with
  | .ok ps _ => .ok ps
  | .error e _ => .error e

end ElmTypes.Guarded
