import ElmTypes.Lexeme.Basic
import ElmTypes.Number.Digits

namespace ElmTypes.Lexeme.Number

def bound : Nat := 0x8000000000000000

def integer? (base : Nat) (marker : String) (digits : List Char) : Except LexicalCause TokenKind :=
  if digits.isEmpty then .error (.emptyInteger (marker ++ String.ofList digits))
  else if Digits.toNat base digits < bound then .ok (.integer (Digits.toNat base digits))
  else .error (.hugeInteger (marker ++ String.ofList digits))

def digits? (text : List Char) : Option Nat :=
  if text.isEmpty || !text.all Char.isDigit then none else some (Digits.toNat 10 text)

def exponent? : List Char → Option Int
  | [] => some 0
  | 'e' :: '-' :: digits => (digits? digits).map fun n => -n
  | 'e' :: '+' :: digits => (digits? digits).map fun n => n
  | 'e' :: digits => (digits? digits).map fun n => n
  | _ => none

def decimal? (text : List Char) : Option Decimal :=
  let whole := text.takeWhile Char.isDigit
  match text.dropWhile Char.isDigit with
  | '.' :: rest =>
      let fraction := rest.takeWhile Char.isDigit
      (exponent? (rest.dropWhile Char.isDigit)).map fun e =>
        ⟨Digits.toNat 10 (whole ++ fraction), e - fraction.length⟩
  | rest => (exponent? rest).map fun e => ⟨Digits.toNat 10 whole, e⟩

def float? (text : List Char) : Except LexicalCause TokenKind :=
  match decimal? text with
  | some d => .ok (.float (.ofDecimal d.coefficient d.exponent))
  | none => .error (.malformedFloat (String.ofList text))

def isFraction : List Char → Bool
  | '.' :: c :: _ => c.isDigit
  | 'e' :: _ => true
  | _ => false

def floatTail : List Char → List Char
  -- a sign belongs to the number only right after an `e`
  | 'e' :: '-' :: cs => 'e' :: '-' :: floatTail cs
  | 'e' :: '+' :: cs => 'e' :: '+' :: floatTail cs
  | c :: cs => if c.isDigit || c == '.' || c == 'e' then c :: floatTail cs else []
  | [] => []

def literal (tail : List Char) : Except LexicalCause TokenKind → Except LexicalError Lexeme
  | .ok kind => .ok (.token kind tail)
  | .error cause => .error ⟨cause, ⟨0, tail.length + 1⟩⟩

def read (c : Char) (cs : List Char) : Except LexicalError Lexeme :=
  if c = '0' && cs.head? = some 'x' then
    let digits := (cs.drop 1).takeWhile Digits.isHex
    literal ('x' :: digits) (integer? 16 "0x" digits)
  else
    let digits := cs.takeWhile Char.isDigit
    let rest := cs.dropWhile Char.isDigit
    if isFraction rest then
      let tail := digits ++ floatTail rest
      literal tail (float? (c :: tail))
    else literal digits (integer? 10 "" (c :: digits))

end ElmTypes.Lexeme.Number
