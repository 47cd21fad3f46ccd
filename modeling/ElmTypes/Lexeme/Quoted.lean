import ElmTypes.Lexeme.Basic
import ElmTypes.Number.Digits

namespace ElmTypes.Lexeme.Quoted

inductive Quote where
  | double | triple | apostrophe
deriving DecidableEq

namespace Quote

def mark : Quote → List Char
  | .double => ['"']
  | .triple => ['"', '"', '"']
  | .apostrophe => ['\'']

def spansLines (q : Quote) : Bool := q == .triple

def unfinished : Quote → Unfinished
  | .apostrophe => .character
  | _ => .string

end Quote

def control? : Char → Option Char
  | 'n' => some '\n'
  | 'r' => some '\r'
  | 't' => some '\t'
  | '"' => some '"'
  | '\'' => some '\''
  | '\\' => some '\\'
  | _ => none

def scalar? (hex : List Char) : Option Char :=
  -- a plus sign before the digits is accepted
  let digits := if hex.head? = some '+' then hex.drop 1 else hex
  let point := Digits.toNat 16 digits
  if digits.isEmpty || !digits.all Digits.isHex then none
  else if point.isValidChar then some (Char.ofNat point)
  else none

def codePoint (cs : List Char) : Except LexicalError (Char × Nat) :=
  -- the digits end at a brace, which must be there, or at the end of the line
  let hex := cs.takeWhile fun c => c != '}' && c != '\n'
  let closed := (cs.drop hex.length).head? = some '}'
  let length := hex.length + (if closed then 3 else 2)
  match scalar? hex with
  | some c =>
      if closed then .ok (c, length)
      else .error ⟨.invalidEscape ("u\x7b" ++ String.ofList hex ++ "\x7d"), ⟨0, length + 1⟩⟩
  | none => .error ⟨.invalidEscape ("u\x7b" ++ String.ofList hex ++ "\x7d"), ⟨0, length + 1⟩⟩

def escape : List Char → Except LexicalError (Char × Nat)
  | [] => .error ⟨.unfinished .escape, ⟨0, 1⟩⟩
  | 'u' :: '{' :: cs => codePoint cs
  | c :: _ =>
      match control? c with
      | some d => .ok (d, 1)
      | none => .error ⟨.invalidEscape c.toString, ⟨0, 2⟩⟩

/-- The characters a literal stands for and its whole length, from the text after `offset` of its
characters, the next `pending` of which belong to an escape that has been read already. -/
def body (q : Quote) : (pending offset : Nat) → List Char → Except LexicalError (List Char × Nat)
  | _, offset, [] => .error ⟨.unfinished q.unfinished, ⟨0, offset⟩⟩
  | pending + 1, offset, _ :: cs => body q pending (offset + 1) cs
  | 0, offset, c :: cs =>
      if q.mark.isPrefixOf (c :: cs) then .ok ([], offset + q.mark.length)
      else if c = '\\' then
        match escape cs with
        | .error e => .error (e.shift offset)
        | .ok (d, length) => do
            let (ds, total) ← body q length (offset + 1) cs
            return (d :: ds, total)
      else if c = '\n' && !q.spansLines then .error ⟨.unfinished q.unfinished, ⟨0, offset⟩⟩
      else do
        let (ds, total) ← body q 0 (offset + 1) cs
        return (c :: ds, total)

def readString (cs : List Char) : Except LexicalError Lexeme := do
  let q := if ['"', '"'].isPrefixOf cs then Quote.triple else .double
  let (text, total) ← body q 0 q.mark.length (cs.drop (q.mark.length - 1))
  return ⟨some (.string (String.ofList text)), total - 1⟩

def readChar (cs : List Char) : Except LexicalError Lexeme := do
  let (text, total) ← body .apostrophe 0 1 cs
  match text with
  | [c] => return ⟨some (.char c), total - 1⟩
  | _ => throw ⟨.notOneCharacter, ⟨0, total⟩⟩

end ElmTypes.Lexeme.Quoted
