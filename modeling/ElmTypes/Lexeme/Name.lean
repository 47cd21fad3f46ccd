import ElmTypes.Lexeme.Basic
import ElmTypes.Unicode.Alphabetic
import ElmTypes.Unicode.Numeric
import ElmTypes.Unicode.Uppercase

namespace ElmTypes.Lexeme.Name

def canBegin (c : Char) : Bool := Unicode.isAlphabetic c || c == '_'

def canContinue (c : Char) : Bool := Unicode.isAlphabetic c || Unicode.isNumeric c || c == '_'

/-- The rest of a name. `capital` says whether the segment being read is capitalised, which a dot
must find to go on with another segment. -/
def rest (capital : Bool) : List Char → List Char
  | '.' :: c :: cs =>
      if capital && Unicode.isAlphabetic c then '.' :: c :: rest (Unicode.isUppercase c) cs else []
  | c :: cs => if canContinue c then c :: rest capital cs else []
  | [] => []

def read (c : Char) (cs : List Char) : Lexeme :=
  let tail := rest (Unicode.isUppercase c) cs
  .token (.word (String.ofList (c :: tail))) tail

theorem rest_prefix (capital : Bool) (cs : List Char) : rest capital cs <+: cs := by
  fun_induction rest capital cs with
  | case1 capital c cs h ih => simpa using ih
  | case2 => simp
  | case3 capital c cs _ h ih => simpa using ih
  | case4 => simp
  | case5 => simp

end ElmTypes.Lexeme.Name
