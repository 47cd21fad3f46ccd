namespace ElmTypes

structure TextLine where
  text : List Char
  ending : Nat
deriving DecidableEq

def textLines : List Char → List TextLine
  | [] => []
  | '\n' :: cs => ⟨[], 1⟩ :: textLines cs
  | '\r' :: '\n' :: cs => ⟨[], 2⟩ :: textLines cs
  | c :: cs =>
      match textLines cs with
      | [] => [⟨[c], 0⟩]
      | line :: lines => { line with text := c :: line.text } :: lines

end ElmTypes
