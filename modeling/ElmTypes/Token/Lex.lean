import ElmTypes.Lexeme.Scan

namespace ElmTypes

def columnAfter (column : Nat) (c : Char) : Nat := if c = '\n' then 0 else column + 1

/-- The tokens of a text that stands at the given place, its first `pending` characters belonging
to a lexeme that has been read already. -/
def lexFrom : (pending offset column : Nat) → List Char → Except LexicalError (List Token)
  | _, _, _, [] => .ok []
  | pending + 1, offset, column, c :: cs => lexFrom pending (offset + 1) (columnAfter column c) cs
  | 0, offset, column, c :: cs =>
      match Lexeme.scan c cs with
      | .error e => .error (e.shift offset)
      | .ok l => do
          let tokens ← lexFrom l.tail (offset + 1) (columnAfter column c) cs
          return l.place offset column ++ tokens

def lex (source : String) : Except LexicalError (List Token) := lexFrom 0 0 0 source.toList

theorem lexFrom_pending (n offset column : Nat) (cs : List Char) :
    lexFrom n offset column cs =
      lexFrom 0 (offset + n) ((cs.take n).foldl columnAfter column) (cs.drop n) := by
  induction cs generalizing n offset column with
  | nil => cases n <;> simp [lexFrom]
  | cons c cs ih =>
      cases n with
      | zero => simp
      | succ n =>
          rw [lexFrom, ih]
          simp [Nat.add_comm, Nat.add_left_comm]

end ElmTypes
