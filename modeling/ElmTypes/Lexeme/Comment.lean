import ElmTypes.Lexeme.Basic

namespace ElmTypes.Lexeme.Comment

def line (cs : List Char) : List Char := cs.takeWhile fun c => c != '\n' && c != '\r'

def lengthToClose : (depth : Nat) → List Char → Option Nat
  | 0, _ => some 0
  | depth + 1, '{' :: '-' :: cs => (lengthToClose (depth + 2) cs).map (· + 2)
  | depth + 1, '-' :: '}' :: cs => (lengthToClose depth cs).map (· + 2)
  | depth + 1, _ :: cs => (lengthToClose (depth + 1) cs).map (· + 1)
  | _ + 1, [] => none

theorem lengthToClose_le {depth n : Nat} {cs : List Char} (h : lengthToClose depth cs = some n) :
    n ≤ cs.length := by
  fun_induction lengthToClose depth cs generalizing n with
  | case1 =>
      obtain rfl := Option.some.inj h
      exact Nat.zero_le _
  | case2 depth cs ih =>
      obtain ⟨m, hm, rfl⟩ := Option.map_eq_some_iff.1 h
      simpa using ih hm
  | case3 depth cs ih =>
      obtain ⟨m, hm, rfl⟩ := Option.map_eq_some_iff.1 h
      simpa using ih hm
  | case4 depth c cs _ _ ih =>
      obtain ⟨m, hm, rfl⟩ := Option.map_eq_some_iff.1 h
      simpa using ih hm
  | case5 => simp at h

def readBlock (cs : List Char) : Except LexicalError Lexeme :=
  match lengthToClose 1 (cs.drop 1) with
  | some length => .ok (.skipped (length + 1))
  | none => .error ⟨.unfinished .comment, ⟨0, 2⟩⟩

end ElmTypes.Lexeme.Comment
