import ElmTypes.Proofs.Lexical.Errors
import ElmTypes.Proofs.Lexical.Gap

namespace ElmTypes

open Lexeme

theorem Lexeme.Comment.line_append_lineFeed (cs v : List Char) :
    line (cs ++ '\n' :: v) = line cs := by
  induction cs with
  | nil => simp [line]
  | cons c cs ih =>
      rw [line] at ih ⊢
      rw [line] at ih ⊢
      rw [List.cons_append, List.takeWhile_cons, List.takeWhile_cons, ih]

theorem Lexeme.scan_append_lineFeed {c : Char} {cs : List Char} {l : Lexeme}
    (h : scan c cs = .ok l) (v : List Char) : scan c (cs ++ '\n' :: v) = .ok l := by
  have hle := tail_le_of_scan_eq_ok h
  have hy : Delimits ('\n' :: v) := delimits_cons (by decide) v
  by_cases hk : l.kind = none
  · have hform := choose_of_skipped h hk
    have hchoose : Form.choose c (cs ++ '\n' :: v) = Form.choose c cs := by
      rw [← List.append_nil cs] at h
      rw [choose_append_congr hy h hle, List.append_nil]
    rw [scan_eq_read_choose] at h ⊢
    rw [hchoose]
    rcases hform with hform | hform | hform
    · rw [hform] at h ⊢
      rw [← List.append_nil cs] at h
      exact Comment.readBlock_append_congr h hle
    · rw [hform] at h ⊢
      rw [Form.read, Comment.line_append_lineFeed]
      exact h
    · rw [hform] at h ⊢
      exact h
  · rw [← List.append_nil cs] at h
    exact scan_append_congr hy h hk hle

def Token.shift (n : Nat) (t : Token) : Token := { t with span := t.span.shift n }

theorem Token.shift_shift (m n : Nat) (t : Token) : (t.shift m).shift n = t.shift (n + m) := by
  simp [Token.shift, Span.shift_shift]

theorem Token.shift_zero : Token.shift 0 = id := by
  funext t
  simp [Token.shift, Span.shift]

theorem Lexeme.place_shift (l : Lexeme) (n offset column : Nat) :
    l.place (n + offset) column = (l.place offset column).map (Token.shift n) := by
  obtain ⟨_ | kind, tail⟩ := l <;> rfl

def shiftTokens (n : Nat) : Except LexicalError (List Token) → Except LexicalError (List Token)
  | .ok tokens => .ok (tokens.map (Token.shift n))
  | .error e => .error (e.shift n)

theorem lexFrom_shift (n pending offset column : Nat) (cs : List Char) :
    lexFrom pending (n + offset) column cs = shiftTokens n (lexFrom pending offset column cs) := by
  induction cs generalizing pending offset column with
  | nil => cases pending <;> rfl
  | cons c cs ih =>
      cases pending with
      | succ pending => exact ih pending (offset + 1) _
      | zero =>
          rw [lexFrom, lexFrom]
          cases hs : scan c cs with
          | error e => simp [shiftTokens, LexicalError.shift, Span.shift_shift]
          | ok l =>
              simp only
              rw [Nat.add_assoc, ih l.tail (offset + 1) _]
              cases hr : lexFrom l.tail (offset + 1) (columnAfter column c) cs with
              | error e => rfl
              | ok tokens =>
                  rw [place_shift]
                  exact congrArg Except.ok List.map_append.symm

theorem lexFrom_append_lineFeed {pending offset column : Nat} {u : List Char} {ts : List Token}
    (h : lexFrom pending offset column u = .ok ts) (hp : pending ≤ u.length) (v : List Char) :
    lexFrom pending offset column (u ++ '\n' :: v) =
      (lexFrom 0 (offset + u.length + 1) 0 v).map (ts ++ ·) := by
  induction u generalizing pending offset column ts with
  | nil =>
      obtain rfl := Nat.le_zero.1 hp
      obtain rfl := Except.ok.inj h
      rw [List.nil_append, lexFrom_lineFeed, List.length_nil, Nat.add_zero]
      cases lexFrom 0 (offset + 1) 0 v <;> rfl
  | cons c u ih =>
      have hoffset : offset + 1 + u.length + 1 = offset + (c :: u).length + 1 := by
        rw [List.length_cons]
        omega
      cases pending with
      | succ pending =>
          rw [← hoffset]
          exact ih h (Nat.le_of_succ_le_succ hp)
      | zero =>
          rw [lexFrom] at h
          cases hs : scan c u with
          | error e =>
              rw [hs] at h
              cases h
          | ok l =>
              rw [hs] at h
              cases hr : lexFrom l.tail (offset + 1) (columnAfter column c) u with
              | error e =>
                  simp only [hr] at h
                  cases h
              | ok tokens =>
                  simp only [hr] at h
                  obtain rfl := Except.ok.inj h
                  rw [List.cons_append, lexFrom, scan_append_lineFeed hs v]
                  simp only
                  rw [ih hr (tail_le_of_scan_eq_ok hs), hoffset]
                  cases lexFrom 0 (offset + (c :: u).length + 1) 0 v with
                  | error e => rfl
                  | ok us => exact congrArg Except.ok (List.append_assoc _ _ _).symm

theorem lex_append_lineFeed {u : String} {ts : List Token} (h : lex u = .ok ts) (v : String) :
    lex (u ++ "\n" ++ v) = (shiftTokens (u.length + 1) (lex v)).map (ts ++ ·) := by
  have hv : lexFrom 0 (u.length + 1) 0 v.toList = shiftTokens (u.length + 1) (lex v) :=
    lexFrom_shift (u.length + 1) 0 0 0 v.toList
  have htext : (u ++ "\n" ++ v).toList = u.toList ++ '\n' :: v.toList := by simp
  rw [lex, htext, lexFrom_append_lineFeed h (Nat.zero_le _), Nat.zero_add, String.length_toList, hv]

theorem lex_lines {u : String} {ts : List Token} (h : lex u = .ok ts) (v : String) :
    (∀ us, lex v = .ok us →
      lex (u ++ "\n" ++ v) = .ok (ts ++ us.map (Token.shift (u.length + 1)))) ∧
    ∀ e, lex v = .error e → lex (u ++ "\n" ++ v) = .error (e.shift (u.length + 1)) := by
  rw [lex_append_lineFeed h]
  constructor
  · intro us hv
    rw [hv]
    rfl
  · intro e hv
    rw [hv]
    rfl

theorem lex_lines_after_number :
    lex "x = 3" = .ok [⟨.word "x", ⟨0, 1⟩, 0⟩, ⟨.symbol .equals, ⟨2, 1⟩, 2⟩,
      ⟨.integer 3, ⟨4, 1⟩, 4⟩] ∧
    lex ".. y" = .ok [⟨.symbol .dots, ⟨0, 2⟩, 0⟩, ⟨.word "y", ⟨3, 1⟩, 3⟩] ∧
    lex ("x = 3" ++ "\n" ++ ".. y") = .ok [⟨.word "x", ⟨0, 1⟩, 0⟩, ⟨.symbol .equals, ⟨2, 1⟩, 2⟩,
      ⟨.integer 3, ⟨4, 1⟩, 4⟩, ⟨.symbol .dots, ⟨6, 2⟩, 0⟩, ⟨.word "y", ⟨9, 1⟩, 3⟩] := by
  have hu : lex "x = 3" = .ok [⟨.word "x", ⟨0, 1⟩, 0⟩, ⟨.symbol .equals, ⟨2, 1⟩, 2⟩,
      ⟨.integer 3, ⟨4, 1⟩, 4⟩] := by
    rfl
  have hv : lex ".. y" = .ok [⟨.symbol .dots, ⟨0, 2⟩, 0⟩, ⟨.word "y", ⟨3, 1⟩, 3⟩] := by
    rfl
  exact ⟨hu, hv, (lex_lines hu ".. y").1 _ hv⟩

end ElmTypes
