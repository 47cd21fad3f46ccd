import ElmTypes.Span

namespace ElmTypes

structure Position where
  line : Nat
  column : Nat
deriving DecidableEq

namespace Position

def origin : Position := ⟨1, 1⟩

def advance (p : Position) (c : Char) : Position :=
  if c = '\n' then ⟨p.line + 1, 1⟩ else ⟨p.line, p.column + 1⟩

def after (text : List Char) : Position := text.foldl advance origin

def skip (p : Position) : (n : Nat) → List Char → Position
  | n + 1, c :: cs => (p.advance c).skip n cs
  | _, _ => p

theorem after_append_singleton (text : List Char) (c : Char) :
    after (text ++ [c]) = (after text).advance c := by
  simp [after]

theorem advance_lineFeed (p : Position) : p.advance '\n' = ⟨p.line + 1, 1⟩ := by
  simp [advance]

theorem advance_of_ne {c : Char} (h : c ≠ '\n') (p : Position) :
    p.advance c = ⟨p.line, p.column + 1⟩ := by
  simp [advance, h]

theorem skip_eq_foldl_take (p : Position) (n : Nat) (text : List Char) :
    p.skip n text = (text.take n).foldl advance p := by
  induction text generalizing p n with
  | nil => cases n <;> simp [skip]
  | cons c cs ih =>
      cases n with
      | zero => rfl
      | succ n => simp [skip, ih]

end Position

def Span.position (s : Span) (text : List Char) : Position := Position.origin.skip s.start text

theorem Span.position_eq_after_take (s : Span) (text : List Char) :
    s.position text = .after (text.take s.start) :=
  Position.skip_eq_foldl_take _ _ _

end ElmTypes
