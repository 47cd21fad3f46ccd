import ElmTypes.Position

namespace ElmTypes

namespace Position

def Before (p q : Position) : Prop := p.line < q.line ∨ p.line = q.line ∧ p.column < q.column

theorem Before.trans {p q r : Position} (h : p.Before q) (h' : q.Before r) : p.Before r := by
  unfold Before at *
  omega

theorem before_advance (p : Position) (c : Char) : p.Before (p.advance c) := by
  by_cases hc : c = '\n'
  · rw [hc, advance_lineFeed]
    exact .inl (Nat.lt_succ_self _)
  · rw [advance_of_ne hc]
    exact .inr ⟨rfl, Nat.lt_succ_self _⟩

theorem before_foldl_advance (p : Position) (c : Char) (cs : List Char) :
    p.Before ((c :: cs).foldl advance p) := by
  induction cs generalizing p c with
  | nil => exact p.before_advance c
  | cons d ds ih => exact (p.before_advance c).trans (ih (p.advance c) d)

end Position

theorem Span.position_before {s t : Span} {text : List Char} (h : s.start < t.start)
    (ht : t.start ≤ text.length) : (s.position text).Before (t.position text) := by
  obtain ⟨between, hbetween⟩ := List.take_prefix_take_left (l := text) (Nat.le_of_lt h)
  have hlength := congrArg List.length hbetween
  rw [List.length_append, List.length_take, List.length_take] at hlength
  rw [position_eq_after_take, position_eq_after_take, ← hbetween, Position.after, Position.after,
    List.foldl_append]
  cases between with
  | nil =>
      rw [List.length_nil] at hlength
      omega
  | cons c cs => exact Position.before_foldl_advance _ c cs

end ElmTypes
