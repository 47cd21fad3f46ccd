import ElmTypes.Span

namespace ElmTypes.Guarded

inductive Fault where
  | notWord
  | notInteger
  | notAssociativity
  | blank
  | noToken
  | negative
  | outside
  | endless
deriving DecidableEq

inductive Stop (ε : Type) where
  | fault (f : Fault)
  | error (e : ε)

abbrev Run (ε σ : Type) := EStateM (Stop ε) σ

variable {ε σ α : Type}

def fault (f : Fault) : Run ε σ α := throw (.fault f)

def fail (e : ε) : Run ε σ α := throw (.error e)

def minus (m n : Nat) : Run ε σ Nat := if n ≤ m then return m - n else fault .negative

def grow (a b : Span) : Run ε σ Span :=
  if b.isEmpty then return a
  else if a.isEmpty then return b
  else do
    let start := min a.start b.start
    let length ← minus (max a.stop b.stop) start
    return ⟨start, length⟩

theorem minus_eq {m n : Nat} (h : n ≤ m) : (minus m n : Run ε σ Nat) = pure (m - n) := if_pos h

theorem grow_eq (a b : Span) : (grow a b : Run ε σ Span) = pure (a.hull b) := by
  -- a span never begins after its end
  have hle : min a.start b.start ≤ max a.stop b.stop := by
    simp only [Span.stop]
    omega
  simp only [grow, Span.hull, minus_eq hle, pure_bind]
  split
  · rfl
  · split <;> rfl

end ElmTypes.Guarded
