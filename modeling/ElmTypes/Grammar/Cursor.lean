import ElmTypes.Grammar.SyntaxError

namespace ElmTypes

structure Cursor where
  ahead : List Token
  expected : List Expected
  last : Span

namespace Cursor

def start (tokens : List Token) : Cursor := ⟨tokens, [], .empty⟩

def advance (c : Cursor) : Cursor :=
  match c.ahead with
  | [] => { c with expected := [] }
  | t :: ts => ⟨ts, [], t.span⟩

def advanceWhile (p : Token → Bool) (c : Cursor) : Cursor :=
  match (c.ahead.takeWhile p).getLast? with
  | none => c
  | some t => ⟨c.ahead.dropWhile p, [], t.span⟩

def note (e : Expected) (c : Cursor) : Cursor :=
  if c.expected.contains e then c else { c with expected := c.expected ++ [e] }

def atBoundary (c : Cursor) : Bool := c.ahead.head?.all Token.startsDeclaration

def accepts (e : Expected) (c : Cursor) : Bool := c.ahead.head?.any fun t => e.accepts t.kind

def complaint (c : Cursor) : SyntaxError :=
  match c.ahead with
  | [] => ⟨.unexpectedEnd c.expected, c.last⟩
  | t :: _ => ⟨.unexpectedToken t.kind c.expected, t.span⟩

@[simp] theorem ahead_note (e : Expected) (c : Cursor) : (c.note e).ahead = c.ahead := by
  unfold note
  split <;> rfl

@[simp] theorem last_note (e : Expected) (c : Cursor) : (c.note e).last = c.last := by
  unfold note
  split <;> rfl

@[simp] theorem ahead_advance (c : Cursor) : c.advance.ahead = c.ahead.tail := by
  rcases c with ⟨_ | ⟨t, ts⟩, expected, last⟩ <;> rfl

@[simp] theorem expected_advance (c : Cursor) : c.advance.expected = [] := by
  rcases c with ⟨_ | ⟨t, ts⟩, expected, last⟩ <;> rfl

theorem accepts_note (e e' : Expected) (c : Cursor) : (c.note e).accepts e' = c.accepts e' := by
  simp [accepts]

theorem atBoundary_note (e : Expected) (c : Cursor) : (c.note e).atBoundary = c.atBoundary := by
  simp [atBoundary]

theorem advance_note (e : Expected) (c : Cursor) (h : c.ahead ≠ []) :
    (c.note e).advance = c.advance := by
  rcases c with ⟨_ | ⟨t, ts⟩, expected, last⟩
  · exact absurd rfl h
  · simp [advance]

theorem ahead_advanceWhile (p : Token → Bool) (c : Cursor) :
    (c.advanceWhile p).ahead = c.ahead.dropWhile p := by
  unfold advanceWhile
  split
  · rename_i h
    rw [List.getLast?_eq_none_iff] at h
    conv => lhs; rw [← List.takeWhile_append_dropWhile (p := p) (l := c.ahead), h]
    simp
  · rfl

end Cursor

end ElmTypes
