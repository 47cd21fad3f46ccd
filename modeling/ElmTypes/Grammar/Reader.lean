import ElmTypes.Grammar.Cursor

namespace ElmTypes

abbrev Reader := EStateM SyntaxError Cursor

namespace Reader

variable {α : Type}

def note (e : Expected) : Reader Unit := modify (·.note e)

def peek : Reader (Option Token) := return (← get).ahead.head?

def peekSecond : Reader (Option Token) := return (← get).ahead[1]?

def advance : Reader Unit := modify Cursor.advance

def advanceWhile (p : Token → Bool) : Reader Unit := modify (·.advanceWhile p)

def lastSpan : Reader Span := return (← get).last

def nextSpan : Reader Span := return ((← peek).map Token.span).getD .empty

def atBoundary : Reader Bool := return (← get).atBoundary

def unexpected : Reader α := do
  let c ← get
  set { c with expected := [] }
  throw c.complaint

def fail (cause : SyntaxCause) (span : Span) : Reader α := throw ⟨cause, span⟩

def check (e : Expected) : Reader Bool := do
  note e
  return (← get).accepts e

def checkInside (e : Expected) : Reader Bool := do
  let inside := !(← atBoundary)
  return (← check e) && inside

/-- Takes the next token if it is accepted and belongs to the declaration being read. -/
def eat (e : Expected) : Reader Bool := do
  let found ← checkInside e
  if found then advance
  return found

/-- Takes the next token for what is found in it, in whichever column it stands. -/
def take (e : Expected) (find : TokenKind → Option α) : Reader (α × Span) := do
  note e
  match ← peek with
  | none => unexpected
  | some t =>
      match find t.kind with
      | none => unexpected
      | some a => do
          advance
          return (a, t.span)

def expect (e : Expected) : Reader Span := do
  let (_, span) ← take e fun kind => if e.accepts kind then some () else none
  return span

def lowercaseName : Reader (String × Span) := take .lowercaseName TokenKind.lowercaseName?

def capitalisedName : Reader (String × Span) := take .capitalisedName TokenKind.capitalisedName?

def declaredName : Reader (String × Span) := do
  let (name, span) ← capitalisedName
  if name.toList.contains '.' then fail (.qualifiedName name) span
  return (name, span)

def declarationEnd : Reader Unit := do
  unless ← atBoundary do unexpected

/-- Reads with a bound on the number of steps that the tokens ahead cannot exceed, as each step
but the last takes one. -/
def bounded (read : Nat → Reader α) : Reader α := do
  read ((← get).ahead.length + 1)

def repeatAt (more : Reader Bool) (item : Reader α) : (bound : Nat) → Reader (List α)
  | 0 => return []
  | bound + 1 => do
      if ← more then
        let a ← item
        let as ← repeatAt more item bound
        return a :: as
      else
        return []

def repeated (more : Reader Bool) (item : Reader α) : Reader (List α) :=
  bounded (repeatAt more item)

def separated (s : Symbol) (item : Reader α) : Reader (List α) := do
  let a ← item
  let as ← repeated (eat (.symbol s)) item
  return a :: as

@[simp] theorem run_note (e : Expected) (c : Cursor) : (note e).run c = .ok () (c.note e) := rfl

@[simp] theorem run_peek (c : Cursor) : peek.run c = .ok c.ahead.head? c := rfl

@[simp] theorem run_peekSecond (c : Cursor) : peekSecond.run c = .ok c.ahead[1]? c := rfl

@[simp] theorem run_advance (c : Cursor) : advance.run c = .ok () c.advance := rfl

@[simp] theorem run_advanceWhile (p : Token → Bool) (c : Cursor) :
    (advanceWhile p).run c = .ok () (c.advanceWhile p) := rfl

@[simp] theorem run_lastSpan (c : Cursor) : lastSpan.run c = .ok c.last c := rfl

@[simp] theorem run_nextSpan (c : Cursor) :
    nextSpan.run c = .ok ((c.ahead.head?.map Token.span).getD .empty) c := rfl

@[simp] theorem run_atBoundary (c : Cursor) : atBoundary.run c = .ok c.atBoundary c := rfl

@[simp] theorem run_unexpected (c : Cursor) :
    (unexpected : Reader α).run c = .error c.complaint { c with expected := [] } := rfl

@[simp] theorem run_fail (cause : SyntaxCause) (span : Span) (c : Cursor) :
    (fail cause span : Reader α).run c = .error ⟨cause, span⟩ c := rfl

@[simp] theorem run_check (e : Expected) (c : Cursor) :
    (check e).run c = .ok (c.accepts e) (c.note e) := by
  rw [← Cursor.accepts_note e e c]
  rfl

@[simp] theorem run_checkInside (e : Expected) (c : Cursor) :
    (checkInside e).run c = .ok (c.accepts e && !c.atBoundary) (c.note e) := by
  simp [checkInside, -bind_pure_comp]

theorem run_eat (e : Expected) (c : Cursor) :
    (eat e).run c =
      if c.accepts e && !c.atBoundary then .ok true (c.note e).advance
      else .ok false (c.note e) := by
  cases h : c.accepts e && !c.atBoundary <;> simp [eat, h, -bind_pure_comp]

theorem run_take (e : Expected) (find : TokenKind → Option α) (c : Cursor) :
    (take e find).run c =
      match c.ahead with
      | [] => .error (c.note e).complaint { c with expected := [] }
      | t :: ts =>
          match find t.kind with
          | none => .error (c.note e).complaint { c with expected := [] }
          | some a => .ok (a, t.span) ⟨ts, [], t.span⟩ := by
  rcases c with ⟨_ | ⟨t, ts⟩, expected, last⟩
  · simp [take, -bind_pure_comp]
  · cases h : find t.kind <;> simp [take, h, Cursor.advance, -bind_pure_comp]

theorem run_bounded (read : Nat → Reader α) (c : Cursor) :
    (bounded read).run c = (read (c.ahead.length + 1)).run c := rfl

end Reader

end ElmTypes
