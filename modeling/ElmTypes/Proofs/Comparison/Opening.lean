import ElmTypes.Grammar.File
import ElmTypes.Proofs.Comparison.Declaration

namespace ElmTypes.Pairing

open Reader Cursor

structure Even (p : Pairing) : Prop where
  rest : p.rest = []
  empty : p.same .empty .empty

def Level (p : Pairing) (c : Cursor) : Prop := c.ahead.length < p.fresh

def Parallel {α : Type} (p : Pairing) (r : Reader α) (V : α → α → Prop) : Prop :=
  p.Relates p.Level r r V fun _ => p.Level

section

variable {p : Pairing} {c c' : Cursor}

theorem Even.nil (hp : p.Even) (h : p.Beside c c') (hc : c.ahead = []) : c'.ahead = [] :=
  (h.nil hc).trans hp.rest

theorem Even.length_eq (hp : p.Even) (h : p.Beside c c') : c'.ahead.length = c.ahead.length := by
  rw [h.ahead.length_eq, hp.rest, List.length_nil, Nat.add_zero]

theorem Even.head? (hp : p.Even) (h : p.Beside c c') :
    Option.Rel p.Like c.ahead.head? c'.ahead.head? := by
  cases hc : c.ahead with
  | nil =>
      rw [hp.nil h hc]
      exact .none
  | cons t ts =>
      obtain ⟨t', ts', hc', ht, -⟩ := h.cons hc
      rw [hc']
      exact .some ht

theorem Even.second? (hp : p.Even) (h : p.Beside c c') :
    Option.Rel p.Like c.ahead[1]? c'.ahead[1]? := by
  rcases hc : c.ahead with _ | ⟨t, ts⟩
  · rw [hp.nil h hc]
    exact .none
  · obtain ⟨t', ts', hc', -, hts⟩ := h.cons hc
    rw [hc']
    cases hts with
    | done =>
        rw [hp.rest]
        exact .none
    | cons ht _ => exact .some ht

theorem Even.accepts (hp : p.Even) (h : p.Beside c c') (e : Expected) :
    c'.accepts e = c.accepts e := by
  unfold Cursor.accepts
  generalize c.ahead.head? = x, c'.ahead.head? = x', hp.head? h = hx
  cases hx with
  | none => rfl
  | some ht => rw [Option.any_some, Option.any_some, ht.kind]

theorem Even.beside_advance (hp : p.Even) (h : p.Beside c c') :
    p.Beside c.advance c'.advance := by
  by_cases hc : c.ahead = []
  · simp only [Cursor.advance, hc, hp.nil h hc]
    have hforget := h.forget
    rwa [hc, hp.nil h hc] at hforget
  · exact h.advance hc

theorem Level.note (h : p.Level c) (e : Expected) : p.Level (c.note e) := by
  rw [Level, ahead_note]
  exact h

theorem Level.advance (h : p.Level c) : p.Level c.advance := by
  rw [Level, ahead_advance]
  exact Nat.lt_of_le_of_lt (List.tail_sublist _).length_le h

end

section

variable {p : Pairing} {α β : Type} {r : Reader α} {f f' : α → Reader β} {V : α → α → Prop}
  {W : β → β → Prop} {Q : β → Cursor → Prop} {e : Expected}

theorem parallel_pure {a : α} (h : V a a) : p.Parallel (pure a) V := .pure h fun _ hc => hc

theorem Parallel.then {f : α → Reader β} (hr : p.Parallel r Eq) (hf : ∀ a, p.Parallel (f a) W) :
    p.Parallel (r >>= f) W := by
  refine hr.bind ?_
  rintro a _ rfl
  exact hf a

theorem Parallel.ite {r : Reader Bool} {f : Bool → Reader β} (hr : p.Parallel r Eq)
    (ht : p.Parallel (f true) W) (hf : p.Parallel (f false) W) : p.Parallel (r >>= f) W := by
  refine hr.then fun b => ?_
  cases b with
  | true => exact ht
  | false => exact hf

theorem Parallel.map (hr : p.Parallel r Eq) (g : α → β) : p.Parallel (g <$> r) Eq := by
  rw [map_eq_pure_bind]
  exact hr.then fun a => .pure rfl fun _ hc => hc

theorem parallel_note : p.Parallel (note e) fun _ _ => True :=
  fun _ _ h hc => .ok trivial (h.note e) (hc.note e)

theorem parallel_checkInside : p.Parallel (checkInside e) Eq := by
  intro c c' h hc
  rw [run_checkInside, run_checkInside, h.accepts_inside]
  exact .ok rfl (h.note e) (hc.note e)

theorem parallel_declarationEnd : p.Parallel declarationEnd fun _ _ => True := by
  intro c c' h hc
  rw [declarationEnd, EStateM.run_bind, EStateM.run_bind, run_atBoundary, run_atBoundary,
    h.atBoundary]
  cases c.atBoundary with
  | true => exact .ok trivial h hc
  | false => exact relates_unexpected c c' h hc

theorem parallel_unexpected : p.Parallel unexpected V := relates_unexpected

namespace Even

variable (hp : p.Even)

include hp

theorem parallel_advance : p.Parallel advance fun _ _ => True :=
  fun _ _ h hc => .ok trivial (hp.beside_advance h) hc.advance

theorem parallel_check : p.Parallel (Reader.check e) Eq := by
  intro c c' h hc
  rw [run_check, run_check, hp.accepts h]
  exact .ok rfl (h.note e) (hc.note e)

theorem parallel_eat : p.Parallel (eat e) Eq := by
  refine parallel_checkInside.bind ?_
  rintro b _ rfl
  cases b with
  | true => exact hp.parallel_advance.bind fun _ _ _ => parallel_pure rfl
  | false => exact parallel_pure rfl

theorem parallel_take {find : TokenKind → Option α} :
    p.Parallel (take e find) fun x x' => x.1 = x'.1 ∧ p.same x.2 x'.2 := by
  intro c c' h hc
  have hblames := (h.note e).blames
  rw [ahead_note] at hblames
  have hforget := h.forget
  have hadvance := hc.advance
  rw [run_take, run_take]
  rcases ha : c.ahead with _ | ⟨t, ts⟩
  · rw [ha] at hblames hforget
    rw [hp.nil h ha] at hforget ⊢
    exact .error hblames hforget
  · obtain ⟨t', ts', ha', ht, hts⟩ := h.cons ha
    rw [ha] at hblames hforget
    rw [ha'] at hforget
    simp only [ha', ht.kind]
    cases find t.kind with
    | none => exact .error hblames hforget
    | some a =>
        simp only [Cursor.advance, ha] at hadvance
        exact .ok ⟨rfl, ht.span⟩ ⟨hts, fun _ => ⟨rfl, ht.span⟩⟩ hadvance

theorem parallel_expect : p.Parallel (expect e) p.same := by
  refine hp.parallel_take.bind ?_
  rintro ⟨_, s⟩ ⟨_, s'⟩ ⟨-, hs⟩
  exact .pure hs fun _ hc => hc

theorem parallel_declaredName :
    p.Parallel declaredName fun x x' => x.1 = x'.1 ∧ p.same x.2 x'.2 := by
  refine hp.parallel_take.bind ?_
  rintro ⟨name, s⟩ ⟨_, s'⟩ ⟨rfl, hs⟩
  simp only
  split
  · exact .never (relates_fail hs)
  · exact .pure ⟨rfl, hs⟩ fun _ hc => hc

theorem parallel_name : p.Parallel (Prod.fst <$> declaredName) Eq := by
  rw [map_eq_pure_bind]
  refine hp.parallel_declaredName.bind ?_
  rintro ⟨name, s⟩ ⟨_, s'⟩ ⟨rfl, -⟩
  exact parallel_pure rfl

theorem parallel_bounded {read : Nat → Reader α} (h : ∀ n, p.Parallel (read n) V) :
    p.Parallel (bounded read) V := by
  intro c c' hb hc
  rw [run_bounded, run_bounded, hp.length_eq hb]
  exact h _ c c' hb hc

theorem parallel_separated {s : Symbol} {item : Reader α} (hitem : p.Parallel item Eq) :
    p.Parallel (separated s item) Eq := by
  have hat (n : Nat) : p.Parallel (repeatAt (eat (.symbol s)) item n) Eq := by
    induction n with
    | zero => exact parallel_pure rfl
    | succ n ih =>
        refine hp.parallel_eat.ite ?_ (parallel_pure rfl)
        exact hitem.then fun a => ih.then fun as => parallel_pure rfl
  exact hitem.then fun a => (hp.parallel_bounded hat).then fun as => parallel_pure rfl

theorem parallel_peek : p.Parallel peek (Option.Rel p.Like) :=
  fun _ _ h hc => .ok (hp.head? h) h hc

theorem parallel_peekSecond : p.Parallel peekSecond (Option.Rel p.Like) :=
  fun _ _ h hc => .ok (hp.second? h) h hc

theorem parallel_nextSpan : p.Parallel nextSpan p.same := by
  refine hp.parallel_peek.bind fun x x' hx => ?_
  cases hx with
  | none => exact .pure hp.empty fun _ hc => hc
  | some ht => exact .pure ht.span fun _ hc => hc

theorem parallel_parenthesizedOperator : p.Parallel parenthesizedOperator Eq := by
  refine hp.parallel_expect.bind fun _ _ _ => hp.parallel_peek.bind fun x x' hx => ?_
  have hsame : x.bind (·.kind.operator?) = x'.bind (·.kind.operator?) := by
    cases hx with
    | none => rfl
    | some ht => rw [Option.bind_some, Option.bind_some, ht.kind]
  rw [hsame]
  cases x'.bind (·.kind.operator?) with
  | none => exact parallel_note.bind fun _ _ _ => parallel_unexpected
  | some operator =>
      refine hp.parallel_advance.bind fun _ _ _ => hp.parallel_expect.bind fun _ _ _ => ?_
      exact parallel_pure rfl

theorem parallel_exposedName : p.Parallel exposedName Eq := by
  refine hp.parallel_check.ite ?_ (hp.parallel_check.ite ?_ (hp.parallel_check.ite ?_ ?_))
  · refine hp.parallel_take.bind ?_
    rintro ⟨name, s⟩ ⟨_, s'⟩ ⟨rfl, -⟩
    exact parallel_pure rfl
  · refine hp.parallel_declaredName.bind ?_
    rintro ⟨name, s⟩ ⟨_, s'⟩ ⟨rfl, -⟩
    refine hp.parallel_eat.ite ?_ (parallel_pure rfl)
    exact hp.parallel_expect.bind fun _ _ _ => hp.parallel_expect.bind fun _ _ _ => parallel_pure rfl
  · exact hp.parallel_parenthesizedOperator.then fun operator => parallel_pure rfl
  · exact parallel_unexpected

theorem parallel_exposing : p.Parallel exposing Eq := by
  refine hp.parallel_expect.bind fun _ _ _ => hp.parallel_expect.bind fun _ _ _ => ?_
  refine hp.parallel_eat.ite ?_ ?_
  · exact hp.parallel_expect.bind fun _ _ _ => parallel_pure rfl
  · refine (hp.parallel_separated hp.parallel_exposedName).then fun names => ?_
    exact hp.parallel_expect.bind fun _ _ _ => parallel_pure rfl

theorem parallel_closeGroup (b : Bracket) (n depth : Nat) :
    p.Parallel (closeGroup b n depth) fun _ _ => True := by
  induction n generalizing depth with
  | zero =>
      cases depth with
      | zero => exact parallel_unexpected
      | succ depth => exact parallel_unexpected
  | succ n ih =>
      cases depth with
      | zero => exact parallel_pure trivial
      | succ depth =>
          refine hp.parallel_peek.bind fun x x' hx => ?_
          cases hx with
          | none => exact hp.parallel_advance.bind fun _ _ _ => parallel_unexpected
          | some ht =>
              refine hp.parallel_advance.bind fun _ _ _ => ?_
              rw [ht.kind]
              exact ih _

theorem parallel_skipGroup (b : Bracket) : p.Parallel (skipGroup b) fun _ _ => True :=
  hp.parallel_expect.bind fun _ _ _ => hp.parallel_bounded fun n => hp.parallel_closeGroup b n 1

theorem parallel_headerKind? : p.Parallel headerKind? Eq := by
  have hopens (kind : ModuleKind) : p.Parallel (do
      if (← peekSecond).any (fun t => (Expected.keyword .module).accepts t.kind) then
        return some kind
      else
        return none) Eq := by
    refine hp.parallel_peekSecond.bind fun x x' hx => ?_
    have hsame : x.any (fun t => (Expected.keyword .module).accepts t.kind) =
        x'.any fun t => (Expected.keyword .module).accepts t.kind := by
      cases hx with
      | none => rfl
      | some ht => rw [Option.any_some, Option.any_some, ht.kind]
    rw [hsame]
    split
    · exact parallel_pure rfl
    · exact parallel_pure rfl
  refine hp.parallel_check.ite (parallel_pure rfl) (hp.parallel_check.ite ?_
    (hp.parallel_check.ite ?_ (parallel_pure rfl)))
  · exact hopens .effect
  · exact hopens .port

theorem parallel_headerWords (kind : ModuleKind) :
    p.Parallel (headerWords kind) fun _ _ => True := by
  have hmodule : p.Parallel (do
      advance
      unless ← eat (.keyword .module) do unexpected) fun _ _ => True := by
    refine hp.parallel_advance.bind fun _ _ _ => ?_
    exact hp.parallel_eat.ite (parallel_pure trivial) parallel_unexpected
  cases kind with
  | normal => exact hp.parallel_expect.bind fun _ _ _ => parallel_pure trivial
  | port => exact hmodule
  | effect => exact hmodule

theorem parallel_header (kind : ModuleKind) : p.Parallel (header kind) (Header.Alike p.same) := by
  refine hp.parallel_nextSpan.bind fun start start' hstart => ?_
  refine (hp.parallel_headerWords kind).bind fun _ _ _ => hp.parallel_take.bind ?_
  rintro ⟨name, s⟩ ⟨_, s'⟩ ⟨rfl, -⟩
  have hrest : p.Relates p.Level (do
      let exposed ← exposing
      return (⟨kind, name, exposed, start.hull (← lastSpan)⟩ : Header)) (do
      let exposed ← exposing
      return (⟨kind, name, exposed, start'.hull (← lastSpan)⟩ : Header))
      (Header.Alike p.same) fun _ => p.Level := by
    refine hp.parallel_exposing.bind ?_
    rintro exposed _ rfl
    refine .lastSpan (fun _ hc => hc) fun s s' hs => .pure ?_ fun _ hc => hc
    exact .mk (p.keepsHulls _ _ _ _ hstart hs)
  simp only
  split
  · refine hp.parallel_eat.bind ?_
    rintro b _ rfl
    cases b with
    | true => exact (hp.parallel_skipGroup _).bind fun _ _ _ => hrest
    | false => exact hrest
  · exact hrest

theorem parallel_importLine : p.Parallel importLine (Import.Alike p.same) := by
  refine hp.parallel_expect.bind fun start start' hstart => hp.parallel_take.bind ?_
  rintro ⟨module, s⟩ ⟨_, s'⟩ ⟨rfl, -⟩
  have hend (shortName : Option String) (exposed : Option Exposing) : p.Relates p.Level (do
      let span := start.hull (← lastSpan)
      declarationEnd
      return (⟨module, shortName, exposed, span⟩ : Import)) (do
      let span := start'.hull (← lastSpan)
      declarationEnd
      return (⟨module, shortName, exposed, span⟩ : Import)) (Import.Alike p.same)
      fun _ => p.Level := by
    refine .lastSpan (fun _ hc => hc) fun s s' hs => ?_
    refine parallel_declarationEnd.bind fun _ _ _ => .pure ?_ fun _ hc => hc
    exact .mk (p.keepsHulls _ _ _ _ hstart hs)
  have hexposing (shortName : Option String) : p.Relates p.Level (do
      let exposed ← if ← checkInside (.keyword .exposing) then some <$> exposing else pure none
      let span := start.hull (← lastSpan)
      declarationEnd
      return (⟨module, shortName, exposed, span⟩ : Import)) (do
      let exposed ← if ← checkInside (.keyword .exposing) then some <$> exposing else pure none
      let span := start'.hull (← lastSpan)
      declarationEnd
      return (⟨module, shortName, exposed, span⟩ : Import)) (Import.Alike p.same)
      fun _ => p.Level := by
    refine parallel_checkInside.bind ?_
    rintro b _ rfl
    cases b with
    | true =>
        refine (hp.parallel_exposing.map some).bind ?_
        rintro exposed _ rfl
        exact hend shortName exposed
    | false => exact hend shortName none
  refine hp.parallel_eat.bind ?_
  rintro b _ rfl
  cases b with
  | true =>
      refine (hp.parallel_name.map some).bind ?_
      rintro shortName _ rfl
      exact hexposing shortName
  | false => exact hexposing none

end Even

end

end ElmTypes.Pairing
