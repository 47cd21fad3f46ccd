import ElmTypes.Proofs.Grammar.Follow
import Mathlib.Data.Prod.Lex
import Mathlib.Order.WellFounded

namespace ElmTypes

inductive TypeLevel where
  | type
  | application
  | atom
  | parenthesized
  | record
deriving DecidableEq

namespace TypeLevel

open Reader

def rank : TypeLevel → Nat
  | .type => 3
  | .application => 2
  | .atom => 1
  | .parenthesized | .record => 0

def body (call : TypeLevel → Reader TypeExpr) : TypeLevel → Reader TypeExpr
  | .type => do
      let domain ← call .application
      if ← eat (.symbol .arrow) then
        let codomain ← call .type
        return .function domain codomain (domain.span.hull codomain.span)
      else
        return domain
  | .application => do
      if ← checkInside .capitalisedName then
        let (name, span) ← capitalisedName
        let arguments ← repeated atAtom (call .atom)
        return .named (.ofWord name span) arguments (hullAll span arguments)
      else
        call .atom
  | .atom => do
      if ← checkInside .lowercaseName then
        let (name, span) ← lowercaseName
        return .variable name span
      else if ← checkInside .capitalisedName then
        let (name, span) ← capitalisedName
        return .named (.ofWord name span) [] span
      else if ← checkInside (.opening .round) then
        call .parenthesized
      else if ← checkInside (.opening .brace) then
        call .record
      else do
        note .typeExpr
        unexpected
  | .parenthesized => Reader.parenthesized (call .type)
  | .record => recordType (call .type)

def readerOf (inner : Reader TypeExpr) : TypeLevel → Reader TypeExpr
  | .type => inner
  | .application => Reader.application inner
  | .atom => Reader.atom inner
  | .parenthesized => Reader.parenthesized inner
  | .record => recordType inner

def reader : TypeLevel → Reader TypeExpr := readerOf typeExpr

structure Descends (m : TypeLevel) (d : Cursor) (l : TypeLevel) (c : Cursor) : Prop where
  suffix : d.ahead <:+ c.ahead
  lower : d.ahead.length < c.ahead.length ∨ m.rank < l.rank

def potential (l : TypeLevel) (c : Cursor) : ℕ ×ₗ ℕ := toLex (c.ahead.length, l.rank)

variable {l m : TypeLevel} {c d : Cursor} {call : TypeLevel → Reader TypeExpr}
  {inner inner' : Reader TypeExpr}

theorem Descends.potential_lt (h : Descends m d l c) : m.potential d < l.potential c := by
  rw [potential, potential, Prod.Lex.toLex_lt_toLex]
  rcases Nat.lt_or_eq_of_le h.suffix.length_le with hlt | heq
  · exact .inl hlt
  · refine .inr ⟨heq, h.lower.resolve_left ?_⟩
    exact heq ▸ Nat.lt_irrefl _

theorem wellFounded_descends :
    WellFounded fun p q : TypeLevel × Cursor => Descends p.1 p.2 q.1 q.2 :=
  (InvImage.wf (fun p : TypeLevel × Cursor => p.1.potential p.2) wellFounded_lt).mono
    fun _ _ h => h.potential_lt

theorem body_readerOf (inner : Reader TypeExpr) (h : l ≠ .type) :
    l.body (readerOf inner) = readerOf inner l := by
  cases l with
  | type => exact absurd rfl h
  | _ => rfl

end TypeLevel

namespace Reader

variable {α β : Type} {c : Cursor} {ts : List Token} {x r : Reader α} {f g : α → Reader β}
  {M : List Token → Bool → Prop} {R : List Token → α → Prop}

def SameAfter (c : Cursor) (ts : List Token) (x r : Reader α) : Prop :=
  ∀ d, c.Takes ts d → x.run d = r.run d

namespace SameAfter

theorem refl (r : Reader α) : SameAfter c ts r r := fun _ _ => rfl

theorem bind (hx : SameAfter c ts x r) (hr : Reads r R)
    (hf : ∀ us a, R us a → SameAfter c (ts ++ us) (f a) (g a)) :
    SameAfter c ts (x >>= f) (r >>= g) := by
  intro d hd
  rw [EStateM.run_bind, EStateM.run_bind, hx d hd]
  cases hrun : r.run d with
  | ok a e =>
      have hread := hr d
      rw [hrun] at hread
      obtain ⟨us, he, ha⟩ := hread
      exact hf us a ha e (hd.trans he)
  | error y e => rfl

theorem step (hr : Reads r R) (hf : ∀ us a, R us a → SameAfter c (ts ++ us) (f a) (g a)) :
    SameAfter c ts (r >>= f) (r >>= g) :=
  (refl r).bind hr hf

theorem look {r : Reader Bool} {f g : Bool → Reader β} (hr : Peeks r)
    (hf : ∀ b, SameAfter c ts (f b) (g b)) : SameAfter c ts (r >>= f) (r >>= g) := by
  refine step hr.reads fun us b hb => ?_
  have hus : us = [] := hb.elim And.right And.right
  rw [hus, List.append_nil]
  exact hf b

theorem finish (f : α → Reader β) (hx : SameAfter c ts x r) :
    SameAfter c ts (x >>= f) (r >>= f) := by
  intro d hd
  rw [EStateM.run_bind, EStateM.run_bind, hx d hd]

theorem ite {x' r' : Reader α} (b : Bool) (h : SameAfter c ts x r) (h' : SameAfter c ts x' r') :
    SameAfter c ts (if b then x else x') (if b then r else r') := by
  cases b
  · exact h'
  · exact h

theorem bounded {read read' : Nat → Reader α} (h : ∀ n, SameAfter c ts (read n) (read' n)) :
    SameAfter c ts (bounded read) (bounded read') := by
  intro d hd
  rw [run_bounded, run_bounded]
  exact h _ d hd

theorem repeatAt {more : Reader Bool} (hm : Reads more M) (hr : Reads r R)
    (hx : ∀ us, SameAfter c (ts ++ us) x r) (n : Nat) :
    SameAfter c ts (repeatAt more x n) (repeatAt more r n) := by
  induction n generalizing ts with
  | zero => exact refl _
  | succ n ih =>
      refine step hm fun us b _ => ?_
      cases b with
      | false => exact refl _
      | true =>
          refine (hx us).bind hr fun vs a _ => (ih fun ws => ?_).finish _
          rw [List.append_assoc, List.append_assoc]
          exact hx _

theorem repeated {more : Reader Bool} (hm : Reads more M) (hr : Reads r R)
    (hx : ∀ us, SameAfter c (ts ++ us) x r) :
    SameAfter c ts (repeated more x) (repeated more r) :=
  bounded (repeatAt hm hr hx)

theorem separated (s : Symbol) (hr : Reads r R) (hx : ∀ us, SameAfter c (ts ++ us) x r) :
    SameAfter c ts (separated s x) (separated s r) := by
  have hfirst : SameAfter c ts x r := by simpa using hx []
  refine hfirst.bind hr fun us a _ => (repeated (reads_eat _) hr fun vs => ?_).finish _
  rw [List.append_assoc]
  exact hx _

variable {y inner : Reader TypeExpr}

theorem parenthesized (hi : Reads inner fun ts a => Derives ts (.type a))
    (hy : ∀ us, us ≠ [] → SameAfter c us y inner) :
    SameAfter c [] (Reader.parenthesized y) (Reader.parenthesized inner) := by
  refine step (reads_expect _) ?_
  rintro _ start ⟨t, rfl, -⟩
  refine step (reads_eat _) fun us closed _ => ite closed (refl _) ?_
  refine (hy _ (by simp)).bind hi fun vs first _ => look (peeks_checkInside _) fun more => ?_
  exact ite more ((repeated (reads_eat _) hi fun ws => hy _ (by simp)).finish _) (refl _)

theorem recordType (hi : Reads inner fun ts a => Derives ts (.type a))
    (hy : ∀ us, us ≠ [] → SameAfter c us y inner) :
    SameAfter c [] (Reader.recordType y) (Reader.recordType inner) := by
  have hfield {us : List Token} (hus : us ≠ []) :
      SameAfter c us (recordField y) (recordField inner) := by
    refine step reads_lowercaseName fun vs name _ => step (reads_expect _) fun ws _ _ => ?_
    exact (hy _ (by simp [hus])).finish _
  refine step (reads_expect _) ?_
  rintro _ start ⟨t, rfl, -⟩
  refine step (reads_eat _) fun us closed _ => ite closed (refl _) ?_
  refine step reads_recordBase? fun vs base _ => ?_
  exact (separated .comma (reads_recordField hi) fun ws => hfield (by simp)).finish _

end SameAfter

end Reader

namespace TypeLevel

open Reader

variable {l m : TypeLevel} {c d : Cursor} {call : TypeLevel → Reader TypeExpr}
  {inner inner' : Reader TypeExpr}

def SameBelow (call : TypeLevel → Reader TypeExpr) (inner : Reader TypeExpr) (c : Cursor)
    (l : TypeLevel) : Prop :=
  ∀ {m : TypeLevel} {ts : List Token}, ts ≠ [] ∨ m.rank < l.rank →
    SameAfter c ts (call m) (readerOf inner m)

theorem sameAfter_type (hi : Reads inner fun ts a => Derives ts (.type a))
    (h : SameBelow call inner c .type) :
    SameAfter c [] (body call .type) (body (readerOf inner) .type) := by
  have hdomain : SameAfter c [] (call .application) (Reader.application inner) :=
    h (.inr (by decide))
  refine hdomain.bind (reads_application hi) fun us domain hus => ?_
  refine .step (reads_eat _) fun vs more _ => .ite more ?_ (.refl _)
  have hne : [] ++ us ++ vs ≠ [] := by simp [hus.begins_application.ne_nil]
  exact (h (.inl hne)).finish _

theorem sameAfter_application (hi : Reads inner fun ts a => Derives ts (.type a))
    (h : SameBelow call inner c .application) :
    SameAfter c [] (body call .application) (body (readerOf inner) .application) := by
  refine .look (peeks_checkInside _) fun named => .ite named ?_ (h (.inr (by decide)))
  refine .step reads_capitalisedName ?_
  rintro _ ⟨name, span⟩ ⟨t, rfl, -⟩
  refine SameAfter.finish _ ?_
  exact .repeated peeks_atAtom.reads (reads_atom hi) fun us => h (.inl (by simp))

theorem sameAfter_atom (h : SameBelow call inner c .atom) :
    SameAfter c [] (body call .atom) (body (readerOf inner) .atom) := by
  refine .look (peeks_checkInside _) fun lowercase => .ite lowercase (.refl _) ?_
  refine .look (peeks_checkInside _) fun named => .ite named (.refl _) ?_
  refine .look (peeks_checkInside _) fun bracket => .ite bracket (h (.inr (by decide))) ?_
  exact .look (peeks_checkInside _) fun brace => .ite brace (h (.inr (by decide))) (.refl _)

theorem run_body_eq (hi : Reads inner fun ts a => Derives ts (.type a))
    (h : ∀ m d, Descends m d l c → (call m).run d = (readerOf inner m).run d) :
    (l.body call).run c = (l.body (readerOf inner)).run c := by
  have hbelow : SameBelow call inner c l := by
    intro m ts hm d hd
    refine h m d ⟨⟨ts, hd.ahead.symm⟩, hm.imp_left fun hne => ?_⟩
    have hpos := List.length_pos_iff.2 hne
    rw [hd.ahead, List.length_append]
    omega
  have hsame : SameAfter c [] (l.body call) (l.body (readerOf inner)) := by
    cases l with
    | type => exact sameAfter_type hi hbelow
    | application => exact sameAfter_application hi hbelow
    | atom => exact sameAfter_atom hbelow
    | parenthesized => exact .parenthesized hi fun us hus => hbelow (.inl hus)
    | record => exact .recordType hi fun us hus => hbelow (.inl hus)
  exact hsame c (.refl c)

theorem run_body_readerOf_eq (hi : Reads inner fun ts a => Derives ts (.type a)) (l : TypeLevel)
    (c : Cursor)
    (h : ∀ d, d.ahead.length < c.ahead.length → inner'.run d = inner.run d) :
    (l.body (readerOf inner')).run c = (l.body (readerOf inner)).run c := by
  suffices hall : ∀ p : TypeLevel × Cursor, p.2.ahead.length ≤ c.ahead.length →
      (p.1.body (readerOf inner')).run p.2 = (p.1.body (readerOf inner)).run p.2 from
    hall (l, c) (Nat.le_refl _)
  intro p
  induction p using wellFounded_descends.induction with
  | _ p ih =>
      intro hp
      refine run_body_eq hi fun m d hd => ?_
      have hle := hd.suffix.length_le
      by_cases hm : m = .type
      · subst hm
        -- no level is above this one, so a token has been taken
        have hlt : d.ahead.length < p.2.ahead.length := by
          refine hd.lower.resolve_right ?_
          cases p.1 <;> decide
        exact h d (by omega)
      · rw [← body_readerOf inner' hm, ← body_readerOf inner hm]
        exact ih (m, d) hd (by simp only; omega)

theorem run_typeExprAt {n : Nat} (h : c.ahead.length < n) :
    (typeExprAt n).run c = typeExpr.run c := by
  suffices hall : ∀ m, c.ahead.length < m → (typeExprAt n).run c = (typeExprAt m).run c from
    hall _ (Nat.lt_succ_self _)
  induction n generalizing c with
  | zero => exact absurd h (Nat.not_lt_zero _)
  | succ n ih =>
      intro m hm
      obtain ⟨m, rfl⟩ := Nat.exists_eq_succ_of_ne_zero (Nat.ne_zero_of_lt hm)
      exact run_body_readerOf_eq (reads_typeExprAt m) .type c fun d hd =>
        ih (by omega) m (by omega)

theorem typeExpr_eq : typeExpr = arrow typeExpr := by
  funext c
  change (arrow (typeExprAt c.ahead.length)).run c = (arrow typeExpr).run c
  exact run_body_readerOf_eq reads_typeExpr .type c fun d hd => run_typeExprAt hd

theorem body_reader (l : TypeLevel) : l.body reader = l.reader := by
  by_cases hl : l = .type
  · subst hl
    exact typeExpr_eq.symm
  · exact body_readerOf typeExpr hl

theorem run_body_eq_run_reader
    (h : ∀ m d, Descends m d l c → (call m).run d = m.reader.run d) :
    (l.body call).run c = l.reader.run c := by
  rw [← body_reader]
  exact run_body_eq reads_typeExpr h

theorem eq_reader (h : ∀ l, call l = l.body call) : call = reader := by
  suffices hall : ∀ p : TypeLevel × Cursor, (call p.1).run p.2 = p.1.reader.run p.2 by
    funext l c
    exact hall (l, c)
  intro p
  induction p using wellFounded_descends.induction with
  | _ p ih =>
      rw [h]
      exact run_body_eq_run_reader fun m d hd => ih (m, d) hd

end TypeLevel

end ElmTypes
