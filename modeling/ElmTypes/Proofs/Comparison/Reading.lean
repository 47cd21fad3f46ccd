import ElmTypes.Grammar.Declaration
import ElmTypes.Proofs.Comparison.Alike
import ElmTypes.Proofs.Grammar.Reading

namespace ElmTypes

/-- Whether a token can be taken, in whichever column it stands, where this is expected at the end
of the tokens. A token ahead also decides what an opening brace begins. -/
def Expected.admits : Expected → TokenKind → Bool
  | .operator, k => k.operator?.isSome
  | .symbol .colon, k => k == .symbol .colon || k == .symbol .bar
  | e, k => e.accepts k

def SyntaxCause.isContinuedBy (k : TokenKind) : SyntaxCause → Bool
  | .unexpectedEnd [.symbol .colon, .symbol .equals] => k.associativity?.isSome
  | .unexpectedEnd es => es.getLast?.any fun e => e.admits k
  | .danglingSignature name none => k == .word name
  | _ => false

theorem SyntaxCause.isContinuedBy_unexpectedEnd {es : List Expected} {k : TokenKind}
    (h : es ≠ [.symbol .colon, .symbol .equals]) :
    (unexpectedEnd es).isContinuedBy k = es.getLast?.any fun e => e.admits k := by
  unfold isContinuedBy
  split
  · rename_i hes
    exact absurd (unexpectedEnd.inj hes) h
  · rename_i hes
    rw [unexpectedEnd.inj hes]
  · rename_i hes
    cases hes
  · rename_i hes _
    exact absurd rfl (hes es)

theorem Expected.admits_of_accepts {e : Expected} {k : TokenKind} (h : e.accepts k = true) :
    e.admits k = true := by
  unfold admits
  split
  · cases k <;> first | rfl | cases h
  · have hk : (k == .symbol .colon) = true := h
    simp [hk]
  · exact h

@[simp] def Expected.NewTo (e : Expected) (es : List Expected) : Prop :=
  e ∉ es ∧ .symbol .colon ∉ es

instance (e : Expected) (es : List Expected) : Decidable (e.NewTo es) :=
  inferInstanceAs (Decidable (_ ∧ _))

theorem Expected.NewTo.mono {e : Expected} {es fs : List Expected} (h : e.NewTo fs)
    (hs : es ⊆ fs) : e.NewTo es :=
  ⟨fun he => h.1 (hs he), fun hc => h.2 (hs hc)⟩

/-- Two readings: how the spans of their tokens correspond, what the second has ahead when the first
has nothing, and below how many tokens ahead they agree about what has been expected. -/
structure Pairing where
  same : Span → Span → Prop
  keepsHulls : KeepsHulls same
  rest : List Token
  starts : ∀ t ∈ rest.head?, t.startsDeclaration = true
  fresh : Nat
  fresh_pos : 0 < fresh

/-- The error of a reading that had to stop at the end, and that of the reading which stopped at a
token there. -/
inductive SyntaxError.CutOff (S : Span → Span → Prop) (t : Token) : SyntaxError → SyntaxError → Prop
  | missing {es : List Expected} {s : Span} :
      CutOff S t ⟨.unexpectedEnd es, s⟩ ⟨.unexpectedToken t.kind es, t.span⟩
  | definition {name : String} {s s' : Span} (hs : S s s') :
      CutOff S t ⟨.danglingSignature name none, s⟩ ⟨.danglingSignature name (some t.kind), s'⟩

namespace Pairing

structure Like (p : Pairing) (t t' : Token) : Prop where
  kind : t'.kind = t.kind
  starts : t'.startsDeclaration = t.startsDeclaration
  span : p.same t.span t'.span

inductive Ahead (p : Pairing) : List Token → List Token → Prop where
  | done : Ahead p [] p.rest
  | cons {t t' : Token} {ts ts' : List Token} (ht : p.Like t t') (hts : Ahead p ts ts') :
      Ahead p (t :: ts) (t' :: ts')

structure Beside (p : Pairing) (c c' : Cursor) : Prop where
  ahead : p.Ahead c.ahead c'.ahead
  synced : c.ahead.length < p.fresh → c.expected = c'.expected ∧ p.same c.last c'.last

/-- Errors of two readings, the first of which stopped before these tokens. -/
inductive Blames (p : Pairing) (ts : List Token) : SyntaxError → SyntaxError → Prop where
  | same {cause cause' : SyntaxCause} {s s' : Span} (hc : ts.length < p.fresh → cause = cause')
      (hm : cause.message = cause'.message) (hs : p.same s s') :
      Blames p ts ⟨cause, s⟩ ⟨cause', s'⟩
  | cutOff {t : Token} {e e' : SyntaxError} (hts : ts = []) (ht : p.rest.head? = some t)
      (h : e.CutOff p.same t e') : Blames p ts e e'

inductive Outcome (p : Pairing) {α : Type} (V : α → α → Prop) (Q : α → Cursor → Prop) :
    EStateM.Result SyntaxError Cursor α → EStateM.Result SyntaxError Cursor α → Prop where
  | ok {a a' : α} {d d' : Cursor} (hv : V a a') (hd : p.Beside d d') (hq : Q a d) :
      Outcome p V Q (.ok a d) (.ok a' d')
  | error {e e' : SyntaxError} {d d' : Cursor} (he : p.Blames d.ahead e e') (hd : p.Beside d d') :
      Outcome p V Q (.error e d) (.error e' d')
  | overrun {t : Token} {e : SyntaxError} {d : Cursor} (ht : p.rest.head? = some t)
      (he : e.cause.isContinuedBy t.kind = true)
      (r : EStateM.Result SyntaxError Cursor α) : Outcome p V Q (.error e d) r

variable {p : Pairing} {c c' : Cursor}

theorem Ahead.length_eq {ts ts' : List Token} (h : p.Ahead ts ts') :
    ts'.length = ts.length + p.rest.length := by
  induction h with
  | done => rw [List.length_nil, Nat.zero_add]
  | cons _ _ ih => rw [List.length_cons, List.length_cons, ih, Nat.add_right_comm]

theorem Beside.note (h : p.Beside c c') (e : Expected) : p.Beside (c.note e) (c'.note e) := by
  constructor
  · rw [Cursor.ahead_note, Cursor.ahead_note]
    exact h.ahead
  · intro hlt
    rw [Cursor.ahead_note] at hlt
    obtain ⟨hes, hs⟩ := h.synced hlt
    rw [Cursor.last_note, Cursor.last_note]
    refine ⟨?_, hs⟩
    unfold Cursor.note
    rw [hes]
    split
    · exact hes
    · rfl

theorem Beside.forget (h : p.Beside c c') :
    p.Beside { c with expected := [] } { c' with expected := [] } :=
  ⟨h.ahead, fun hlt => ⟨rfl, (h.synced hlt).2⟩⟩

theorem Ahead.opens {ts ts' : List Token} (h : p.Ahead ts ts') (e : Expected) :
    Reader.opens e ts' = Reader.opens e ts := by
  cases h with
  | cons ht _ => simp [Reader.opens, ht.kind, ht.starts]
  | done =>
      rw [Reader.opens, Reader.opens, List.head?_nil, Option.any_none, Option.any_eq_false]
      intro t ht
      simp [p.starts t ht]

theorem Ahead.atBoundary {ts ts' : List Token} (h : p.Ahead ts ts') :
    ts'.head?.all Token.startsDeclaration = ts.head?.all Token.startsDeclaration := by
  cases h with
  | cons ht _ => simp [ht.starts]
  | done =>
      rw [List.head?_nil, Option.all_none, Option.all_eq_true]
      exact p.starts

theorem Beside.accepts_inside (h : p.Beside c c') (e : Expected) :
    (c'.accepts e && !c'.atBoundary) = (c.accepts e && !c.atBoundary) := by
  rw [Reader.accepts_and_not_atBoundary, Reader.accepts_and_not_atBoundary]
  exact h.ahead.opens e

theorem Beside.atBoundary (h : p.Beside c c') : c'.atBoundary = c.atBoundary :=
  h.ahead.atBoundary

theorem Beside.nil (h : p.Beside c c') (hc : c.ahead = []) : c'.ahead = p.rest := by
  have ha := h.ahead
  rw [hc] at ha
  generalize c'.ahead = us at ha ⊢
  cases ha with
  | done => rfl

theorem Beside.cons (h : p.Beside c c') {t : Token} {ts : List Token} (hc : c.ahead = t :: ts) :
    ∃ t' ts', c'.ahead = t' :: ts' ∧ p.Like t t' ∧ p.Ahead ts ts' := by
  have ha := h.ahead
  rw [hc] at ha
  generalize c'.ahead = us at ha ⊢
  cases ha with
  | cons ht hts => exact ⟨_, _, rfl, ht, hts⟩

theorem Beside.advance (h : p.Beside c c') (hc : c.ahead ≠ []) :
    p.Beside c.advance c'.advance := by
  obtain ⟨t, ts, hts⟩ := List.exists_cons_of_ne_nil hc
  obtain ⟨t', ts', hts', ht, ha⟩ := h.cons hts
  simp only [Cursor.advance, hts, hts']
  exact ⟨ha, fun _ => ⟨rfl, ht.span⟩⟩

theorem Beside.blames (h : p.Beside c c') : p.Blames c.ahead c.complaint c'.complaint := by
  cases hc : c.ahead with
  | cons t ts =>
      obtain ⟨t', ts', hc', ht, -⟩ := h.cons hc
      simp only [Cursor.complaint, hc, hc', ht.kind]
      refine .same (fun hlt => ?_) rfl ht.span
      rw [← hc] at hlt
      rw [(h.synced hlt).1]
  | nil =>
      have hpos : c.ahead.length < p.fresh := by
        rw [hc]
        exact p.fresh_pos
      obtain ⟨hes, hs⟩ := h.synced hpos
      have hc' := h.nil hc
      cases hr : p.rest with
      | nil =>
          rw [hr] at hc'
          simp only [Cursor.complaint, hc, hc', hes]
          exact .same (fun _ => rfl) rfl hs
      | cons t ts =>
          rw [hr] at hc'
          simp only [Cursor.complaint, hc, hc', ← hes]
          refine .cutOff rfl ?_ .missing
          rw [hr]
          rfl

end Pairing

namespace Cursor

structure Bound (k : Nat) (es : List Expected) (c : Cursor) : Prop where
  length : c.ahead.length ≤ k
  expected : c.ahead = [] → c.expected ⊆ es

def Past (k : Nat) (es : List Expected) (c : Cursor) : Prop := ∃ j < k, c.Bound j es

def Open (k : Nat) (c : Cursor) : Prop := c.ahead ≠ [] ∧ c.ahead.length ≤ k

structure Ended (k : Nat) (c : Cursor) : Prop where
  length : c.ahead.length < k
  boundary : c.atBoundary = true

variable {c : Cursor} {j k : Nat} {es fs : List Expected}

theorem Bound.mono (h : c.Bound j es) (hk : j ≤ k) (hs : es ⊆ fs) : c.Bound k fs :=
  ⟨Nat.le_trans h.length hk, fun hc => List.Subset.trans (h.expected hc) hs⟩

theorem Bound.length_lt {n : Nat} (h : c.Bound k es) (hk : k < n) : c.ahead.length < n :=
  Nat.lt_of_le_of_lt h.length hk

theorem Past.mono (h : c.Past j es) (hk : j ≤ k) (hs : es ⊆ fs) : c.Past k fs := by
  obtain ⟨i, hi, hb⟩ := h
  exact ⟨i, Nat.lt_of_lt_of_le hi hk, hb.mono (Nat.le_refl i) hs⟩

theorem Past.bound (h : c.Past k es) : c.Bound k es := by
  obtain ⟨j, hj, hb⟩ := h
  exact hb.mono (Nat.le_of_lt hj) (List.Subset.refl es)

theorem Open.bound (h : c.Open k) (es : List Expected) : c.Bound k es :=
  ⟨h.2, fun hc => absurd hc h.1⟩

theorem Ended.mono (h : c.Ended j) (hk : j ≤ k) : c.Ended k :=
  ⟨Nat.lt_of_lt_of_le h.length hk, h.boundary⟩

theorem Bound.note (h : c.Bound k es) (e : Expected) : (c.note e).Bound k (e :: es) := by
  constructor
  · rw [ahead_note]
    exact h.length
  · intro hc
    rw [ahead_note] at hc
    have hs := h.expected hc
    unfold Cursor.note
    split
    · exact List.subset_cons_of_subset e hs
    · exact List.append_subset.2 ⟨List.subset_cons_of_subset e hs, by simp⟩

theorem Bound.advance (h : c.Bound k es) (hc : c.ahead ≠ []) : c.advance.Past k [] := by
  obtain ⟨t, ts, hts⟩ := List.exists_cons_of_ne_nil hc
  have hle := h.length
  rw [hts, List.length_cons] at hle
  refine ⟨ts.length, hle, ?_, ?_⟩
  · exact Nat.le_of_eq (by rw [ahead_advance, hts, List.tail_cons])
  · intro _
    rw [expected_advance]
    exact List.Subset.refl []

theorem Bound.advanceWhile (h : c.Bound k es) (q : Token → Bool) :
    (c.advanceWhile q).Bound k es := by
  constructor
  · rw [ahead_advanceWhile]
    exact Nat.le_trans (List.dropWhile_sublist q).length_le h.length
  · intro hc
    unfold Cursor.advanceWhile at hc ⊢
    split
    · rename_i hn
      rw [hn] at hc
      exact h.expected hc
    · exact List.nil_subset es

end Cursor

namespace Pairing

open Reader Cursor

variable {α β : Type}

/-- Two readings from where the condition holds: the results correspond, and the first reading ends
where another condition holds. -/
def Relates (p : Pairing) (P : Cursor → Prop) (r r' : Reader α) (V : α → α → Prop)
    (Q : α → Cursor → Prop) : Prop :=
  ∀ c c', p.Beside c c' → P c → p.Outcome V Q (r.run c) (r'.run c')

section

variable {p : Pairing} {P P' : Cursor → Prop} {r r' : Reader α} {f f' : α → Reader β}
  {V V' : α → α → Prop} {W : β → β → Prop} {Q Q' : α → Cursor → Prop} {R : β → Cursor → Prop}
  {k : Nat} {e : Expected} {es fs : List Expected}

theorem Relates.pure {a a' : α} (hv : V a a') (hq : ∀ c, P c → Q a c) :
    p.Relates P (pure a) (pure a') V Q :=
  fun c _ h hc => .ok hv h (hq c hc)

theorem Relates.bind (hr : p.Relates P r r' V Q)
    (hf : ∀ a a', V a a' → p.Relates (Q a) (f a) (f' a') W R) :
    p.Relates P (r >>= f) (r' >>= f') W R := by
  intro c c' h hc
  have hrun := hr c c' h hc
  rw [EStateM.run_bind, EStateM.run_bind]
  generalize r.run c = x, r'.run c' = x' at hrun
  cases hrun with
  | ok hv hd hq => exact hf _ _ hv _ _ hd hq
  | error he hd => exact .error he hd
  | overrun ht he => exact .overrun ht he _

theorem Relates.never (hr : p.Relates P r r' (fun _ _ => False) fun _ _ => False) :
    p.Relates P (r >>= f) (r' >>= f') W R :=
  hr.bind fun _ _ hv => hv.elim

theorem Relates.mono (h : p.Relates P r r' V Q) (hp : ∀ c, P' c → P c)
    (hv : ∀ a a', V a a' → V' a a') (hq : ∀ a c, Q a c → Q' a c) : p.Relates P' r r' V' Q' := by
  intro c c' hb hc
  have hrun := h c c' hb (hp c hc)
  generalize r.run c = x, r'.run c' = x' at hrun ⊢
  cases hrun with
  | ok ha hd hd' => exact .ok (hv _ _ ha) hd (hq _ _ hd')
  | error he hd => exact .error he hd
  | overrun ht he => exact .overrun ht he _

theorem Relates.of_imp (h : p.Relates P r r' V Q) (hp : ∀ c, P' c → P c) : p.Relates P' r r' V Q :=
  h.mono hp (fun _ _ hv => hv) fun _ _ hq => hq

theorem Relates.ending (h : p.Relates P r r' V Q) (hq : ∀ a c, Q a c → Q' a c) :
    p.Relates P r r' V Q' :=
  h.mono (fun _ hc => hc) (fun _ _ hv => hv) hq

theorem Relates.bind_past (hr : p.Relates P r r' V fun _ => Past k es)
    (hf : ∀ a a', V a a' → ∀ j < k, p.Relates (Bound j es) (f a) (f' a') W R) :
    p.Relates P (r >>= f) (r' >>= f') W R := by
  refine hr.bind fun a a' hv c c' hb hc => ?_
  obtain ⟨j, hj, hc⟩ := hc
  exact hf a a' hv j hj c c' hb hc

theorem relates_note : p.Relates (Bound k es) (note e) (note e) (fun _ _ => True)
    fun _ => Bound k (e :: es) :=
  fun _ _ h hc => .ok trivial (h.note e) (hc.note e)

theorem relates_unexpected : p.Relates P unexpected unexpected V Q :=
  fun _ _ h _ => .error h.blames h.forget

theorem relates_fail {cause : SyntaxCause} {s s' : Span} (hs : p.same s s') :
    p.Relates P (fail cause s) (fail cause s') V Q :=
  fun _ _ h _ => .error (.same (fun _ => rfl) rfl hs) h

theorem relates_checkInside : p.Relates (Bound k es) (checkInside e) (checkInside e) Eq
    fun b => if b then Open k else Bound k (e :: es) := by
  intro c c' h hc
  rw [run_checkInside, run_checkInside, h.accepts_inside]
  refine .ok rfl (h.note e) ?_
  cases hin : c.accepts e && !c.atBoundary with
  | false => exact hc.note e
  | true =>
      refine ⟨?_, (hc.note e).length⟩
      rw [ahead_note]
      intro hn
      simp [Cursor.accepts, hn] at hin

theorem relates_advance :
    p.Relates (Open k) advance advance (fun _ _ => True) fun _ => Past k [] :=
  fun _ _ h hc => .ok trivial (h.advance hc.1) ((hc.bound []).advance hc.1)

theorem relates_eat : p.Relates (Bound k es) (eat e) (eat e) Eq
    fun b => if b then Past k [] else Bound k (e :: es) := by
  refine relates_checkInside.bind ?_
  rintro b _ rfl
  cases b with
  | true => exact relates_advance.bind fun _ _ _ => .pure rfl fun _ hc => hc
  | false => exact .pure rfl fun _ hc => hc

theorem relates_checkInside_bound : p.Relates (Bound k es) (checkInside e) (checkInside e) Eq
    fun b => if b then Bound k [] else Bound k (e :: es) := by
  refine relates_checkInside.ending fun b c hc => ?_
  cases b with
  | true => exact Open.bound hc []
  | false => exact hc

theorem relates_eat_bound : p.Relates (Bound k es) (eat e) (eat e) Eq
    fun b => if b then Bound k [] else Bound k (e :: es) := by
  refine relates_eat.ending fun b c hc => ?_
  cases b with
  | true => exact Past.bound hc
  | false => exact hc

theorem Relates.checkInside {f f' : Bool → Reader β} (ht : p.Relates (Open k) (f true) (f' true) W R)
    (hf : p.Relates (Bound k (e :: es)) (f false) (f' false) W R) :
    p.Relates (Bound k es) (checkInside e >>= f) (checkInside e >>= f') W R := by
  refine relates_checkInside.bind ?_
  rintro b _ rfl
  cases b with
  | true => exact ht
  | false => exact hf

theorem Relates.eat {f f' : Bool → Reader β}
    (ht : ∀ j < k, p.Relates (Bound j []) (f true) (f' true) W R)
    (hf : p.Relates (Bound k (e :: es)) (f false) (f' false) W R) :
    p.Relates (Bound k es) (eat e >>= f) (eat e >>= f') W R := by
  refine relates_eat.bind ?_
  rintro b _ rfl
  cases b with
  | true =>
      rintro c c' hb ⟨j, hj, hc⟩
      exact ht j hj c c' hb hc
  | false => exact hf

theorem isContinuedBy_complaint {c : Cursor} {kind : TokenKind} (hc : c.ahead = [])
    (he : e.NewTo c.expected) (hk : e.admits kind = true) :
    (c.note e).complaint.cause.isContinuedBy kind = true := by
  have hcomplaint : (c.note e).complaint.cause = .unexpectedEnd (c.expected ++ [e]) := by
    simp [complaint, hc, Cursor.note, he.1]
  have hname : c.expected ++ [e] ≠ [.symbol .colon] ++ [.symbol .equals] := by
    intro hes
    exact he.2 (by simp [(List.append_inj' hes rfl).1])
  rw [hcomplaint, SyntaxCause.isContinuedBy_unexpectedEnd hname, List.getLast?_concat]
  exact hk

theorem relates_take {find : TokenKind → Option α} (he : e.NewTo es)
    (hfind : ∀ kind a, find kind = some a → e.admits kind = true) :
    p.Relates (Bound k es) (take e find) (take e find)
      (fun x x' => x.1 = x'.1 ∧ p.same x.2 x'.2) fun _ => Past k [] := by
  intro c c' h hc
  have herror : p.Blames c.ahead (c.note e).complaint (c'.note e).complaint := by
    have hb := (h.note e).blames
    rwa [ahead_note] at hb
  have hfail : p.Outcome (fun x x' : α × Span => x.1 = x'.1 ∧ p.same x.2 x'.2)
      (fun _ => Past k []) (.error (c.note e).complaint ⟨c.ahead, [], c.last⟩)
      (.error (c'.note e).complaint ⟨c'.ahead, [], c'.last⟩) := .error herror h.forget
  rw [run_take, run_take]
  cases ha : c.ahead with
  | cons t ts =>
      obtain ⟨t', ts', ha', ht, hts⟩ := h.cons ha
      rw [ha, ha'] at hfail
      simp only [ha', ht.kind]
      cases hf : find t.kind with
      | none => exact hfail
      | some a =>
          have hpast := hc.advance (by simp [ha])
          simp only [Cursor.advance, ha] at hpast
          exact .ok ⟨rfl, ht.span⟩ ⟨hts, fun _ => ⟨rfl, ht.span⟩⟩ hpast
  | nil =>
      have ha' := h.nil ha
      rw [ha, ha'] at hfail
      cases hr : p.rest with
      | nil =>
          rw [hr] at hfail
          simp only [ha', hr]
          exact hfail
      | cons t ts =>
          rw [hr] at hfail
          simp only [ha', hr]
          cases hf : find t.kind with
          | none => exact hfail
          -- the first reading has no token where the second has the right one
          | some a =>
              refine .overrun (t := t) (by rw [hr]; rfl) ?_ _
              exact isContinuedBy_complaint ha (he.mono (hc.expected ha)) (hfind _ a hf)

theorem relates_expect (he : e.NewTo es) :
    p.Relates (Bound k es) (expect e) (expect e) p.same fun _ => Past k [] := by
  have htake : p.Relates (Bound k es)
      (take e fun kind => if e.accepts kind then some () else none)
      (take e fun kind => if e.accepts kind then some () else none)
      (fun x x' => x.1 = x'.1 ∧ p.same x.2 x'.2) fun _ => Past k [] := by
    apply relates_take he
    intro kind a ha
    split at ha
    · rename_i hk
      exact Expected.admits_of_accepts hk
    · cases ha
  refine htake.bind ?_
  rintro ⟨_, s⟩ ⟨_, s'⟩ ⟨-, hs⟩
  exact .pure hs fun _ hc => hc

theorem relates_lowercaseName (he : Expected.lowercaseName.NewTo es) :
    p.Relates (Bound k es) lowercaseName lowercaseName
      (fun x x' => x.1 = x'.1 ∧ p.same x.2 x'.2) fun _ => Past k [] := by
  apply relates_take he
  intro kind a ha
  exact Expected.admits_of_accepts (e := .lowercaseName) (Option.isSome_of_eq_some ha)

theorem relates_capitalisedName (he : Expected.capitalisedName.NewTo es) :
    p.Relates (Bound k es) capitalisedName capitalisedName
      (fun x x' => x.1 = x'.1 ∧ p.same x.2 x'.2) fun _ => Past k [] := by
  apply relates_take he
  intro kind a ha
  exact Expected.admits_of_accepts (e := .capitalisedName) (Option.isSome_of_eq_some ha)

theorem relates_declaredName (he : Expected.capitalisedName.NewTo es) :
    p.Relates (Bound k es) declaredName declaredName
      (fun x x' => x.1 = x'.1 ∧ p.same x.2 x'.2) fun _ => Past k [] := by
  refine (relates_capitalisedName he).bind ?_
  rintro ⟨name, s⟩ ⟨_, s'⟩ ⟨rfl, hs⟩
  simp only
  split
  · exact .never (relates_fail hs)
  · exact .pure ⟨rfl, hs⟩ fun _ hc => hc

theorem Relates.lastSpan {f f' : Span → Reader β} (hP : ∀ c, P c → c.ahead.length < p.fresh)
    (h : ∀ s s', p.same s s' → p.Relates P (f s) (f' s') W R) :
    p.Relates P (lastSpan >>= f) (lastSpan >>= f') W R := by
  intro c c' hb hc
  have hs := (hb.synced (hP c hc)).2
  exact h c.last c'.last hs c c' hb hc

theorem Relates.atBoundary {f f' : Bool → Reader β}
    (ht : p.Relates (fun c => c.Bound k es ∧ c.atBoundary = true) (f true) (f' true) W R)
    (hf : p.Relates (Open k) (f false) (f' false) W R) :
    p.Relates (Bound k es) (atBoundary >>= f) (atBoundary >>= f') W R := by
  intro c c' hb hc
  rw [EStateM.run_bind, EStateM.run_bind, run_atBoundary, run_atBoundary, hb.atBoundary]
  cases hat : c.atBoundary with
  | true => exact ht c c' hb ⟨hc, hat⟩
  | false =>
      refine hf c c' hb ⟨fun hn => ?_, hc.length⟩
      simp [Cursor.atBoundary, hn] at hat

theorem Relates.declarationEnd {f f' : Unit → Reader β}
    (h : p.Relates (fun c => c.Bound k es ∧ c.atBoundary = true) (f ()) (f' ()) W R) :
    p.Relates (Bound k es) (declarationEnd >>= f) (declarationEnd >>= f') W R := by
  have hend : p.Relates (Bound k es) Reader.declarationEnd Reader.declarationEnd (fun _ _ => True)
      fun _ c => c.Bound k es ∧ c.atBoundary = true :=
    .atBoundary (.pure trivial fun _ hc => hc) relates_unexpected
  exact hend.bind fun _ _ _ => h

theorem relates_bounded {read read' : Nat → Reader α}
    (h : ∀ j ≤ k, ∀ n n', j < n → j < n' → p.Relates (Bound j es) (read n) (read' n') V Q) :
    p.Relates (Bound k es) (bounded read) (bounded read') V Q := by
  intro c c' hb hc
  have hle : c.ahead.length ≤ c'.ahead.length := by
    rw [hb.ahead.length_eq]
    exact Nat.le_add_right _ _
  have hj := h c.ahead.length hc.length (c.ahead.length + 1) (c'.ahead.length + 1)
    (Nat.lt_succ_self _) (Nat.lt_succ_of_le hle)
  exact hj c c' hb ⟨Nat.le_refl _, hc.expected⟩

theorem relates_repeatAt {more : Reader Bool} {item item' : Reader α} {n n' : Nat}
    (hmore : ∀ j ≤ k, p.Relates (Bound j es) more more Eq
      fun b => if b then Bound j [] else Bound j fs)
    (hitem : ∀ j ≤ k, p.Relates (Bound j []) item item' V fun _ => Past j es)
    (hn : k < n) (hn' : k < n') :
    p.Relates (Bound k es) (repeatAt more item n) (repeatAt more item' n') (List.Forall₂ V)
      fun _ => Bound k fs := by
  -- neither bound is reached, as each item takes a token, so they need not be the same
  induction n generalizing k n' with
  | zero => exact absurd hn (Nat.not_lt_zero k)
  | succ n ih =>
      obtain ⟨n', rfl⟩ := Nat.exists_eq_add_one_of_ne_zero (Nat.ne_of_gt (Nat.zero_lt_of_lt hn'))
      refine (hmore k (Nat.le_refl k)).bind ?_
      rintro b _ rfl
      cases b with
      | false => exact .pure .nil fun _ hc => hc
      | true =>
          refine (hitem k (Nat.le_refl k)).bind_past fun a a' ha j hj => ?_
          have hrest := ih (fun i hi => hmore i (Nat.le_trans hi (Nat.le_of_lt hj)))
            (fun i hi => hitem i (Nat.le_trans hi (Nat.le_of_lt hj)))
            (Nat.lt_of_lt_of_le hj (Nat.le_of_lt_succ hn))
            (Nat.lt_of_lt_of_le hj (Nat.le_of_lt_succ hn'))
          refine hrest.bind fun as as' has => .pure (.cons ha has) fun c hc => ?_
          exact hc.mono (Nat.le_of_lt hj) (List.Subset.refl fs)

theorem relates_repeated {more : Reader Bool} {item item' : Reader α}
    (hmore : ∀ j ≤ k, p.Relates (Bound j es) more more Eq
      fun b => if b then Bound j [] else Bound j fs)
    (hitem : ∀ j ≤ k, p.Relates (Bound j []) item item' V fun _ => Past j es) :
    p.Relates (Bound k es) (repeated more item) (repeated more item') (List.Forall₂ V)
      fun _ => Bound k fs := by
  refine relates_bounded fun j hj n n' hn hn' => ?_
  have hat := relates_repeatAt (fun i hi => hmore i (Nat.le_trans hi hj))
    (fun i hi => hitem i (Nat.le_trans hi hj)) hn hn'
  exact hat.ending fun _ _ hc => hc.mono hj (List.Subset.refl fs)

theorem relates_separated {s : Symbol} {item item' : Reader α} {gs : List Expected}
    (hfirst : p.Relates (Bound k gs) item item' V fun _ => Past k es)
    (hitem : ∀ j ≤ k, p.Relates (Bound j []) item item' V fun _ => Past j es) :
    p.Relates (Bound k gs) (separated s item) (separated s item') (List.Forall₂ V)
      fun _ => Past k (.symbol s :: es) := by
  refine hfirst.bind_past fun a a' ha j hj => ?_
  have hrepeated : p.Relates (Bound j es) (repeated (Reader.eat (.symbol s)) item)
      (repeated (Reader.eat (.symbol s)) item') (List.Forall₂ V)
      fun _ => Bound j (.symbol s :: es) :=
    relates_repeated (fun _ _ => relates_eat_bound) fun i hi =>
      hitem i (Nat.le_trans hi (Nat.le_of_lt hj))
  refine hrepeated.bind fun as as' has => .pure (.cons ha has) fun c hc => ?_
  exact ⟨j, hj, hc⟩

end

end Pairing

end ElmTypes
