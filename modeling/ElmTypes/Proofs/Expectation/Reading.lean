import ElmTypes.Proofs.Expectation.Stopping

namespace ElmTypes

/-- An indented token that gives way to one of another kind, and the tokens after it. -/
structure Exchange where
  old : Token
  kind : TokenKind
  rest : List Token
  indented : old.startsDeclaration = false

namespace Exchange

open Reader

def new (x : Exchange) : Token := { x.old with kind := x.kind }

structure Beside (x : Exchange) (ts : List Token) (c c' : Cursor) : Prop where
  old : c.ahead = ts ++ x.old :: x.rest
  new : c'.ahead = ts ++ x.new :: x.rest
  last : c'.last = c.last
  quiet : ts = [] → ∀ e ∈ c.expected, e.accepts x.kind = false

def Misses (x : Exchange) (cause : SyntaxCause) : Prop :=
  ∀ found es, cause = .unexpectedToken found es → ∀ e ∈ es, e.accepts x.kind = false

inductive Outcome (x : Exchange) {α : Type} (r : Reader α) (c c' : Cursor) : Prop where
  | takesOld (h : Leaves x.rest c r)
  | takesNew (h : Leaves x.rest c' r)
  | ok {ts : List Token} {a : α} {d d' : Cursor} (h : r.run c = .ok a d)
      (h' : r.run c' = .ok a d') (hd : x.Beside ts d d')
  | error {ts : List Token} {e e' : SyntaxError} {d d' : Cursor} (h : r.run c = .error e d)
      (h' : r.run c' = .error e' d') (hd : x.Beside ts d d') (he : ts = [] → x.Misses e.cause)

structure Tracks (x : Exchange) {α : Type} (r : Reader α) : Prop extends Stops r where
  outcome {ts : List Token} {c c' : Cursor} (h : x.Beside ts c c') : x.Outcome r c c'

structure BeginsWith (x : Exchange) (es : List Expected) {α : Type} (r : Reader α) : Prop where
  tracks : x.Tracks r
  leads : ∀ e ∈ es, Leads e r

section

variable {x : Exchange} {t : Token} {ts us : List Token} {c c' d d' : Cursor} {e : Expected}

theorem misses_of_unexpected?_eq_none {cause : SyntaxCause} (h : cause.unexpected? = none) :
    x.Misses cause := by
  rintro found es rfl
  cases h

theorem misses_indented (x : Exchange) (found : TokenKind) : x.Misses (.indented found) :=
  fun _ _ h => nomatch h

theorem new_startsDeclaration (x : Exchange) : x.new.startsDeclaration = false := x.indented

namespace Beside

theorem length_eq (h : x.Beside ts c c') : c'.ahead.length = c.ahead.length := by
  rw [h.old, h.new, List.length_append, List.length_append, List.length_cons, List.length_cons]

theorem note (h : x.Beside ts c c') (he : ts = [] → e.accepts x.kind = false) :
    x.Beside ts (c.note e) (c'.note e) := by
  refine ⟨by rw [Cursor.ahead_note, h.old], by rw [Cursor.ahead_note, h.new], ?_, ?_⟩
  · rw [Cursor.last_note, Cursor.last_note, h.last]
  · intro hts
    unfold Cursor.note
    split
    · exact h.quiet hts
    · exact List.forall_mem_append.2 ⟨h.quiet hts, by simpa using he hts⟩

theorem note_cons (h : x.Beside (t :: ts) c c') (e : Expected) :
    x.Beside (t :: ts) (c.note e) (c'.note e) :=
  h.note fun hts => absurd hts (List.cons_ne_nil t ts)

theorem forget (h : x.Beside ts c c') :
    x.Beside ts { c with expected := [] } { c' with expected := [] } :=
  ⟨h.old, h.new, h.last, fun _ => List.forall_mem_nil _⟩

theorem after (x : Exchange) (ts : List Token) (s : Span) :
    x.Beside ts ⟨ts ++ x.old :: x.rest, [], s⟩ ⟨ts ++ x.new :: x.rest, [], s⟩ :=
  ⟨rfl, rfl, rfl, fun _ => List.forall_mem_nil _⟩

theorem advance (h : x.Beside (t :: ts) c c') : x.Beside ts c.advance c'.advance := by
  have hold := h.old
  have hnew := h.new
  rw [List.cons_append] at hold hnew
  simp only [Cursor.advance, hold, hnew]
  exact .after x ts t.span

theorem head?_cons (h : x.Beside (t :: ts) c c') :
    c.ahead.head? = some t ∧ c'.ahead.head? = some t := by
  simp [h.old, h.new]

theorem accepts_cons (h : x.Beside (t :: ts) c c') (e : Expected) :
    c.accepts e = e.accepts t.kind ∧ c'.accepts e = e.accepts t.kind := by
  simp [Cursor.accepts, h.old, h.new]

theorem accepts_nil (h : x.Beside [] c c') (e : Expected) :
    c.accepts e = e.accepts x.old.kind ∧ c'.accepts e = e.accepts x.kind := by
  simp [Cursor.accepts, h.old, h.new, Exchange.new]

theorem atBoundary_nil (h : x.Beside [] c c') :
    c.atBoundary = false ∧ c'.atBoundary = false := by
  simp [Cursor.atBoundary, h.old, h.new, x.indented, x.new_startsDeclaration]

theorem atBoundary (h : x.Beside ts c c') : c'.atBoundary = c.atBoundary := by
  cases ts with
  | nil => rw [h.atBoundary_nil.1, h.atBoundary_nil.2]
  | cons t ts => simp [Cursor.atBoundary, h.old, h.new]

theorem head?_span (h : x.Beside ts c c') :
    c'.ahead.head?.map Token.span = c.ahead.head?.map Token.span := by
  cases ts with
  | nil => simp [h.old, h.new, Exchange.new]
  | cons t ts => simp [h.old, h.new]

theorem misses_complaint (h : x.Beside ts c c') : ts = [] → x.Misses c.complaint.cause := by
  rintro rfl found es hes
  have hold := h.old
  simp only [Cursor.complaint, hold, List.nil_append, SyntaxCause.unexpectedToken.injEq] at hes
  exact hes.2 ▸ h.quiet rfl

end Beside

end

section

variable {x : Exchange} {α β : Type} {ts us : List Token} {c c' d d' : Cursor} {e : Expected}
  {r : Reader α} {s : Reader β} {f : α → Reader β}

theorem Outcome.of_run_eq {r s : Reader α} (h : x.Outcome s d d') (hr : r.run c = s.run d)
    (hr' : r.run c' = s.run d') : x.Outcome r c c' := by
  cases h with
  | takesOld h => exact .takesOld (leaves_of_run_eq h hr)
  | takesNew h => exact .takesNew (leaves_of_run_eq h hr')
  | ok h h' hd => exact .ok (hr.trans h) (hr'.trans h') hd
  | error h h' hd he => exact .error (hr.trans h) (hr'.trans h') hd he

theorem Outcome.bind (hr : x.Outcome r c c') (hs : ∀ a, Stops (f a))
    (hf : ∀ a ts d d', r.run c = .ok a d → x.Beside ts d d' → x.Outcome (f a) d d') :
    x.Outcome (r >>= f) c c' := by
  cases hr with
  | takesOld h => exact .takesOld (h.bind fun a d hd => leaves_of_suffix ((hs a).leaves d) hd)
  | takesNew h => exact .takesNew (h.bind fun a d hd => leaves_of_suffix ((hs a).leaves d) hd)
  | @ok ts a d d' h h' hd =>
      refine (hf a ts d d' h hd).of_run_eq ?_ ?_
      · rw [EStateM.run_bind, h]
      · rw [EStateM.run_bind, h']
  | @error ts e e' d d' h h' hd he =>
      have hrun : (r >>= f).run c = .error e d := by rw [EStateM.run_bind, h]
      have hrun' : (r >>= f).run c' = .error e' d' := by rw [EStateM.run_bind, h']
      exact .error hrun hrun' hd he

theorem Outcome.of_ok {a : α} (h : x.Outcome (f a) d d') (hr : r.run c = .ok a d)
    (hr' : r.run c' = .ok a d') : x.Outcome (r >>= f) c c' := by
  refine h.of_run_eq ?_ ?_
  · rw [EStateM.run_bind, hr]
  · rw [EStateM.run_bind, hr']

namespace Tracks

theorem pure (a : α) : x.Tracks (pure a) :=
  ⟨.pure a, fun h => .ok rfl rfl h⟩

theorem bind (hr : x.Tracks r) (hf : ∀ a, x.Tracks (f a)) : x.Tracks (r >>= f) := by
  refine ⟨hr.toStops.bind fun a => (hf a).toStops, fun h => ?_⟩
  exact (hr.outcome h).bind (fun a => (hf a).toStops) fun a _ _ _ _ hd => (hf a).outcome hd

end Tracks

theorem BeginsWith.bind {es : List Expected} (hr : x.BeginsWith es r) (hf : ∀ a, x.Tracks (f a)) :
    x.BeginsWith es (r >>= f) :=
  ⟨hr.tracks.bind hf, fun e he => (hr.leads e he).bind fun a => (hf a).toStops⟩

namespace Tracks

theorem lastSpan : x.Tracks lastSpan :=
  ⟨.lastSpan, fun h => .ok rfl (by rw [run_lastSpan, h.last]) h⟩

theorem nextSpan : x.Tracks nextSpan := by
  refine ⟨.nextSpan, fun h => .ok (run_nextSpan _) ?_ h⟩
  rw [run_nextSpan, h.head?_span]

theorem atBoundary : x.Tracks atBoundary :=
  ⟨.atBoundary, fun h => .ok rfl (by rw [run_atBoundary, h.atBoundary]) h⟩

theorem note (he : e.accepts x.kind = false) : x.Tracks (note e) :=
  ⟨.note e, fun h => .ok rfl rfl (h.note fun _ => he)⟩

theorem unexpected : x.Tracks (unexpected : Reader α) := by
  refine ⟨.unexpected, fun {ts c c'} h => ?_⟩
  exact .error (run_unexpected c) (run_unexpected c') h.forget h.misses_complaint

theorem fail {cause : SyntaxCause} {s : Span} (hc : cause.unexpected? = none) :
    x.Tracks (fail cause s : Reader α) :=
  ⟨.fail hc, fun h => .error rfl rfl h fun _ => misses_of_unexpected?_eq_none hc⟩

theorem advance : x.Tracks advance := by
  refine ⟨.advance, fun {ts c c'} h => ?_⟩
  cases ts with
  | nil => exact .takesOld (leaves_advance h.old)
  | cons t ts => exact .ok rfl rfl h.advance

theorem declarationEnd : x.Tracks declarationEnd := by
  refine atBoundary.bind fun b => ?_
  cases b with
  | true => exact .pure ()
  | false => exact .unexpected

theorem take {find : TokenKind → Option α}
    (he : ∀ kind, e.accepts kind = true → (find kind).isSome) : x.Tracks (take e find) := by
  refine ⟨.take e find, fun {ts c c'} h => ?_⟩
  cases ts with
  | cons t ts =>
      cases hf : find t.kind with
      | some a =>
          exact .ok (run_take_of_some h.old hf) (run_take_of_some h.new hf) (.after x ts t.span)
      | none =>
          refine .error (run_take_of_none h.old hf) (run_take_of_none h.new hf) h.forget ?_
          exact fun hts => absurd hts (List.cons_ne_nil t ts)
  | nil =>
      cases hf : find x.old.kind with
      | some a => exact .takesOld (leaves_take_of_some h.old hf)
      | none =>
      cases hf' : find x.new.kind with
      | some a => exact .takesNew (leaves_take_of_some h.new hf')
      | none =>
          have hquiet : e.accepts x.kind = false :=
            Bool.eq_false_iff.2 fun hk => by simpa [hf'] using he x.new.kind hk
          refine .error (run_take_of_none h.old hf) (run_take_of_none h.new hf') h.forget ?_
          exact (h.note fun _ => hquiet).misses_complaint

theorem test {es : List Expected} {m : Reader Bool} {p : Option Token → Bool}
    {f : Bool → Reader β} (hm : Tests es m p) (ht : x.BeginsWith es (f true))
    (hf : x.Tracks (f false)) : x.Tracks (m >>= f) := by
  have hb (b : Bool) : x.Tracks (f b) := by
    cases b with
    | true => exact ht.tracks
    | false => exact hf
  refine ⟨hm.stops.bind fun b => (hb b).toStops, fun {ts c c'} h => ?_⟩
  obtain ⟨d, hrun, ha, hl, hes⟩ := hm.run_eq c
  obtain ⟨d', hrun', ha', hl', -⟩ := hm.run_eq c'
  have hbeside (hq : ts = [] → ∀ e ∈ es, e.accepts x.kind = false) : x.Beside ts d d' := by
    refine ⟨ha.trans h.old, ha'.trans h.new, by rw [hl, hl', h.last], fun hts e hmem => ?_⟩
    rcases List.mem_append.1 (hes hmem) with hmem | hmem
    · exact h.quiet hts e hmem
    · exact hq hts e hmem
  cases ts with
  | cons t ts =>
      rw [h.old, List.cons_append, List.head?_cons] at hrun
      rw [h.new, List.cons_append, List.head?_cons] at hrun'
      refine ((hb (p (some t))).outcome (hbeside ?_)).of_ok hrun hrun'
      exact fun hts => absurd hts (List.cons_ne_nil t ts)
  | nil =>
      rw [h.old, List.nil_append, List.head?_cons, hm.next x.old x.indented] at hrun
      rw [h.new, List.nil_append, List.head?_cons, hm.next x.new x.new_startsDeclaration] at hrun'
      cases hk : es.any fun e => e.accepts x.old.kind with
      -- a token that is looked for is taken if it is there, and so is the exchanged one
      | true => exact .takesOld (hm.leaves ht.leads h.old x.indented hk)
      | false =>
      cases hk' : es.any fun e => e.accepts x.new.kind with
      | true => exact .takesNew (hm.leaves ht.leads h.new x.new_startsDeclaration hk')
      | false =>
          rw [hk] at hrun
          rw [hk'] at hrun'
          have hquiet : ∀ e ∈ es, e.accepts x.kind = false := by
            simpa [Exchange.new] using hk'
          exact (hf.outcome (hbeside fun _ => hquiet)).of_ok hrun hrun'

theorem check {f : Bool → Reader β} (ht : x.BeginsWith [e] (f true)) (hf : x.Tracks (f false)) :
    x.Tracks (Reader.check e >>= f) :=
  test (tests_check e) ht hf

theorem checkInside {f : Bool → Reader β} (ht : x.BeginsWith [e] (f true))
    (hf : x.Tracks (f false)) : x.Tracks (Reader.checkInside e >>= f) :=
  test (tests_checkInside e) ht hf

theorem bounded {read : Nat → Reader α} (h : ∀ n, x.Tracks (read (n + 1))) :
    x.Tracks (bounded read) := by
  refine ⟨.bounded fun n => (h n).toStops, fun {ts c c'} hb => ?_⟩
  refine ((h c.ahead.length).outcome hb).of_run_eq (run_bounded read c) ?_
  rw [run_bounded, hb.length_eq]

theorem repeatAt {es : List Expected} {more : Reader Bool} {p : Option Token → Bool}
    {item : Reader α} (hm : Tests es more p) (hi : x.BeginsWith es item) (n : Nat) :
    x.Tracks (repeatAt more item n) := by
  induction n with
  | zero => exact .pure []
  | succ n ih =>
      have hitems : x.BeginsWith es (do
          let a ← item
          let as ← Reader.repeatAt more item n
          return a :: as) := hi.bind fun a => ih.bind fun as => .pure (a :: as)
      exact test hm hitems (.pure [])

theorem repeated {es : List Expected} {more : Reader Bool} {p : Option Token → Bool}
    {item : Reader α} (hm : Tests es more p) (hi : x.BeginsWith es item) :
    x.Tracks (repeated more item) :=
  bounded fun n => repeatAt hm hi (n + 1)

end Tracks

namespace BeginsWith

variable {es es' : List Expected}

theorem of_tracks (h : x.Tracks r) : x.BeginsWith [] r := ⟨h, List.forall_mem_nil _⟩

theorem test {m : Reader Bool} {p : Option Token → Bool} {f : Bool → Reader β} (hm : Tests es m p)
    (ht : x.BeginsWith es (f true)) (hf : x.BeginsWith es' (f false)) :
    x.BeginsWith (es ++ es') (m >>= f) := by
  refine ⟨.test hm ht hf.tracks, List.forall_mem_append.2 ⟨fun e he => ?_, fun e he => ?_⟩⟩
  · exact hm.leads ht.leads he
  · exact hm.leads_later ht.leads (hf.leads e he)

theorem checkInside {f : Bool → Reader β} (ht : x.BeginsWith [e] (f true))
    (hf : x.BeginsWith es (f false)) : x.BeginsWith (e :: es) (Reader.checkInside e >>= f) :=
  test (tests_checkInside e) ht hf

theorem map (g : α → β) (hr : x.BeginsWith es r) : x.BeginsWith es (g <$> r) := by
  rw [map_eq_pure_bind]
  exact hr.bind fun a => .pure (g a)

theorem take {find : TokenKind → Option α}
    (he : ∀ kind, e.accepts kind = true → (find kind).isSome) : x.BeginsWith [e] (take e find) :=
  ⟨.take he, List.forall_mem_singleton.2 (leads_take he)⟩

theorem expect : x.BeginsWith [e] (expect e) := by
  refine (take fun kind he => ?_).bind fun p => .pure p.2
  rw [he]
  rfl

theorem lowercaseName : x.BeginsWith [.lowercaseName] lowercaseName := take fun _ he => he

theorem capitalisedName : x.BeginsWith [.capitalisedName] capitalisedName := take fun _ he => he

theorem advance : x.BeginsWith [e] advance :=
  ⟨.advance, List.forall_mem_singleton.2 leads_advance⟩

theorem eat : x.BeginsWith [e] (eat e) :=
  checkInside (advance.bind fun _ => .pure true) (.of_tracks (.pure false))

theorem bounded {read : Nat → Reader α} (h : ∀ n, x.BeginsWith es (read (n + 1))) :
    x.BeginsWith es (bounded read) :=
  ⟨.bounded fun n => (h n).tracks, fun e he c => (h c.ahead.length).leads e he c⟩

theorem repeated_eat {item : Reader α} (hi : x.Tracks item) :
    x.BeginsWith [e] (Reader.repeated (Reader.eat e) item) := by
  refine bounded fun n => eat.bind fun b => ?_
  have hitems : x.Tracks (Reader.repeatAt (Reader.eat e) item n) := by
    induction n with
    | zero => exact .pure []
    | succ n ih =>
        refine eat.tracks.bind fun b => ?_
        cases b with
        | true => exact hi.bind fun a => ih.bind fun as => .pure (a :: as)
        | false => exact .pure []
  cases b with
  | true => exact hi.bind fun a => hitems.bind fun as => .pure (a :: as)
  | false => exact .pure []

theorem separated {s : Symbol} {item : Reader α} (hi : x.BeginsWith es item) :
    x.BeginsWith es (separated s item) :=
  hi.bind fun a => (repeated_eat hi.tracks).tracks.bind fun as => .pure (a :: as)

theorem declaredName : x.BeginsWith [.capitalisedName] declaredName := by
  refine capitalisedName.bind fun p => ?_
  simp only
  split
  · exact (Tracks.fail rfl).bind fun _ => .pure p
  · exact .pure p

end BeginsWith

end

end Exchange

end ElmTypes
