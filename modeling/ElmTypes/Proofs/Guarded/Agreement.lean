import ElmTypes.Proofs.Guarded.Lexing
import ElmTypes.Proofs.Guarded.Parser
import ElmTypes.Proofs.Grammar.Reading

namespace ElmTypes.Guarded.Parser

variable {α β : Type} {tokens : List Token} {c d : Cursor} {n : Nat}

def place (tokens : List Token) (c : Cursor) : Place :=
  ⟨tokens.map .ofToken, tokens.length - c.ahead.length, c.expected, c.last⟩

/-- At this place both come to the same end, without a fault. -/
def Agrees (tokens : List Token) (c : Cursor) (x : Parser α) (r : Reader α) : Prop :=
  match r.run c with
  | .ok a d => x.run (place tokens c) = .ok a (place tokens d) ∧ d.ahead <:+ c.ahead
  | .error e d => x.run (place tokens c) = .error (.error e) (place tokens d) ∧ d.ahead <:+ c.ahead

def Mirrors (n : Nat) (x : Parser α) (r : Reader α) : Prop :=
  ∀ tokens c, c.ahead <:+ tokens → c.ahead.length < n → Agrees tokens c x r

section

variable {x : Parser α} {r : Reader α} {f : α → Parser β} {g : α → Reader β}

theorem Mirrors.agrees (h : Mirrors (c.ahead.length + 1) x r) (hc : c.ahead <:+ tokens) :
    Agrees tokens c x r := h tokens c hc (Nat.lt_succ_self _)

theorem agrees_of_run_eq_ok {a : α} (hr : r.run c = .ok a d)
    (hx : x.run (place tokens c) = .ok a (place tokens d)) (h : d.ahead <:+ c.ahead) :
    Agrees tokens c x r := by
  rw [Agrees, hr]
  exact ⟨hx, h⟩

theorem agrees_of_run_eq_error {e : SyntaxError} (hr : r.run c = .error e d)
    (hx : x.run (place tokens c) = .error (.error e) (place tokens d)) (h : d.ahead <:+ c.ahead) :
    Agrees tokens c x r := by
  rw [Agrees, hr]
  exact ⟨hx, h⟩

theorem Agrees.pure (a : α) : Agrees tokens c (pure a) (pure a) :=
  agrees_of_run_eq_ok rfl rfl (List.suffix_refl _)

theorem Agrees.of_run_eq {y : Parser α} {s : Reader α} (h : Agrees tokens d y s)
    (hr : r.run c = s.run d) (hx : x.run (place tokens c) = y.run (place tokens d))
    (hd : d.ahead <:+ c.ahead) : Agrees tokens c x r := by
  rw [Agrees] at h ⊢
  rw [hr, hx]
  cases hs : s.run d with
  | ok a e =>
      rw [hs] at h
      exact ⟨h.1, h.2.trans hd⟩
  | error a e =>
      rw [hs] at h
      exact ⟨h.1, h.2.trans hd⟩

theorem Agrees.step {γ : Type} {y : Parser γ} {p : γ} {k : γ → Parser β} {a : α}
    (hr : r.run c = .ok a d) (hy : y.run (place tokens c) = .ok p (place tokens d))
    (hd : d.ahead <:+ c.ahead) (h : Agrees tokens d (k p) (g a)) :
    Agrees tokens c (y >>= k) (r >>= g) := by
  refine h.of_run_eq ?_ ?_ hd
  · rw [EStateM.run_bind, hr]
  · rw [EStateM.run_bind, hy]

theorem Agrees.bind (hx : Agrees tokens c x r)
    (hf : ∀ a d, r.run c = .ok a d → d.ahead <:+ c.ahead → Agrees tokens d (f a) (g a)) :
    Agrees tokens c (x >>= f) (r >>= g) := by
  rw [Agrees] at hx
  cases hr : r.run c with
  | ok a d =>
      rw [hr] at hx
      exact .step hr hx.1 hx.2 (hf a d hr hx.2)
  | error e d =>
      rw [hr] at hx
      rw [Agrees, EStateM.run_bind, EStateM.run_bind, hr, hx.1]
      exact ⟨rfl, hx.2⟩

theorem Mirrors.pure (a : α) : Mirrors n (pure a) (pure a) := fun _ _ _ _ => .pure a

theorem Mirrors.bind (hx : Mirrors n x r) (hf : ∀ a, Mirrors n (f a) (g a)) :
    Mirrors n (x >>= f) (r >>= g) := by
  intro tokens c hc hn
  refine (hx tokens c hc hn).bind fun a d _ hd => hf a tokens d (hd.trans hc) ?_
  exact Nat.lt_of_le_of_lt hd.length_le hn

def Advances (r : Reader α) : Prop :=
  ∀ c a d, r.run c = .ok a d → d.ahead.length < c.ahead.length

theorem Mirrors.bind_of_advances (hr : Advances r) (hx : Mirrors (n + 1) x r)
    (hf : ∀ a, Mirrors n (f a) (g a)) : Mirrors (n + 1) (x >>= f) (r >>= g) := by
  intro tokens c hc hn
  refine (hx tokens c hc hn).bind fun a d hrun hd => hf a tokens d (hd.trans hc) ?_
  have := hr c a d hrun
  omega

theorem Mirrors.ite {x' : Parser α} {r' : Reader α} (b : Bool) (h : Mirrors n x r)
    (h' : Mirrors n x' r') : Mirrors n (if b then x else x') (if b then r else r') := by
  cases b
  · exact h'
  · exact h

theorem Mirrors.map (g : α → β) (h : Mirrors n x r) : Mirrors n (g <$> x) (g <$> r) := by
  rw [map_eq_pure_bind, map_eq_pure_bind]
  exact h.bind fun a => .pure (g a)

theorem Mirrors.mono {m : Nat} (h : Mirrors n x r) (hm : m ≤ n) : Mirrors m x r :=
  fun tokens c hc hlt => h tokens c hc (Nat.lt_of_lt_of_le hlt hm)

end

theorem getElem?_place (h : c.ahead <:+ tokens) (n : Nat) :
    (place tokens c).pieces[(place tokens c).cursor + n]? = c.ahead[n]?.map Piece.ofToken := by
  obtain ⟨before, rfl⟩ := h
  simp only [place, List.length_append, Nat.add_sub_cancel, List.getElem?_map,
    List.getElem?_append_right (Nat.le_add_right _ _), Nat.add_sub_cancel_left]

theorem run_peekAt (h : c.ahead <:+ tokens) (n : Nat) :
    (peekAt n).run (place tokens c) = .ok (c.ahead[n]?.map Piece.ofToken) (place tokens c) := by
  rw [← getElem?_place h]
  rfl

theorem run_bump (h : c.ahead <:+ tokens) :
    bump.run (place tokens c) =
      .ok (c.ahead.head?.map Piece.ofToken) (place tokens c.advance) := by
  have hget : (place tokens c).pieces[(place tokens c).cursor]? = _ := getElem?_place h 0
  have hlength := h.length_le
  rcases c with ⟨_ | ⟨t, ts⟩, expected, last⟩
  · simp only [bump, EStateM.run_bind, EStateM.run_get, hget]
    rfl
  · have hcursor : (place tokens ⟨t :: ts, expected, last⟩).cursor + 1 =
        tokens.length - ts.length := by
      simp only [place, List.length_cons] at hlength ⊢
      omega
    simp only [bump, EStateM.run_bind, EStateM.run_get, hget, hcursor]
    rfl

theorem run_unexpected (h : c.ahead <:+ tokens) :
    (unexpected : Parser α).run (place tokens c) =
      .error (.error c.complaint) (place tokens { c with expected := [] }) := by
  have hget : (place tokens c).pieces[(place tokens c).cursor]? = _ := getElem?_place h 0
  rcases c with ⟨_ | ⟨t, ts⟩, expected, last⟩
  · simp only [unexpected, EStateM.run_bind, EStateM.run_get, EStateM.run_set, hget]
    rfl
  · simp only [unexpected, EStateM.run_bind, EStateM.run_get, EStateM.run_set, hget]
    rfl

theorem run_note (e : Expected) :
    (note e).run (place tokens c) = .ok () (place tokens (c.note e)) := by
  have h : (note e).run (place tokens c) = .ok () (if c.expected.contains e then place tokens c
      else { place tokens c with expected := c.expected ++ [e] }) := rfl
  rw [h, Cursor.note]
  split <;> rfl

theorem run_check (h : c.ahead <:+ tokens) (e : Expected) :
    (check e).run (place tokens c) = .ok (c.accepts e) (place tokens (c.note e)) := by
  have hnote : (c.note e).ahead <:+ tokens := by rwa [Cursor.ahead_note]
  rw [check, EStateM.run_bind, run_note]
  simp only
  rw [nthIs, EStateM.run_bind, run_peekAt hnote, Cursor.ahead_note]
  simp only [Cursor.accepts]
  cases c.ahead with
  | nil => rfl
  | cons t ts => rfl

theorem run_expectPiece (h : c.ahead <:+ tokens) (e : Expected) :
    (expectPiece e).run (place tokens c) =
      match c.ahead with
      | [] => .error (.error (c.note e).complaint) (place tokens { c with expected := [] })
      | t :: ts =>
          if e.accepts t.kind then .ok (.ofToken t) (place tokens ⟨ts, [], t.span⟩)
          else .error (.error (c.note e).complaint) (place tokens { c with expected := [] }) := by
  have hnote : (c.note e).ahead <:+ tokens := by rwa [Cursor.ahead_note]
  have hfail : (unexpected : Parser Piece).run (place tokens (c.note e)) =
      .error (.error (c.note e).complaint) (place tokens { c with expected := [] }) := by
    rw [run_unexpected hnote]
    simp [place]
  rw [expectPiece, EStateM.run_bind, run_check h]
  cases ha : c.accepts e with
  | false =>
      simp only [Bool.false_eq_true, if_false, hfail]
      cases hc : c.ahead with
      | nil => rfl
      | cons t ts =>
          have ht : e.accepts t.kind = false := by simpa [Cursor.accepts, hc] using ha
          simp [ht]
  | true =>
      cases hc : c.ahead with
      | nil => simp [Cursor.accepts, hc] at ha
      | cons t ts =>
          have ht : e.accepts t.kind = true := by simpa [Cursor.accepts, hc] using ha
          simp only [if_true, EStateM.run_bind, run_bump hnote, Cursor.ahead_note, hc]
          simp [Cursor.advance, hc, ht]

theorem suffix_note (e : Expected) (c : Cursor) : (c.note e).ahead <:+ c.ahead :=
  ⟨[], Cursor.ahead_note e c⟩

theorem suffix_advance (c : Cursor) : c.advance.ahead <:+ c.ahead := by
  rw [Cursor.ahead_advance]
  exact List.tail_suffix _

theorem mirrors_note (e : Expected) : Mirrors n (note e) (Reader.note e) := fun _ c _ _ =>
  agrees_of_run_eq_ok (Reader.run_note e c) (run_note e) (suffix_note e c)

theorem agrees_unexpected (h : c.ahead <:+ tokens) :
    Agrees tokens c (unexpected : Parser α) Reader.unexpected :=
  agrees_of_run_eq_error (Reader.run_unexpected c) (run_unexpected h) (List.suffix_refl _)

theorem mirrors_unexpected : Mirrors n (unexpected : Parser α) Reader.unexpected :=
  fun _ _ h _ => agrees_unexpected h

theorem agrees_fail (cause : SyntaxCause) (span : Span) :
    Agrees tokens c (fail ⟨cause, span⟩ : Parser α) (Reader.fail cause span) :=
  agrees_of_run_eq_error (Reader.run_fail cause span c) rfl (List.suffix_refl _)

theorem mirrors_fail (cause : SyntaxCause) (span : Span) :
    Mirrors n (fail ⟨cause, span⟩ : Parser α) (Reader.fail cause span) :=
  fun _ _ _ _ => agrees_fail cause span

theorem mirrors_check (e : Expected) : Mirrors n (check e) (Reader.check e) := fun _ c h _ =>
  agrees_of_run_eq_ok (Reader.run_check e c) (run_check h e) (suffix_note e c)

section

variable {f : Option Piece → Parser β} {g : Option Token → Reader β}

theorem Agrees.peek (h : c.ahead <:+ tokens)
    (hf : Agrees tokens c (f (c.ahead.head?.map .ofToken)) (g c.ahead.head?)) :
    Agrees tokens c (peekAt 0 >>= f) (Reader.peek >>= g) := by
  refine .step (Reader.run_peek c) ?_ (List.suffix_refl _) hf
  rw [run_peekAt h, List.head?_eq_getElem?]

theorem Agrees.peek_right {x : Parser β} (h : Agrees tokens c x (g c.ahead.head?)) :
    Agrees tokens c x (Reader.peek >>= g) := h

theorem Agrees.peekSecond (h : c.ahead <:+ tokens)
    (hf : Agrees tokens c (f (c.ahead[1]?.map .ofToken)) (g c.ahead[1]?)) :
    Agrees tokens c (peekAt 1 >>= f) (Reader.peekSecond >>= g) :=
  .step (Reader.run_peekSecond c) (run_peekAt h 1) (List.suffix_refl _) hf

theorem Agrees.advance {g : Unit → Reader β} (h : c.ahead <:+ tokens)
    (hf : Agrees tokens c.advance (f (c.ahead.head?.map .ofToken)) (g ())) :
    Agrees tokens c (bump >>= f) (Reader.advance >>= g) :=
  .step (Reader.run_advance c) (run_bump h) (suffix_advance c) hf

theorem Mirrors.peek (h : ∀ t : Option Token, Mirrors n (f (t.map .ofToken)) (g t)) :
    Mirrors n (peekAt 0 >>= f) (Reader.peek >>= g) :=
  fun tokens c hc hn => .peek hc (h _ tokens c hc hn)

theorem Mirrors.peekSecond (h : ∀ t : Option Token, Mirrors n (f (t.map .ofToken)) (g t)) :
    Mirrors n (peekAt 1 >>= f) (Reader.peekSecond >>= g) :=
  fun tokens c hc hn => .peekSecond hc (h _ tokens c hc hn)

theorem Mirrors.advance {g : Unit → Reader β} (h : ∀ p, Mirrors n (f p) (g ())) :
    Mirrors n (bump >>= f) (Reader.advance >>= g) := by
  intro tokens c hc hn
  have hd := suffix_advance c
  exact .advance hc (h _ tokens _ (hd.trans hc) (Nat.lt_of_le_of_lt hd.length_le hn))

end

theorem mirrors_lastSpan : Mirrors n lastSpan Reader.lastSpan := fun _ c _ _ =>
  agrees_of_run_eq_ok (Reader.run_lastSpan c) rfl (List.suffix_refl _)

theorem mirrors_nextSpan : Mirrors n nextSpan Reader.nextSpan := by
  apply Mirrors.peek
  intro t
  cases t with
  | none => exact .pure _
  | some t => exact .pure _

theorem mirrors_atBoundary : Mirrors n atBoundary Reader.atBoundary := by
  intro tokens c hc _
  refine agrees_of_run_eq_ok (Reader.run_atBoundary c) ?_ (List.suffix_refl _)
  rw [atBoundary, EStateM.run_bind, run_peekAt hc, ← List.head?_eq_getElem?, Cursor.atBoundary]
  cases c.ahead.head? <;> rfl

theorem mirrors_checkInside (e : Expected) : Mirrors n (checkInside e) (Reader.checkInside e) :=
  mirrors_atBoundary.bind fun _ => (mirrors_check e).bind fun _ => .pure _

theorem mirrors_eat (e : Expected) : Mirrors n (eat e) (Reader.eat e) := by
  apply (mirrors_checkInside e).bind
  intro found
  cases found with
  | true => exact .advance fun _ => .pure true
  | false => exact .pure false

theorem mirrors_take {e : Expected} {unwrap : Piece → Parser α} {find : TokenKind → Option α}
    (he : ∀ kind, e.accepts kind = (find kind).isSome)
    (hu : ∀ t a, find t.kind = some a → unwrap (.ofToken t) = pure a) :
    Mirrors n (take e unwrap) (Reader.take e find) := by
  intro tokens c hc _
  have hrun := Reader.run_take e find c
  have hpiece := run_expectPiece hc e
  rcases c with ⟨_ | ⟨t, ts⟩, expected, last⟩
  · refine agrees_of_run_eq_error hrun ?_ (List.suffix_refl _)
    rw [take, EStateM.run_bind, hpiece]
  · dsimp only at hrun hpiece
    rw [he] at hpiece
    cases hf : find t.kind with
    | none =>
        rw [hf] at hrun hpiece
        refine agrees_of_run_eq_error hrun ?_ (List.suffix_refl _)
        rw [take, EStateM.run_bind, hpiece]
        rfl
    | some a =>
        rw [hf] at hrun hpiece
        refine agrees_of_run_eq_ok hrun ?_ (List.suffix_cons t ts)
        rw [take, EStateM.run_bind, hpiece]
        simp only [Option.isSome_some, if_true, hu t a hf]
        rfl

theorem mirrors_expect (e : Expected) : Mirrors n (expect e) (Reader.expect e) := by
  have htake : Mirrors n (take e fun _ => pure ())
      (Reader.take e fun kind => if e.accepts kind then some () else none) :=
    mirrors_take (fun kind => by cases e.accepts kind <;> rfl) fun _ _ _ => rfl
  have hexpect : expect e = (take e fun _ => pure ()) >>= fun p => pure p.2 := by
    simp [expect, take]
  rw [hexpect]
  exact htake.bind fun _ => .pure _

theorem unwrapWord_eq {t : Token} {name : String} (h : t.kind = .word name) :
    unwrapWord (.ofToken t) = pure name := by
  simp [unwrapWord, Piece.ofToken, h]

theorem mirrors_lowercaseName : Mirrors n lowercaseName Reader.lowercaseName := by
  apply mirrors_take
  · intro kind
    rfl
  · intro t name h
    exact unwrapWord_eq (TokenKind.lowercaseName?_eq_some_iff.1 h).1

theorem mirrors_capitalisedName : Mirrors n capitalisedName Reader.capitalisedName := by
  apply mirrors_take
  · intro kind
    rfl
  · intro t name h
    exact unwrapWord_eq (TokenKind.capitalisedName?_eq_some_iff.1 h).1

theorem mirrors_integer :
    Mirrors n (take .integer unwrapInteger) (Reader.take .integer TokenKind.integer?) := by
  apply mirrors_take
  · intro kind
    rfl
  · intro t value h
    cases hk : t.kind with
    | integer v =>
        rw [hk] at h
        obtain rfl := Option.some.inj h
        simp [unwrapInteger, Piece.ofToken, hk]
    | _ => simp [TokenKind.integer?, hk] at h

theorem mirrors_declaredName : Mirrors n declaredName Reader.declaredName := by
  apply mirrors_capitalisedName.bind
  rintro ⟨name, span⟩
  cases h : name.toList.contains '.' with
  | true =>
      simp only [h, if_true]
      exact (mirrors_fail _ _).bind fun _ => .pure _
  | false =>
      simp only [h, Bool.false_eq_true, if_false]
      exact .pure _

theorem mirrors_declarationEnd : Mirrors n declarationEnd Reader.declarationEnd := by
  apply mirrors_atBoundary.bind
  intro b
  cases b with
  | true => exact .pure ()
  | false => exact mirrors_unexpected

theorem run_bounded (read : Nat → Parser α) (hc : c.ahead <:+ tokens) :
    (bounded read).run (place tokens c) = (read (c.ahead.length + 1)).run (place tokens c) := by
  have hlength : ((place tokens c).pieces.drop (place tokens c).cursor).length =
      c.ahead.length := by
    have := hc.length_le
    simp only [place, List.length_drop, List.length_map]
    omega
  rw [← hlength]
  rfl

theorem agrees_bounded {read : Nat → Parser α} {read' : Nat → Reader α} (hc : c.ahead <:+ tokens)
    (h : Agrees tokens c (read (c.ahead.length + 1)) (read' (c.ahead.length + 1))) :
    Agrees tokens c (bounded read) (Reader.bounded read') := by
  rwa [Agrees, Reader.run_bounded, run_bounded read hc]

theorem mirrors_bounded {read : Nat → Parser α} {read' : Nat → Reader α}
    (h : ∀ n, Mirrors n (read n) (read' n)) : Mirrors n (bounded read) (Reader.bounded read') :=
  fun _ _ hc _ => agrees_bounded hc ((h _).agrees hc)

section

variable {more : Parser Bool} {item : Parser α} {more' : Reader Bool} {item' : Reader α}

def Rounds (more : Reader Bool) (item : Reader α) : Prop :=
  ∀ c d e a, more.run c = .ok true d → item.run d = .ok a e → e.ahead.length < c.ahead.length

theorem mirrors_repeatAt (hm : Mirrors n more more') (hi : Mirrors n item item')
    (hr : Rounds more' item') {k : Nat} (hk : k ≤ n) :
    Mirrors k (repeatAt more item k) (Reader.repeatAt more' item' k) := by
  induction k with
  | zero => exact fun _ _ _ h => absurd h (Nat.not_lt_zero _)
  | succ k ih =>
      intro tokens c hc hn
      refine (hm tokens c hc (by omega)).bind fun b d hmore hd => ?_
      have hle := hd.length_le
      cases b with
      | false => exact .pure []
      | true =>
          refine (hi tokens d (hd.trans hc) (by omega)).bind fun a e hitem he => ?_
          have hlt := hr c d e a hmore hitem
          have hsuffix := (he.trans hd).trans hc
          exact (ih (by omega) tokens e hsuffix (by omega)).bind fun as _ _ _ => .pure _

theorem mirrors_repeated (hm : Mirrors n more more') (hi : Mirrors n item item')
    (hr : Rounds more' item') : Mirrors n (repeated more item) (Reader.repeated more' item') := by
  intro tokens c hc hn
  exact agrees_bounded hc (mirrors_repeatAt hm hi hr hn tokens c hc (Nat.lt_succ_self _))

end

end ElmTypes.Guarded.Parser
