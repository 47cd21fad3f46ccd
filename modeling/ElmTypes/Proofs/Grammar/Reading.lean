import ElmTypes.Grammar.Reader

namespace ElmTypes

def lastSpanOf (before : Span) (ts : List Token) : Span :=
  (ts.getLast?.map Token.span).getD before

theorem lastSpanOf_append (s : Span) (ts us : List Token) :
    lastSpanOf s (ts ++ us) = lastSpanOf (lastSpanOf s ts) us := by
  rcases List.eq_nil_or_concat us with rfl | ⟨vs, v, rfl⟩ <;>
    simp [lastSpanOf, ← List.append_assoc]

theorem lastSpanOf_mem {s : Span} {ts : List Token} (h : ts ≠ []) :
    ∃ t ∈ ts, t.span = lastSpanOf s ts := by
  refine ⟨ts.getLast h, List.getLast_mem h, ?_⟩
  simp [lastSpanOf, List.getLast?_eq_some_getLast h]

inductive SyntaxCause.About (ts : List Token) : SyntaxCause → Prop where
  | unexpectedToken {t : Token} (h : t ∈ ts) (es : List Expected) :
      About ts (.unexpectedToken t.kind es)
  | unexpectedEnd (es : List Expected) : About ts (.unexpectedEnd es)
  | qualifiedName {t : Token} {name : String} (h : t ∈ ts)
      (hn : t.kind.capitalisedName? = some name) : About ts (.qualifiedName name)
  | indented {t : Token} (h : t ∈ ts) : About ts (.indented t.kind)
  | danglingSignature {t : Token} {name : String} {found : Option TokenKind} (h : t ∈ ts)
      (hn : t.kind.lowercaseName? = some name) (hf : ∀ k ∈ found, ∃ t ∈ ts, t.kind = k) :
      About ts (.danglingSignature name found)
  | missingBody {t : Token} {name : String} (h : t ∈ ts)
      (hn : t.kind.lowercaseName? = some name) : About ts (.missingBody name)

theorem SyntaxCause.About.of_subset {ts us : List Token} {cause : SyntaxCause}
    (h : cause.About ts) (hs : ts ⊆ us) : cause.About us := by
  cases h with
  | unexpectedToken h es => exact .unexpectedToken (hs h) es
  | unexpectedEnd es => exact .unexpectedEnd es
  | qualifiedName h hn => exact .qualifiedName (hs h) hn
  | indented h => exact .indented (hs h)
  | danglingSignature h hn hf =>
      refine .danglingSignature (hs h) hn fun k hk => ?_
      obtain ⟨t, ht, hkind⟩ := hf k hk
      exact ⟨t, hs ht, hkind⟩
  | missingBody h hn => exact .missingBody (hs h) hn

namespace Cursor

structure Takes (c : Cursor) (ts : List Token) (d : Cursor) : Prop where
  ahead : c.ahead = ts ++ d.ahead
  last : d.last = lastSpanOf c.last ts

def seen (ts : List Token) (d : Cursor) : List Token := ts ++ d.ahead.head?.toList

structure Blames (c : Cursor) (ts : List Token) (d : Cursor) (x : SyntaxError) : Prop where
  place : (∃ t ∈ seen ts d, t.span = x.span) ∨ (c.ahead = [] ∧ c.last = x.span)
  cause : x.cause.About (seen ts d)

variable {c d e : Cursor} {ts us : List Token}

theorem Takes.refl (c : Cursor) : c.Takes [] c := ⟨rfl, rfl⟩

theorem Takes.trans (h : c.Takes ts d) (h' : d.Takes us e) : c.Takes (ts ++ us) e := by
  refine ⟨?_, ?_⟩
  · rw [h.ahead, h'.ahead, List.append_assoc]
  · rw [h'.last, h.last, lastSpanOf_append]

theorem Takes.of_same (ha : d.ahead = c.ahead) (hl : d.last = c.last) : c.Takes [] d :=
  ⟨ha.symm, hl⟩

theorem Takes.ahead_eq_drop (h : c.Takes ts d) : d.ahead = c.ahead.drop ts.length := by
  rw [h.ahead, List.drop_left]

theorem takes_note (e : Expected) (c : Cursor) : c.Takes [] (c.note e) :=
  .of_same (by simp) (by simp)

theorem takes_advance {t : Token} {rest : List Token} (h : c.ahead = t :: rest) :
    c.Takes [t] c.advance := by
  refine ⟨by simp [h], ?_⟩
  simp [advance, h, lastSpanOf]

theorem advance_of_nil (h : c.ahead = []) : c.Takes [] c.advance := by
  refine ⟨by simp [h], ?_⟩
  simp [advance, h, lastSpanOf]

theorem takes_advanceWhile (p : Token → Bool) (c : Cursor) :
    c.Takes (c.ahead.takeWhile p) (c.advanceWhile p) := by
  refine ⟨?_, ?_⟩
  · rw [ahead_advanceWhile, List.takeWhile_append_dropWhile]
  · unfold advanceWhile lastSpanOf
    split
    · rename_i h
      rw [h]
      rfl
    · rename_i t h
      rw [h]
      rfl

section

variable {p : Token → Bool}

theorem advanceWhile_advance {t : Token} (ht : c.ahead.head? = some t) (hp : p t = true) :
    c.advance.advanceWhile p = c.advanceWhile p := by
  obtain ⟨ts, hts⟩ := List.head?_eq_some_iff.1 ht
  simp only [advance, advanceWhile, hts, List.takeWhile_cons, List.dropWhile_cons, hp, if_true,
    List.getLast?_cons]
  cases h : (ts.takeWhile p).getLast? with
  | none =>
      rw [List.getLast?_eq_none_iff] at h
      have hd := List.takeWhile_append_dropWhile (p := p) (l := ts)
      rw [h, List.nil_append] at hd
      simp [hd]
  | some u => simp

theorem advanceWhile_eq_self (h : c.ahead.head?.any p = false) : c.advanceWhile p = c := by
  unfold advanceWhile
  cases hc : c.ahead with
  | nil => rfl
  | cons t ts =>
      have hp : p t = false := by simpa [hc] using h
      simp [hp]

end

theorem Takes.blames_complaint (h : c.Takes ts d) : c.Blames ts d d.complaint := by
  cases hd : d.ahead with
  | cons t rest =>
      have ht : t ∈ seen ts d := by simp [seen, hd]
      have hcomplaint : d.complaint = ⟨.unexpectedToken t.kind d.expected, t.span⟩ := by
        simp [complaint, hd]
      rw [hcomplaint]
      exact ⟨.inl ⟨t, ht, rfl⟩, .unexpectedToken ht _⟩
  | nil =>
      have hcomplaint : d.complaint = ⟨.unexpectedEnd d.expected, lastSpanOf c.last ts⟩ := by
        simp [complaint, hd, h.last]
      rw [hcomplaint]
      refine ⟨?_, .unexpectedEnd _⟩
      by_cases ht : ts = []
      · refine .inr ⟨by rw [h.ahead, ht, hd, List.append_nil], ?_⟩
        rw [ht]
        rfl
      · obtain ⟨t, hmem, hspan⟩ := lastSpanOf_mem (s := c.last) ht
        exact .inl ⟨t, List.mem_append_left _ hmem, hspan⟩

theorem Takes.blames_trans (h : c.Takes ts d) {x : SyntaxError} (hb : d.Blames us e x) :
    c.Blames (ts ++ us) e x := by
  have hseen : seen (ts ++ us) e = ts ++ seen us e := by simp [seen]
  refine ⟨?_, ?_⟩
  · rcases hb.place with ⟨t, ht, hspan⟩ | ⟨hd, hspan⟩
    · refine .inl ⟨t, ?_, hspan⟩
      rw [hseen]
      exact List.mem_append_right _ ht
    · by_cases hts : ts = []
      · refine .inr ⟨by rw [h.ahead, hts, hd, List.append_nil], ?_⟩
        rw [← hspan, h.last, hts]
        rfl
      · obtain ⟨t, hmem, hlast⟩ := lastSpanOf_mem (s := c.last) hts
        refine .inl ⟨t, ?_, by rw [← hspan, h.last, hlast]⟩
        rw [hseen]
        exact List.mem_append_left _ hmem
  · rw [hseen]
    exact hb.cause.of_subset (List.subset_append_right ts _)

end Cursor

namespace Reader

open Cursor

variable {α β : Type}

/-- Wherever it starts, the reader either takes tokens for which `R` holds together with the
result, or it blames a token rightly. -/
def Reads (r : Reader α) (R : List Token → α → Prop) : Prop :=
  ∀ c, match r.run c with
    | .ok a d => ∃ ts, c.Takes ts d ∧ R ts a
    | .error x d => ∃ ts, c.Takes ts d ∧ c.Blames ts d x

def After (c : Cursor) (ts : List Token) (r : Reader α) (Q : List Token → α → Prop) : Prop :=
  ∀ d, c.Takes ts d →
    match r.run d with
    | .ok a e => ∃ us, c.Takes us e ∧ Q us a
    | .error x e => ∃ us, c.Takes us e ∧ c.Blames us e x

section

variable {c : Cursor} {ts : List Token} {r : Reader α} {f : α → Reader β}
  {P Q R : List Token → α → Prop} {S : List Token → β → Prop}

theorem After.pure {a : α} (h : Q ts a) : After c ts (pure a) Q :=
  fun _ hd => ⟨ts, hd, h⟩

theorem After.bind (hr : After c ts r P) (hf : ∀ us a, P us a → After c us (f a) S) :
    After c ts (r >>= f) S := by
  intro d hd
  have h := hr d hd
  rw [EStateM.run_bind]
  cases hrun : r.run d with
  | ok a e =>
      rw [hrun] at h
      obtain ⟨us, he, hp⟩ := h
      exact hf us a hp e he
  | error x e =>
      rw [hrun] at h
      exact h

theorem After.mono (hr : After c ts r P) (h : ∀ us a, P us a → Q us a) : After c ts r Q := by
  intro d hd
  have hrun := hr d hd
  cases hr : r.run d with
  | ok a e =>
      rw [hr] at hrun
      obtain ⟨us, he, hp⟩ := hrun
      exact ⟨us, he, h us a hp⟩
  | error x e =>
      rw [hr] at hrun
      exact hrun

theorem After.isPrefix (hr : After c ts r P) :
    After c ts r fun us a => us <+: c.ahead ∧ P us a := by
  intro d hd
  have hrun := hr d hd
  cases hr : r.run d with
  | ok a e =>
      rw [hr] at hrun
      obtain ⟨us, he, hp⟩ := hrun
      exact ⟨us, he, ⟨e.ahead, he.ahead.symm⟩, hp⟩
  | error x e =>
      rw [hr] at hrun
      exact hrun

theorem Reads.of_after (h : ∀ c, After c [] r R) : Reads r R :=
  fun c => h c c (.refl c)

theorem Reads.after (h : Reads r R) (c : Cursor) (ts : List Token) :
    After c ts r fun us a => ∃ vs, us = ts ++ vs ∧ R vs a := by
  intro d hd
  have hrun := h d
  cases hr : r.run d with
  | ok a e =>
      rw [hr] at hrun
      obtain ⟨vs, he, hR⟩ := hrun
      exact ⟨ts ++ vs, hd.trans he, vs, rfl, hR⟩
  | error x e =>
      rw [hr] at hrun
      obtain ⟨vs, he, hb⟩ := hrun
      exact ⟨ts ++ vs, hd.trans he, hd.blames_trans hb⟩

theorem Reads.bind (hr : Reads r R) (hf : ∀ vs a, R vs a → After c (ts ++ vs) (f a) S) :
    After c ts (r >>= f) S := by
  refine (hr.after c ts).bind ?_
  rintro us a ⟨vs, rfl, hR⟩
  exact hf vs a hR

theorem Reads.map (g : α → β) (hr : Reads r R) :
    Reads (g <$> r) fun ts b => ∃ a, b = g a ∧ R ts a := by
  rw [map_eq_pure_bind]
  exact .of_after fun c => hr.bind fun ts a ha => .pure ⟨a, rfl, ha⟩

theorem Reads.mono (hr : Reads r P) (h : ∀ ts a, P ts a → R ts a) : Reads r R :=
  .of_after fun c => ((hr.after c []).mono (by simpa using h))

end

def Peeks (r : Reader α) : Prop := ∀ c, ∃ a d, r.run c = .ok a d ∧ c.Takes [] d

section

variable {c : Cursor} {ts : List Token} {r : Reader α} {f : α → Reader β}
  {Q : List Token → α → Prop} {S : List Token → β → Prop}

theorem Peeks.bind (hr : Peeks r) (hf : ∀ a, After c ts (f a) S) : After c ts (r >>= f) S := by
  intro d hd
  obtain ⟨a, e, hrun, he⟩ := hr d
  rw [EStateM.run_bind, hrun]
  refine hf a e ?_
  simpa using hd.trans he

theorem Peeks.then (hr : Peeks r) (hf : ∀ a, Peeks (f a)) : Peeks (r >>= f) := by
  intro c
  obtain ⟨a, d, hrun, hd⟩ := hr c
  obtain ⟨b, e, hrun', he⟩ := hf a d
  refine ⟨b, e, ?_, by simpa using hd.trans he⟩
  rw [EStateM.run_bind, hrun]
  exact hrun'

theorem Peeks.reads {r : Reader Bool} (hr : Peeks r) :
    Reads r fun ts b => (b = true ∧ ts = []) ∨ (b = false ∧ ts = []) := by
  intro c
  obtain ⟨b, d, hrun, hd⟩ := hr c
  rw [hrun]
  cases b with
  | true => exact ⟨[], hd, .inl ⟨rfl, rfl⟩⟩
  | false => exact ⟨[], hd, .inr ⟨rfl, rfl⟩⟩

theorem peeks_pure (a : α) : Peeks (pure a) := fun c => ⟨a, c, rfl, .refl c⟩

theorem peeks_note (e : Expected) : Peeks (note e) :=
  fun c => ⟨(), c.note e, rfl, takes_note e c⟩

theorem peeks_peekSecond : Peeks peekSecond := fun c => ⟨c.ahead[1]?, c, rfl, .refl c⟩

theorem peeks_atBoundary : Peeks atBoundary := fun c => ⟨c.atBoundary, c, rfl, .refl c⟩

theorem peeks_check (e : Expected) : Peeks (check e) :=
  fun c => ⟨_, c.note e, run_check e c, takes_note e c⟩

theorem peeks_checkInside (e : Expected) : Peeks (checkInside e) :=
  fun c => ⟨_, c.note e, run_checkInside e c, takes_note e c⟩

theorem After.peek {f : Option Token → Reader β}
    (h : After c ts (f (c.ahead.drop ts.length).head?) S) : After c ts (peek >>= f) S := by
  intro d hd
  rw [EStateM.run_bind, run_peek, hd.ahead_eq_drop]
  exact h d hd

theorem After.advance {t : Token} {f : Unit → Reader β}
    (ht : (c.ahead.drop ts.length).head? = some t) (h : After c (ts ++ [t]) (f ()) S) :
    After c ts (advance >>= f) S := by
  intro d hd
  rw [← hd.ahead_eq_drop] at ht
  obtain ⟨rest, hrest⟩ := List.head?_eq_some_iff.1 ht
  rw [EStateM.run_bind, run_advance]
  exact h _ (hd.trans (takes_advance hrest))

theorem After.lastSpan {f : Span → Reader β} (h : After c ts (f (lastSpanOf c.last ts)) S) :
    After c ts (lastSpan >>= f) S := by
  intro d hd
  rw [EStateM.run_bind, run_lastSpan, hd.last]
  exact h d hd

theorem After.nextSpan {f : Span → Reader β}
    (h : After c ts (f (((c.ahead.drop ts.length).head?.map Token.span).getD .empty)) S) :
    After c ts (nextSpan >>= f) S := by
  intro d hd
  rw [EStateM.run_bind, run_nextSpan, hd.ahead_eq_drop]
  exact h d hd

theorem After.unexpected : After c ts unexpected Q :=
  fun _ hd => ⟨ts, ⟨hd.ahead, hd.last⟩, hd.blames_complaint.place, hd.blames_complaint.cause⟩

theorem After.fail {cause : SyntaxCause} {s : Span}
    (h : ∃ t ∈ ts ++ (c.ahead.drop ts.length).head?.toList, t.span = s)
    (hc : cause.About (ts ++ (c.ahead.drop ts.length).head?.toList)) :
    After c ts (fail cause s) Q := by
  intro d hd
  rw [← hd.ahead_eq_drop] at h hc
  exact ⟨ts, hd, .inl h, hc⟩

theorem reads_advance : Reads advance fun _ _ => True := by
  intro c
  cases h : c.ahead with
  | nil => exact ⟨[], advance_of_nil h, trivial⟩
  | cons t rest => exact ⟨[t], takes_advance h, trivial⟩

theorem reads_advanceWhile (p : Token → Bool) : Reads (advanceWhile p) fun _ _ => True :=
  fun c => ⟨_, takes_advanceWhile p c, trivial⟩

theorem reads_take (e : Expected) (find : TokenKind → Option α) :
    Reads (take e find) fun ts p => ∃ t, ts = [t] ∧ find t.kind = some p.1 ∧ t.span = p.2 := by
  intro c
  have hfail : c.Takes [] { c with expected := [] } ∧
      c.Blames [] { c with expected := [] } (c.note e).complaint := by
    obtain ⟨hplace, hcause⟩ := (takes_note e c).blames_complaint
    exact ⟨.of_same rfl rfl, by simpa [seen] using hplace, by simpa [seen] using hcause⟩
  rw [run_take]
  rcases c with ⟨_ | ⟨t, rest⟩, expected, last⟩
  · exact ⟨[], hfail⟩
  · cases hf : find t.kind with
    | none =>
        simp only [hf]
        exact ⟨[], hfail⟩
    | some a =>
        simp only [hf]
        exact ⟨[t], ⟨rfl, rfl⟩, t, rfl, hf, rfl⟩

theorem reads_expect (e : Expected) :
    Reads (expect e) fun ts s => ∃ t, ts = [t] ∧ e.accepts t.kind = true ∧ t.span = s := by
  refine .of_after fun c => (reads_take e _).bind ?_
  rintro _ ⟨_, s⟩ ⟨t, rfl, ht, rfl⟩
  refine .pure ⟨t, rfl, ?_, rfl⟩
  simpa using ht

theorem reads_eat (e : Expected) :
    Reads (eat e) fun ts b =>
      (b = true ∧ ∃ t, ts = [t] ∧ e.accepts t.kind = true) ∨ (b = false ∧ ts = []) := by
  intro c
  rw [run_eat]
  cases h : c.accepts e && !c.atBoundary with
  | false => exact ⟨[], takes_note e c, .inr ⟨rfl, rfl⟩⟩
  | true =>
      have ha : c.accepts e = true := (Bool.and_eq_true_iff.1 h).1
      cases hc : c.ahead with
      | nil => simp [accepts, hc] at ha
      | cons t rest =>
          have ht : e.accepts t.kind = true := by simpa [accepts, hc] using ha
          refine ⟨[t], ?_, .inl ⟨rfl, t, rfl, ht⟩⟩
          exact (takes_note e c).trans (takes_advance (by simpa using hc))

theorem reads_lowercaseName :
    Reads lowercaseName fun ts p =>
      ∃ t, ts = [t] ∧ t.kind.lowercaseName? = some p.1 ∧ t.span = p.2 :=
  reads_take _ _

theorem reads_capitalisedName :
    Reads capitalisedName fun ts p =>
      ∃ t, ts = [t] ∧ t.kind.capitalisedName? = some p.1 ∧ t.span = p.2 :=
  reads_take _ _

def Declares (t : Token) (name : String) : Prop :=
  t.kind.capitalisedName? = some name ∧ '.' ∉ name.toList

theorem reads_declaredName :
    Reads declaredName fun ts p => ∃ t, ts = [t] ∧ Declares t p.1 ∧ t.span = p.2 := by
  refine .of_after fun c => reads_capitalisedName.bind ?_
  rintro _ ⟨name, s⟩ ⟨t, rfl, ht, rfl⟩
  cases hd : name.toList.contains '.' with
  | true =>
      simp only [hd, if_true]
      refine After.bind (P := fun _ _ => False) ?_ (by simp)
      exact .fail ⟨t, by simp, rfl⟩ (.qualifiedName (by simp) ht)
  | false =>
      simp only [hd, Bool.false_eq_true, if_false]
      exact .pure ⟨t, rfl, ⟨ht, by simpa using hd⟩, rfl⟩

theorem reads_repeatAt {more : Reader Bool} {item : Reader α} {M : List Token → Prop}
    {R : List Token → α → Prop} {L : List Token → List α → Prop}
    (hm : Reads more fun ts b => (b = true ∧ M ts) ∨ (b = false ∧ ts = [])) (hi : Reads item R)
    (hn : L [] []) (hc : ∀ us vs ws a as, M us → R vs a → L ws as → L (us ++ (vs ++ ws)) (a :: as))
    (n : Nat) : Reads (repeatAt more item n) L := by
  induction n with
  | zero => exact .of_after fun c => .pure hn
  | succ n ih =>
      refine .of_after fun c => hm.bind ?_
      rintro us _ (⟨rfl, hM⟩ | ⟨rfl, rfl⟩)
      · refine hi.bind fun vs a hR => ih.bind fun ws as hL => .pure ?_
        simpa using hc us vs ws a as hM hR hL
      · exact .pure hn

theorem reads_bounded {read : Nat → Reader α} (h : ∀ n, Reads (read n) Q) :
    Reads (bounded read) Q :=
  fun c => h (c.ahead.length + 1) c

theorem reads_repeated {more : Reader Bool} {item : Reader α} {M : List Token → Prop}
    {R : List Token → α → Prop} {L : List Token → List α → Prop}
    (hm : Reads more fun ts b => (b = true ∧ M ts) ∨ (b = false ∧ ts = [])) (hi : Reads item R)
    (hn : L [] [])
    (hc : ∀ us vs ws a as, M us → R vs a → L ws as → L (us ++ (vs ++ ws)) (a :: as)) :
    Reads (repeated more item) L :=
  reads_bounded (reads_repeatAt hm hi hn hc)

def opens (e : Expected) (ahead : List Token) : Bool :=
  ahead.head?.any fun t => e.accepts t.kind && !t.startsDeclaration

theorem accepts_and_not_atBoundary (e : Expected) (c : Cursor) :
    (c.accepts e && !c.atBoundary) = opens e c.ahead := by
  rcases c with ⟨_ | ⟨t, rest⟩, expected, last⟩ <;> simp [accepts, Cursor.atBoundary, opens]

theorem After.checkInside {e : Expected} {f : Bool → Reader β}
    (h : After c ts (f (opens e (c.ahead.drop ts.length))) S) :
    After c ts (checkInside e >>= f) S := by
  intro d hd
  rw [EStateM.run_bind, run_checkInside, accepts_and_not_atBoundary, hd.ahead_eq_drop]
  exact h _ (by simpa using hd.trans (takes_note e d))

theorem After.eat_of_opens {e : Expected} {f : Bool → Reader β}
    (ho : opens e (c.ahead.drop ts.length) = true)
    (h : ∀ t, e.accepts t.kind = true → After c (ts ++ [t]) (f true) S) :
    After c ts (eat e >>= f) S := by
  intro d hd
  rw [EStateM.run_bind, run_eat, accepts_and_not_atBoundary, hd.ahead_eq_drop, ho]
  cases ha : d.ahead with
  | nil => simp [← hd.ahead_eq_drop, ha, opens] at ho
  | cons t rest =>
      have ht : e.accepts t.kind = true := by
        have hto : (e.accepts t.kind && !t.startsDeclaration) = true := by
          simpa [← hd.ahead_eq_drop, ha, opens] using ho
        exact (Bool.and_eq_true_iff.1 hto).1
      refine h t ht _ ?_
      simpa using (hd.trans (takes_note e d)).trans (takes_advance (by simpa using ha))

theorem After.repeated_of_opens {e : Expected} {item : Reader α} {R : List Token → α → Prop}
    {L : List Token → List α → Prop} (ho : opens e (c.ahead.drop ts.length) = true)
    (hi : Reads item R) (hn : L [] [])
    (hc : ∀ t us ws a as, e.accepts t.kind = true → R us a → L ws as →
      L (t :: (us ++ ws)) (a :: as)) :
    After c ts (repeated (eat e) item) fun us as => ∃ vs, us = ts ++ vs ∧ L vs as ∧ as ≠ [] := by
  have hr (n : Nat) : Reads (repeatAt (eat e) item n) L := by
    refine reads_repeatAt (M := fun ts => ∃ t, ts = [t] ∧ e.accepts t.kind = true)
      (reads_eat _) hi hn ?_ n
    rintro _ vs ws a as ⟨t, rfl, ht⟩ hR hL
    exact hc t vs ws a as ht hR hL
  intro d hd
  rw [repeated, run_bounded, repeatAt]
  refine After.eat_of_opens ho (fun t ht => ?_) d hd
  refine hi.bind fun us a hR => (hr _).bind fun ws as hL => .pure ?_
  exact ⟨t :: (us ++ ws), by simp, hc t us ws a as ht hR hL, by simp⟩

end

end Reader

end ElmTypes
