import ElmTypes.Proofs.Comparison.Declaration
import ElmTypes.Proofs.Grammar.Progress

namespace ElmTypes

def SyntaxCause.unexpected? : SyntaxCause → Option TokenKind
  | .unexpectedToken found _ | .indented found => some found
  | _ => none

namespace Reader

variable {α β : Type} {c c' d : Cursor} {t : Token} {ts us : List Token} {e : Expected}
  {r : Reader α} {f : α → Reader β}

theorem leaves_of_suffix (h : Leaves ts c r) (hs : ts <:+ us) : Leaves us c r := by
  unfold Leaves at h ⊢
  cases hrun : r.run c with
  | ok a d =>
      rw [hrun] at h
      exact h.trans hs
  | error e d =>
      rw [hrun] at h
      exact h.trans hs

theorem leaves_of_run_eq {s : Reader α} (h : Leaves ts d s) (hr : r.run c = s.run d) :
    Leaves ts c r := by
  unfold Leaves at h ⊢
  rw [hr]
  exact h

theorem leaves_of_run_eq_ok {a : α} (hr : r.run c = .ok a d) (hd : d.ahead <:+ ts) :
    Leaves ts c r := by
  unfold Leaves
  rw [hr]
  exact hd

theorem leaves_of_run_eq_error {x : SyntaxError} (hr : r.run c = .error x d)
    (hd : d.ahead <:+ ts) : Leaves ts c r := by
  unfold Leaves
  rw [hr]
  exact hd

theorem leaves_advance (hc : c.ahead = t :: ts) : Leaves ts c advance := by
  unfold Leaves
  simp [hc]

section

variable {find : TokenKind → Option α}

theorem run_take_of_some {a : α} (hc : c.ahead = t :: ts) (hf : find t.kind = some a) :
    (take e find).run c = .ok (a, t.span) ⟨ts, [], t.span⟩ := by
  rw [run_take, hc]
  simp only [hf]

theorem run_take_of_none (hc : c.ahead = t :: ts) (hf : find t.kind = none) :
    (take e find).run c = .error (c.note e).complaint { c with expected := [] } := by
  refine Pairing.run_take_of_not fun u hu => ?_
  rw [hc] at hu
  obtain rfl := Option.some.inj hu
  exact hf

theorem leaves_take_of_some {a : α} (hc : c.ahead = t :: ts) (hf : find t.kind = some a) :
    Leaves ts c (take e find) :=
  leaves_of_run_eq_ok (run_take_of_some hc hf) List.suffix_rfl

end

structure Stops (r : Reader α) : Prop where
  leaves (c : Cursor) : Leaves c.ahead c r
  points {c d : Cursor} {e : SyntaxError} (h : r.run c = .error e d) {found : TokenKind}
    (he : e.cause.unexpected? = some found) :
    ∃ t ts, d.ahead = t :: ts ∧ t.kind = found ∧ t.span = e.span

namespace Stops

theorem of_run_eq {s : Cursor → Reader α} {g : Cursor → Cursor} (hs : ∀ c, Stops (s c))
    (hg : ∀ c, (g c).ahead <:+ c.ahead) (hr : ∀ c, r.run c = (s c).run (g c)) : Stops r := by
  constructor
  · exact fun c => leaves_of_run_eq (leaves_of_suffix ((hs c).leaves (g c)) (hg c)) (hr c)
  · intro c d e h
    rw [hr] at h
    exact (hs c).points h

theorem of_total (h : ∀ c, ∃ a d, r.run c = .ok a d ∧ d.ahead <:+ c.ahead) : Stops r := by
  constructor
  · intro c
    obtain ⟨a, d, hrun, hd⟩ := h c
    exact leaves_of_run_eq_ok hrun hd
  · intro c d e hrun
    obtain ⟨a, d', hrun', -⟩ := h c
    rw [hrun'] at hrun
    cases hrun

theorem pure (a : α) : Stops (pure a) := of_total fun c => ⟨a, c, rfl, List.suffix_rfl⟩

theorem bind (hr : Stops r) (hf : ∀ a, Stops (f a)) : Stops (r >>= f) := by
  constructor
  · exact fun c => (hr.leaves c).bind fun a d hd => leaves_of_suffix ((hf a).leaves d) hd
  · intro c d e h
    rw [EStateM.run_bind] at h
    cases hrun : r.run c with
    | ok a d' =>
        rw [hrun] at h
        exact (hf a).points h
    | error e' d' =>
        rw [hrun] at h
        cases h
        exact hr.points hrun

theorem note (e : Expected) : Stops (note e) :=
  of_total fun c => ⟨(), c.note e, rfl, by simp⟩

theorem peek : Stops peek := of_total fun c => ⟨_, c, run_peek c, List.suffix_rfl⟩

theorem lastSpan : Stops lastSpan := of_total fun c => ⟨_, c, run_lastSpan c, List.suffix_rfl⟩

theorem nextSpan : Stops nextSpan := of_total fun c => ⟨_, c, run_nextSpan c, List.suffix_rfl⟩

theorem atBoundary : Stops atBoundary :=
  of_total fun c => ⟨_, c, run_atBoundary c, List.suffix_rfl⟩

theorem check (e : Expected) : Stops (check e) :=
  of_total fun c => ⟨_, c.note e, run_check e c, by simp⟩

theorem advance : Stops advance := by
  refine of_total fun c => ⟨(), c.advance, rfl, ?_⟩
  rw [Cursor.ahead_advance]
  exact List.tail_suffix c.ahead

theorem advanceWhile (q : Token → Bool) : Stops (advanceWhile q) := by
  refine of_total fun c => ⟨(), c.advanceWhile q, rfl, ?_⟩
  rw [Cursor.ahead_advanceWhile]
  exact List.dropWhile_suffix q

theorem unexpected : Stops (unexpected : Reader α) := by
  refine ⟨fun _ => List.suffix_rfl, fun {c d e} h found he => ?_⟩
  rw [run_unexpected] at h
  cases h
  cases hc : c.ahead with
  | nil => simp [Cursor.complaint, hc, SyntaxCause.unexpected?] at he
  | cons t ts =>
      simp only [Cursor.complaint, hc, SyntaxCause.unexpected?, Option.some.injEq] at he ⊢
      exact ⟨t, ts, rfl, he, rfl⟩

theorem fail {cause : SyntaxCause} {s : Span} (hc : cause.unexpected? = none) :
    Stops (fail cause s : Reader α) := by
  refine ⟨fun _ => List.suffix_rfl, fun h found he => ?_⟩
  cases h
  rw [hc] at he
  cases he

theorem take (e : Expected) (find : TokenKind → Option α) : Stops (take e find) := by
  refine (note e).bind fun _ => peek.bind fun t => ?_
  cases t with
  | none => exact unexpected
  | some t =>
      simp only
      cases find t.kind with
      | none => exact unexpected
      | some a => exact advance.bind fun _ => .pure _

theorem expect (e : Expected) : Stops (expect e) := (take e _).bind fun _ => .pure _

theorem bounded {read : Nat → Reader α} (h : ∀ n, Stops (read (n + 1))) : Stops (bounded read) :=
  of_run_eq (g := id) (fun c => h c.ahead.length) (fun _ => List.suffix_rfl) (run_bounded read)

end Stops

def Leads (e : Expected) (r : Reader α) : Prop :=
  ∀ (c : Cursor) (t : Token) (ts : List Token), c.ahead = t :: ts → t.startsDeclaration = false →
    e.accepts t.kind = true → Leaves ts c r

theorem Leads.bind (h : Leads e r) (hf : ∀ a, Stops (f a)) : Leads e (r >>= f) :=
  fun c t ts hc ht he => (h c t ts hc ht he).bind fun a d hd =>
    leaves_of_suffix ((hf a).leaves d) hd

theorem leads_advance : Leads e advance := fun _ _ _ hc _ _ => leaves_advance hc

theorem leads_take {find : TokenKind → Option α}
    (h : ∀ kind, e.accepts kind = true → (find kind).isSome) : Leads e (take e find) := by
  intro c t ts hc _ he
  obtain ⟨a, ha⟩ := Option.isSome_iff_exists.1 (h t.kind he)
  exact leaves_take_of_some hc ha

structure Tests (es : List Expected) (m : Reader Bool) (p : Option Token → Bool) : Prop where
  run_eq : ∀ c, ∃ d, m.run c = .ok (p c.ahead.head?) d ∧ d.ahead = c.ahead ∧ d.last = c.last ∧
    d.expected ⊆ c.expected ++ es
  next : ∀ t, t.startsDeclaration = false → p (some t) = es.any fun e => e.accepts t.kind

theorem expected_note_subset (e : Expected) (c : Cursor) :
    (c.note e).expected ⊆ c.expected ++ [e] := by
  unfold Cursor.note
  split
  · exact List.subset_append_left _ _
  · exact List.Subset.refl _

theorem tests_check (e : Expected) : Tests [e] (check e) fun t => t.any (e.accepts ·.kind) := by
  refine ⟨fun c => ⟨c.note e, run_check e c, ?_⟩, fun t _ => by simp⟩
  exact ⟨Cursor.ahead_note e c, Cursor.last_note e c, expected_note_subset e c⟩

theorem tests_checkInside (e : Expected) :
    Tests [e] (checkInside e) fun t => t.any fun t => e.accepts t.kind && !t.startsDeclaration := by
  refine ⟨fun c => ⟨c.note e, ?_, ?_⟩, fun t ht => by simp [ht]⟩
  · rw [run_checkInside, accepts_and_not_atBoundary]
    rfl
  · exact ⟨Cursor.ahead_note e c, Cursor.last_note e c, expected_note_subset e c⟩

namespace Tests

variable {es es' : List Expected} {m m' : Reader Bool} {p p' : Option Token → Bool}
  {f : Bool → Reader β}

theorem or (h : Tests es m p) (h' : Tests es' m' p') :
    Tests (es ++ es') (do if ← m then return true else m') fun t => p t || p' t := by
  constructor
  · intro c
    obtain ⟨d, hrun, ha, hl, he⟩ := h.run_eq c
    rw [EStateM.run_bind, hrun]
    cases hp : p c.ahead.head? with
    | true =>
        refine ⟨d, rfl, ha, hl, List.Subset.trans he ?_⟩
        rw [← List.append_assoc]
        exact List.subset_append_left _ es'
    | false =>
        obtain ⟨d', hrun', ha', hl', he'⟩ := h'.run_eq d
        rw [ha] at hrun'
        have hes : d.expected ⊆ c.expected ++ es ++ es' :=
          List.Subset.trans he (List.subset_append_left _ es')
        refine ⟨d', hrun', ha'.trans ha, hl'.trans hl, List.Subset.trans he' ?_⟩
        rw [← List.append_assoc]
        exact List.append_subset.2 ⟨hes, List.subset_append_right _ es'⟩
  · intro t ht
    rw [h.next t ht, h'.next t ht, List.any_append]

theorem stops (h : Tests es m p) : Stops m := by
  refine .of_total fun c => ?_
  obtain ⟨d, hrun, ha, -, -⟩ := h.run_eq c
  exact ⟨_, d, hrun, ha ▸ List.suffix_rfl⟩

theorem leaves (h : Tests es m p) (hf : ∀ e ∈ es, Leads e (f true)) (hc : c.ahead = t :: ts)
    (ht : t.startsDeclaration = false) (he : es.any (fun e => e.accepts t.kind) = true) :
    Leaves ts c (m >>= f) := by
  obtain ⟨d, hrun, ha, -, -⟩ := h.run_eq c
  rw [hc] at hrun ha
  rw [List.head?_cons, h.next t ht, he] at hrun
  obtain ⟨e, hmem, hk⟩ := List.any_eq_true.1 he
  refine leaves_of_run_eq (hf e hmem d t ts ha ht hk) ?_
  rw [EStateM.run_bind, hrun]

theorem leads (h : Tests es m p) (hf : ∀ e ∈ es, Leads e (f true)) (he : e ∈ es) :
    Leads e (m >>= f) :=
  fun _ _ _ hc ht hk => h.leaves hf hc ht (List.any_eq_true.2 ⟨e, he, hk⟩)

theorem leads_later (h : Tests es m p) (ht : ∀ e ∈ es, Leads e (f true)) (hf : Leads e (f false)) :
    Leads e (m >>= f) := by
  intro c t ts hc hi hk
  cases hany : es.any fun e => e.accepts t.kind with
  | true => exact h.leaves ht hc hi hany
  | false =>
      obtain ⟨d, hrun, ha, -, -⟩ := h.run_eq c
      rw [hc] at hrun ha
      rw [List.head?_cons, h.next t hi, hany] at hrun
      refine leaves_of_run_eq (hf d t ts ha hi hk) ?_
      rw [EStateM.run_bind, hrun]

end Tests

end Reader

end ElmTypes
