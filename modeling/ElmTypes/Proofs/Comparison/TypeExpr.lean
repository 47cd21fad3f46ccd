import ElmTypes.Proofs.Comparison.Reading

namespace ElmTypes

namespace Cursor

theorem note_note (e : Expected) (c : Cursor) : (c.note e).note e = c.note e := by
  have hn : (c.note e).expected.contains e = true := by
    unfold note
    split
    · assumption
    · simp
  rw [note, if_pos hn]

end Cursor

namespace Pairing

open Reader Cursor

def argument : List Expected :=
  [.opening .brace, .opening .round, .capitalisedName, .lowercaseName]

def continuation : List Expected := .symbol .arrow :: argument

section

variable {p : Pairing} {α β : Type} {k : Nat} {es : List Expected} {W : β → β → Prop}
  {R : β → Cursor → Prop} {inner inner' : Reader TypeExpr}

def RelatesBelow (p : Pairing) (k : Nat) (inner inner' : Reader TypeExpr) : Prop :=
  ∀ j < k, ∀ es, p.Relates (Bound j es) inner inner' (TypeExpr.Alike p.same)
    fun _ => Past j continuation

theorem RelatesBelow.mono {j : Nat} (h : p.RelatesBelow k inner inner') (hj : j ≤ k) :
    p.RelatesBelow j inner inner' :=
  fun i hi => h i (Nat.lt_of_lt_of_le hi hj)

theorem relates_recordField (he : Expected.lowercaseName.NewTo es)
    (hinner : p.RelatesBelow k inner inner') :
    p.Relates (Bound k es) (recordField inner) (recordField inner')
      (RecordField.Alike p.same (TypeExpr.Alike p.same)) fun _ => Past k continuation := by
  refine (relates_lowercaseName he).bind_past ?_
  rintro ⟨name, s⟩ ⟨_, s'⟩ ⟨rfl, hs⟩ j hj
  refine (relates_expect (by simp)).bind_past fun _ _ _ i hi => ?_
  have hik : i < k := Nat.lt_trans hi hj
  refine (hinner i hik []).bind fun a a' ha => ?_
  refine .pure (.mk ha (p.keepsHulls _ _ _ _ hs ha.span)) fun c hc => ?_
  exact hc.mono (Nat.le_of_lt hik) (List.Subset.refl continuation)

theorem relates_fields {gs : List Expected} (hg : Expected.lowercaseName.NewTo gs)
    (hinner : p.RelatesBelow k inner inner') :
    p.Relates (Bound k gs) (separated .comma (recordField inner))
      (separated .comma (recordField inner'))
      (List.Forall₂ (RecordField.Alike p.same (TypeExpr.Alike p.same)))
      fun _ => Past k (.symbol .comma :: continuation) :=
  relates_separated (relates_recordField hg hinner) fun _ hj =>
    relates_recordField (by simp) (hinner.mono hj)

end

section

variable {p : Pairing} {α β : Type} {k : Nat} {es : List Expected} {W : β → β → Prop}
  {R : β → Cursor → Prop} {inner inner' : Reader TypeExpr}

theorem run_bind_of_error {r : Reader α} {c d : Cursor} {e : SyntaxError} (h : r.run c = .error e d)
    (f : α → Reader β) : (r >>= f).run c = .error e d := by
  rw [EStateM.run_bind, h]

theorem run_bind_of_ok {r : Reader α} {c d : Cursor} {a : α} (h : r.run c = .ok a d)
    (f : α → Reader β) : (r >>= f).run c = (f a).run d := by
  rw [EStateM.run_bind, h]

theorem run_take_of_not {find : TokenKind → Option α} {e : Expected} {c : Cursor}
    (h : ∀ t ∈ c.ahead.head?, find t.kind = none) :
    (take e find).run c = .error (c.note e).complaint { c with expected := [] } := by
  rw [run_take]
  cases hc : c.ahead with
  | nil => rfl
  | cons t ts =>
      have ht : find t.kind = none := h t (by rw [hc]; rfl)
      simp only [ht]

structure BeginsField (r : Reader β) : Prop where
  name : ∀ c : Cursor, (∀ t ∈ c.ahead.head?, t.kind.lowercaseName? = none) →
    r.run c = .error (c.note .lowercaseName).complaint { c with expected := [] }
  colon : ∀ (c : Cursor) (t : Token) (w : String), c.ahead = [t] → t.kind.lowercaseName? = some w →
    r.run c = .error ⟨.unexpectedEnd [.symbol .colon], t.span⟩ ⟨[], [], t.span⟩

theorem beginsField_fields (f : List (RecordField TypeExpr) → Reader β) :
    BeginsField (separated .comma (recordField inner) >>= f) := by
  constructor
  · intro c hc
    apply run_bind_of_error
    apply run_bind_of_error
    apply run_bind_of_error
    exact run_take_of_not hc
  · intro c t w hc hw
    apply run_bind_of_error
    apply run_bind_of_error
    have hname : lowercaseName.run c = .ok (w, t.span) ⟨[], [], t.span⟩ := by
      rw [lowercaseName, run_take, hc]
      simp only [hw]
    rw [recordField, run_bind_of_ok hname]
    apply run_bind_of_error
    apply run_bind_of_error
    exact run_take_of_not (by simp)

def base : Reader (Option String) := do
  let (name, _) ← lowercaseName
  let _ ← expect (.symbol .bar)
  return some name

def beginsBase (c : Cursor) : Bool :=
  c.accepts .lowercaseName && c.ahead[1]?.any (·.kind == .symbol .bar)

theorem run_recordBase?_bind {c : Cursor} (f : Option String → Reader β) :
    (recordBase? >>= f).run c =
      if beginsBase c then (base >>= f).run (c.note .lowercaseName)
      else (f none).run (c.note .lowercaseName) := by
  have hrun : recordBase?.run c =
      if beginsBase c then base.run (c.note .lowercaseName)
      else .ok none (c.note .lowercaseName) := by
    rw [recordBase?, EStateM.run_bind, run_check]
    simp only
    rw [EStateM.run_bind, run_peekSecond, ahead_note]
    simp only
    unfold beginsBase
    split <;> rfl
  rw [EStateM.run_bind, hrun]
  cases beginsBase c with
  | true => rw [if_pos rfl, if_pos rfl, EStateM.run_bind]
  | false => rfl

theorem Relates.base {f f' : Option String → Reader β}
    (h : ∀ name, ∀ j < k, p.Relates (Bound j []) (f (some name)) (f' (some name)) W R) :
    p.Relates (Bound k []) (base >>= f) (base >>= f') W R := by
  have hbase : p.Relates (Bound k []) Pairing.base Pairing.base
      (fun a a' => ∃ name, a = some name ∧ a' = some name) fun _ => Past k [] := by
    refine (relates_lowercaseName (by simp)).bind_past ?_
    rintro ⟨name, s⟩ ⟨_, s'⟩ ⟨rfl, -⟩ j hj
    refine (relates_expect (by simp)).bind fun _ _ _ => .pure ⟨name, rfl, rfl⟩ fun c hc => ?_
    exact hc.mono (Nat.le_of_lt hj) (List.Subset.refl [])
  refine hbase.bind_past ?_
  rintro _ _ ⟨name, rfl, rfl⟩ j hj
  exact h name j hj

theorem outcome_recordBase?_nil {f f' : Option String → Reader β} {c c' : Cursor}
    (h : p.Beside c c') (hc : c.ahead = []) (hl : Expected.lowercaseName.NewTo c.expected)
    (hf : BeginsField (f none)) (hf' : BeginsField (f' none)) :
    p.Outcome W R ((recordBase? >>= f).run c) ((recordBase? >>= f').run c') := by
  have hbegins : beginsBase c = false := by simp [beginsBase, accepts, hc]
  have hleft : (recordBase? >>= f).run c = .error (c.note .lowercaseName).complaint
      { c.note .lowercaseName with expected := [] } := by
    rw [run_recordBase?_bind, hbegins, if_neg Bool.false_ne_true, hf.name _ (by simp [hc]),
      note_note]
  have hc' := h.nil hc
  rw [hleft]
  by_cases hr : ∀ t ∈ p.rest.head?, t.kind.lowercaseName? = none
  · have hbegins' : beginsBase c' = false := by
      rw [beginsBase, Bool.and_eq_false_iff]
      left
      rw [accepts, hc', Option.any_eq_false]
      intro t ht
      simp [Expected.accepts, hr t ht]
    rw [run_recordBase?_bind, hbegins', if_neg Bool.false_ne_true, hf'.name _ (by simpa [hc'] using hr),
      note_note]
    have hnote := h.note .lowercaseName
    exact .error hnote.blames hnote.forget
  · push Not at hr
    obtain ⟨t, ht, hname⟩ := hr
    refine .overrun ht (isContinuedBy_complaint hc hl ?_) _
    exact Expected.admits_of_accepts (e := .lowercaseName) (Option.isSome_iff_ne_none.2 hname)

theorem outcome_recordBase?_cons {f f' : Option String → Reader β} {c c' : Cursor}
    (h : p.Beside c c') (hc : c.Open k) (hf : BeginsField (f none))
    (hnone : p.Relates (Open k) (f none) (f' none) W R)
    (hsome : ∀ base, ∀ j < k, p.Relates (Bound j []) (f (some base)) (f' (some base)) W R) :
    p.Outcome W R ((recordBase? >>= f).run c) ((recordBase? >>= f').run c') := by
  have hnote := h.note .lowercaseName
  have hopen : (c.note .lowercaseName).Open k := by
    rw [Open, ahead_note]
    exact hc
  obtain ⟨t, ts, ha⟩ := List.exists_cons_of_ne_nil hc.1
  obtain ⟨t', ts', ha', ht, hts⟩ := h.cons ha
  rw [run_recordBase?_bind, run_recordBase?_bind]
  by_cases hbegins : beginsBase c' = beginsBase c
  · rw [hbegins]
    split
    · exact Relates.base hsome _ _ hnote (hopen.bound [])
    · exact hnone _ _ hnote hopen
  · -- only the second token can make a difference, where the first reading has none
    cases hts with
    | cons hu _ =>
        refine absurd ?_ hbegins
        simp [beginsBase, accepts, ha, ha', ht.kind, hu.kind]
    | done =>
        have hc1 : beginsBase c = false := by simp [beginsBase, ha]
        have hc2 : beginsBase c' = true := by simpa [hc1] using hbegins
        simp only [beginsBase, accepts, ha', List.head?_cons, Option.any_some, Expected.accepts,
          ht.kind, Bool.and_eq_true, List.getElem?_cons_succ, ← List.head?_eq_getElem?] at hc2
        obtain ⟨w, hw⟩ := Option.isSome_iff_exists.1 hc2.1
        obtain ⟨u, hu, hbar⟩ := (Option.any_eq_true _ _).1 hc2.2
        have hleft := hf.colon (c.note .lowercaseName) t w (by rw [ahead_note, ha]) hw
        rw [hc1, if_neg Bool.false_ne_true, hleft]
        refine .overrun hu ?_ _
        simp [SyntaxCause.isContinuedBy, Expected.admits, hbar]

theorem Relates.recordBase? {f f' : Option String → Reader β} (hl : Expected.lowercaseName.NewTo es)
    (hf : BeginsField (f none)) (hf' : BeginsField (f' none))
    (hnone : p.Relates (Open k) (f none) (f' none) W R)
    (hsome : ∀ base, ∀ j < k, p.Relates (Bound j []) (f (some base)) (f' (some base)) W R) :
    p.Relates (Bound k es) (recordBase? >>= f) (recordBase? >>= f') W R := by
  intro c c' h hc
  by_cases ha : c.ahead = []
  · exact outcome_recordBase?_nil h ha (hl.mono (hc.expected ha)) hf hf'
  · exact outcome_recordBase?_cons h ⟨ha, hc.length⟩ hf hnone hsome

theorem relates_recordType (hk : k ≤ p.fresh) (he : (Expected.opening .brace).NewTo es)
    (hinner : p.RelatesBelow k inner inner') :
    p.Relates (Bound k es) (recordType inner) (recordType inner') (TypeExpr.Alike p.same)
      fun _ => Past k [] := by
  refine (relates_expect he).bind_past fun s s' hs j hj => ?_
  refine .eat (fun i hi => .lastSpan (fun c hc => hc.length_lt (by omega)) fun t t' ht => ?_) ?_
  · refine .pure (.record .nil (p.keepsHulls _ _ _ _ hs ht)) fun c hc => ⟨i, by omega, hc⟩
  · have hbelow : p.RelatesBelow j inner inner' := hinner.mono (Nat.le_of_lt hj)
    have hstop : (Expected.closing .brace).NewTo (.symbol .comma :: continuation) := by decide
    refine .recordBase? (by simp) (beginsField_fields _) (beginsField_fields _) ?_ ?_
    · refine Relates.of_imp ?_ fun c hc => hc.bound []
      refine (relates_fields (by simp) hbelow).bind_past fun fs fs' hfs i hi => ?_
      refine (relates_expect hstop).bind fun t t' ht => ?_
      refine .pure (.record hfs (p.keepsHulls _ _ _ _ hs ht)) fun c hc => ?_
      exact hc.mono (by omega) (List.Subset.refl [])
    · intro base i hi
      refine (relates_fields (by simp) (hbelow.mono (Nat.le_of_lt hi))).bind_past
        fun fs fs' hfs m hm => ?_
      refine (relates_expect hstop).bind fun t t' ht => ?_
      refine .pure (.extensible hfs (p.keepsHulls _ _ _ _ hs ht)) fun c hc => ?_
      exact hc.mono (by omega) (List.Subset.refl [])

theorem relates_parenthesized (hk : k ≤ p.fresh) (he : (Expected.opening .round).NewTo es)
    (hinner : p.RelatesBelow k inner inner') :
    p.Relates (Bound k es) (parenthesized inner) (parenthesized inner') (TypeExpr.Alike p.same)
      fun _ => Past k [] := by
  refine (relates_expect he).bind_past fun s s' hs j hj => ?_
  refine .eat (fun i hi => .lastSpan (fun c hc => hc.length_lt (by omega)) fun t t' ht => ?_) ?_
  · exact .pure (.unit (p.keepsHulls _ _ _ _ hs ht)) fun c hc => ⟨i, by omega, hc⟩
  · refine (hinner j hj _).bind_past fun a a' ha i hi => .checkInside ?_ ?_
    · have hothers : p.Relates (Bound i continuation) (repeated (eat (.symbol .comma)) inner)
          (repeated (eat (.symbol .comma)) inner') (List.Forall₂ (TypeExpr.Alike p.same))
          fun _ => Bound i (.symbol .comma :: continuation) :=
        relates_repeated (fun _ _ => relates_eat_bound) fun m hm => hinner m (by omega) []
      refine (hothers.of_imp fun c hc => hc.bound _).bind fun as as' has => ?_
      refine (relates_expect (by decide)).bind fun t t' ht => ?_
      refine .pure (.tuple (.cons ha has) (p.keepsHulls _ _ _ _ hs ht)) fun c hc => ?_
      exact hc.mono (by omega) (List.Subset.refl [])
    · refine (relates_expect (by decide)).bind fun t t' ht => ?_
      refine .pure (ha.withSpan (p.keepsHulls _ _ _ _ hs ht)) fun c hc => ?_
      exact hc.mono (by omega) (List.Subset.refl [])

theorem relates_atom (hk : k ≤ p.fresh) (hinner : p.RelatesBelow k inner inner') :
    p.Relates (Bound k es) (atom inner) (atom inner') (TypeExpr.Alike p.same)
      fun _ => Past k [] := by
  refine .checkInside ?_ (.checkInside ?_ (.checkInside ?_ (.checkInside ?_ ?_)))
  · refine Relates.of_imp ?_ fun c hc => hc.bound []
    refine (relates_lowercaseName (by simp)).bind ?_
    rintro ⟨name, s⟩ ⟨_, s'⟩ ⟨rfl, hs⟩
    exact .pure (.variable hs) fun c hc => hc
  · refine Relates.of_imp ?_ fun c hc => hc.bound []
    refine (relates_capitalisedName (by simp)).bind ?_
    rintro ⟨name, s⟩ ⟨_, s'⟩ ⟨rfl, hs⟩
    exact .pure (.named (TypeName.alike_ofWord name hs) .nil hs) fun c hc => hc
  · exact (relates_parenthesized hk (by simp) hinner).of_imp fun c hc => hc.bound []
  · exact (relates_recordType hk (by simp) hinner).of_imp fun c hc => hc.bound []
  · exact relates_note.bind fun _ _ _ => relates_unexpected

theorem relates_atAtom : p.Relates (Bound k []) atAtom atAtom Eq
    fun b => if b then Bound k [] else Bound k argument := by
  have htrue : p.Relates (Open k) (pure true) (pure true) Eq
      fun b => if b then Bound k [] else Bound k argument :=
    .pure rfl fun c hc => hc.bound []
  refine .checkInside htrue (.checkInside htrue (.checkInside htrue ?_))
  exact relates_checkInside_bound

theorem relates_typeArguments (hk : k ≤ p.fresh) (hinner : p.RelatesBelow k inner inner') :
    p.Relates (Bound k []) (typeArguments inner) (typeArguments inner')
      (List.Forall₂ (TypeExpr.Alike p.same)) fun _ => Bound k argument :=
  relates_repeated (fun _ _ => relates_atAtom) fun _ hj =>
    relates_atom (Nat.le_trans hj hk) (hinner.mono hj)

theorem relates_application (hk : k ≤ p.fresh) (hinner : p.RelatesBelow k inner inner') :
    p.Relates (Bound k es) (application inner) (application inner') (TypeExpr.Alike p.same)
      fun _ => Past k argument := by
  refine .checkInside ?_ ?_
  · refine Relates.of_imp ?_ fun c hc => hc.bound []
    refine (relates_capitalisedName (by simp)).bind_past ?_
    rintro ⟨name, s⟩ ⟨_, s'⟩ ⟨rfl, hs⟩ j hj
    have harguments := relates_typeArguments (Nat.le_trans (Nat.le_of_lt hj) hk)
      (hinner.mono (Nat.le_of_lt hj))
    refine harguments.bind fun as as' has => .pure ?_ fun c hc => ⟨j, hj, hc⟩
    exact .named (TypeName.alike_ofWord name hs) has (TypeExpr.Alike.hullAll p.keepsHulls has hs)
  · refine (relates_atom hk hinner).ending fun _ c hc => ?_
    exact hc.mono (Nat.le_refl k) (List.nil_subset argument)

theorem relates_arrow (hk : k ≤ p.fresh) (hinner : p.RelatesBelow k inner inner') :
    p.Relates (Bound k es) (arrow inner) (arrow inner') (TypeExpr.Alike p.same)
      fun _ => Past k continuation := by
  refine (relates_application hk hinner).bind_past fun a a' ha j hj => .eat (fun i hi => ?_) ?_
  · have hik : i < k := Nat.lt_trans hi hj
    refine (hinner i hik []).bind fun b b' hb => ?_
    refine .pure (.function ha hb (p.keepsHulls _ _ _ _ ha.span hb.span)) fun c hc => ?_
    exact hc.mono (Nat.le_of_lt hik) (List.Subset.refl continuation)
  · exact .pure ha fun c hc => ⟨j, hj, hc⟩

theorem relates_typeExprAt {n n' : Nat} (hk : k ≤ p.fresh) (hn : k < n) (hn' : k < n') :
    p.Relates (Bound k es) (typeExprAt n) (typeExprAt n') (TypeExpr.Alike p.same)
      fun _ => Past k continuation := by
  -- the bounds on the nesting are not reached, so they need not be the same
  induction n generalizing k n' es with
  | zero => exact absurd hn (Nat.not_lt_zero k)
  | succ n ih =>
      obtain ⟨n', rfl⟩ := Nat.exists_eq_add_one_of_ne_zero (Nat.ne_of_gt (Nat.zero_lt_of_lt hn'))
      refine relates_arrow hk fun j hj es => ih ?_ ?_ ?_
      · exact Nat.le_trans (Nat.le_of_lt hj) hk
      · exact Nat.lt_of_lt_of_le hj (Nat.le_of_lt_succ hn)
      · exact Nat.lt_of_lt_of_le hj (Nat.le_of_lt_succ hn')

theorem relates_typeExpr (hk : k ≤ p.fresh) :
    p.Relates (Bound k es) typeExpr typeExpr (TypeExpr.Alike p.same) fun _ => Past k continuation := by
  refine relates_bounded fun j hj n n' hn hn' => ?_
  have hat : p.Relates (Bound j es) (typeExprAt n) (typeExprAt n') (TypeExpr.Alike p.same)
      fun _ => Past j continuation := relates_typeExprAt (Nat.le_trans hj hk) hn hn'
  exact hat.ending fun _ c hc => hc.mono hj (List.Subset.refl continuation)

end

end Pairing

end ElmTypes
