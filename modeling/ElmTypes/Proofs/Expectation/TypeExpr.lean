import ElmTypes.Proofs.Expectation.Reading

namespace ElmTypes

namespace Exchange

open Reader Cursor Pairing

section

variable {x : Exchange} {β : Type} {c c' : Cursor} {ts : List Token} {f : Option String → Reader β}

def recordRest (f : Option String → Reader β) (extensible : Bool) : Reader β :=
  if extensible then base >>= f else f none

theorem run_recordRest (f : Option String → Reader β) (c : Cursor) :
    (recordBase? >>= f).run c = (recordRest f (beginsBase c)).run (c.note .lowercaseName) := by
  rw [run_recordBase?_bind]
  cases beginsBase c with
  | true => rfl
  | false => rfl

theorem beginsBase_iff {t u : Token} (hc : c.ahead = t :: u :: ts) :
    beginsBase c = true ↔ t.kind.lowercaseName?.isSome ∧ u.kind = .symbol .bar := by
  simp [beginsBase, accepts, hc, Expected.accepts]

theorem beginsBase_eq_false (h : c.accepts .lowercaseName = false) : beginsBase c = false := by
  rw [beginsBase, h, Bool.false_and]

theorem leaves_base {t u : Token} (hs : ∀ a, Stops (f a)) (hc : c.ahead = t :: u :: ts)
    (ht : t.kind.lowercaseName?.isSome) (hu : u.kind = .symbol .bar) :
    Leaves ts c (base >>= f) := by
  obtain ⟨name, hname⟩ := Option.isSome_iff_exists.1 ht
  have hbar : (Expected.symbol .bar).accepts u.kind = true := by
    rw [hu]
    rfl
  have hbase : base.run c = .ok (some name) ⟨ts, [], u.span⟩ := by
    rw [base, lowercaseName, EStateM.run_bind, run_take_of_some hc hname]
    simp only
    rw [EStateM.run_bind, run_expect rfl hbar]
    rfl
  refine leaves_of_run_eq ((hs (some name)).leaves ⟨ts, [], u.span⟩) ?_
  rw [EStateM.run_bind, hbase]

theorem leaves_recordBase? {t u : Token} (hs : ∀ a, Stops (f a))
    (hc : c.ahead = t :: u :: ts) (hb : beginsBase c = true) : Leaves ts c (recordBase? >>= f) := by
  obtain ⟨ht, hu⟩ := (beginsBase_iff hc).1 hb
  have hrun := run_recordRest f c
  rw [hb] at hrun
  refine leaves_of_run_eq (leaves_base hs ?_ ht hu) hrun
  rw [ahead_note, hc]

theorem beginsWith_recordRest (hnone : x.BeginsWith [.lowercaseName] (f none))
    (hsome : ∀ base, x.Tracks (f (some base))) (extensible : Bool) :
    x.BeginsWith [.lowercaseName] (recordRest f extensible) := by
  cases extensible with
  | false => exact hnone
  | true =>
      have hbase : x.BeginsWith [.lowercaseName] base :=
        BeginsWith.lowercaseName.bind fun p =>
          BeginsWith.expect.tracks.bind fun _ => .pure (some p.1)
      refine hbase.bind fun a => ?_
      cases a with
      | none => exact hnone.tracks
      | some base => exact hsome base

theorem Tracks.recordBase? (hnone : x.BeginsWith [.lowercaseName] (f none))
    (hsome : ∀ base, x.Tracks (f (some base))) : x.Tracks (recordBase? >>= f) := by
  have hrest := beginsWith_recordRest hnone hsome
  have hs (a : Option String) : Stops (f a) := by
    cases a with
    | none => exact hnone.tracks.toStops
    | some base => exact (hsome base).toStops
  have hname {c : Cursor} {t : Token} {ts : List Token} (hc : c.ahead = t :: ts)
      (ht : t.startsDeclaration = false) (hk : Expected.lowercaseName.accepts t.kind = true) :
      Leaves ts c (Reader.recordBase? >>= f) := by
    have hleads := (hrest (beginsBase c)).leads _ (List.mem_singleton_self _)
    refine leaves_of_run_eq (hleads _ t ts ?_ ht hk) (run_recordRest f c)
    rw [ahead_note, hc]
  refine ⟨?_, fun {ts c c'} h => ?_⟩
  · have hstops (c : Cursor) := (hrest (beginsBase c)).tracks.toStops
    exact .of_run_eq hstops (fun c => by simp) (run_recordRest f)
  · cases ts with
    -- the exchanged token is the first of the two that decide, and is taken if it is a name
    | nil =>
        obtain ⟨hold, hnew⟩ := h.accepts_nil .lowercaseName
        cases hk : Expected.lowercaseName.accepts x.old.kind with
        | true => exact .takesOld (hname h.old x.indented hk)
        | false =>
        cases hk' : Expected.lowercaseName.accepts x.kind with
        | true => exact .takesNew (hname h.new x.new_startsDeclaration hk')
        | false =>
            refine (hnone.tracks.outcome (h.note fun _ => hk')).of_run_eq ?_ ?_
            · rw [run_recordRest, beginsBase_eq_false (hold.trans hk)]
              rfl
            · rw [run_recordRest, beginsBase_eq_false (hnew.trans hk')]
              rfl
    | cons t ts =>
        by_cases hb : beginsBase c' = beginsBase c
        · have houtcome := (hrest (beginsBase c)).tracks.outcome (h.note_cons .lowercaseName)
          refine houtcome.of_run_eq ?_ ?_
          · rw [run_recordRest]
          · rw [run_recordRest, hb]
        cases ts with
        | cons u ts =>
            refine absurd ?_ hb
            rw [Bool.eq_iff_iff, beginsBase_iff h.old, beginsBase_iff h.new]
        -- it is the second, and is taken if it is a bar
        | nil =>
            cases hc : beginsBase c with
            | true => exact .takesOld (leaves_recordBase? hs h.old hc)
            | false =>
                rw [hc] at hb
                exact .takesNew (leaves_recordBase? hs h.new (by simpa using hb))

end

section

variable {x : Exchange} {inner : Reader TypeExpr}

theorem beginsWith_recordField (hi : x.Tracks inner) :
    x.BeginsWith [.lowercaseName] (recordField inner) :=
  BeginsWith.lowercaseName.bind fun _ => BeginsWith.expect.tracks.bind fun _ =>
    hi.bind fun _ => .pure _

theorem beginsWith_fields (hi : x.Tracks inner) :
    x.BeginsWith [.lowercaseName] (separated .comma (recordField inner)) :=
  .separated (beginsWith_recordField hi)

theorem beginsWith_recordType (hi : x.Tracks inner) :
    x.BeginsWith [.opening .brace] (recordType inner) := by
  refine BeginsWith.expect.bind fun start => BeginsWith.eat.tracks.bind fun b => ?_
  cases b with
  | true => exact Tracks.lastSpan.bind fun _ => .pure _
  | false =>
      refine Tracks.recordBase? ((beginsWith_fields hi).bind fun fs => ?_) fun base => ?_
      · exact BeginsWith.expect.tracks.bind fun _ => .pure _
      · refine (beginsWith_fields hi).tracks.bind fun fs => ?_
        exact BeginsWith.expect.tracks.bind fun _ => .pure _

theorem beginsWith_parenthesized (hi : x.Tracks inner) :
    x.BeginsWith [.opening .round] (parenthesized inner) := by
  refine BeginsWith.expect.bind fun start => BeginsWith.eat.tracks.bind fun b => ?_
  cases b with
  | true => exact Tracks.lastSpan.bind fun _ => .pure _
  | false =>
      refine hi.bind fun first => .checkInside ?_ ?_
      · refine (BeginsWith.repeated_eat hi).bind fun others => ?_
        exact BeginsWith.expect.tracks.bind fun _ => .pure _
      · exact BeginsWith.expect.tracks.bind fun _ => .pure _

def atomStarts : List Expected :=
  [.lowercaseName, .capitalisedName, .opening .round, .opening .brace]

theorem beginsWith_atom (hi : x.Tracks inner) : x.BeginsWith atomStarts (atom inner) := by
  refine .checkInside ?_ (.checkInside ?_ (.checkInside ?_ (.checkInside ?_ (.of_tracks ?_))))
  · exact BeginsWith.lowercaseName.bind fun _ => .pure _
  · exact BeginsWith.capitalisedName.bind fun _ => .pure _
  · exact beginsWith_parenthesized hi
  · exact beginsWith_recordType hi
  · exact (Tracks.note rfl).bind fun _ => .unexpected

theorem exists_tests_atAtom : ∃ p, Tests atomStarts atAtom p :=
  ⟨_, (tests_checkInside _).or ((tests_checkInside _).or
    ((tests_checkInside _).or (tests_checkInside _)))⟩

theorem tracks_typeArguments (hi : x.Tracks inner) : x.Tracks (typeArguments inner) := by
  obtain ⟨p, hp⟩ := exists_tests_atAtom
  exact .repeated hp (beginsWith_atom hi)

theorem tracks_application (hi : x.Tracks inner) : x.Tracks (application inner) := by
  refine .checkInside ?_ (beginsWith_atom hi).tracks
  exact BeginsWith.capitalisedName.bind fun _ => (tracks_typeArguments hi).bind fun _ => .pure _

theorem tracks_arrow (hi : x.Tracks inner) : x.Tracks (arrow inner) := by
  refine (tracks_application hi).bind fun domain => BeginsWith.eat.tracks.bind fun b => ?_
  cases b with
  | true => exact hi.bind fun _ => .pure _
  | false => exact .pure domain

theorem tracks_typeExprAt (n : Nat) : x.Tracks (typeExprAt n) := by
  induction n with
  | zero => exact .unexpected
  | succ n ih => exact tracks_arrow ih

theorem tracks_typeExpr : x.Tracks typeExpr := .bounded fun n => tracks_typeExprAt (n + 1)

end

end Exchange

end ElmTypes
