import ElmTypes.Proofs.Expectation.TypeExpr

namespace ElmTypes

namespace Exchange

open Reader Cursor Pairing

section

variable {x : Exchange} {α β : Type} {c c' : Cursor} {t u : Token} {ts : List Token}

structure Follows (x : Exchange) (r : Reader α) : Prop extends Stops r where
  outcome {t : Token} {ts : List Token} {c c' : Cursor} (h : x.Beside (t :: ts) c c') :
    x.Outcome r c c'

theorem Tracks.follows {r : Reader α} (h : x.Tracks r) : x.Follows r :=
  ⟨h.toStops, h.outcome⟩

theorem Follows.checked {e : Expected} {f : Bool → Reader β} (hs : ∀ b, Stops (f b))
    (hf : ∀ {t ts c c'}, x.Beside (t :: ts) c c' → x.Outcome (f (e.accepts t.kind)) c c') :
    x.Follows (Reader.check e >>= f) := by
  refine ⟨(Stops.check e).bind hs, fun {t ts c c'} h => ?_⟩
  obtain ⟨hold, hnew⟩ := h.accepts_cons e
  refine (hf (h.note_cons e)).of_ok ?_ ?_
  · rw [run_check, hold]
  · rw [run_check, hnew]

theorem Follows.check {e : Expected} {f : Bool → Reader β} (ht : x.Follows (f true))
    (hf : x.Follows (f false)) : x.Follows (Reader.check e >>= f) := by
  refine .checked (fun b => ?_) fun {t ts c c'} h => ?_
  · cases b with
    | true => exact ht.toStops
    | false => exact hf.toStops
  · cases e.accepts t.kind with
    | true => exact ht.outcome h
    | false => exact hf.outcome h

theorem atBoundary_of_declarationEnd {d : Cursor} (h : declarationEnd.run c = .ok () d) :
    d.atBoundary = true := by
  rw [declarationEnd, EStateM.run_bind, run_atBoundary] at h
  cases hc : c.atBoundary with
  | true =>
      rw [hc] at h
      cases h
      exact hc
  | false =>
      rw [hc] at h
      cases h

theorem Tracks.declarationEnd_bind {f : Unit → Reader β} (hf : x.Follows (f ())) :
    x.Tracks (Reader.declarationEnd >>= f) := by
  have hend : x.Tracks Reader.declarationEnd := declarationEnd
  refine ⟨hend.toStops.bind fun _ => hf.toStops, fun h => ?_⟩
  refine (hend.outcome h).bind (fun _ => hf.toStops) fun _ ts d d' hrun hd => ?_
  cases ts with
  | nil =>
      have hat := atBoundary_of_declarationEnd hrun
      rw [hd.atBoundary_nil.1] at hat
      cases hat
  | cons t ts => exact hf.outcome hd

theorem Tracks.advanceWhile (q : Token → Bool) : x.Tracks (advanceWhile q) := by
  refine ⟨.advanceWhile q, fun {ts c c'} h => ?_⟩
  have htakes {t : Token} {c : Cursor} (hc : c.ahead = t :: x.rest) (ht : q t = true) :
      Leaves x.rest c (Reader.advanceWhile q) := by
    unfold Leaves
    simp only [run_advanceWhile, ahead_advanceWhile, hc, List.dropWhile_cons, ht, if_true]
    exact List.dropWhile_suffix q
  induction ts generalizing c c' with
  | nil =>
      cases hold : q x.old with
      | true => exact .takesOld (htakes h.old hold)
      | false =>
      cases hnew : q x.new with
      | true => exact .takesNew (htakes h.new hnew)
      | false =>
          refine .ok (a := ()) ?_ ?_ h
          · rw [run_advanceWhile, advanceWhile_eq_self (by simp [h.old, hold])]
          · rw [run_advanceWhile, advanceWhile_eq_self (by simp [h.new, hnew])]
  | cons t ts ih =>
      obtain ⟨hhead, hhead'⟩ := h.head?_cons
      cases ht : q t with
      | true =>
          refine (ih h.advance).of_run_eq ?_ ?_
          · rw [run_advanceWhile, run_advanceWhile, advanceWhile_advance hhead ht]
          · rw [run_advanceWhile, run_advanceWhile, advanceWhile_advance hhead' ht]
      | false =>
          refine .ok (a := ()) ?_ ?_ h
          · rw [run_advanceWhile, advanceWhile_eq_self (by rw [hhead, Option.any_some, ht])]
          · rw [run_advanceWhile, advanceWhile_eq_self (by rw [hhead', Option.any_some, ht])]

theorem Tracks.patterns : x.Tracks patterns := by
  refine (advanceWhile _).bind fun _ => atBoundary.bind fun b => ?_
  cases b with
  | true => exact unexpected.bind fun _ => advance
  | false => exact advance

end

section

variable {x : Exchange} {c c' : Cursor} {t u : Token} {ts : List Token}

theorem tracks_typeParameters : x.Tracks typeParameters :=
  .repeated (tests_checkInside _) (BeginsWith.lowercaseName.bind fun p => .pure p.1)

theorem tracks_variant : x.Tracks variant :=
  BeginsWith.declaredName.tracks.bind fun _ => (tracks_typeArguments tracks_typeExpr).bind fun _ =>
    .pure _

theorem tracks_aliasRest : x.Tracks aliasRest := by
  refine BeginsWith.declaredName.tracks.bind fun _ => tracks_typeParameters.bind fun _ => ?_
  refine BeginsWith.expect.tracks.bind fun _ => tracks_typeExpr.bind fun _ => ?_
  exact Tracks.declarationEnd.bind fun _ => .pure _

theorem tracks_customRest : x.Tracks customRest := by
  refine BeginsWith.declaredName.tracks.bind fun _ => tracks_typeParameters.bind fun _ => ?_
  refine BeginsWith.eat.tracks.bind fun b => ?_
  cases b with
  | true =>
      have hvariants : x.Tracks (separated .bar variant) :=
        (BeginsWith.separated (.of_tracks tracks_variant)).tracks
      exact hvariants.bind fun _ => Tracks.declarationEnd.bind fun _ => .pure _
  | false => exact Tracks.declarationEnd.bind fun _ => .pure _

theorem tracks_typeDeclaration : x.Tracks typeDeclaration := by
  refine BeginsWith.expect.tracks.bind fun _ => BeginsWith.eat.tracks.bind fun b => ?_
  cases b with
  | true => exact tracks_aliasRest
  | false => exact tracks_customRest

theorem tracks_portDeclaration : x.Tracks portDeclaration := by
  refine BeginsWith.expect.tracks.bind fun _ => BeginsWith.lowercaseName.tracks.bind fun _ => ?_
  refine BeginsWith.expect.tracks.bind fun _ => tracks_typeExpr.bind fun _ => ?_
  exact Tracks.declarationEnd.bind fun _ => .pure _

def operatorRest : Option String → Reader String
  | some operator => do
      advance
      let _ ← expect (.closing .round)
      return operator
  | none => do
      note .operator
      unexpected

theorem run_operatorRest (c : Cursor) : (do
    match (← peek).bind (·.kind.operator?) with
    | some operator => do
        advance
        let _ ← expect (.closing .round)
        return operator
    | none => do
        note .operator
        unexpected : Reader String).run c =
      (operatorRest (c.ahead.head?.bind (·.kind.operator?))).run c := rfl

theorem stops_operatorRest (operator : Option String) : Stops (operatorRest operator) := by
  cases operator with
  | some operator => exact Stops.advance.bind fun _ => (Stops.expect _).bind fun _ => .pure operator
  | none => exact (Stops.note .operator).bind fun _ => .unexpected

theorem leaves_operatorRest_some (hc : c.ahead = t :: ts) (operator : String) :
    Leaves ts c (operatorRest (some operator)) := by
  refine (leaves_advance hc).bind fun _ d hd => ?_
  exact ((reads_expect _).leaves hd).bind fun _ _ he => .pure operator he

theorem outcome_operatorRest_none (h : x.Beside ts c c')
    (hq : ts = [] → Expected.operator.accepts x.kind = false) :
    x.Outcome (operatorRest none) c c' :=
  (Tracks.unexpected.outcome (h.note hq)).of_run_eq rfl rfl

theorem accepts_operator_eq_false {k : TokenKind} (h : k.operator? = none) :
    Expected.operator.accepts k = false := by
  cases k with
  | operator text => cases h
  | _ => rfl

theorem beginsWith_parenthesizedOperator :
    x.BeginsWith [.opening .round] parenthesizedOperator := by
  refine BeginsWith.expect.bind fun _ => ?_
  refine ⟨.of_run_eq (g := id) (fun _ => stops_operatorRest _) (fun _ => List.suffix_rfl)
    run_operatorRest, fun {ts c c'} h => ?_⟩
  have hrun := run_operatorRest c
  have hrun' := run_operatorRest c'
  cases ts with
  | cons t ts =>
      rw [h.old, List.cons_append, List.head?_cons, Option.bind_some] at hrun
      rw [h.new, List.cons_append, List.head?_cons, Option.bind_some] at hrun'
      refine Outcome.of_run_eq ?_ hrun hrun'
      cases t.kind.operator? with
      | some operator =>
          have hrest : x.Tracks (operatorRest (some operator)) :=
            Tracks.advance.bind fun _ => BeginsWith.expect.tracks.bind fun _ => .pure operator
          exact hrest.outcome h
      | none => exact outcome_operatorRest_none h fun hts => absurd hts (List.cons_ne_nil t ts)
  -- symbols are taken too, though only operators are said to be expected
  | nil =>
      rw [h.old, List.nil_append, List.head?_cons, Option.bind_some] at hrun
      rw [h.new, List.nil_append, List.head?_cons, Option.bind_some] at hrun'
      cases hold : x.old.kind.operator? with
      | some operator =>
          rw [hold] at hrun
          exact .takesOld (leaves_of_run_eq (leaves_operatorRest_some h.old operator) hrun)
      | none =>
      cases hnew : x.new.kind.operator? with
      | some operator =>
          rw [hnew] at hrun'
          exact .takesNew (leaves_of_run_eq (leaves_operatorRest_some h.new operator) hrun')
      | none =>
          rw [hold] at hrun
          rw [hnew] at hrun'
          refine (outcome_operatorRest_none h fun _ => ?_).of_run_eq hrun hrun'
          exact accepts_operator_eq_false hnew

def fixityRest (associativity : Associativity) : Reader Declared := do
  let (precedence, _) ← take .integer TokenKind.integer?
  let operator ← parenthesizedOperator
  let _ ← expect (.symbol .equals)
  let (function, _) ← lowercaseName
  declarationEnd
  return .fixity associativity precedence operator function

theorem tracks_fixityRest (associativity : Associativity) :
    x.Tracks (fixityRest associativity) := by
  have hinteger : x.BeginsWith [.integer] (take .integer TokenKind.integer?) := .take fun _ h => h
  refine hinteger.tracks.bind fun _ => beginsWith_parenthesizedOperator.tracks.bind fun _ => ?_
  refine BeginsWith.expect.tracks.bind fun _ => BeginsWith.lowercaseName.tracks.bind fun _ => ?_
  exact Tracks.declarationEnd.bind fun _ => .pure _

theorem run_fixityDeclaration {associativity : Associativity} (hc : c.ahead = t :: u :: ts)
    (ht : (Expected.keyword .fixity).accepts t.kind = true)
    (hu : u.kind.associativity? = some associativity) :
    fixityDeclaration.run c = (fixityRest associativity).run ⟨ts, [], u.span⟩ := by
  rw [fixityDeclaration, EStateM.run_bind, run_expect hc ht]
  simp only
  rw [EStateM.run_bind, run_take_of_some rfl hu]
  rfl

theorem tracks_signatureEnd (name : String) (span : Span) (type : TypeExpr)
    (next : Option TokenKind) : x.Tracks (signatureEnd name span type next) := by
  unfold signatureEnd
  split
  · exact Tracks.advance.bind fun _ => .pure type
  · exact .fail rfl

theorem tracks_signatureRest (name : String) (span : Span) :
    x.Tracks (signatureRest name span) := by
  have hend (type : TypeExpr) (c : Cursor) :=
    x.tracks_signatureEnd name span type (c.ahead.head?.map Token.kind)
  refine tracks_typeExpr.bind fun type => .declarationEnd_bind ⟨?_, fun {t ts c c'} h => ?_⟩
  · exact Stops.peek.bind fun t => (x.tracks_signatureEnd name span type (t.map Token.kind)).toStops
  · have hhead : c'.ahead.head? = c.ahead.head? := by simp [h.old, h.new]
    refine ((hend type c).outcome h).of_run_eq rfl ?_
    rw [← hhead]
    rfl

theorem tracks_definition (name : String) (signature : Option TypeExpr) :
    x.Tracks (definition name signature) := by
  refine Tracks.atBoundary.bind fun b => ?_
  have hvalue : x.Tracks (do
      advanceWhile fun t => !t.startsDeclaration
      return Declared.value name signature) := (Tracks.advanceWhile _).bind fun _ => .pure _
  cases b with
  | true =>
      refine (Tracks.note rfl).bind fun _ => Tracks.lastSpan.bind fun s => ?_
      exact (Tracks.fail rfl).bind fun _ => hvalue
  | false => exact hvalue

theorem tracks_definitionRest (name : String) (signature : Option TypeExpr) :
    x.Tracks (definitionRest name signature) := by
  refine BeginsWith.eat.tracks.bind fun b => ?_
  cases b with
  | true => exact tracks_definition name signature
  | false => exact Tracks.patterns.bind fun _ => tracks_definition name signature

theorem tracks_valueDeclaration : x.Tracks valueDeclaration := by
  refine BeginsWith.lowercaseName.tracks.bind fun p => BeginsWith.eat.tracks.bind fun b => ?_
  cases b with
  | true =>
      simp only [if_true, map_eq_pure_bind, bind_assoc, pure_bind]
      exact (tracks_signatureRest p.1 p.2).bind fun type => tracks_definitionRest p.1 (some type)
  | false => exact tracks_definitionRest p.1 none

theorem follows_declaredValue : x.Follows declaredValue :=
  .check tracks_valueDeclaration.follows
    (Tracks.follows ((Tracks.note rfl).bind fun _ => .unexpected))

theorem leaves_fixityDeclaration {associativity : Associativity} (x : Exchange)
    (hc : c.ahead = t :: u :: ts) (ht : (Expected.keyword .fixity).accepts t.kind = true)
    (hu : u.kind.associativity? = some associativity) : Leaves ts c fixityDeclaration :=
  leaves_of_run_eq ((x.tracks_fixityRest associativity).leaves _) (run_fixityDeclaration hc ht hu)

theorem outcome_fixityOrValue (h : x.Beside (t :: ts) c c')
    (ht : (Expected.keyword .fixity).accepts t.kind = true) : x.Outcome fixityOrValue c c' := by
  have hfixity {c : Cursor} {u : Token} {us : List Token} (hc : c.ahead = t :: u :: us)
      {a : Associativity} (hu : u.kind.associativity? = some a) :
      fixityOrValue.run c = fixityDeclaration.run c := by
    rw [run_fixityOrValue, if_pos (by simp [hc, hu])]
  have hvalue {c : Cursor} {u : Token} {us : List Token} (hc : c.ahead = t :: u :: us)
      (hu : u.kind.associativity? = none) : fixityOrValue.run c = declaredValue.run c := by
    rw [run_fixityOrValue, if_neg (by simp [hc, hu])]
  cases ts with
  | cons u ts =>
      cases hu : u.kind.associativity? with
      | none =>
          exact (follows_declaredValue.outcome h).of_run_eq (hvalue h.old hu) (hvalue h.new hu)
      | some a =>
          refine ((tracks_fixityRest a).outcome (.after x ts u.span)).of_run_eq ?_ ?_
          · exact (hfixity h.old hu).trans (run_fixityDeclaration h.old ht hu)
          · exact (hfixity h.new hu).trans (run_fixityDeclaration h.new ht hu)
  | nil =>
      cases hold : x.old.kind.associativity? with
      | some a =>
          refine .takesOld (leaves_of_run_eq ?_ (hfixity h.old hold))
          exact x.leaves_fixityDeclaration h.old ht hold
      | none =>
      cases hnew : x.new.kind.associativity? with
      | some a =>
          refine .takesNew (leaves_of_run_eq ?_ (hfixity h.new hnew))
          exact x.leaves_fixityDeclaration h.new ht hnew
      | none =>
          exact (follows_declaredValue.outcome h).of_run_eq (hvalue h.old hold) (hvalue h.new hnew)

theorem stops_fixityDeclaration (x : Exchange) : Stops fixityDeclaration :=
  (Stops.expect _).bind fun _ => (Stops.take _ _).bind fun p => (x.tracks_fixityRest p.1).toStops

theorem stops_associativitySecond : Stops associativitySecond :=
  .of_total fun c => ⟨_, c, rfl, List.suffix_rfl⟩

theorem follows_declared : x.Follows declared := by
  refine .check tracks_typeDeclaration.follows (.check tracks_portDeclaration.follows ?_)
  refine .checked (fun b => stops_associativitySecond.bind fun second => ?_) fun {t ts c c'} h => ?_
  · cases b && second with
    | true => exact x.stops_fixityDeclaration
    | false => exact x.follows_declaredValue.toStops
  · cases ht : (Expected.keyword .fixity).accepts t.kind with
    | true => exact outcome_fixityOrValue h ht
    | false => exact follows_declaredValue.outcome h

def declarationRest : Reader Declaration := do
  let start ← nextSpan
  let d ← declared
  return ⟨d, start.hull (← lastSpan)⟩

theorem run_declaration_of_atBoundary (hc : c.atBoundary = true) :
    declaration.run c = declarationRest.run c := by
  rw [declaration, EStateM.run_bind, run_peek]
  cases hahead : c.ahead with
  | nil => rfl
  | cons t ts =>
      have ht : t.startsDeclaration = true := by simpa [Cursor.atBoundary, hahead] using hc
      simp only [List.head?_cons, ht, if_true]
      rfl

theorem run_declaration_indented (hc : c.ahead = t :: ts) (ht : t.startsDeclaration = false) :
    declaration.run c = .error ⟨.indented t.kind, t.span⟩ c := by
  rw [declaration, EStateM.run_bind, run_peek, hc, List.head?_cons]
  simp only [ht]
  rfl

theorem follows_declarationRest : x.Follows declarationRest := by
  have hspan (start : Span) (d : Declared) : x.Tracks (do
      return (⟨d, start.hull (← lastSpan)⟩ : Declaration)) :=
    Tracks.lastSpan.bind fun _ => .pure _
  refine ⟨Stops.nextSpan.bind fun start => x.follows_declared.toStops.bind fun d =>
    (hspan start d).toStops, fun {t ts c c'} h => ?_⟩
  have hstart : nextSpan.run c = .ok t.span c := by
    rw [run_nextSpan, h.old]
    rfl
  have hstart' : nextSpan.run c' = .ok t.span c' := by
    rw [run_nextSpan, h.new]
    rfl
  refine Outcome.of_ok ?_ hstart hstart'
  exact (follows_declared.outcome h).bind (fun d => (hspan t.span d).toStops)
    fun d _ _ _ _ hd => (hspan t.span d).outcome hd

theorem stops_declaration (x : Exchange) : Stops declaration := by
  have hrest : Stops declarationRest := x.follows_declarationRest.toStops
  have hindented {c : Cursor} (hc : c.atBoundary = false) :
      ∃ t ts, c.ahead = t :: ts ∧ declaration.run c = .error ⟨.indented t.kind, t.span⟩ c := by
    cases hahead : c.ahead with
    | nil => simp [Cursor.atBoundary, hahead] at hc
    | cons t ts =>
        have ht : t.startsDeclaration = false := by simpa [Cursor.atBoundary, hahead] using hc
        exact ⟨t, ts, rfl, run_declaration_indented hahead ht⟩
  refine ⟨fun c => ?_, fun {c d e} h found he => ?_⟩
  · cases hc : c.atBoundary with
    | true => exact leaves_of_run_eq (hrest.leaves c) (run_declaration_of_atBoundary hc)
    | false =>
        obtain ⟨t, ts, -, hrun⟩ := hindented hc
        exact leaves_of_run_eq_error hrun List.suffix_rfl
  · cases hc : c.atBoundary with
    | true =>
        rw [run_declaration_of_atBoundary hc] at h
        exact hrest.points h he
    | false =>
        obtain ⟨t, ts, hahead, hrun⟩ := hindented hc
        rw [hrun] at h
        cases h
        exact ⟨t, ts, hahead, Option.some.inj he, rfl⟩

theorem follows_declaration : x.Follows declaration := by
  refine ⟨x.stops_declaration, fun {t ts c c'} h => ?_⟩
  have hboundary := h.atBoundary
  cases hc : c.atBoundary with
  | true =>
      refine (follows_declarationRest.outcome h).of_run_eq (run_declaration_of_atBoundary hc) ?_
      exact run_declaration_of_atBoundary (hboundary.trans hc)
  | false =>
      have ht : t.startsDeclaration = false := by simpa [Cursor.atBoundary, h.old] using hc
      refine .error (run_declaration_indented h.old ht) (run_declaration_indented h.new ht) h ?_
      exact fun _ => x.misses_indented t.kind

end

end Exchange

end ElmTypes
