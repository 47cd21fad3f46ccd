import ElmTypes.Proofs.Comparison.TypeExpr
import ElmTypes.Proofs.Grammar.Declaration
import ElmTypes.Proofs.Grammar.File

namespace ElmTypes

namespace Pairing

open Reader Cursor

section

variable {p : Pairing} {α β : Type} {k : Nat} {es : List Expected} {W : β → β → Prop}
  {R : β → Cursor → Prop}

theorem relates_typeParameters :
    p.Relates (Bound k []) typeParameters typeParameters Eq fun _ => Bound k [.lowercaseName] := by
  have hrepeated : p.Relates (Bound k []) typeParameters typeParameters (List.Forall₂ Eq)
      fun _ => Bound k [.lowercaseName] := by
    refine relates_repeated (fun _ _ => relates_checkInside_bound) fun j _ => ?_
    refine (relates_lowercaseName (by simp)).bind ?_
    rintro ⟨name, s⟩ ⟨_, s'⟩ ⟨rfl, -⟩
    exact .pure rfl fun c hc => hc
  rwa [List.forall₂_eq_eq_eq] at hrepeated

theorem relatesBelow_typeExpr (hk : k ≤ p.fresh) : p.RelatesBelow k typeExpr typeExpr :=
  fun _ hj _ => relates_typeExpr (Nat.le_trans (Nat.le_of_lt hj) hk)

theorem relates_variant (hk : k ≤ p.fresh) :
    p.Relates (Bound k []) variant variant (Variant.Alike p.same) fun _ => Past k argument := by
  refine (relates_declaredName (by simp)).bind_past ?_
  rintro ⟨name, s⟩ ⟨_, s'⟩ ⟨rfl, hs⟩ j hj
  have hjk : j ≤ p.fresh := Nat.le_trans (Nat.le_of_lt hj) hk
  refine (relates_typeArguments hjk (relatesBelow_typeExpr hjk)).bind fun as as' has => ?_
  exact .pure (.mk has (TypeExpr.Alike.hullAll p.keepsHulls has hs)) fun c hc => ⟨j, hj, hc⟩

theorem relates_aliasRest (hk : k ≤ p.fresh) :
    p.Relates (Bound k []) aliasRest aliasRest (Declared.Alike p.same) fun _ => Ended k := by
  refine (relates_declaredName (by simp)).bind_past ?_
  rintro ⟨name, s⟩ ⟨_, s'⟩ ⟨rfl, -⟩ j hj
  refine relates_typeParameters.bind ?_
  rintro parameters _ rfl
  refine (relates_expect (by simp)).bind_past fun _ _ _ i hi => ?_
  refine (relates_typeExpr (by omega)).bind_past fun a a' ha m hm => ?_
  exact .declarationEnd (.pure (.alias ha) fun c hc => ⟨hc.1.length_lt (by omega), hc.2⟩)

theorem relates_customRest (hk : k ≤ p.fresh) (he : Expected.capitalisedName.NewTo es) :
    p.Relates (Bound k es) customRest customRest (Declared.Alike p.same) fun _ => Ended k := by
  refine (relates_declaredName he).bind_past ?_
  rintro ⟨name, s⟩ ⟨_, s'⟩ ⟨rfl, -⟩ j hj
  refine relates_typeParameters.bind ?_
  rintro parameters _ rfl
  refine .eat (fun i hi => ?_) ?_
  · have hvariants := relates_separated (p := p) (s := .bar) (relates_variant (k := i) (by omega))
      fun m hm => relates_variant (by omega)
    refine hvariants.bind_past fun vs vs' hvs m hm => ?_
    exact .declarationEnd (.pure (.custom hvs) fun c hc => ⟨hc.1.length_lt (by omega), hc.2⟩)
  · exact .declarationEnd (.pure (.custom .nil) fun c hc => ⟨hc.1.length_lt (by omega), hc.2⟩)

theorem relates_typeDeclaration (hk : k ≤ p.fresh) :
    p.Relates (Bound k []) typeDeclaration typeDeclaration (Declared.Alike p.same)
      fun _ => Ended k := by
  refine (relates_expect (by simp)).bind_past fun _ _ _ j hj => .eat (fun i hi => ?_) ?_
  · refine (relates_aliasRest (by omega)).ending fun _ _ hc => ?_
    exact hc.mono (by omega)
  · refine (relates_customRest (by omega) (by simp)).ending fun _ _ hc => ?_
    exact hc.mono (Nat.le_of_lt hj)

theorem relates_portDeclaration (hk : k ≤ p.fresh) :
    p.Relates (Bound k []) portDeclaration portDeclaration (Declared.Alike p.same)
      fun _ => Ended k := by
  refine (relates_expect (by simp)).bind_past fun _ _ _ j hj => ?_
  refine (relates_lowercaseName (by simp)).bind_past ?_
  rintro ⟨name, s⟩ ⟨_, s'⟩ ⟨rfl, -⟩ i hi
  refine (relates_expect (by simp)).bind_past fun _ _ _ m hm => ?_
  refine (relates_typeExpr (by omega)).bind_past fun a a' ha n hn => ?_
  exact .declarationEnd (.pure (.port ha) fun c hc => ⟨hc.1.length_lt (by omega), hc.2⟩)

theorem relates_parenthesizedOperator (he : (Expected.opening .round).NewTo es) :
    p.Relates (Bound k es) parenthesizedOperator parenthesizedOperator Eq fun _ => Past k [] := by
  refine (relates_expect he).bind_past fun _ _ _ j hj => ?_
  have hnone : p.Relates (Bound j []) (do note .operator; (unexpected : Reader String))
      (do note .operator; unexpected) Eq fun _ => Past k [] :=
    relates_note.bind fun _ _ _ => relates_unexpected
  have hsome (operator : String) : p.Relates (Open j)
      (do advance; let _ ← expect (.closing .round); return operator)
      (do advance; let _ ← expect (.closing .round); return operator) Eq fun _ => Past k [] := by
    refine relates_advance.bind_past fun _ _ _ i hi => ?_
    refine (relates_expect (by simp)).bind fun _ _ _ => .pure rfl fun c hc => ?_
    exact hc.mono (by omega) (List.Subset.refl [])
  intro c c' h hc
  rw [EStateM.run_bind, EStateM.run_bind, run_peek, run_peek]
  cases ha : c.ahead with
  | cons t ts =>
      obtain ⟨t', ts', ha', ht, -⟩ := h.cons ha
      simp only [ha', List.head?_cons, Option.bind_some, ht.kind]
      cases hop : t.kind.operator? with
      | none => exact hnone c c' h hc
      | some operator => exact hsome operator c c' h ⟨by simp [ha], hc.length⟩
  | nil =>
      have ha' := h.nil ha
      simp only [ha', List.head?_nil, Option.bind_none]
      cases hop : p.rest.head?.bind (·.kind.operator?) with
      | none => exact hnone c c' h hc
      | some operator =>
          obtain ⟨t, ht, hoperator⟩ := Option.bind_eq_some_iff.1 hop
          have hn : Expected.operator.NewTo c.expected := .mono (by simp) (hc.expected ha)
          refine .overrun ht (isContinuedBy_complaint ha hn ?_) _
          exact Option.isSome_of_eq_some hoperator

theorem admits_of_associativity? {kind : TokenKind} {a : Associativity}
    (h : kind.associativity? = some a) : Expected.lowercaseName.admits kind = true :=
  Expected.admits_of_accepts (TokenKind.accepts_of_associativity? h)

theorem relates_fixityDeclaration :
    p.Relates (Bound k []) fixityDeclaration fixityDeclaration (Declared.Alike p.same)
      fun _ => Ended k := by
  refine (relates_expect (by simp)).bind_past fun _ _ _ j hj => ?_
  refine (relates_take (by simp) ?_).bind_past ?_
  · intro kind a ha
    exact admits_of_associativity? ha
  rintro ⟨associativity, s⟩ ⟨_, s'⟩ ⟨rfl, -⟩ i hi
  refine (relates_take (by simp) ?_).bind_past ?_
  · intro kind a ha
    exact Expected.admits_of_accepts (e := .integer) (Option.isSome_of_eq_some ha)
  rintro ⟨precedence, t⟩ ⟨_, t'⟩ ⟨rfl, -⟩ m hm
  refine (relates_parenthesizedOperator (by simp)).bind_past ?_
  rintro operator _ rfl n hn
  refine (relates_expect (by simp)).bind_past fun _ _ _ l hl => ?_
  refine (relates_lowercaseName (by simp)).bind_past ?_
  rintro ⟨function, u⟩ ⟨_, u'⟩ ⟨rfl, -⟩ o ho
  exact .declarationEnd (.pure .fixity fun c hc => ⟨hc.1.length_lt (by omega), hc.2⟩)

def signatureEnd (name : String) (span : Span) (type : TypeExpr) (next : Option TokenKind) :
    Reader TypeExpr :=
  if next == some (.word name) then do
    advance
    return type
  else fail (.danglingSignature name next) span

section

variable {name : String} {s s' : Span} {a a' : TypeExpr}

theorem relates_signatureEnd (hs : p.same s s') (ha : a.Alike p.same a')
    (next : Option TokenKind) :
    p.Relates (Open k) (signatureEnd name s a next) (signatureEnd name s' a' next)
      (TypeExpr.Alike p.same) fun _ c => c.ahead.length < k := by
  unfold signatureEnd
  split
  · refine relates_advance.bind fun _ _ _ => .pure ha fun c hc => ?_
    obtain ⟨j, hj, hc⟩ := hc
    exact hc.length_lt hj
  · exact relates_fail hs

theorem outcome_signatureEnd_nil {c c' : Cursor} {Q : TypeExpr → Cursor → Prop}
    (h : p.Beside c c') (hc : c.ahead = []) (hs : p.same s s') :
    p.Outcome (TypeExpr.Alike p.same) Q ((signatureEnd name s a none).run c)
      ((signatureEnd name s' a' (p.rest.head?.map Token.kind)).run c') := by
  have hleft : (signatureEnd name s a none).run c = .error ⟨.danglingSignature name none, s⟩ c := rfl
  rw [hleft]
  cases ht : p.rest.head? with
  | none => exact .error (.same (fun _ => rfl) rfl hs) h
  | some t =>
      by_cases hk : t.kind = .word name
      · exact .overrun ht (by simp [SyntaxCause.isContinuedBy, hk]) _
      · have hright : (signatureEnd name s' a' (some t.kind)).run c' =
            .error ⟨.danglingSignature name (some t.kind), s'⟩ c' := by
          rw [signatureEnd, if_neg (by simpa using hk)]
          rfl
        rw [Option.map_some, hright]
        exact .error (.cutOff hc ht (.definition hs)) h

theorem relates_signatureRest (hk : k ≤ p.fresh) (hs : p.same s s') :
    p.Relates (Bound k []) (signatureRest name s) (signatureRest name s') (TypeExpr.Alike p.same)
      fun _ c => c.ahead.length < k := by
  refine (relates_typeExpr hk).bind_past fun a a' ha j hj => .declarationEnd ?_
  rintro c c' h ⟨hc, -⟩
  change p.Outcome _ _ ((signatureEnd name s a (c.ahead.head?.map Token.kind)).run c)
    ((signatureEnd name s' a' (c'.ahead.head?.map Token.kind)).run c')
  cases hahead : c.ahead with
  | nil =>
      rw [h.nil hahead]
      exact outcome_signatureEnd_nil h hahead hs
  | cons t ts =>
      obtain ⟨t', ts', hahead', ht, -⟩ := h.cons hahead
      rw [hahead', List.head?_cons, List.head?_cons, Option.map_some, Option.map_some, ht.kind]
      have hlength := hc.length
      exact relates_signatureEnd hs ha _ c c' h ⟨by simp [hahead], by omega⟩

end

section

variable {q : Token → Bool} {ts ts' : List Token} {c c' : Cursor} {e : Expected}

structure Respects (p : Pairing) (q : Token → Bool) : Prop where
  like : ∀ t t', p.Like t t' → q t' = q t
  inside : ∀ t, t.startsDeclaration = true → q t = false

theorem Respects.split_rest (hq : p.Respects q) :
    p.rest.takeWhile q = [] ∧ p.rest.dropWhile q = p.rest := by
  cases hr : p.rest with
  | nil => exact ⟨rfl, rfl⟩
  | cons t ts =>
      have ht : q t = false := hq.inside t (p.starts t (by rw [hr]; rfl))
      rw [List.takeWhile_cons, List.dropWhile_cons, ht]
      exact ⟨rfl, rfl⟩

theorem Ahead.dropWhile (h : p.Ahead ts ts') (hq : p.Respects q) :
    p.Ahead (ts.dropWhile q) (ts'.dropWhile q) := by
  induction h with
  | done =>
      rw [hq.split_rest.2]
      exact .done
  | cons ht hts ih =>
      rw [List.dropWhile_cons, List.dropWhile_cons, hq.like _ _ ht]
      split
      · exact ih
      · exact .cons ht hts

theorem Ahead.takeWhile (h : p.Ahead ts ts') (hq : p.Respects q) :
    List.Forall₂ p.Like (ts.takeWhile q) (ts'.takeWhile q) := by
  induction h with
  | done =>
      rw [hq.split_rest.1]
      exact .nil
  | cons ht hts ih =>
      rw [List.takeWhile_cons, List.takeWhile_cons, hq.like _ _ ht]
      split
      · exact .cons ht ih
      · exact .nil

theorem rel_getLast?_of_forall₂ {r : α → α → Prop} {as bs : List α} (h : List.Forall₂ r as bs) :
    Option.Rel r as.getLast? bs.getLast? := by
  rw [← List.forall₂_reverse_iff] at h
  rw [← List.head?_reverse, ← List.head?_reverse]
  generalize as.reverse = as', bs.reverse = bs' at h
  cases h with
  | nil => exact .none
  | cons hab _ => exact .some hab

theorem Beside.advanceWhile (h : p.Beside c c') (hq : p.Respects q) :
    p.Beside (c.advanceWhile q) (c'.advanceWhile q) := by
  have hlast := rel_getLast?_of_forall₂ (h.ahead.takeWhile hq)
  unfold Cursor.advanceWhile
  generalize (c.ahead.takeWhile q).getLast? = x, (c'.ahead.takeWhile q).getLast? = x' at hlast
  cases hlast with
  | none => exact h
  | some ht => exact ⟨h.ahead.dropWhile hq, fun _ => ⟨rfl, ht.span⟩⟩

theorem relates_advanceWhile (hq : p.Respects q) :
    p.Relates (Bound k es) (advanceWhile q) (advanceWhile q) (fun _ _ => True)
      fun _ => Bound k es :=
  fun _ _ h hc => .ok trivial (h.advanceWhile hq) (hc.advanceWhile q)

theorem relates_patterns :
    p.Relates (Bound k es) patterns patterns (fun _ _ => True) fun _ => Past k [] := by
  have hq : p.Respects fun t => !t.startsDeclaration && t.kind != .symbol .equals := by
    constructor
    · intro t t' ht
      rw [ht.starts, ht.kind]
    · intro t ht
      simp [ht]
  refine (relates_advanceWhile hq).bind fun _ _ _ => .atBoundary ?_ ?_
  · exact .never relates_unexpected
  · exact relates_advance

variable {name : String} {signature signature' : Option TypeExpr}

theorem respects_nextDeclaration : p.Respects fun t => !t.startsDeclaration := by
  constructor
  · intro t t' ht
    rw [ht.starts]
  · intro t ht
    rw [ht]
    rfl

theorem relates_definition (hk : k < p.fresh)
    (hs : Option.Rel (TypeExpr.Alike p.same) signature signature') :
    p.Relates (Bound k es) (definition name signature) (definition name signature')
      (Declared.Alike p.same) fun _ => Ended (k + 1) := by
  refine .atBoundary ?_ ?_
  · refine Relates.of_imp ?_ fun c hc => hc.1
    refine relates_note.bind fun _ _ _ => .lastSpan (fun c hc => hc.length_lt hk) fun s s' hs => ?_
    exact .never (relates_fail hs)
  · intro c c' h hc
    have hb := (hc.bound []).advanceWhile fun t => !t.startsDeclaration
    refine .ok (.value hs) (h.advanceWhile respects_nextDeclaration) ?_
    exact ⟨Nat.lt_succ_of_le hb.length, atBoundary_nextDeclaration c⟩

theorem relates_definitionRest (hk : k < p.fresh)
    (hs : Option.Rel (TypeExpr.Alike p.same) signature signature') :
    p.Relates (Bound k es) (definitionRest name signature) (definitionRest name signature')
      (Declared.Alike p.same) fun _ => Ended (k + 1) := by
  have hdefinition {j : Nat} (hj : j < k) : p.Relates (Bound j []) (definition name signature)
      (definition name signature') (Declared.Alike p.same) fun _ => Ended (k + 1) :=
    (relates_definition (Nat.lt_trans hj hk) hs).ending fun _ _ hc => hc.mono (by omega)
  refine .eat (fun j hj => hdefinition hj) ?_
  exact relates_patterns.bind_past fun _ _ _ j hj => hdefinition hj

theorem relates_valueDeclaration (hk : k ≤ p.fresh) :
    p.Relates (Bound k []) valueDeclaration valueDeclaration (Declared.Alike p.same)
      fun _ => Ended k := by
  refine (relates_lowercaseName (by simp)).bind_past ?_
  rintro ⟨name, s⟩ ⟨_, s'⟩ ⟨rfl, hs⟩ j hj
  have hrest {signature signature' : Option TypeExpr} {es : List Expected}
      (hs : Option.Rel (TypeExpr.Alike p.same) signature signature') :
      p.Relates (Bound j es) (definitionRest name signature) (definitionRest name signature')
        (Declared.Alike p.same) fun _ => Ended k :=
    (relates_definitionRest (by omega) hs).ending fun _ _ hc => hc.mono hj
  refine .eat (fun i hi => ?_) ?_
  · simp only [if_true, map_eq_pure_bind, bind_assoc, pure_bind]
    refine (relates_signatureRest (by omega) hs).bind fun a a' ha c c' h hc => ?_
    exact hrest (.some ha) c c' h ⟨by omega, fun _ => List.Subset.refl c.expected⟩
  · exact hrest .none

theorem relates_check :
    p.Relates (Open k) (Reader.check e) (Reader.check e) Eq fun b c => c.Open k ∧ c.accepts e = b := by
  intro c c' h hc
  rw [run_check, run_check]
  obtain ⟨t, ts, ha⟩ := List.exists_cons_of_ne_nil hc.1
  obtain ⟨t', ts', ha', ht, -⟩ := h.cons ha
  have haccepts : c.accepts e = c'.accepts e := by simp [Cursor.accepts, ha, ha', ht.kind]
  refine .ok haccepts (h.note e) ⟨?_, accepts_note e e c⟩
  rw [Open, ahead_note]
  exact hc

theorem Relates.check {f f' : Bool → Reader β} (ht : p.Relates (Open k) (f true) (f' true) W R)
    (hf : p.Relates (Open k) (f false) (f' false) W R) :
    p.Relates (Open k) (Reader.check e >>= f) (Reader.check e >>= f') W R := by
  refine relates_check.bind ?_
  rintro b _ rfl
  cases b with
  | true => exact ht.of_imp fun c hc => hc.1
  | false => exact hf.of_imp fun c hc => hc.1

theorem run_valueDeclaration_name {c : Cursor} {t : Token} {w : String} (hc : c.ahead = [t])
    (hw : t.kind.lowercaseName? = some w) :
    valueDeclaration.run c =
      .error ⟨.unexpectedEnd [.symbol .colon, .symbol .equals], t.span⟩ ⟨[], [], t.span⟩ := by
  have hname : lowercaseName.run c = .ok (w, t.span) ⟨[], [], t.span⟩ := by
    rw [lowercaseName, run_take, hc]
    simp only [hw]
  rw [valueDeclaration, run_bind_of_ok hname]
  rfl

def declaredValue : Reader Declared := do
  if ← Reader.check .lowercaseName then return ← valueDeclaration
  note .declaration
  unexpected

theorem relates_declaredValue (hk : k ≤ p.fresh) :
    p.Relates (Open k) declaredValue declaredValue (Declared.Alike p.same) fun _ => Ended k := by
  refine .check ?_ ?_
  · exact (relates_valueDeclaration hk).of_imp fun c hc => hc.bound []
  · refine Relates.of_imp ?_ fun c hc => hc.bound []
    exact relates_note.bind fun _ _ _ => relates_unexpected

theorem lowercaseName?_of_fixity {kind : TokenKind} (h : kind.keyword? = some .fixity) :
    kind.lowercaseName? = some "infix" := by
  cases kind with
  | word text =>
      obtain rfl := Keyword.text_of_ofText? h
      decide
  | _ => cases h

def fixityOrValue : Reader Declared := do
  if ← associativitySecond then return ← fixityDeclaration
  declaredValue

theorem run_fixityOrValue (c : Cursor) :
    fixityOrValue.run c =
      if c.ahead[1]?.any fun t => t.kind.associativity?.isSome then fixityDeclaration.run c
      else declaredValue.run c := by
  have hsecond : associativitySecond.run c =
      .ok (c.ahead[1]?.any fun t => t.kind.associativity?.isSome) c := rfl
  rw [fixityOrValue, run_bind_of_ok hsecond]
  cases c.ahead[1]?.any fun t => t.kind.associativity?.isSome with
  | true => rfl
  | false => rfl

theorem relates_fixityOrValue (hk : k ≤ p.fresh) :
    p.Relates (fun c => c.Open k ∧ c.accepts (.keyword .fixity) = true) fixityOrValue fixityOrValue
      (Declared.Alike p.same) fun _ => Ended k := by
  rintro c c' h ⟨hc, hfixity⟩
  have hfix := relates_fixityDeclaration c c' h (hc.bound [])
  have hvalue := relates_declaredValue hk c c' h hc
  obtain ⟨t, ts, ha⟩ := List.exists_cons_of_ne_nil hc.1
  obtain ⟨t', ts', ha', ht, hts⟩ := h.cons ha
  rw [run_fixityOrValue, run_fixityOrValue]
  cases hts with
  | cons hu _ =>
      simp only [ha, ha', List.getElem?_cons_succ, List.getElem?_cons_zero, Option.any_some, hu.kind]
      split
      · exact hfix
      · exact hvalue
  | done =>
      have hleft : ¬ c.ahead[1]?.any (fun t => t.kind.associativity?.isSome) = true := by simp [ha]
      rw [if_neg hleft]
      split
      · rename_i hsecond
        rw [ha', List.getElem?_cons_succ, ← List.head?_eq_getElem?] at hsecond
        obtain ⟨u, hu, hassociativity⟩ := (Option.any_eq_true _ _).1 hsecond
        have hname : t.kind.lowercaseName? = some "infix" :=
          lowercaseName?_of_fixity (by simpa [Cursor.accepts, ha, Expected.accepts] using hfixity)
        have hchecked : (Reader.check .lowercaseName).run c = .ok true (c.note .lowercaseName) := by
          rw [run_check]
          simp [Cursor.accepts, ha, Expected.accepts, hname]
        have herror : declaredValue.run c =
            .error ⟨.unexpectedEnd [.symbol .colon, .symbol .equals], t.span⟩ ⟨[], [], t.span⟩ := by
          rw [declaredValue, run_bind_of_ok hchecked]
          exact run_valueDeclaration_name (by rw [ahead_note, ha]) hname
        rw [herror]
        refine .overrun hu ?_ _
        simp [SyntaxCause.isContinuedBy, hassociativity]
      · exact hvalue

theorem relates_declared (hk : k ≤ p.fresh) :
    p.Relates (Open k) declared declared (Declared.Alike p.same) fun _ => Ended k := by
  refine .check ?_ (.check ?_ ?_)
  · exact (relates_typeDeclaration hk).of_imp fun c hc => hc.bound []
  · exact (relates_portDeclaration hk).of_imp fun c hc => hc.bound []
  · refine relates_check.bind ?_
    rintro b _ rfl
    cases b with
    | true => exact relates_fixityOrValue hk
    | false => exact (relates_declaredValue hk).of_imp fun c hc => hc.1

theorem relates_declaration (hk : k ≤ p.fresh) :
    p.Relates (Open k) declaration declaration (Declaration.Alike p.same) fun _ => Ended k := by
  intro c c' h hc
  obtain ⟨t, ts, ha⟩ := List.exists_cons_of_ne_nil hc.1
  obtain ⟨t', ts', ha', ht, -⟩ := h.cons ha
  have hpeek : peek.run c = .ok (some t) c := by rw [run_peek, ha, List.head?_cons]
  have hpeek' : peek.run c' = .ok (some t') c' := by rw [run_peek, ha', List.head?_cons]
  rw [declaration, run_bind_of_ok hpeek, run_bind_of_ok hpeek']
  simp only [ht.starts, ht.kind]
  split
  · have hspan : nextSpan.run c = .ok t.span c := by simp [ha]
    have hspan' : nextSpan.run c' = .ok t'.span c' := by simp [ha']
    rw [run_bind_of_ok hspan, run_bind_of_ok hspan']
    refine (relates_declared hk).bind (fun d d' hd => ?_) c c' h hc
    refine .lastSpan (fun c hc => Nat.lt_of_lt_of_le hc.length hk) fun s s' hs => .pure ?_ fun c hc => hc
    exact .mk hd (p.keepsHulls _ _ _ _ ht.span hs)
  · exact Relates.never (relates_fail ht.span) c c' h hc

end

def itself (k : Nat) (hk : 0 < k) : Pairing where
  same := Eq
  keepsHulls := by
    rintro a _ b _ rfl rfl
    rfl
  rest := []
  starts := by simp
  fresh := k
  fresh_pos := hk

theorem beside_itself (hk : 0 < k) (c : Cursor) : (itself k hk).Beside c c := by
  constructor
  · generalize c.ahead = ts
    induction ts with
    | nil => exact .done
    | cons t ts ih => exact .cons ⟨rfl, rfl, rfl⟩ ih
  · exact fun _ => ⟨rfl, rfl⟩

theorem ended_of_declaration {c d : Cursor} {a : Declaration} (hc : c.Open k)
    (h : declaration.run c = .ok a d) : d.Ended k := by
  have hk : 0 < k := Nat.lt_of_lt_of_le (List.length_pos_iff.2 hc.1) hc.2
  have hrun := relates_declaration (p := itself k hk) (Nat.le_refl k) c c (beside_itself hk c) hc
  rw [h] at hrun
  cases hrun with
  | ok _ _ hd => exact hd

end

end Pairing

end ElmTypes
