import ElmTypes.Proofs.Guarded.Agreement
import ElmTypes.Proofs.Grammar.File
import ElmTypes.Proofs.Grammar.Follow

namespace ElmTypes

namespace Guarded.Parser

variable {α : Type} {tokens : List Token} {c : Cursor} {n : Nat}

theorem run_bumpWhileAt {p : Piece → Bool} {q : Token → Bool} (hq : ∀ t, p (.ofToken t) = q t)
    (hc : c.ahead <:+ tokens) (hn : c.ahead.length < n) :
    (bumpWhileAt p n).run (place tokens c) = .ok () (place tokens (c.advanceWhile q)) := by
  induction n generalizing c with
  | zero => exact absurd hn (Nat.not_lt_zero _)
  | succ n ih =>
      rw [bumpWhileAt, EStateM.run_bind, run_peekAt hc, ← List.head?_eq_getElem?]
      simp only
      cases h : c.ahead.head? with
      | none =>
          rw [Cursor.advanceWhile_eq_self (by rw [h]; rfl)]
          rfl
      | some t =>
          simp only [Option.map_some, Option.any_some, hq]
          cases ht : q t with
          | false =>
              rw [Cursor.advanceWhile_eq_self (by rw [h, Option.any_some, ht])]
              rfl
          | true =>
              obtain ⟨ts, hts⟩ := List.head?_eq_some_iff.1 h
              have hlt : c.advance.ahead.length < n := by
                rw [hts, List.length_cons] at hn
                rw [Cursor.ahead_advance, hts, List.tail_cons]
                omega
              rw [if_pos rfl, EStateM.run_bind, run_bump hc]
              simp only
              rw [ih ((suffix_advance c).trans hc) hlt, Cursor.advanceWhile_advance h ht]

theorem suffix_advanceWhile (q : Token → Bool) (c : Cursor) :
    (c.advanceWhile q).ahead <:+ c.ahead := by
  rw [Cursor.ahead_advanceWhile]
  exact List.dropWhile_suffix _

theorem mirrors_bumpWhile {p : Piece → Bool} {q : Token → Bool} (hq : ∀ t, p (.ofToken t) = q t) :
    Mirrors n (bounded (bumpWhileAt p)) (Reader.advanceWhile q) := by
  intro tokens c hc _
  have h : Agrees tokens c (bounded (bumpWhileAt p))
      (Reader.bounded fun _ => Reader.advanceWhile q) :=
    agrees_bounded hc (agrees_of_run_eq_ok (Reader.run_advanceWhile q c)
      (run_bumpWhileAt hq hc (Nat.lt_succ_self _)) (suffix_advanceWhile q c))
  exact h

theorem mirrors_skipToDeclaration :
    Mirrors n skipToDeclaration (Reader.advanceWhile fun t => !t.startsDeclaration) :=
  mirrors_bumpWhile fun _ => rfl

section

variable {r : Reader α} {more : Reader Bool} {R : List Token → α → Prop}

theorem advances_of_reads (h : Reader.Reads r R) (hR : ∀ ts a, R ts a → ts ≠ []) : Advances r := by
  intro c a d hrun
  obtain ⟨ts, hts, ha⟩ := h.of_run_eq_ok hrun
  have hpos := List.length_pos_iff.2 (hR ts a ha)
  rw [hts.ahead, List.length_append]
  omega

theorem length_le_of_run_eq_ok {a : α} {d : Cursor} (h : Reader.Reads r R)
    (hr : r.run c = .ok a d) :
    d.ahead.length ≤ c.ahead.length := by
  obtain ⟨ts, hts, -⟩ := h.of_run_eq_ok hr
  rw [hts.ahead, List.length_append]
  omega

theorem advances_expect (e : Expected) : Advances (Reader.expect e) := by
  refine advances_of_reads (Reader.reads_expect e) ?_
  rintro _ _ ⟨t, rfl, -, -⟩
  exact List.cons_ne_nil t []

theorem advances_take (e : Expected) (find : TokenKind → Option α) :
    Advances (Reader.take e find) := by
  refine advances_of_reads (Reader.reads_take e find) ?_
  rintro _ _ ⟨t, rfl, -, -⟩
  exact List.cons_ne_nil t []

theorem Advances.bind_pure {β : Type} (g : α → β) (h : Advances r) :
    Advances (do let a ← r; return g a) := by
  intro c b d hrun
  rw [EStateM.run_bind] at hrun
  cases hr : r.run c with
  | ok a e =>
      rw [hr] at hrun
      cases hrun
      exact h c a d hr
  | error e d =>
      rw [hr] at hrun
      cases hrun

theorem rounds_of_advances (hm : Reader.Peeks more) (hr : Advances r) : Rounds more r := by
  intro c d e a hmore hitem
  have hle := length_le_of_run_eq_ok hm.reads hmore
  have hlt := hr d a e hitem
  omega

theorem rounds_eat (e : Expected) (h : Reader.Reads r R) : Rounds (Reader.eat e) r := by
  intro c d d' a hmore hitem
  have hle := length_le_of_run_eq_ok h hitem
  obtain ⟨ts, hts, ⟨-, t, rfl, -⟩ | ⟨hfalse, -⟩⟩ := (Reader.reads_eat e).of_run_eq_ok hmore
  · rw [hts.ahead, List.length_append, List.length_singleton]
    omega
  · cases hfalse

theorem mirrors_separated {s : Symbol} {item : Parser α} (hi : Mirrors n item r)
    (h : Reader.Reads r R) : Mirrors n (separated s item) (Reader.separated s r) := by
  apply hi.bind
  intro a
  apply (mirrors_repeated (mirrors_eat _) hi (rounds_eat _ h)).bind
  intro as
  exact .pure _

end

theorem Mirrors.grow {f : Span → Parser α} {r : Reader α} {a b : Span}
    (h : Mirrors n (f (a.hull b)) r) : Mirrors n (grow a b >>= f) r := by
  rwa [grow_eq, pure_bind]

theorem growAll_eq (s : Span) (types : List TypeExpr) :
    growAll s types = pure (Reader.hullAll s types) := by
  induction types generalizing s with
  | nil => rfl
  | cons t ts ih =>
      rw [growAll, grow_eq, pure_bind, ih]
      rfl

section

variable {inner : Parser TypeExpr} {inner' : Reader TypeExpr}

theorem mirrors_recordField (h : Mirrors n inner inner') :
    Mirrors n (recordField inner) (Reader.recordField inner') := by
  apply mirrors_lowercaseName.bind
  rintro ⟨name, span⟩
  apply (mirrors_expect _).bind
  intro _
  apply h.bind
  intro type
  exact .grow (.pure _)

theorem mirrors_recordBase? : Mirrors n recordBase? Reader.recordBase? := by
  apply (mirrors_check _).bind
  intro named
  apply Mirrors.peekSecond
  intro second
  have hsecond : (second.map Piece.ofToken).any (·.kind == some (.symbol .bar)) =
      second.any (·.kind == .symbol .bar) := by
    cases second <;> rfl
  rw [hsecond]
  apply Mirrors.ite
  · apply mirrors_lowercaseName.bind
    rintro ⟨base, span⟩
    apply (mirrors_expect _).bind
    intro _
    exact .pure _
  · exact .pure none

theorem mirrors_recordType (h : Mirrors n inner inner')
    (hr : Reader.Reads inner' fun ts a => Derives ts (.type a)) :
    Mirrors (n + 1) (recordType inner) (Reader.recordType inner') := by
  apply (mirrors_expect _).bind_of_advances (advances_expect _)
  intro start
  apply (mirrors_eat _).bind
  intro closed
  cases closed with
  | true =>
      apply mirrors_lastSpan.bind
      intro stop
      exact .grow (.pure _)
  | false =>
      apply mirrors_recordBase?.bind
      intro base
      apply (mirrors_separated (mirrors_recordField h) (Reader.reads_recordField hr)).bind
      intro fields
      apply (mirrors_expect _).bind
      intro stop
      apply Mirrors.grow
      cases base with
      | some base => exact .pure _
      | none => exact .pure _

theorem mirrors_parenthesized (h : Mirrors n inner inner')
    (hr : Reader.Reads inner' fun ts a => Derives ts (.type a)) :
    Mirrors (n + 1) (parenthesized inner) (Reader.parenthesized inner') := by
  apply (mirrors_expect _).bind_of_advances (advances_expect _)
  intro start
  apply (mirrors_eat _).bind
  intro closed
  cases closed with
  | true =>
      apply mirrors_lastSpan.bind
      intro stop
      exact .grow (.pure _)
  | false =>
      apply h.bind
      intro first
      apply (mirrors_checkInside _).bind
      intro more
      cases more with
      | true =>
          apply (mirrors_repeated (mirrors_eat _) h (rounds_eat _ hr)).bind
          intro others
          apply (mirrors_expect _).bind
          intro stop
          exact .grow (.pure _)
      | false =>
          apply (mirrors_expect _).bind
          intro stop
          exact .grow (.pure _)

theorem mirrors_atom (h : Mirrors n inner inner')
    (hr : Reader.Reads inner' fun ts a => Derives ts (.type a)) :
    Mirrors (n + 1) (atom inner) (Reader.atom inner') := by
  apply (mirrors_checkInside _).bind
  intro b
  cases b with
  | true =>
      apply mirrors_lowercaseName.bind
      intro _
      exact .pure _
  | false =>
  apply (mirrors_checkInside _).bind
  intro b
  cases b with
  | true =>
      apply mirrors_capitalisedName.bind
      intro _
      exact .pure _
  | false =>
  apply (mirrors_checkInside _).bind
  intro b
  cases b with
  | true => exact mirrors_parenthesized h hr
  | false =>
  apply (mirrors_checkInside _).bind
  intro b
  cases b with
  | true => exact mirrors_recordType h hr
  | false =>
      apply (mirrors_note _).bind
      intro _
      exact mirrors_unexpected

theorem mirrors_atAtom : Mirrors n atAtom Reader.atAtom := by
  apply (mirrors_checkInside _).bind
  intro b
  cases b with
  | true => exact .pure true
  | false =>
  apply (mirrors_checkInside _).bind
  intro b
  cases b with
  | true => exact .pure true
  | false =>
  apply (mirrors_checkInside _).bind
  intro b
  cases b with
  | true => exact .pure true
  | false => exact mirrors_checkInside _

theorem mirrors_typeArguments (h : Mirrors n inner inner')
    (hr : Reader.Reads inner' fun ts a => Derives ts (.type a)) :
    Mirrors (n + 1) (typeArguments inner) (Reader.typeArguments inner') := by
  apply mirrors_repeated mirrors_atAtom (mirrors_atom h hr)
  apply rounds_of_advances Reader.peeks_atAtom
  exact advances_of_reads (Reader.reads_atom hr) fun ts a ha => ha.begins_atom.ne_nil

theorem mirrors_application (h : Mirrors n inner inner')
    (hr : Reader.Reads inner' fun ts a => Derives ts (.type a)) :
    Mirrors (n + 1) (application inner) (Reader.application inner') := by
  apply (mirrors_checkInside _).bind
  intro b
  cases b with
  | true =>
      apply mirrors_capitalisedName.bind
      rintro ⟨name, span⟩
      apply (mirrors_typeArguments h hr).bind
      intro arguments
      simp only [growAll_eq, pure_bind]
      exact .pure _
  | false => exact mirrors_atom h hr

theorem mirrors_arrow (h : Mirrors n inner inner')
    (hr : Reader.Reads inner' fun ts a => Derives ts (.type a)) :
    Mirrors (n + 1) (arrow inner) (Reader.arrow inner') := by
  have hdomain : Advances (Reader.application inner') :=
    advances_of_reads (Reader.reads_application hr) fun ts a ha => ha.begins_application.ne_nil
  apply (mirrors_application h hr).bind_of_advances hdomain
  intro domain
  apply (mirrors_eat _).bind
  intro b
  cases b with
  | true =>
      apply h.bind
      intro codomain
      exact .grow (.pure _)
  | false => exact .pure domain

end

theorem mirrors_typeExprAt (n : Nat) : Mirrors n (typeExprAt n) (Reader.typeExprAt n) := by
  induction n with
  | zero => exact fun _ _ _ h => absurd h (Nat.not_lt_zero _)
  | succ n ih => exact mirrors_arrow ih (Reader.reads_typeExprAt n)

theorem mirrors_typeExpr : Mirrors n typeExpr Reader.typeExpr := mirrors_bounded mirrors_typeExprAt

theorem mirrors_typeParameters : Mirrors n typeParameters Reader.typeParameters := by
  apply mirrors_repeated (mirrors_checkInside _)
  · apply mirrors_lowercaseName.bind
    rintro ⟨name, span⟩
    exact .pure name
  · apply rounds_of_advances (Reader.peeks_checkInside _)
    exact (advances_take _ _).bind_pure Prod.fst

theorem mirrors_variant : Mirrors n variant Reader.variant := by
  apply mirrors_declaredName.bind
  rintro ⟨name, span⟩
  have harguments : Mirrors n (typeArguments typeExpr) (Reader.typeArguments Reader.typeExpr) :=
    (mirrors_typeArguments mirrors_typeExpr Reader.reads_typeExpr).mono (Nat.le_succ n)
  apply harguments.bind
  intro arguments
  simp only [growAll_eq, pure_bind]
  exact .pure _

theorem mirrors_aliasRest : Mirrors n aliasRest Reader.aliasRest := by
  apply mirrors_declaredName.bind
  rintro ⟨name, span⟩
  apply mirrors_typeParameters.bind
  intro parameters
  apply (mirrors_expect _).bind
  intro _
  apply mirrors_typeExpr.bind
  intro type
  apply mirrors_declarationEnd.bind
  intro _
  exact .pure _

theorem mirrors_customRest : Mirrors n customRest Reader.customRest := by
  apply mirrors_declaredName.bind
  rintro ⟨name, span⟩
  apply mirrors_typeParameters.bind
  intro parameters
  apply (mirrors_eat _).bind
  intro b
  cases b with
  | true =>
      apply (mirrors_separated mirrors_variant Reader.reads_variant).bind
      intro variants
      apply mirrors_declarationEnd.bind
      intro _
      exact .pure _
  | false =>
      apply mirrors_declarationEnd.bind
      intro _
      exact .pure _

theorem mirrors_typeDeclaration : Mirrors n typeDeclaration Reader.typeDeclaration := by
  apply (mirrors_expect _).bind
  intro _
  apply (mirrors_eat _).bind
  intro b
  cases b with
  | true => exact mirrors_aliasRest
  | false => exact mirrors_customRest

theorem mirrors_portDeclaration : Mirrors n portDeclaration Reader.portDeclaration := by
  apply (mirrors_expect _).bind
  intro _
  apply mirrors_lowercaseName.bind
  rintro ⟨name, span⟩
  apply (mirrors_expect _).bind
  intro _
  apply mirrors_typeExpr.bind
  intro type
  apply mirrors_declarationEnd.bind
  intro _
  exact .pure _

theorem mirrors_parenthesizedOperator :
    Mirrors n parenthesizedOperator Reader.parenthesizedOperator := by
  apply (mirrors_expect _).bind
  intro _
  apply Mirrors.peek
  intro t
  have hoperator : ((t.map Piece.ofToken).bind fun p => p.kind.bind TokenKind.operator?) =
      t.bind (·.kind.operator?) := by
    cases t <;> rfl
  rw [hoperator]
  cases t.bind (·.kind.operator?) with
  | some operator =>
      apply Mirrors.advance
      intro _
      apply (mirrors_expect _).bind
      intro _
      exact .pure operator
  | none =>
      apply (mirrors_note _).bind
      intro _
      exact mirrors_unexpected

theorem mirrors_signatureRest (name : String) (span : Span) :
    Mirrors n (signatureRest name span) (Reader.signatureRest name span) := by
  apply mirrors_typeExpr.bind
  intro type
  apply mirrors_declarationEnd.bind
  intro _
  apply Mirrors.peek
  intro next
  have hnext : (next.map Piece.ofToken).any (·.kind == some (.word name)) =
      (next.map Token.kind == some (.word name)) := by
    cases next <;> rfl
  have hshown : (next.map Piece.ofToken).map Piece.shown = next.map Token.kind := by
    cases next <;> rfl
  rw [hnext, hshown]
  apply Mirrors.ite
  · apply Mirrors.advance
    intro _
    exact .pure type
  · exact mirrors_fail _ _

theorem mirrors_patterns : Mirrors n patterns Reader.patterns := by
  apply (mirrors_bumpWhile fun _ => rfl).bind
  intro _
  apply mirrors_atBoundary.bind
  intro b
  cases b with
  | true => exact mirrors_unexpected.bind fun _ => .advance fun _ => .pure _
  | false => exact .advance fun _ => .pure _

theorem agrees_associativity {t : Token} (hc : c.ahead <:+ tokens) (ht : c.ahead.head? = some t)
    (h : t.kind.associativity?.isSome = true) :
    Agrees tokens c (take .lowercaseName unwrapAssociativity)
      (Reader.take .lowercaseName TokenKind.associativity?) := by
  obtain ⟨a, ha⟩ := Option.isSome_iff_exists.1 h
  obtain ⟨ts, hts⟩ := List.head?_eq_some_iff.1 ht
  have hrun := Reader.run_take .lowercaseName TokenKind.associativity? c
  have hpiece := run_expectPiece hc .lowercaseName
  -- the word has been looked at, so nothing that is unwrapped is missing
  simp only [hts, ha] at hrun
  simp only [hts, TokenKind.accepts_of_associativity? ha, if_true] at hpiece
  refine agrees_of_run_eq_ok hrun ?_ ?_
  · rw [take, EStateM.run_bind, hpiece]
    simp only [unwrapAssociativity, Piece.ofToken, Option.bind_some, ha]
    rfl
  · rw [hts]
    exact List.suffix_cons t ts

theorem agrees_fixityDeclaration (hc : c.ahead <:+ tokens)
    (h : (c.ahead[1]?.any fun t => t.kind.associativity?.isSome) = true) :
    Agrees tokens c fixityDeclaration Reader.fixityDeclaration := by
  refine ((mirrors_expect _).agrees hc).bind fun start d hstart hd => ?_
  obtain ⟨_, hts, t, rfl, -⟩ := (Reader.reads_expect _).of_run_eq_ok hstart
  rw [hts.ahead, List.singleton_append, List.getElem?_cons_succ, ← List.head?_eq_getElem?] at h
  cases hhead : d.ahead.head? with
  | none => simp [hhead] at h
  | some u =>
      rw [hhead, Option.any_some] at h
      have hdc := hd.trans hc
      refine (agrees_associativity hdc hhead h).bind fun p e _ he => ?_
      refine Mirrors.agrees ?_ (he.trans hdc)
      apply mirrors_integer.bind
      intro precedence
      apply mirrors_parenthesizedOperator.bind
      intro operator
      apply (mirrors_expect _).bind
      intro _
      apply mirrors_lowercaseName.bind
      intro function
      apply mirrors_declarationEnd.bind
      intro _
      exact .pure _

theorem mirrors_valueDeclaration : Mirrors n valueDeclaration Reader.valueDeclaration := by
  apply mirrors_lowercaseName.bind
  rintro ⟨name, span⟩
  have hbody (signature : Option TypeExpr) : Mirrors n (do
      if ← atBoundary then
        note .declaration
        fail ⟨.missingBody name, ← lastSpan⟩
      skipToDeclaration
      return .value name signature) (Reader.definition name signature) := by
    apply mirrors_atBoundary.bind
    intro b
    cases b with
    | true =>
        apply (mirrors_note _).bind
        intro _
        apply mirrors_lastSpan.bind
        intro last
        exact (mirrors_fail _ _).bind fun _ => mirrors_skipToDeclaration.bind fun _ => .pure _
    | false => exact mirrors_skipToDeclaration.bind fun _ => .pure _
  have hrest (signature : Option TypeExpr) : Mirrors n (do
      unless ← eat (.symbol .equals) do patterns
      if ← atBoundary then
        note .declaration
        fail ⟨.missingBody name, ← lastSpan⟩
      skipToDeclaration
      return .value name signature) (Reader.definitionRest name signature) := by
    apply (mirrors_eat _).bind
    intro b
    cases b with
    | true => exact hbody signature
    | false => exact mirrors_patterns.bind fun _ => hbody signature
  apply (mirrors_eat _).bind
  intro b
  cases b with
  | true =>
      simp only [if_true, map_eq_pure_bind, bind_assoc]
      exact (mirrors_signatureRest name span).bind fun type => hrest (some type)
  | false => exact hrest none

theorem mirrors_declared : Mirrors n declared Reader.declared := by
  apply (mirrors_check _).bind
  intro b
  cases b with
  | true => exact mirrors_typeDeclaration
  | false =>
  apply (mirrors_check _).bind
  intro b
  cases b with
  | true => exact mirrors_portDeclaration
  | false =>
  have hvalue : Mirrors n (do
      if ← check .lowercaseName then return ← valueDeclaration
      note .declaration
      unexpected) (do
      if ← Reader.check .lowercaseName then return ← Reader.valueDeclaration
      Reader.note .declaration
      Reader.unexpected) := by
    apply (mirrors_check _).bind
    intro b
    cases b with
    | true => exact mirrors_valueDeclaration
    | false => exact (mirrors_note _).bind fun _ => mirrors_unexpected
  apply (mirrors_check _).bind
  intro b
  cases b with
  | false => exact hvalue
  | true =>
      intro tokens c hc hn
      have hsecond : associativitySecond.run (place tokens c) =
          .ok (c.ahead[1]?.any fun t => t.kind.associativity?.isSome) (place tokens c) := by
        rw [associativitySecond, EStateM.run_bind, run_peekAt hc]
        cases c.ahead[1]? <;> rfl
      refine .step rfl hsecond (List.suffix_refl _) ?_
      cases h : c.ahead[1]?.any fun t => t.kind.associativity?.isSome with
      | true => exact agrees_fixityDeclaration hc h
      | false => exact hvalue tokens c hc hn

theorem mirrors_declaration : Mirrors n declaration Reader.declaration := by
  have hrest : Mirrors n (do
      let start ← nextSpan
      let d ← declared
      let span ← grow start (← lastSpan)
      return (⟨d, span⟩ : Declaration)) (do
      let start ← Reader.nextSpan
      let d ← Reader.declared
      return ⟨d, start.hull (← Reader.lastSpan)⟩) := by
    apply mirrors_nextSpan.bind
    intro start
    apply mirrors_declared.bind
    intro d
    apply mirrors_lastSpan.bind
    intro stop
    exact .grow (.pure _)
  apply Mirrors.peek
  intro t
  cases t with
  | none => exact hrest
  | some t =>
      have hp : (Piece.ofToken t).startsDeclaration = t.startsDeclaration := rfl
      simp only [Option.map_some, hp]
      cases t.startsDeclaration with
      | true => exact hrest
      | false => exact (mirrors_fail _ _).bind fun _ => hrest

end Guarded.Parser

end ElmTypes
