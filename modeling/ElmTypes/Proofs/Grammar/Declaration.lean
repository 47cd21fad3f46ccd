import Mathlib.Data.List.Forall2
import ElmTypes.Grammar.Declaration
import ElmTypes.Proofs.Grammar.Derivation

namespace ElmTypes

open Reader

def DerivesParameters (ts : List Token) (parameters : List String) : Prop :=
  List.Forall₂ (fun t p => t.kind.lowercaseName? = some p) ts parameters

inductive DerivesVariant : List Token → Variant → Prop where
  | mk {t : Token} {ts : List Token} {name : String} {as : List TypeExpr} (ht : Declares t name)
      (has : Derives ts (.arguments as)) :
      DerivesVariant (t :: ts) ⟨name, as, hullAll t.span as⟩

inductive DerivesVariants : List Token → List Variant → Prop where
  | nil : DerivesVariants [] []
  | cons {t : Token} {ts us : List Token} {v : Variant} {vs : List Variant}
      (ht : t.kind = .symbol .bar) (hv : DerivesVariant ts v) (hvs : DerivesVariants us vs) :
      DerivesVariants (t :: (ts ++ us)) (v :: vs)

inductive DerivesDeclared : List Token → Declared → Prop where
  | typeAlias {k l n e : Token} {ps ts : List Token} {name : String} {parameters : List String}
      {a : TypeExpr} (hk : k.kind.keyword? = some .type) (hl : l.kind.keyword? = some .alias)
      (hn : Declares n name) (hps : DerivesParameters ps parameters)
      (he : e.kind = .symbol .equals) (ha : Derives ts (.type a)) :
      DerivesDeclared (k :: l :: n :: (ps ++ e :: ts)) (.alias name parameters a)
  | emptyCustom {k n : Token} {ps : List Token} {name : String} {parameters : List String}
      (hk : k.kind.keyword? = some .type) (hn : Declares n name)
      (hps : DerivesParameters ps parameters) :
      DerivesDeclared (k :: n :: ps) (.custom name parameters [])
  | custom {k n e : Token} {ps ts us : List Token} {name : String} {parameters : List String}
      {v : Variant} {vs : List Variant} (hk : k.kind.keyword? = some .type) (hn : Declares n name)
      (hps : DerivesParameters ps parameters) (he : e.kind = .symbol .equals)
      (hv : DerivesVariant ts v) (hvs : DerivesVariants us vs) :
      DerivesDeclared (k :: n :: (ps ++ e :: (ts ++ us))) (.custom name parameters (v :: vs))
  | value {n : Token} {ts : List Token} {name : String} {signature : Option TypeExpr}
      (hn : n.kind.lowercaseName? = some name)
      (hs : ∀ a ∈ signature, ∃ us, us <:+: ts ∧ Derives us (.type a)) :
      DerivesDeclared (n :: ts) (.value name signature)
  | port {k n t : Token} {ts : List Token} {name : String} {a : TypeExpr}
      (hk : k.kind.keyword? = some .port) (hn : n.kind.lowercaseName? = some name)
      (ht : t.kind = .symbol .colon) (ha : Derives ts (.type a)) :
      DerivesDeclared (k :: n :: t :: ts) (.port name a)
  | fixity {k o : Token} {ts : List Token} {associativity : Associativity} {precedence : Nat}
      {operator function : String} (hk : k.kind.keyword? = some .fixity) (ho : o ∈ ts)
      (hop : o.kind.operator? = some operator) :
      DerivesDeclared (k :: ts) (.fixity associativity precedence operator function)

theorem DerivesDeclared.ne_nil {ts : List Token} {d : Declared} (h : DerivesDeclared ts d) :
    ts ≠ [] := by
  cases h <;> simp

structure DerivesDeclaration (ts : List Token) (d : Declaration) : Prop where
  declared : DerivesDeclared ts d.declared
  starts : ∀ t ∈ ts.head?, t.startsDeclaration = true
  span : ∀ t ∈ ts.head?, d.span = t.span.hull (lastSpanOf t.span ts)

theorem Expected.accepts_keyword_iff {w : Keyword} {k : TokenKind} :
    (keyword w).accepts k = true ↔ k.keyword? = some w := by
  cases k <;> simp [accepts]

theorem TokenKind.accepts_of_associativity? {kind : TokenKind} {a : Associativity}
    (h : kind.associativity? = some a) : Expected.lowercaseName.accepts kind = true := by
  unfold associativity? at h
  split at h
  · decide
  · decide
  · decide
  · cases h

namespace Reader

theorem reads_typeParameters : Reads typeParameters DerivesParameters := by
  refine reads_repeated (M := fun ts => ts = [])
    (R := fun ts p => ∃ t, ts = [t] ∧ t.kind.lowercaseName? = some p)
    (peeks_checkInside _).reads ?_ List.Forall₂.nil ?_
  · refine .of_after fun c => reads_lowercaseName.bind ?_
    rintro _ ⟨name, s⟩ ⟨t, rfl, ht, rfl⟩
    exact .pure ⟨t, rfl, ht⟩
  · rintro _ _ ws p ps rfl ⟨t, rfl, ht⟩ hps
    exact List.Forall₂.cons ht hps

theorem reads_variant : Reads variant DerivesVariant := by
  refine .of_after fun c => reads_declaredName.bind ?_
  rintro _ ⟨name, s⟩ ⟨t, rfl, ht, rfl⟩
  exact (reads_typeArguments reads_typeExpr).bind fun ts as has => .pure (.mk ht has)

theorem After.declarationEnd {c : Cursor} {ts : List Token} {f : Unit → Reader α}
    {Q : List Token → α → Prop} (h : After c ts (f ()) Q) :
    After c ts (declarationEnd >>= f) Q := by
  refine After.bind (P := fun us _ => us = ts) ?_ ?_
  · refine peeks_atBoundary.bind fun b => ?_
    cases b with
    | true => exact .pure rfl
    | false => exact .unexpected
  · rintro _ ⟨⟩ rfl
    exact h

theorem reads_aliasRest :
    Reads aliasRest fun ts d => ∀ k l : Token, k.kind.keyword? = some .type →
      l.kind.keyword? = some .alias → DerivesDeclared (k :: l :: ts) d := by
  refine .of_after fun c => reads_declaredName.bind ?_
  rintro _ ⟨name, s⟩ ⟨n, rfl, hn, rfl⟩
  refine reads_typeParameters.bind fun ps parameters hps => (reads_expect _).bind ?_
  rintro _ _ ⟨e, rfl, he, rfl⟩
  refine reads_typeExpr.bind fun ts a ha => .declarationEnd (.pure ?_)
  intro k l hk hl
  simpa using DerivesDeclared.typeAlias hk hl hn hps (Expected.accepts_symbol_iff.1 he) ha

theorem reads_customRest :
    Reads customRest fun ts d => ∀ k : Token, k.kind.keyword? = some .type →
      DerivesDeclared (k :: ts) d := by
  refine .of_after fun c => reads_declaredName.bind ?_
  rintro _ ⟨name, s⟩ ⟨n, rfl, hn, rfl⟩
  refine reads_typeParameters.bind fun ps parameters hps => (reads_eat _).bind ?_
  have hvariants : Reads (separated .bar variant) fun ts vs =>
      ∃ us ws v vs', ts = us ++ ws ∧ vs = v :: vs' ∧ DerivesVariant us v ∧ DerivesVariants ws vs' :=
    reads_separated reads_variant .nil fun t us ws v vs ht hv hvs => .cons ht hv hvs
  rintro _ _ (⟨rfl, e, rfl, he⟩ | ⟨rfl, rfl⟩)
  · refine hvariants.bind ?_
    rintro _ _ ⟨us, ws, v, vs, rfl, rfl, hv, hvs⟩
    refine .declarationEnd (.pure fun k hk => ?_)
    simpa using DerivesDeclared.custom hk hn hps (Expected.accepts_symbol_iff.1 he) hv hvs
  · refine .declarationEnd (.pure fun k hk => ?_)
    simpa using DerivesDeclared.emptyCustom hk hn hps

theorem reads_typeDeclaration : Reads typeDeclaration DerivesDeclared := by
  refine .of_after fun c => (reads_expect _).bind ?_
  rintro _ _ ⟨k, rfl, hk, rfl⟩
  rw [Expected.accepts_keyword_iff] at hk
  refine (reads_eat _).bind ?_
  rintro _ _ (⟨rfl, l, rfl, hl⟩ | ⟨rfl, rfl⟩)
  · refine (reads_aliasRest.after c _).mono ?_
    rintro _ d ⟨ts, rfl, hd⟩
    exact hd k l hk (Expected.accepts_keyword_iff.1 hl)
  · refine (reads_customRest.after c _).mono ?_
    rintro _ d ⟨ts, rfl, hd⟩
    exact hd k hk

theorem reads_portDeclaration : Reads portDeclaration DerivesDeclared := by
  refine .of_after fun c => (reads_expect _).bind ?_
  rintro _ _ ⟨k, rfl, hk, rfl⟩
  refine reads_lowercaseName.bind ?_
  rintro _ ⟨name, s⟩ ⟨n, rfl, hn, rfl⟩
  refine (reads_expect _).bind ?_
  rintro _ _ ⟨t, rfl, ht, rfl⟩
  refine reads_typeExpr.bind fun ts a ha => .declarationEnd (.pure ?_)
  exact .port (Expected.accepts_keyword_iff.1 hk) hn (Expected.accepts_symbol_iff.1 ht) ha

theorem reads_parenthesizedOperator :
    Reads parenthesizedOperator fun ts operator =>
      ∃ t ∈ ts, t.kind.operator? = some operator := by
  refine .of_after fun c => (reads_expect _).bind ?_
  rintro _ _ ⟨l, rfl, -, rfl⟩
  refine .peek ?_
  split
  · rename_i operator ho
    obtain ⟨t, ht, hop⟩ := Option.bind_eq_some_iff.1 ho
    refine .advance ht ((reads_expect _).bind fun _ _ _ => .pure ⟨t, by simp, hop⟩)
  · exact (peeks_note _).bind fun _ => .unexpected

theorem reads_fixityDeclaration : Reads fixityDeclaration DerivesDeclared := by
  refine .of_after fun c => (reads_expect _).bind ?_
  rintro _ _ ⟨k, rfl, hk, rfl⟩
  refine (reads_take _ _).bind fun _ _ _ => (reads_take _ _).bind fun _ _ _ => ?_
  refine reads_parenthesizedOperator.bind fun os operator ho => (reads_expect _).bind fun _ _ _ => ?_
  refine reads_lowercaseName.bind fun _ _ _ => .declarationEnd (.pure ?_)
  obtain ⟨o, hmem, hop⟩ := ho
  exact .fixity (Expected.accepts_keyword_iff.1 hk) (by simp [hmem]) hop

theorem after_signatureRest {c : Cursor} {ts : List Token} {name : String} {span : Span}
    (hs : ∃ t ∈ ts, t.kind.lowercaseName? = some name ∧ t.span = span) :
    After c ts (signatureRest name span) fun us a =>
      ∃ vs ws, us = ts ++ (vs ++ ws) ∧ Derives vs (.type a) := by
  refine reads_typeExpr.bind fun vs a ha => .declarationEnd (.peek ?_)
  simp only
  split
  · refine reads_advance.bind fun ws _ _ => .pure ?_
    exact ⟨vs, ws, by simp, ha⟩
  · obtain ⟨t, ht, hn, rfl⟩ := hs
    refine .fail ⟨t, by simp [ht], rfl⟩ (.danglingSignature (by simp [ht]) hn ?_)
    intro k hk
    obtain ⟨u, hu, rfl⟩ := Option.map_eq_some_iff.1 hk
    exact ⟨u, List.mem_append_right _ (Option.mem_toList.2 hu), rfl⟩

theorem reads_patterns : Reads patterns fun _ _ => True := by
  refine .of_after fun c => (reads_advanceWhile _).bind fun ts _ _ => ?_
  refine peeks_atBoundary.bind fun b => ?_
  cases b with
  | true => exact After.bind (P := fun _ _ => False) .unexpected (by simp)
  | false => exact reads_advance.bind fun _ _ _ => .pure trivial

def definition (name : String) (signature : Option TypeExpr) : Reader Declared := do
  if ← atBoundary then
    note .declaration
    fail (.missingBody name) (← lastSpan)
  advanceWhile fun t => !t.startsDeclaration
  return .value name signature

def definitionRest (name : String) (signature : Option TypeExpr) : Reader Declared := do
  unless ← eat (.symbol .equals) do patterns
  definition name signature

section

variable {c : Cursor} {n : Token} {ts : List Token} {name : String} {signature : Option TypeExpr}

theorem after_definition (hn : n.kind.lowercaseName? = some name)
    (hs : ∀ a ∈ signature, ∃ us, us <:+: ts ∧ Derives us (.type a)) :
    After c (n :: ts) (definition name signature) DerivesDeclared := by
  refine peeks_atBoundary.bind fun b => ?_
  cases b with
  | true =>
      refine (peeks_note _).bind fun _ => .lastSpan ?_
      refine After.bind (P := fun _ _ => False) (.fail ?_ (.missingBody (by simp) hn)) (by simp)
      -- the name has been taken, so some token comes before the missing body
      obtain ⟨t, ht, hspan⟩ := lastSpanOf_mem (s := c.last) (List.cons_ne_nil n ts)
      exact ⟨t, List.mem_append_left _ ht, hspan⟩
  | false =>
      refine (reads_advanceWhile _).bind fun us _ _ => .pure (.value hn fun a ha => ?_)
      obtain ⟨vs, hvs, hd⟩ := hs a ha
      exact ⟨vs, hvs.trans ⟨[], us, by simp⟩, hd⟩

theorem after_definitionRest (hn : n.kind.lowercaseName? = some name)
    (hs : ∀ a ∈ signature, ∃ us, us <:+: ts ∧ Derives us (.type a)) :
    After c (n :: ts) (definitionRest name signature) DerivesDeclared := by
  have hmore (vs : List Token) :
      ∀ a ∈ signature, ∃ us, us <:+: ts ++ vs ∧ Derives us (.type a) := by
    intro a ha
    obtain ⟨us, hus, hd⟩ := hs a ha
    exact ⟨us, hus.trans ⟨[], vs, by simp⟩, hd⟩
  refine (reads_eat _).bind fun vs b _ => ?_
  cases b with
  | true => exact after_definition hn (hmore vs)
  | false =>
      refine reads_patterns.bind fun ws _ _ => ?_
      rw [List.append_assoc]
      exact after_definition hn (hmore (vs ++ ws))

end

theorem reads_valueDeclaration : Reads valueDeclaration DerivesDeclared := by
  refine .of_after fun c => reads_lowercaseName.bind ?_
  rintro _ ⟨name, s⟩ ⟨n, rfl, hn, rfl⟩
  refine (reads_eat _).bind ?_
  rintro _ _ (⟨rfl, t, rfl, -⟩ | ⟨rfl, rfl⟩)
  · simp only [if_true, map_eq_pure_bind, bind_assoc]
    refine (after_signatureRest ⟨n, by simp, hn, rfl⟩).bind ?_
    rintro _ a ⟨vs, ws, rfl, ha⟩
    have hs : ∀ b ∈ some a, ∃ us, us <:+: t :: (vs ++ ws) ∧ Derives us (.type b) := by
      rintro _ ⟨⟩
      exact ⟨vs, ⟨[t], ws, by simp⟩, ha⟩
    exact after_definitionRest hn hs
  · have hs : ∀ b ∈ (none : Option TypeExpr), ∃ us, us <:+: [] ∧ Derives us (.type b) := by simp
    exact after_definitionRest hn hs

theorem peeks_associativitySecond : Peeks associativitySecond :=
  peeks_peekSecond.then fun _ => peeks_pure _

theorem reads_declared : Reads declared DerivesDeclared := by
  refine .of_after fun c => (peeks_check _).bind fun b => ?_
  cases b with
  | true => simpa using reads_typeDeclaration.after c []
  | false =>
  refine (peeks_check _).bind fun b => ?_
  cases b with
  | true => simpa using reads_portDeclaration.after c []
  | false =>
  have hvalue : After c [] (do
      if ← check .lowercaseName then return ← valueDeclaration
      note .declaration
      unexpected) DerivesDeclared := by
    refine (peeks_check _).bind fun b => ?_
    cases b with
    | true => simpa using reads_valueDeclaration.after c []
    | false => exact (peeks_note _).bind fun _ => .unexpected
  refine (peeks_check _).bind fun b => ?_
  cases b with
  | false => exact hvalue
  | true =>
      refine peeks_associativitySecond.bind fun b => ?_
      cases b with
      | true => simpa using reads_fixityDeclaration.after c []
      | false => exact hvalue

theorem reads_declaration : Reads declaration DerivesDeclaration := by
  refine .of_after fun c => .peek ?_
  have hrest (hc : ∀ t ∈ c.ahead.head?, t.startsDeclaration = true) : After c [] (do
      let start ← nextSpan
      let d ← declared
      return ⟨d, start.hull (← lastSpan)⟩) DerivesDeclaration := by
    refine .nextSpan ((reads_declared.after c []).isPrefix.bind ?_)
    rintro _ d ⟨hp, ts, rfl, hd⟩
    refine .lastSpan (.pure ?_)
    obtain ⟨t, us, rfl⟩ := List.exists_cons_of_ne_nil hd.ne_nil
    obtain ⟨rest, hrest⟩ := hp
    have hhead : c.ahead.head? = some t := by rw [← hrest]; rfl
    have hlast : lastSpanOf c.last (t :: us) = lastSpanOf t.span (t :: us) := by
      simp [lastSpanOf, List.getLast?_cons]
    refine ⟨hd, ?_, ?_⟩
    · rintro _ ⟨⟩
      exact hc t hhead
    · rintro _ ⟨⟩
      simp [hhead, hlast]
  cases hc : c.ahead with
  | nil => exact hrest (by simp [hc])
  | cons t rest =>
      cases ht : t.startsDeclaration with
      | true =>
          simp only [List.length_nil, List.drop_zero, List.head?_cons, ht, if_true]
          exact hrest (by simpa [hc] using ht)
      | false =>
          simp only [List.length_nil, List.drop_zero, List.head?_cons, ht, Bool.false_eq_true,
            if_false]
          have hmem : t ∈ [] ++ (c.ahead.drop 0).head?.toList := by simp [hc]
          exact After.bind (P := fun _ _ => False) (.fail ⟨t, hmem, rfl⟩ (.indented hmem)) (by simp)

end Reader

end ElmTypes
