import ElmTypes.Proofs.Grammar.FileParts
import ElmTypes.Proofs.Grammar.Standing
import ElmTypes.Proofs.Validation.Nodes

namespace ElmTypes

open Reader

def Declared.StandsIn (ts : List Token) (d : Declared) : Prop :=
  ∀ e ∈ d.types, e.All (TypeExpr.StandsIn ts)

theorem Declared.StandsIn.mono {ts us : List Token} {d : Declared} (h : d.StandsIn ts)
    (hts : ts <:+: us) : d.StandsIn us :=
  fun e he => (h e he).standsIn hts

namespace Reader

open TypeExpr

variable {α β : Type} {r : Reader α} {f : α → Reader β} {P R : List Token → α → Prop}
  {Q : List Token → β → Prop}

def Finds (r : Reader α) (R : List Token → α → Prop) : Prop :=
  ∀ c a d, r.run c = .ok a d → ∃ ts, c.Takes ts d ∧ R ts a

theorem Rereads.finds {s : Nat → Reader α} {k : Nat} (h : Rereads r s k R) : Finds r R := by
  intro c a d hrun
  obtain ⟨ts, hd, hR, -⟩ := h c a d hrun
  exact ⟨ts, hd, hR⟩

theorem Reads.finds (h : Reads r R) : Finds r R := fun _ _ _ hrun => h.of_run_eq_ok hrun

theorem Finds.reads (h : Finds r R) (hr : Reads r P) : Reads r R := by
  intro c
  have hrun := hr c
  cases hc : r.run c with
  | ok a d => exact h c a d hc
  | error x d =>
      rw [hc] at hrun
      exact hrun

theorem Finds.mono (h : Finds r P) (hR : ∀ ts a, P ts a → R ts a) : Finds r R := by
  intro c a d hrun
  obtain ⟨ts, hd, hp⟩ := h c a d hrun
  exact ⟨ts, hd, hR ts a hp⟩

theorem Finds.pure {a : α} (h : R [] a) : Finds (pure a) R := by
  intro c a' d hrun
  cases hrun
  exact ⟨[], .refl c, h⟩

theorem Finds.bind (hr : Finds r P) (hf : ∀ ts a, P ts a → Finds (f a) fun us b => Q (ts ++ us) b) :
    Finds (r >>= f) Q := by
  intro c b e hrun
  obtain ⟨a, d, hra, hfb⟩ := exists_of_run_bind hrun
  obtain ⟨ts, hd, hp⟩ := hr c a d hra
  obtain ⟨us, he, hq⟩ := hf ts a hp d b e hfb
  exact ⟨ts ++ us, hd.trans he, hq⟩

theorem peeks_peek : Peeks peek := fun c => ⟨_, c, rfl, .refl c⟩

theorem peeks_lastSpan : Peeks lastSpan := fun c => ⟨_, c, rfl, .refl c⟩

theorem peeks_nextSpan : Peeks nextSpan := fun c => ⟨_, c, rfl, .refl c⟩

theorem Peeks.finds (h : Peeks r) : Finds r fun ts _ => ts = [] := by
  intro c a d hrun
  obtain ⟨a', d', hrun', hd⟩ := h c
  rw [hrun] at hrun'
  obtain ⟨rfl, rfl⟩ := EStateM.Result.ok.inj hrun'
  exact ⟨[], hd, rfl⟩

theorem finds_unexpected : Finds (unexpected : Reader α) R := nofun

theorem finds_fail {cause : SyntaxCause} {span : Span} : Finds (fail cause span : Reader α) R :=
  nofun

theorem finds_declarationEnd : Finds declarationEnd fun _ _ => True := by
  refine peeks_atBoundary.finds.bind fun _ b _ => ?_
  cases b with
  | true => exact .pure trivial
  | false => exact finds_unexpected

theorem Finds.then {f : α → Reader Declared} (hr : Finds r P)
    (hf : ∀ a, Finds (f a) Declared.StandsIn) : Finds (r >>= f) Declared.StandsIn :=
  hr.bind fun ts a _ => (hf a).mono fun us _ h => h.mono (List.suffix_append ts us).isInfix

theorem finds_typed {f : TypeExpr → Declared} (hf : ∀ a, (f a).types = [a]) :
    Finds (do
      let a ← typeExpr
      declarationEnd
      return f a) Declared.StandsIn := by
  refine rereads_typeExpr.finds.bind fun ts a ha => ?_
  refine finds_declarationEnd.bind fun us _ _ => .pure fun e he => ?_
  rw [hf, List.mem_singleton] at he
  rw [he]
  exact ha.all.standsIn (List.prefix_append ts _).isInfix

theorem finds_variant :
    Finds variant fun ts v => ∀ a ∈ v.arguments, a.All (TypeExpr.StandsIn ts) := by
  refine reads_declaredName.finds.bind fun ts p _ => ?_
  refine (rereads_typeArguments rereads_typeExpr).finds.bind fun us as has => .pure fun a ha => ?_
  exact (has a ha).standsIn ⟨ts, [], by simp⟩

theorem finds_aliasRest : Finds aliasRest Declared.StandsIn := by
  refine reads_declaredName.finds.then fun p => reads_typeParameters.finds.then fun ps => ?_
  exact (reads_expect _).finds.then fun _ => finds_typed fun a => rfl

theorem finds_customRest : Finds customRest Declared.StandsIn := by
  refine reads_declaredName.finds.then fun p => reads_typeParameters.finds.then fun ps => ?_
  refine (reads_eat _).finds.then fun b => ?_
  have hvariants : Finds (separated .bar variant) fun ts vs =>
      ∀ a ∈ vs.flatMap Variant.arguments, a.All (TypeExpr.StandsIn ts) := by
    refine (reads_separated (s := .bar) (finds_variant.reads reads_variant)
      (L := fun ts vs => ∀ a ∈ vs.flatMap Variant.arguments, a.All (TypeExpr.StandsIn ts))
      (by simp) ?_).finds.mono ?_
    · intro t us ws v vs _ hv hvs
      rw [List.flatMap_cons]
      refine List.forall_mem_append.2 ⟨fun a ha => ?_, fun a ha => ?_⟩
      · exact (hv a ha).standsIn ⟨[t], ws, by simp⟩
      · exact (hvs a ha).standsIn ⟨t :: us, [], by simp⟩
    · rintro _ _ ⟨us, ws, v, vs, rfl, rfl, hv, hvs⟩
      rw [List.flatMap_cons]
      refine List.forall_mem_append.2 ⟨fun a ha => ?_, fun a ha => ?_⟩
      · exact (hv a ha).standsIn (List.prefix_append us ws).isInfix
      · exact (hvs a ha).standsIn (List.suffix_append us ws).isInfix
  cases b with
  | true =>
      refine hvariants.bind fun ts vs hvs => finds_declarationEnd.bind fun us _ _ => .pure ?_
      exact fun e he => (hvs e he).standsIn (List.prefix_append ts _).isInfix
  | false => exact finds_declarationEnd.bind fun us _ _ => .pure nofun

theorem finds_typeDeclaration : Finds typeDeclaration Declared.StandsIn := by
  refine (reads_expect _).finds.then fun _ => (reads_eat _).finds.then fun b => ?_
  cases b with
  | true => exact finds_aliasRest
  | false => exact finds_customRest

theorem finds_portDeclaration : Finds portDeclaration Declared.StandsIn := by
  refine (reads_expect _).finds.then fun _ => reads_lowercaseName.finds.then fun p => ?_
  exact (reads_expect _).finds.then fun _ => finds_typed fun a => rfl

theorem finds_fixityDeclaration : Finds fixityDeclaration Declared.StandsIn := by
  refine (reads_expect _).finds.then fun _ => (reads_take _ _).finds.then fun p => ?_
  refine (reads_take _ _).finds.then fun q => reads_parenthesizedOperator.finds.then fun o => ?_
  refine (reads_expect _).finds.then fun _ => reads_lowercaseName.finds.then fun f => ?_
  exact finds_declarationEnd.then fun _ => .pure nofun

theorem finds_signatureRest (name : String) (span : Span) :
    Finds (signatureRest name span) fun ts a => a.All (TypeExpr.StandsIn ts) := by
  refine rereads_typeExpr.finds.bind fun ts a ha => finds_declarationEnd.bind fun us _ _ => ?_
  refine peeks_peek.finds.bind fun _ next _ => ?_
  simp only
  split
  · refine reads_advance.finds.bind fun _ _ _ => .pure ?_
    exact ha.all.standsIn (List.prefix_append ts _).isInfix
  · exact finds_fail

theorem finds_definitionRest (name : String) (signature : Option TypeExpr) :
    Finds (definitionRest name signature) fun _ d => d = .value name signature := by
  have hdefinition : Finds (definition name signature) fun _ d => d = .value name signature := by
    refine peeks_atBoundary.finds.bind fun _ b _ => ?_
    cases b with
    | true =>
        refine (peeks_note _).finds.bind fun _ _ _ => peeks_lastSpan.finds.bind fun _ _ _ => ?_
        exact Finds.bind (P := fun _ _ => False) finds_fail fun _ _ h => h.elim
    | false => exact (reads_advanceWhile _).finds.bind fun _ _ _ => .pure rfl
  refine (reads_eat _).finds.bind fun _ b _ => ?_
  cases b with
  | true => exact hdefinition
  | false => exact reads_patterns.finds.bind fun _ _ _ => hdefinition

theorem finds_valueDeclaration : Finds valueDeclaration Declared.StandsIn := by
  refine reads_lowercaseName.finds.then fun p => (reads_eat _).finds.then fun b => ?_
  cases b with
  | true =>
      simp only [if_true, map_eq_pure_bind, bind_assoc, pure_bind]
      refine (finds_signatureRest _ _).bind fun ts a ha => ?_
      refine (finds_definitionRest _ (some a)).mono ?_
      rintro us _ rfl e he
      obtain rfl := List.mem_singleton.1 he
      exact ha.standsIn (List.prefix_append ts us).isInfix
  | false =>
      refine (finds_definitionRest _ none).mono ?_
      rintro us _ rfl e he
      cases he

theorem finds_declared : Finds declared Declared.StandsIn := by
  refine (peeks_check _).finds.then fun b => ?_
  cases b with
  | true => exact finds_typeDeclaration
  | false =>
  refine (peeks_check _).finds.then fun b => ?_
  cases b with
  | true => exact finds_portDeclaration
  | false =>
  have hvalue : Finds (do
      if ← check .lowercaseName then return ← valueDeclaration
      note .declaration
      unexpected) Declared.StandsIn := by
    refine (peeks_check _).finds.then fun b => ?_
    cases b with
    | true => exact finds_valueDeclaration
    | false => exact (peeks_note _).finds.then fun _ => finds_unexpected
  refine (peeks_check _).finds.then fun b => ?_
  cases b with
  | false => exact hvalue
  | true =>
      refine peeks_associativitySecond.finds.then fun b => ?_
      cases b with
      | true => exact finds_fixityDeclaration
      | false => exact hvalue

theorem finds_declaration : Finds declaration fun ts d => d.declared.StandsIn ts := by
  refine peeks_peek.finds.bind fun _ t hts => ?_
  have hrest : Finds (do
      let start ← nextSpan
      let d ← declared
      return (⟨d, start.hull (← lastSpan)⟩ : Declaration)) fun ts d => d.declared.StandsIn ts := by
    refine peeks_nextSpan.finds.bind fun _ s hs => finds_declared.bind fun ts d hd => ?_
    refine peeks_lastSpan.finds.bind fun _ _ hl => .pure ?_
    subst hs hl
    simpa using hd
  subst hts
  cases t with
  | none => exact hrest
  | some t =>
      simp only
      split
      · exact hrest
      · exact Finds.bind (P := fun _ _ => False) finds_fail fun _ _ h => h.elim

end Reader

namespace SourceFile

theorem exists_run_of_mem {tokens : List Token} {file : SourceFile}
    (h : ofTokens tokens = .ok file) {d : Declaration} (hd : d ∈ file.declarations) :
    ∃ c c' : Cursor, c.ahead <:+ tokens ∧ declaration.run c = .ok d c' := by
  obtain ⟨c, hc, hds⟩ := exists_readsDeclarations h
  obtain ⟨c', c'', hc', hrun⟩ := hds.exists_run_of_mem hd
  exact ⟨c', c'', hc'.trans hc, hrun⟩

theorem standsIn_of_mem {tokens : List Token} {file : SourceFile}
    (h : ofTokens tokens = .ok file) {d : Declaration} (hd : d ∈ file.declarations) :
    d.declared.StandsIn tokens := by
  obtain ⟨c, c', hc, hrun⟩ := exists_run_of_mem h hd
  obtain ⟨ts, hts, hstands⟩ := finds_declaration c d c' hrun
  apply hstands.mono
  exact List.IsInfix.trans ⟨[], c'.ahead, hts.ahead.symm⟩ hc.isInfix

end SourceFile

end ElmTypes
