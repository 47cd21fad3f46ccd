import ElmTypes.Proofs.Grammar.Completeness
import ElmTypes.Proofs.Grammar.Declaration
import ElmTypes.Proofs.Grammar.File
import ElmTypes.Proofs.Validation.Accumulation

namespace ElmTypes

open Reader

theorem Keyword.isCapitalised_text (k : Keyword) : Word.isCapitalised k.text = false := by
  cases k <;> decide

theorem TokenKind.keyword?_eq_none_of_capitalised {k : TokenKind} {w : String}
    (h : k.capitalisedName? = some w) : k.keyword? = none := by
  obtain ⟨rfl, hc⟩ := capitalisedName?_eq_some_iff.1 h
  rw [keyword?, Option.eq_none_iff_forall_ne_some]
  intro kw hk
  rw [← Keyword.text_of_ofText? hk, Keyword.isCapitalised_text] at hc
  cases hc

theorem DerivesVariants.listed {ts : List Token} {vs : List Variant} (h : DerivesVariants ts vs) :
    Listed .bar DerivesVariant ts vs := by
  induction h with
  | nil => exact .nil
  | cons ht hv _ ih => exact .cons ht hv ih

namespace Reader

variable {ts us rest : List Token} {t : Token} {last : Span}

theorem opens_symbol {s : Symbol} (ht : t.kind = .symbol s) (hin : t.startsDeclaration = false) :
    opens (.symbol s) (t :: rest) = true := by
  simp [opens_cons, Expected.accepts_symbol_iff.2 ht, hin]

theorem repeats_typeParameters {parameters : List String} (h : DerivesParameters ts parameters)
    (hin : Inside ts) (hr : opens .lowercaseName rest = false) :
    Repeats (checkInside .lowercaseName) (do let (name, _) ← lowercaseName; return name) rest ts
      parameters := by
  induction h with
  | nil => exact .nil fun last => yields_checkInside hr
  | @cons t p ts ps ht _ ih =>
      have ho : opens .lowercaseName ([t] ++ (ts ++ rest)) = true :=
        opens_lowercaseName ht (hin t List.mem_cons_self)
      have hitem (last : Span) : Yields (do let (name, _) ← lowercaseName; return name) last [t]
          (ts ++ rest) p := (yields_lowercaseName ht).bind_pure rfl
      exact .peeked (fun last => yields_checkInside ho) hitem (List.cons_ne_nil _ _)
        (ih (hin.of_subset (by simp)))

theorem yields_typeParameters {parameters : List String} (h : DerivesParameters ts parameters)
    (hin : Inside ts) (hr : opens .lowercaseName rest = false) :
    Yields typeParameters last ts rest parameters :=
  (repeats_typeParameters h hin hr).yields last

theorem yields_variant {v : Variant} (h : DerivesVariant ts v) (hin : Inside ts)
    (hr : opensAtom rest = false) (last : Span) : Yields variant last ts rest v := by
  cases h with
  | @mk t ts name as ht has =>
      refine .cons (yields_declaredName ht) ?_
      have hargs := yields_typeArguments (accepts_typeExpr ts.length) has (hin.of_subset (by simp))
        (Nat.le_succ _) hr t.span
      exact hargs.bind_pure rfl

theorem DerivesVariant.ne_nil {v : Variant} (h : DerivesVariant ts v) : ts ≠ [] := by
  cases h
  exact List.cons_ne_nil _ _

theorem yields_variants {v : Variant} {vs : List Variant} (hv : DerivesVariant ts v)
    (hvs : DerivesVariants us vs) (hin : Inside (ts ++ us))
    (hr : ∀ t ∈ rest.head?, t.startsDeclaration = true) :
    Yields (separated .bar variant) last (ts ++ us) rest (v :: vs) := by
  have hus : Inside us := hin.of_subset (by simp)
  have hrest := repeats_of_listed variant Ends hvs.listed hus (Nat.le_refl _)
    (fun t ts ht => .symbol ht (by decide) ts) (.of_starts hr) (opens_eq_false_of_starts hr)
    fun hw hin _ => ⟨DerivesVariant.ne_nil hw, fun hr last => yields_variant hw hin hr.atom last⟩
  have hends : Ends (us ++ rest) := by
    cases hvs with
    | nil => exact .of_starts hr
    | cons ht => exact .symbol ht (by decide) _
  refine .bind (yields_variant hv (hin.of_subset (by simp)) hends.atom _) ?_
  exact (hrest.yields _).bind_pure rfl

theorem not_opens_lowercaseName_of_symbol {s : Symbol} (ht : t.kind = .symbol s) :
    opens .lowercaseName (t :: rest) = false := by
  simp [opens_cons, ht, Expected.accepts, TokenKind.lowercaseName?]

theorem yields_typeDeclaration {d : Declared} (h : DerivesDeclared ts d)
    (hd : d.typeName?.isSome = true) (hin : Inside ts.tail)
    (hr : ∀ t ∈ rest.head?, t.startsDeclaration = true) :
    Yields typeDeclaration last ts rest d := by
  cases h with
  | @typeAlias k l n e ps ts name parameters a hk hl hn hps he ha =>
      have ho : opens (.keyword .alias) (l :: (n :: (ps ++ e :: ts) ++ rest)) = true := by
        simp [opens_cons, Expected.accepts_keyword_iff.2 hl, hin l (by simp)]
      refine .cons (yields_expect (Expected.accepts_keyword_iff.2 hk)) ?_
      refine .cons (yields_eat_of_opens ho) ?_
      refine .cons (yields_declaredName hn) (.bind (yields_typeParameters hps ?_ ?_) ?_)
      · exact fun t ht => hin t (by simp [ht])
      · exact not_opens_lowercaseName_of_symbol he
      refine .cons (yields_expect (Expected.accepts_symbol_iff.2 he)) ?_
      refine .bind_nil (accepts_typeExpr ts.length ha ?_ (Nat.le_refl _) (.of_starts hr) _) ?_
      · exact fun t ht => hin t (by grind)
      · exact (yields_declarationEnd hr).bind_pure rfl
  | @emptyCustom k n ps name parameters hk hn hps =>
      have ho : opens (.keyword .alias) (n :: (ps ++ rest)) = false := by
        simp [opens_cons, Expected.accepts, TokenKind.keyword?_eq_none_of_capitalised hn.1]
      refine .cons (yields_expect (Expected.accepts_keyword_iff.2 hk)) ?_
      refine .then (yields_eat_of_not_opens ho) ?_
      refine .cons (yields_declaredName hn) ?_
      refine .bind_nil (yields_typeParameters hps ?_ (opens_eq_false_of_starts hr)) ?_
      · exact hin.of_subset (by simp)
      refine .bind_nil (yields_eat_of_not_opens (opens_eq_false_of_starts hr)) ?_
      exact .bind_nil (.pure _) ((yields_declarationEnd hr).bind_pure rfl)
  | @custom k n e ps ts us name parameters v vs hk hn hps he hv hvs =>
      have ho : opens (.keyword .alias) (n :: (ps ++ e :: (ts ++ us) ++ rest)) = false := by
        simp [opens_cons, Expected.accepts, TokenKind.keyword?_eq_none_of_capitalised hn.1]
      have heq : e.startsDeclaration = false := hin e (by simp)
      refine .cons (yields_expect (Expected.accepts_keyword_iff.2 hk)) ?_
      refine .then (yields_eat_of_not_opens ho) ?_
      refine .cons (yields_declaredName hn) (.bind (yields_typeParameters hps ?_ ?_) ?_)
      · exact hin.of_subset (by simp)
      · exact not_opens_lowercaseName_of_symbol he
      refine .cons (yields_eat_of_opens (opens_symbol he heq)) ?_
      refine .bind_nil (yields_variants hv hvs ?_ hr) ((yields_declarationEnd hr).bind_pure rfl)
      exact fun t ht => hin t (by grind)
  | value | port | fixity => cases hd

theorem exists_cons_of_typeDeclared {d : Declared} (h : DerivesDeclared ts d)
    (hd : d.typeName?.isSome = true) : ∃ t us, ts = t :: us ∧ t.kind.keyword? = some .type := by
  cases h with
  | typeAlias hk | emptyCustom hk | custom hk => exact ⟨_, _, rfl, hk⟩
  | value | port | fixity => cases hd

theorem yields_declaration {d : Declaration} (h : DerivesDeclaration ts d)
    (hd : d.declared.typeName?.isSome = true) (hin : Inside ts.tail)
    (hr : ∀ t ∈ rest.head?, t.startsDeclaration = true) : Yields declaration last ts rest d := by
  obtain ⟨t, us, rfl, ht⟩ := exists_cons_of_typeDeclared h.declared hd
  have hc :
      ((t :: us ++ rest).head?.any fun t => (Expected.keyword .type).accepts t.kind) = true := by
    simp [Expected.accepts_keyword_iff.2 ht]
  refine .then yields_peek ?_
  simp only [List.cons_append, List.head?_cons, h.starts t rfl, if_true]
  refine .then yields_nextSpan ?_
  refine .bind_nil (a := d.declared) (.then (yields_check hc) ?_) ?_
  · simpa using yields_typeDeclaration h.declared hd hin hr
  · refine yields_lastSpan.bind_pure ?_
    have hl : lastSpanOf last (t :: us) = lastSpanOf t.span (t :: us) := by
      simp [lastSpanOf, List.getLast?_cons]
    simp [hl, ← h.span t rfl]

end Reader

structure DerivesType (ts : List Token) (d : Declaration) : Prop
    extends DerivesDeclaration ts d where
  isType : d.declared.typeName?.isSome = true
  inside : Inside ts.tail

theorem DerivesType.exists_cons {ts : List Token} {d : Declaration} (h : DerivesType ts d) :
    ∃ t us, ts = t :: us ∧ t.kind.keyword? = some .type ∧ t.startsDeclaration = true := by
  obtain ⟨t, us, rfl, ht⟩ := exists_cons_of_typeDeclared h.declared h.isType
  exact ⟨t, us, rfl, ht, h.starts t rfl⟩

theorem starts_flatten {tss : List (List Token)} {ds : List Declaration}
    (h : List.Forall₂ DerivesType tss ds) :
    ∀ t ∈ tss.flatten.head?, t.kind.keyword? = some .type ∧ t.startsDeclaration = true := by
  cases h with
  | nil => simp
  | cons hd _ =>
      obtain ⟨t, us, rfl, ht⟩ := hd.exists_cons
      simpa using ht

theorem length_le_length_flatten {tss : List (List Token)} {ds : List Declaration}
    (h : List.Forall₂ DerivesType tss ds) : tss.length ≤ tss.flatten.length := by
  induction h with
  | nil => exact Nat.le_refl _
  | cons hd _ ih =>
      have hpos := List.length_pos_iff.2 hd.declared.ne_nil
      simp only [List.length_cons, List.flatten_cons, List.length_append]
      omega

namespace Cursor

theorem readDeclarations_eq {tss : List (List Token)} {ds : List Declaration}
    (h : List.Forall₂ DerivesType tss ds) {n : Nat} (hn : tss.length ≤ n)
    (expected : List Expected) (last : Span) :
    readDeclarations n ⟨tss.flatten, expected, last⟩ = ds.map .ok := by
  induction h generalizing n expected last with
  | nil => cases n <;> rfl
  | @cons ts d tss ds hd hds ih =>
      obtain ⟨n, rfl⟩ := Nat.exists_eq_add_of_le' hn
      have hy : Reader.Yields Reader.declaration last ts tss.flatten d :=
        Reader.yields_declaration hd.toDerivesDeclaration hd.isType hd.inside
          fun t ht => (starts_flatten hds t ht).2
      obtain ⟨expected', hrun⟩ := hy expected
      have hne : (ts ++ tss.flatten).isEmpty = false := by
        obtain ⟨t, us, rfl, -⟩ := hd.exists_cons
        rfl
      have hread : readDeclaration ⟨ts ++ tss.flatten, expected, last⟩ =
          (.ok d, ⟨tss.flatten, expected', lastSpanOf last ts⟩) := by
        rw [readDeclaration, hrun]
      rw [List.flatten_cons, List.length_cons, ← Nat.add_assoc]
      simp only [readDeclarations, hne, Bool.false_eq_true, if_false, hread, List.map_cons]
      rw [ih (Nat.le_add_left _ _)]

end Cursor

theorem headless_flatten {tss : List (List Token)} {ds : List Declaration}
    (h : List.Forall₂ DerivesType tss ds) : Headless tss.flatten := by
  refine .of_keyword fun t ht => ?_
  rw [(starts_flatten h t ht).1]
  decide

theorem SourceFile.ofTokens_eq_ok {tss : List (List Token)} {ds : List Declaration}
    (h : List.Forall₂ DerivesType tss ds) :
    SourceFile.ofTokens tss.flatten = .ok ⟨none, [], ds⟩ := by
  have hl := Nat.le_succ_of_le (length_le_length_flatten h)
  obtain ⟨c, hc, hfile⟩ := SourceFile.ofTokens_of_headless (headless_flatten h)
  have hdeclarations : c.readDeclarations (tss.flatten.length + 1) = ds.map .ok := by
    rcases c with ⟨ahead, expected, last⟩
    obtain rfl : ahead = tss.flatten := hc
    exact Cursor.readDeclarations_eq h hl expected last
  have hall : Validated.accumulate (ds.map (.ok (ε := List SyntaxError))) = .ok ds :=
    Validated.accumulate_eq_ok_of_forall₂ <|
      List.forall₂_map_left_iff.2 (List.forall₂_same.2 fun _ _ => rfl)
  rw [hfile, hdeclarations, hall]
  rfl

end ElmTypes
