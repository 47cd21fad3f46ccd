import ElmTypes.Proofs.Grammar.TypeDeclaration
import ElmTypes.Proofs.Printing.Checked
import ElmTypes.Proofs.Printing.Derivation

namespace ElmTypes

open Lexeme

def Constructor.kinds (c : Constructor) : List TokenKind :=
  .word c.name :: (TypeExpr.argumentKinds (c.arguments.map DataType.toExpr)).flatten

namespace TypeDecl

def tailKinds : TypeDecl → List TokenKind
  | .alias name parameters type =>
      .word Keyword.alias.text :: .word name
        :: (parameters.map .word ++ .symbol .equals :: type.toExpr.kinds)
  | .custom name parameters first rest =>
      .word name :: (parameters.map .word ++ .symbol .equals
        :: [TokenKind.symbol .bar].intercalate ((first :: rest).map Constructor.kinds))

end TypeDecl

theorem isWord_alias : IsWord Keyword.alias.text :=
  ⟨'a', "lias".toList, rfl, by decide, by decide⟩

theorem spells_words {name : String} {parameters : List String} (hn : IsWord name)
    (hp : ∀ p ∈ parameters, IsLowerName p) :
    Spells (" ".intercalate (name :: parameters)).toList (.word name :: parameters.map .word) := by
  have hs : List.Forall₂ Spells (parameters.map String.toList)
      (parameters.map fun p => [.word p]) := by
    refine List.forall₂_map_left_iff.2 (List.forall₂_map_right_iff.2 (List.forall₂_same.2 ?_))
    exact fun p hp' => .word (hp p hp').isWord
  have hk : (parameters.map fun p => [TokenKind.word p]).flatten = parameters.map .word := by
    rw [← List.flatMap_def, List.map_eq_flatMap]
  exact hk ▸ TypeExpr.spells_applied hn hs

theorem Constructor.WellNamed.spells {c : Constructor} (h : c.WellNamed) :
    Spells c.text.toList c.kinds := by
  have ha : ∀ e ∈ c.arguments.map DataType.toExpr, Spells e.text.toList e.kinds :=
    List.forall_mem_map.2 fun t ht => TypeExpr.spells_text (h.arguments t ht)
  have ht := DataType.argumentTexts_map_toExpr fun t ht => DataType.text_toExpr (h.arguments t ht)
  have hs := TypeExpr.spells_applied h.name.isWord (TypeExpr.spells_argumentTexts ha)
  rw [ht] at hs
  exact hs

theorem spells_equation {cs ds : List Char} {ks ls : List TokenKind} (h : Spells cs ks)
    (h' : Spells ds ls) : Spells (cs ++ (' ' :: '=' :: ' ' :: ds)) (ks ++ .symbol .equals :: ls) :=
  h.append h'.equals.blank (delimits_cons (by decide) _)

theorem TypeDecl.WellNamed.spells_tail {t : TypeDecl} (h : t.WellNamed) :
    ∃ cs, t.text.toList = Keyword.type.text.toList ++ ' ' :: cs ∧ Spells cs t.tailKinds := by
  cases t with
  | «alias» name parameters type =>
      obtain ⟨hn, hp, ht⟩ := h
      have htype := DataType.text_toExpr ht ▸ TypeExpr.spells_text ht
      have hs := (spells_equation (spells_words hn.isWord hp) htype).blank
      have hall := (Spells.word isWord_alias).append hs (delimits_cons (by decide) _)
      refine ⟨_, ?_, by simpa [tailKinds] using hall⟩
      simp [text, Keyword.text]
  | custom name parameters first rest =>
      obtain ⟨hn, hp, hc⟩ := h
      have hcs : List.Forall₂ Spells (((first :: rest).map Constructor.text).map String.toList)
          ((first :: rest).map Constructor.kinds) := by
        rw [List.map_map]
        refine List.forall₂_map_left_iff.2 (List.forall₂_map_right_iff.2 (List.forall₂_same.2 ?_))
        exact fun c hmem => (hc c hmem).spells
      have hs := spells_equation (spells_words hn.isWord hp) (Spells.bars hcs)
      refine ⟨_, ?_, by simpa [tailKinds] using hs⟩
      simp [text, Keyword.text, String.toList_intercalate]

theorem scan_type {y : List Char} (hy : Delimits y) :
    scan 't' (['y', 'p', 'e'] ++ y) = .ok ⟨some (.word Keyword.type.text), 3⟩ :=
  scan_append_congr (x := []) hy (by decide) (by simp) (by decide)

def TypeDecl.LinedUp (ts : List Token) (t : TypeDecl) : Prop :=
  ∃ k us, ts = k :: us ∧ k.kind = .word Keyword.type.text ∧ k.startsDeclaration = true ∧
    us.map Token.kind = t.tailKinds ∧ Inside us

theorem TypeDecl.WellNamed.lexFrom_text {t : TypeDecl} (h : t.WellNamed) {y : List Char}
    {tokens : List Token} (offset : Nat) (hy : Delimits y)
    (hl : lexFrom 0 (offset + t.text.length) t.text.length y = .ok tokens) :
    ∃ ts, t.LinedUp ts ∧ lexFrom 0 offset 0 (t.text.toList ++ y) = .ok (ts ++ tokens) := by
  obtain ⟨cs, hcs, hs⟩ := h.spells_tail
  have hlength : t.text.length = 4 + (' ' :: cs).length := by
    rw [← String.length_toList, hcs, List.length_append]
    rfl
  rw [hlength, ← Nat.add_assoc] at hl
  obtain ⟨us, hus, hcol, hrest⟩ := hs.blank y tokens _ _ hy hl
  refine ⟨⟨.word Keyword.type.text, ⟨offset, 4⟩, 0⟩ :: us, ⟨_, us, rfl, rfl, rfl, hus, ?_⟩, ?_⟩
  · intro u hu
    have hu' := hcol u hu
    simp only [Token.startsDeclaration, beq_eq_false_iff_ne]
    omega
  · have hscan := scan_type (delimits_cons (c := ' ') (by decide) (cs ++ y))
    rw [hcs, List.append_assoc]
    refine (lexFrom_of_scan_eq_ok hscan rfl offset 0).trans ?_
    rw [← List.cons_append]
    simp only [List.length_cons, List.length_nil, Nat.zero_add, List.foldl]
    have hcolumn : ['t', 'y', 'p', 'e'].foldl columnAfter 0 = 4 := rfl
    simp only [List.foldl] at hcolumn
    rw [hcolumn, hrest]
    rfl

def Constructor.IsWrittenAs (c : Constructor) (v : Variant) : Prop :=
  v.name = c.name ∧ v.arguments.map TypeExpr.erase = c.arguments.map DataType.toExpr

def TypeDecl.IsWrittenAs (d : Declared) : TypeDecl → Prop
  | .alias name parameters type => ∃ e, d = .alias name parameters e ∧ e.erase = type.toExpr
  | .custom name parameters first rest =>
      ∃ vs, d = .custom name parameters vs ∧
        List.Forall₂ (fun v c => Constructor.IsWrittenAs c v) vs (first :: rest)

section

variable {ts : List Token}

theorem IsTypeName.declares {t : Token} {name : String} (h : IsTypeName name)
    (ht : t.kind = .word name) : Reader.Declares t name :=
  ⟨TokenKind.capitalisedName?_eq_some_iff.2 ⟨ht, h.isCapitalised⟩, h.plain⟩

theorem derivesParameters_of_kinds {parameters : List String} (hp : ∀ p ∈ parameters, IsLowerName p)
    (h : ts.map Token.kind = parameters.map .word) : DerivesParameters ts parameters := by
  induction parameters generalizing ts with
  | nil =>
      obtain rfl := List.map_eq_nil_iff.1 h
      exact .nil
  | cons p parameters ih =>
      obtain ⟨t, ts, rfl, ht, hts⟩ := List.map_eq_cons_iff.1 h
      obtain ⟨hp, hps⟩ := List.forall_mem_cons.1 hp
      exact .cons (TokenKind.lowercaseName?_eq_some_iff.2 ⟨ht, hp.isLowercase⟩) (ih hps hts)

theorem derivesVariant_of_kinds {c : Constructor} (hc : c.WellNamed)
    (h : ts.map Token.kind = c.kinds) : ∃ v, c.IsWrittenAs v ∧ DerivesVariant ts v := by
  obtain ⟨t, us, rfl, ht, hus⟩ := List.map_eq_cons_iff.1 h
  have ha : ∀ e ∈ c.arguments.map DataType.toExpr, ∀ ts,
      ts.map Token.kind = e.kinds → Recovered ts e :=
    List.forall_mem_map.2 fun t ht ts hts => TypeExpr.recovered_of_kinds (hc.arguments t ht) hts
  obtain ⟨as, has, hd⟩ := recovers_arguments ha hus
  rw [DataType.map_erase_map_toExpr fun t _ => t.erase_toExpr] at has
  exact ⟨_, ⟨rfl, has⟩, .mk (hc.name.declares ht) hd⟩

theorem derivesVariants_of_kinds {cs : List Constructor} (hcs : ∀ c ∈ cs, c.WellNamed)
    (h : Listed .bar (fun ts ks => ts.map Token.kind = ks) ts (cs.map Constructor.kinds)) :
    ∃ vs, List.Forall₂ (fun v c => Constructor.IsWrittenAs c v) vs cs ∧ DerivesVariants ts vs := by
  induction cs generalizing ts with
  | nil =>
      cases h
      exact ⟨[], .nil, .nil⟩
  | cons c cs ih =>
      obtain ⟨hc, hcs⟩ := List.forall_mem_cons.1 hcs
      cases h with
      | cons ht hus hvs =>
          obtain ⟨v, hv, hd⟩ := derivesVariant_of_kinds hc hus
          obtain ⟨vs, hvs, hds⟩ := ih hcs hvs
          exact ⟨v :: vs, .cons hv hvs, .cons ht hd hds⟩

theorem TypeDecl.WellNamed.derivesDeclared {t : TypeDecl} (h : t.WellNamed)
    (hts : t.LinedUp ts) : ∃ d, t.IsWrittenAs d ∧ DerivesDeclared ts d := by
  obtain ⟨k, us, rfl, hk, -, hus, -⟩ := hts
  have hkey : k.kind.keyword? = some .type := by
    rw [hk]
    rfl
  cases t with
  | «alias» name parameters type =>
      obtain ⟨hn, hp, ht⟩ := h
      obtain ⟨l, us, rfl, hl, hus⟩ := List.map_eq_cons_iff.1 hus
      obtain ⟨n, us, rfl, hname, hus⟩ := List.map_eq_cons_iff.1 hus
      obtain ⟨ps, us, rfl, hps, hus⟩ := List.map_eq_append_iff.1 hus
      obtain ⟨e, us, rfl, he, hus⟩ := List.map_eq_cons_iff.1 hus
      obtain ⟨a, ha, hd⟩ := (TypeExpr.recovered_of_kinds ht hus).type
      have hkey' : l.kind.keyword? = some .alias := by
        rw [hl]
        rfl
      refine ⟨_, ⟨a, rfl, ha.trans type.erase_toExpr⟩, ?_⟩
      exact .typeAlias hkey hkey' (hn.declares hname) (derivesParameters_of_kinds hp hps) he hd
  | custom name parameters first rest =>
      obtain ⟨hn, hp, hc⟩ := h
      obtain ⟨n, us, rfl, hname, hus⟩ := List.map_eq_cons_iff.1 hus
      obtain ⟨ps, us, rfl, hps, hus⟩ := List.map_eq_append_iff.1 hus
      obtain ⟨e, us, rfl, he, hus⟩ := List.map_eq_cons_iff.1 hus
      obtain ⟨us, vs, rfl, hus, hvs⟩ := listed_of_intercalate hus
      obtain ⟨hc, hcs⟩ := List.forall_mem_cons.1 hc
      obtain ⟨v, hv, hd⟩ := derivesVariant_of_kinds hc hus
      obtain ⟨ws, hws, hds⟩ := derivesVariants_of_kinds hcs hvs
      refine ⟨_, ⟨v :: ws, rfl, .cons hv hws⟩, ?_⟩
      exact .custom hkey (hn.declares hname) (derivesParameters_of_kinds hp hps) he hd hds

theorem TypeDecl.WellNamed.derivesType {t : TypeDecl} (h : t.WellNamed) (hts : t.LinedUp ts) :
    ∃ d : Declaration, t.IsWrittenAs d.declared ∧ DerivesType ts d := by
  obtain ⟨d, hd, hderives⟩ := h.derivesDeclared hts
  obtain ⟨k, us, rfl, -, hstart, -, hin⟩ := hts
  have htype : d.typeName?.isSome = true := by
    cases t with
    | «alias» name parameters type =>
        obtain ⟨e, rfl, -⟩ := hd
        rfl
    | custom name parameters first rest =>
        obtain ⟨vs, rfl, -⟩ := hd
        rfl
  refine ⟨⟨d, k.span.hull (lastSpanOf k.span (k :: us))⟩, hd, ⟨⟨hderives, ?_, ?_⟩, htype, hin⟩⟩
  · simpa using hstart
  · simp

end

end ElmTypes
