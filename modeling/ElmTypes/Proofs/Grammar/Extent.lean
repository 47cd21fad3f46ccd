import ElmTypes.Proofs.Grammar.Declaration
import ElmTypes.Proofs.Source.Parts
import ElmTypes.Proofs.Span
import ElmTypes.Proofs.Validation.Nodes

namespace ElmTypes

inductive Covers (ts : List Token) : Span → Prop where
  | token {t : Token} (h : t ∈ ts) : Covers ts t.span
  | hull {a b : Span} (ha : Covers ts a) (hb : Covers ts b) : Covers ts (a.hull b)

theorem Covers.within {n : Nat} {ts : List Token} {s : Span} (h : Covers ts s)
    (hts : ∀ t ∈ ts, t.span.Within n) : s.Within n := by
  induction h with
  | token h => exact hts _ h
  | hull _ _ iha ihb => exact iha.hull ihb

def IsVariable (ts : List Token) (name : String) : Prop :=
  ∃ t ∈ ts, t.kind.lowercaseName? = some name

namespace TypeExpr

def NamedBy (ts : List Token) : TypeExpr → Prop
  | .variable name _ => IsVariable ts name
  | .named n _ _ => ∃ t ∈ ts, ∃ w, t.kind.capitalisedName? = some w ∧ n = .ofWord w t.span
  | .tuple elements _ => 2 ≤ elements.length
  | .record fields _ => ∀ f ∈ fields, IsVariable ts f.name
  | .extensible base fields _ =>
      IsVariable ts base ∧ fields ≠ [] ∧ ∀ f ∈ fields, IsVariable ts f.name
  | .unit _ | .function .. => True

structure Written (ts : List Token) (e : TypeExpr) : Prop where
  span : Covers ts e.span
  named : e.NamedBy ts

theorem All.withSpan {ts : List Token} {e : TypeExpr} (h : e.All (Written ts)) {s : Span}
    (hs : Covers ts s) : (e.withSpan s).All (Written ts) := by
  refine .mk ⟨?_, ?_⟩ ?_
  · rw [span_withSpan]
    exact hs
  · have hn := h.self.named
    cases e <;> exact hn
  · rw [parts_withSpan]
    exact h.parts

end TypeExpr

theorem Reader.covers_hullAll {ts : List Token} {s : Span} {es : List TypeExpr} (hs : Covers ts s)
    (hes : ∀ e ∈ es, e.All (TypeExpr.Written ts)) : Covers ts (hullAll s es) := by
  induction es generalizing s with
  | nil => exact hs
  | cons e es ih =>
      obtain ⟨he, hes⟩ := List.forall_mem_cons.1 hes
      exact ih (hs.hull he.self.span) hes

structure RecordField.Written (ts : List Token) (f : RecordField TypeExpr) : Prop where
  name : IsVariable ts f.name
  type : f.type.All (TypeExpr.Written ts)

def Phrase.Written (ts : List Token) : Phrase → Prop
  | .type e | .application e | .atom e => e.All (TypeExpr.Written ts)
  | .arguments es | .elements es => ∀ e ∈ es, e.All (TypeExpr.Written ts)
  | .field f => f.Written ts
  | .fields fs => ∀ f ∈ fs, f.Written ts

theorem forall_mem_parts_of_fields {ts : List Token} {fs : List (RecordField TypeExpr)}
    (h : ∀ f ∈ fs, f.Written ts) :
    ∀ a ∈ fs.map RecordField.type, a.All (TypeExpr.Written ts) :=
  List.forall_mem_map.2 fun f hf => (h f hf).type

section

variable {us : List Token}

theorem Covers.hull_tokens {l r : Token} (hl : l ∈ us) (hr : r ∈ us) :
    Covers us (l.span.hull r.span) :=
  .hull (.token hl) (.token hr)

theorem Derives.written {ts : List Token} {p : Phrase} (h : Derives ts p) (hts : ts ⊆ us) :
    p.Written us := by
  induction h with
  | function _ _ _ iha ihb =>
      obtain ⟨hta, htb⟩ := List.append_subset.1 hts
      have ha := iha hta
      have hb := ihb (List.cons_subset.1 htb).2
      refine .mk ⟨ha.self.span.hull hb.self.span, trivial⟩ ?_
      simpa [TypeExpr.parts] using ⟨ha, hb⟩
  | ofApplication _ ih => exact ih hts
  | applied ht _ ih =>
      obtain ⟨hmem, hts⟩ := List.cons_subset.1 hts
      have has := ih hts
      exact .mk ⟨Reader.covers_hullAll (.token hmem) has, _, hmem, _, ht, rfl⟩ has
  | ofAtom _ ih => exact ih hts
  | typeVariable ht =>
      have hmem := hts List.mem_cons_self
      exact .mk ⟨.token hmem, _, hmem, ht⟩ (by simp [TypeExpr.parts])
  | named ht =>
      have hmem := hts List.mem_cons_self
      exact .mk ⟨.token hmem, _, hmem, _, ht, rfl⟩ (by simp [TypeExpr.parts])
  | unit =>
      refine .mk ⟨?_, trivial⟩ (by simp [TypeExpr.parts])
      exact .hull_tokens (hts (by simp)) (hts (by simp))
  | parenthesized _ _ _ ih =>
      have ha := ih fun t ht => hts (by simp [ht])
      exact ha.withSpan (.hull_tokens (hts (by simp)) (hts (by simp)))
  | tuple _ _ _ _ iha ihb =>
      have ha := iha fun t ht => hts (by simp [ht])
      have hb := ihb fun t ht => hts (by simp [ht])
      refine .mk ⟨?_, by simp [TypeExpr.NamedBy]⟩ (List.forall_mem_cons.2 ⟨ha, hb⟩)
      exact .hull_tokens (hts (by simp)) (hts (by simp))
  | emptyRecord =>
      refine .mk ⟨?_, by simp [TypeExpr.NamedBy]⟩ (by simp [TypeExpr.parts])
      exact .hull_tokens (hts (by simp)) (hts (by simp))
  | record _ _ _ _ ihf ihfs =>
      have hf := ihf fun t ht => hts (by simp [ht])
      have hfs := ihfs fun t ht => hts (by simp [ht])
      have hall := (List.forall_mem_cons (p := RecordField.Written us)).2 ⟨hf, hfs⟩
      refine .mk ⟨?_, fun f hm => (hall f hm).name⟩ (forall_mem_parts_of_fields hall)
      exact .hull_tokens (hts (by simp)) (hts (by simp))
  | extensible _ hn _ _ _ _ ihf ihfs =>
      have hf := ihf fun t ht => hts (by simp [ht])
      have hfs := ihfs fun t ht => hts (by simp [ht])
      have hall := (List.forall_mem_cons (p := RecordField.Written us)).2 ⟨hf, hfs⟩
      refine .mk ⟨?_, ⟨_, hts (by simp), hn⟩, by simp, fun f hm => (hall f hm).name⟩
        (forall_mem_parts_of_fields hall)
      exact .hull_tokens (hts (by simp)) (hts (by simp))
  | noArguments => simp [Phrase.Written]
  | argument _ _ iha ihas =>
      obtain ⟨hta, htas⟩ := List.append_subset.1 hts
      exact List.forall_mem_cons.2 ⟨iha hta, ihas htas⟩
  | noElements => simp [Phrase.Written]
  | element _ _ _ iha ihas =>
      obtain ⟨hta, htas⟩ := List.append_subset.1 (List.cons_subset.1 hts).2
      exact List.forall_mem_cons.2 ⟨iha hta, ihas htas⟩
  | field hn _ _ ih => exact ⟨⟨_, hts (by simp), hn⟩, ih fun t ht => hts (by simp [ht])⟩
  | noFields => simp [Phrase.Written]
  | fields _ _ _ ihf ihfs =>
      obtain ⟨htf, htfs⟩ := List.append_subset.1 (List.cons_subset.1 hts).2
      exact List.forall_mem_cons.2 ⟨ihf htf, ihfs htfs⟩

theorem DerivesParameters.isVariable {ts : List Token} {parameters : List String}
    (h : DerivesParameters ts parameters) (hts : ts ⊆ us) : ∀ p ∈ parameters, IsVariable us p := by
  induction h with
  | nil => simp
  | cons ht _ ih =>
      obtain ⟨hmem, hts⟩ := List.cons_subset.1 hts
      exact List.forall_mem_cons.2 ⟨⟨_, hmem, ht⟩, ih hts⟩

def IsDeclared (ts : List Token) (name : String) : Prop := ∃ t ∈ ts, Reader.Declares t name

structure Variant.Written (ts : List Token) (v : Variant) : Prop where
  name : IsDeclared ts v.name
  arguments : ∀ e ∈ v.arguments, e.All (TypeExpr.Written ts)

theorem DerivesVariant.written {ts : List Token} {v : Variant} (h : DerivesVariant ts v)
    (hts : ts ⊆ us) : v.Written us := by
  cases h with
  | mk ht has =>
      obtain ⟨hmem, hts⟩ := List.cons_subset.1 hts
      exact ⟨⟨_, hmem, ht⟩, has.written hts⟩

theorem DerivesVariants.written {ts : List Token} {vs : List Variant} (h : DerivesVariants ts vs)
    (hts : ts ⊆ us) : ∀ v ∈ vs, v.Written us := by
  induction h with
  | nil => simp
  | cons _ hv _ ih =>
      obtain ⟨htv, htvs⟩ := List.append_subset.1 (List.cons_subset.1 hts).2
      exact List.forall_mem_cons.2 ⟨hv.written htv, ih htvs⟩

def Declared.Written (ts : List Token) : Declared → Prop
  | .alias name parameters e =>
      IsDeclared ts name ∧ (∀ p ∈ parameters, IsVariable ts p) ∧ e.All (TypeExpr.Written ts)
  | .custom name parameters vs =>
      IsDeclared ts name ∧ (∀ p ∈ parameters, IsVariable ts p) ∧ ∀ v ∈ vs, v.Written ts
  | .value _ signature => ∀ e ∈ signature, e.All (TypeExpr.Written ts)
  | .port _ e => e.All (TypeExpr.Written ts)
  | .fixity .. => True

theorem DerivesDeclared.written {ts : List Token} {d : Declared} (h : DerivesDeclared ts d)
    (hts : ts ⊆ us) : d.Written us := by
  cases h with
  | typeAlias _ _ hn hps _ ha =>
      refine ⟨⟨_, hts (by simp), hn⟩, ?_, ?_⟩
      · exact hps.isVariable fun t ht => hts (by simp [ht])
      · exact ha.written fun t ht => hts (by simp [ht])
  | emptyCustom _ hn hps =>
      exact ⟨⟨_, hts (by simp), hn⟩, hps.isVariable fun t ht => hts (by simp [ht]), by simp⟩
  | custom _ hn hps _ hv hvs =>
      refine ⟨⟨_, hts (by simp), hn⟩, ?_, List.forall_mem_cons.2 ⟨?_, ?_⟩⟩
      · exact hps.isVariable fun t ht => hts (by simp [ht])
      · exact hv.written fun t ht => hts (by simp [ht])
      · exact hvs.written fun t ht => hts (by simp [ht])
  | value _ hs =>
      intro e he
      obtain ⟨vs, hvs, hd⟩ := hs e he
      exact hd.written fun t ht => hts (List.mem_cons_of_mem _ (hvs.mem ht))
  | port _ _ _ ha => exact ha.written fun t ht => hts (by simp [ht])
  | fixity => trivial

theorem Declared.Written.types {d : Declared} (h : d.Written us) :
    ∀ e ∈ d.types, e.All (TypeExpr.Written us) := by
  cases d with
  | «alias» name parameters e => exact List.forall_mem_singleton.2 h.2.2
  | custom name parameters vs =>
      refine List.forall_mem_flatMap.2 fun v hv => ?_
      exact (h.2.2 v hv).arguments
  | value name signature =>
      intro e he
      exact h e (by simpa [Declared.types] using he)
  | port name e => exact List.forall_mem_singleton.2 h
  | fixity => simp [Declared.types]

theorem DerivesDeclaration.covers {ts : List Token} {d : Declaration}
    (h : DerivesDeclaration ts d) : Covers ts d.span := by
  obtain ⟨t, us, rfl⟩ := List.exists_cons_of_ne_nil h.declared.ne_nil
  obtain ⟨l, hl, hlast⟩ := lastSpanOf_mem (s := t.span) (List.cons_ne_nil t us)
  rw [h.span t rfl, ← hlast]
  exact .hull_tokens List.mem_cons_self hl

end

end ElmTypes
