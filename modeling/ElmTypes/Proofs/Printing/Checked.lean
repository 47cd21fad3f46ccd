import ElmTypes.Check
import ElmTypes.Proofs.Grammar.Extent
import ElmTypes.Proofs.Grammar.File
import ElmTypes.Proofs.Printing.DataType
import ElmTypes.Proofs.Validation.Translation

namespace ElmTypes

theorem forall_mem_of_forall₂ {α β : Type} {R : α → β → Prop} {P : β → Prop} {as : List α}
    {bs : List β} (h : List.Forall₂ R as bs) (hp : ∀ a ∈ as, ∀ b, R a b → P b) : ∀ b ∈ bs, P b := by
  induction h with
  | nil => simp
  | cons hab _ ih =>
      obtain ⟨ha, has⟩ := List.forall_mem_cons.1 hp
      exact List.forall_mem_cons.2 ⟨ha _ hab, ih has⟩

theorem forall₂_of_forall_mem {α β : Type} {R S : α → β → Prop} {as : List α} {bs : List β}
    (h : List.Forall₂ R as bs) (hs : ∀ b ∈ bs, ∀ a, R a b → S a b) : List.Forall₂ S as bs := by
  induction h with
  | nil => exact .nil
  | cons hab _ ih =>
      obtain ⟨hb, hbs⟩ := List.forall_mem_cons.1 hs
      exact .cons (hb _ hab) (ih hbs)

section

variable {source : String} {tokens : List Token}

theorem IsVariable.isLowerName (hl : lex source = .ok tokens) {name : String}
    (h : IsVariable tokens name) : IsLowerName name := by
  obtain ⟨t, ht, hn⟩ := h
  obtain ⟨hk, hlower⟩ := TokenKind.lowercaseName?_eq_some_iff.1 hn
  exact ⟨isWord_of_lex hl ht hk, hlower⟩

theorem IsDeclared.isTypeName (hl : lex source = .ok tokens) {name : String}
    (h : IsDeclared tokens name) : IsTypeName name := by
  obtain ⟨t, ht, hn, hplain⟩ := h
  obtain ⟨hk, hupper⟩ := TokenKind.capitalisedName?_eq_some_iff.1 hn
  exact ⟨⟨isWord_of_lex hl ht hk, hupper⟩, hplain⟩

def TypeExpr.PlainlyNamed : TypeExpr → Prop
  | .variable name _ => IsLowerName name
  | .named n _ _ => IsTypeName n.name
  | .tuple elements _ => 2 ≤ elements.length
  | .record fields _ => ∀ f ∈ fields, IsLowerName f.name
  | .unit _ | .extensible .. | .function .. => True

theorem TypeExpr.Written.plainlyNamed (hl : lex source = .ok tokens) (s : Scope) {e : TypeExpr}
    (h : Written tokens e) : (e.mapNames s.resolve).PlainlyNamed := by
  have hn := h.named
  cases e with
  | «variable» name span => exact hn.isLowerName hl
  | named n arguments span =>
      obtain ⟨t, ht, w, hw, rfl⟩ := hn
      obtain ⟨hk, hupper⟩ := TokenKind.capitalisedName?_eq_some_iff.1 hw
      exact IsUpperName.ofWord ⟨isWord_of_lex hl ht hk, hupper⟩ t.span
  | tuple elements span =>
      rw [mapNames, mapNamesAll_eq_map, PlainlyNamed, List.length_map]
      exact hn
  | record fields span =>
      rw [mapNames, mapNamesFields_eq_map, PlainlyNamed, List.forall_mem_map]
      exact fun f hf => (hn f hf).isLowerName hl
  | unit span | extensible base fields span | function domain codomain span => trivial

end

theorem TypeName.name_of_refersTo {n : TypeName} {module name : String}
    (h : n.refersTo module name = true) : n.name = name := by
  simpa using (Bool.and_eq_true_iff.1 h).1

theorem BaseType.text_ofTypeName (n : TypeName) : (ofTypeName n).text = n.name := by
  unfold ofTypeName
  split_ifs with hs hi hf
  · exact (TypeName.name_of_refersTo hs).symm
  · exact (TypeName.name_of_refersTo hi).symm
  · exact (TypeName.name_of_refersTo hf).symm
  · rfl

theorem Container.name_of_ofTypeName? {n : TypeName} {c : Container} (h : ofTypeName? n = some c) :
    n.name = c.name := by
  have hc := List.find?_some h
  exact TypeName.name_of_refersTo hc

theorem IsTypeName.beginsUppercase {w : String} (h : IsTypeName w) :
    Word.beginsUppercase w = true :=
  Word.beginsUppercase_of_isCapitalised h.isCapitalised

theorem IsLowerName.beginsUppercase {w : String} (h : IsLowerName w) :
    Word.beginsUppercase w = false := by
  have hl := h.isLowercase
  rw [Word.isLowercase] at hl
  simpa using (Bool.and_eq_true_iff.1 hl).2

namespace TypeExpr

theorem wellNamed_plain {w : String} (h : IsTypeName w) (as : List TypeExpr) (s : Span) :
    (named (.plain w) as s).WellNamed :=
  ⟨h.toIsUpperName, h.ofWord_eq⟩

theorem all_wellNamed_of_translates {e : TypeExpr} {t : DataType} (h : e.Translates t)
    (hp : e.All PlainlyNamed) : t.toExpr.All WellNamed := by
  induction e generalizing t with
  | typeVariable name s =>
      cases h
      have hv : (BaseType.other name).isVariable [] = true := by
        simp [BaseType.isVariable, BaseType.text, hp.self.beginsUppercase]
      rw [(DataType.toExpr_base_variable hv).2]
      exact .mk hp.self (by simp [parts])
  | unit s | extensible base fields s | function domain codomain s => cases h
  | named n arguments s ih =>
      have hn : IsTypeName n.name := hp.self
      have hargs {ts : List DataType} (ha : List.Forall₂ Translates arguments ts) :
          ∀ t ∈ ts, t.toExpr.All WellNamed :=
        forall_mem_of_forall₂ ha fun e he t ht => ih e he ht (hp.parts e he)
      cases h with
      | base _ hc ha =>
          have hv (ts : List DataType) : (BaseType.ofTypeName n).isVariable ts = false := by
            simp [BaseType.isVariable, BaseType.text_ofTypeName, hn.beginsUppercase]
          rw [DataType.toExpr_base_named (hv _), BaseType.text_ofTypeName]
          exact .mk (wellNamed_plain hn _ _) (List.forall_mem_map.2 (hargs ha))
      | list _ hc ha | maybe _ hc ha =>
          rw [Container.name_of_ofTypeName? hc] at hn
          exact .mk (wellNamed_plain hn _ _)
            (List.forall_mem_map (f := DataType.toExpr).2 (hargs (.cons ha .nil)))
      | dict _ hc ha hb | result _ hc ha hb =>
          rw [Container.name_of_ofTypeName? hc] at hn
          exact .mk (wellNamed_plain hn _ _)
            (List.forall_mem_map (f := DataType.toExpr).2 (hargs (.cons ha (.cons hb .nil))))
  | tuple elements s ih =>
      cases h with
      | tuple _ ha =>
          rw [DataType.toExpr, DataType.exprs_eq_map]
          refine .mk ?_ (List.forall_mem_map.2 ?_)
          · rw [WellNamed, List.length_map, ← ha.length_eq]
            exact hp.self
          · exact forall_mem_of_forall₂ ha fun e he t ht => ih e he ht (hp.parts e he)
  | record fields s ih =>
      cases h with
      | @record _ gs _ hnames ha =>
          rw [DataType.toExpr, DataType.fieldExprs_eq_map]
          have hg : ∀ g ∈ gs, IsLowerName g.1 := by
            have hf : ∀ name ∈ fields.map RecordField.name, IsLowerName name :=
              List.forall_mem_map.2 hp.self
            rw [hnames] at hf
            exact List.forall_mem_map.1 hf
          have ht := forall_mem_of_forall₂ ha (List.forall_mem_map.2 fun f hf t ht =>
            ih f hf ht (hp.parts f.type (List.mem_map_of_mem hf)))
          refine .mk (List.forall_mem_map.2 hg) ?_
          simp only [parts, List.map_map]
          exact List.forall_mem_map.2 fun g hg => ht g.2 (List.mem_map_of_mem hg)

end TypeExpr

structure Constructor.WellNamed (c : Constructor) : Prop where
  name : IsTypeName c.name
  arguments : ∀ t ∈ c.arguments, t.toExpr.All TypeExpr.WellNamed

def TypeDecl.WellNamed : TypeDecl → Prop
  | .alias name parameters type =>
      IsTypeName name ∧ (∀ p ∈ parameters, IsLowerName p) ∧ type.toExpr.All TypeExpr.WellNamed
  | .custom name parameters first rest =>
      IsTypeName name ∧ (∀ p ∈ parameters, IsLowerName p) ∧ ∀ c ∈ first :: rest, c.WellNamed

section

variable {source : String} {tokens : List Token} {s : Scope}

theorem TypeExpr.all_plainlyNamed (hl : lex source = .ok tokens) {e : TypeExpr}
    (h : e.All (Written tokens)) : (e.mapNames s.resolve).All PlainlyNamed :=
  h.mapNames _ fun _ he => he.plainlyNamed hl s

def Variant.mapNames (f : TypeName → TypeName) (v : Variant) : Variant :=
  { v with arguments := v.arguments.map (TypeExpr.mapNames f) }

theorem Declaration.mapNames_custom (f : TypeName → TypeName) (name : String)
    (parameters : List String) (vs : List Variant) (s : Span) :
    mapNames f ⟨.custom name parameters vs, s⟩ =
      ⟨.custom name parameters (vs.map (Variant.mapNames f)), s⟩ := rfl

theorem Variant.Written.wellNamed (hl : lex source = .ok tokens) {v : Variant}
    (h : v.Written tokens) {c : Constructor}
    (hc : (v.mapNames s.resolve).Translates c) : c.WellNamed := by
  refine ⟨hc.1 ▸ h.name.isTypeName hl, ?_⟩
  refine forall_mem_of_forall₂ hc.2 (List.forall_mem_map.2 fun e he t ht => ?_)
  exact TypeExpr.all_wellNamed_of_translates ht (TypeExpr.all_plainlyNamed hl (h.arguments e he))

theorem Declaration.wellNamed_of_translates (hl : lex source = .ok tokens) {d : Declaration}
    (h : d.declared.Written tokens) {t : TypeDecl} (ht : (d.mapNames s.resolve).Translates t) :
    t.WellNamed := by
  obtain ⟨declared, span⟩ := d
  cases declared with
  | «alias» name parameters e =>
      cases ht with
      | «alias» _ _ _ ht =>
          refine ⟨h.1.isTypeName hl, fun p hp => (h.2.1 p hp).isLowerName hl, ?_⟩
          exact TypeExpr.all_wellNamed_of_translates ht (TypeExpr.all_plainlyNamed hl h.2.2)
  | custom name parameters vs =>
      obtain ⟨hname, hparameters, hvs⟩ := h
      rw [mapNames_custom] at ht
      generalize hws : vs.map (Variant.mapNames s.resolve) = ws at ht
      cases ht with
      | @custom _ _ _ _ c cs _ hcs =>
          refine ⟨hname.isTypeName hl, fun p hp => (hparameters p hp).isLowerName hl, ?_⟩
          rw [← hws, List.forall₂_map_left_iff] at hcs
          exact forall_mem_of_forall₂ hcs fun v hv c hc => (hvs v hv).wellNamed hl hc
  | value | port | fixity => cases ht

end

theorem check_eq_ok_iff {source : String} {types : List TypeDecl} :
    check source = .ok types ↔ ∃ tokens file, lex source = .ok tokens ∧
      SourceFile.ofTokens tokens = .ok file ∧ TypeDecl.ofFile file.resolve = .ok types := by
  unfold check SourceFile.parse
  constructor
  · intro h
    cases hl : lex source with
    | error e => simp [hl] at h
    | ok tokens =>
        simp only [hl] at h
        cases hfile : SourceFile.ofTokens tokens with
        | error es => simp [hfile] at h
        | ok file =>
            simp only [hfile] at h
            cases htypes : TypeDecl.ofFile file.resolve with
            | error ps => simp [htypes] at h
            | ok ts => exact ⟨tokens, file, rfl, hfile, htypes.trans (by simpa [htypes] using h)⟩
  · rintro ⟨tokens, file, hl, hfile, htypes⟩
    simp only [hl, hfile, htypes]

theorem wellNamed_of_check {source : String} {types : List TypeDecl}
    (h : check source = .ok types) : ∀ t ∈ types, t.WellNamed := by
  obtain ⟨tokens, file, hl, hfile, htypes⟩ := check_eq_ok_iff.1 h
  have ht := TypeDecl.forall₂_of_ofFile_eq_ok htypes
  rw [SourceFile.resolve, List.forall₂_map_left_iff] at ht
  refine forall_mem_of_forall₂ ht fun d hd t hdt => ?_
  obtain ⟨us, hus, hderives⟩ := ((SourceFile.sound_ofTokens tokens).1 file hfile).declarations d hd
  exact Declaration.wellNamed_of_translates hl (hderives.declared.written hus.subset) hdt

end ElmTypes
