import ElmTypes.Check
import ElmTypes.Proofs.Comparison.Recovery
import ElmTypes.Proofs.Comparison.Shifted

namespace ElmTypes

theorem forall₂_map {α β γ δ : Type} {R : α → β → Prop} {T : γ → δ → Prop} {f : α → γ} {g : β → δ}
    {as : List α} {bs : List β} (h : List.Forall₂ R as bs)
    (hf : ∀ a ∈ as, ∀ b, R a b → T (f a) (g b)) : List.Forall₂ T (as.map f) (bs.map g) := by
  induction h with
  | nil => exact .nil
  | cons hab _ ih =>
      obtain ⟨ha, has⟩ := List.forall_mem_cons.1 hf
      exact .cons (ha _ hab) (ih has)

structure Problem.Alike (S : Span → Span → Prop) (p p' : Problem) : Prop where
  cause : p.cause = p'.cause
  span : S p.span p'.span

section

variable {S : Span → Span → Prop} {f f' : TypeName → TypeName}

def KeepsNames (S : Span → Span → Prop) (f : TypeName → TypeName) : Prop :=
  ∀ n n', TypeName.Alike S n n' → (f n).Alike S (f n')

theorem keepsNames_resolve (s : Scope) : KeepsNames S s.resolve := by
  rintro _ _ ⟨hs⟩
  exact .mk hs

theorem TypeExpr.Alike.mapNames (hf : KeepsNames S f) {a a' : TypeExpr} (h : a.Alike S a') :
    (a.mapNames f).Alike S (a'.mapNames f) := by
  have hfields {fs fs' : List (RecordField TypeExpr)}
      (h : List.Forall₂ (RecordField.Alike S (TypeExpr.Alike S)) fs fs')
      (ih : ∀ r ∈ fs, ∀ {a' : TypeExpr}, r.type.Alike S a' →
        (r.type.mapNames f).Alike S (a'.mapNames f)) :
      List.Forall₂ (RecordField.Alike S (TypeExpr.Alike S)) (mapNamesFields f fs)
        (mapNamesFields f fs') := by
    rw [mapNamesFields_eq_map, mapNamesFields_eq_map]
    apply forall₂_map h
    rintro _ hr _ ⟨ha, hs⟩
    exact .mk (ih _ hr ha) hs
  induction a generalizing a' with
  | typeVariable name s =>
      cases h with
      | «variable» hs => exact .variable hs
  | named n arguments s ih =>
      cases h with
      | named hn has hs =>
          rw [TypeExpr.mapNames, TypeExpr.mapNames, mapNamesAll_eq_map, mapNamesAll_eq_map]
          exact .named (hf _ _ hn) (forall₂_map has fun a ha _ h => ih a ha h) hs
  | unit s =>
      cases h with
      | unit hs => exact .unit hs
  | tuple elements s ih =>
      cases h with
      | tuple has hs =>
          rw [TypeExpr.mapNames, TypeExpr.mapNames, mapNamesAll_eq_map, mapNamesAll_eq_map]
          exact .tuple (forall₂_map has fun a ha _ h => ih a ha h) hs
  | record fields s ih =>
      cases h with
      | record hfs hs => exact .record (hfields hfs ih) hs
  | extensible base fields s ih =>
      cases h with
      | extensible hfs hs => exact .extensible (hfields hfs ih) hs
  | function domain codomain s ihd ihc =>
      cases h with
      | function ha hb hs => exact .function (ihd ha) (ihc hb) hs

theorem Declaration.Alike.mapNames (hf : KeepsNames S f) {d d' : Declaration} (h : d.Alike S d') :
    (d.mapNames f).Alike S (d'.mapNames f) := by
  obtain ⟨hd, hs⟩ := h
  refine .mk ?_ hs
  cases hd with
  | «alias» ha => exact .alias (ha.mapNames hf)
  | custom hvs =>
      refine .custom (forall₂_map hvs ?_)
      rintro _ - _ ⟨has, hs⟩
      exact .mk (forall₂_map has fun _ _ _ ha => ha.mapNames hf) hs
  | value hs =>
      cases hs with
      | none => exact .value .none
      | some ha => exact .value (.some (ha.mapNames hf))
  | port ha => exact .port (ha.mapNames hf)
  | fixity => exact .fixity

theorem Declaration.Alike.typeName? {d d' : Declaration} (h : d.Alike S d') :
    d.declared.typeName? = d'.declared.typeName? := by
  obtain ⟨hd, -⟩ := h
  cases hd <;> rfl

theorem eq_of_forall₂_map {α β γ : Type} {R : α → β → Prop} {f : α → γ} {g : β → γ}
    (hR : ∀ a b, R a b → f a = g b) {as : List α} {bs : List β} (h : List.Forall₂ R as bs) :
    as.map f = bs.map g := by
  rw [← List.forall₂_eq_eq_eq]
  exact forall₂_map h fun a _ b hab => hR a b hab

theorem Scope.ofFile_eq {f f' : SourceFile} (h : f.Alike S f') : ofFile f = ofFile f' := by
  have hhome : f.moduleName = f'.moduleName := by
    unfold SourceFile.moduleName
    generalize f.header = header, f'.header = header', h.header = hheader
    cases hheader with
    | none => rfl
    | some hh =>
        cases hh with
        | mk _ => rfl
  have hdeclared := congrArg (List.filterMap id)
    (eq_of_forall₂_map (fun _ _ h => Declaration.Alike.typeName? h) h.declarations)
  have haliases : f.imports.map importedAliases = f'.imports.map importedAliases :=
    eq_of_forall₂_map (fun _ _ ⟨_⟩ => rfl) h.imports
  have htypes : f.imports.map importedTypes = f'.imports.map importedTypes :=
    eq_of_forall₂_map (fun _ _ ⟨_⟩ => rfl) h.imports
  rw [List.filterMap_map, List.filterMap_map] at hdeclared
  simp only [ofFile, List.flatMap_def, List.map_reverse, hhome, haliases, htypes, mk.injEq, and_true,
    true_and]
  exact hdeclared

theorem SourceFile.Alike.resolve {f f' : SourceFile} (h : f.Alike S f') :
    List.Forall₂ (Declaration.Alike S) f.resolve.declarations f'.resolve.declarations := by
  simp only [SourceFile.resolve, Scope.ofFile_eq h]
  exact forall₂_map h.declarations fun _ _ _ hd => hd.mapNames (keepsNames_resolve _)

abbrev SameMeaning {α : Type} (S : Span → Span → Prop) : (r r' : Validated Problem α) → Prop :=
  Agrees (List.Forall₂ (Problem.Alike S)) Eq

theorem SameMeaning.map {α β : Type} {r r' : Validated Problem α} (h : SameMeaning S r r')
    (g : α → β) : SameMeaning S (r.map g) (r'.map g) :=
  Agrees.map h fun _ _ ha => congrArg g ha

theorem SameMeaning.accumulate {α : Type} {rs rs' : List (Validated Problem α)}
    (h : List.Forall₂ (SameMeaning S) rs rs') :
    SameMeaning S (Validated.accumulate rs) (Validated.accumulate rs') := by
  have hall := Agrees.accumulate h
  rwa [List.forall₂_eq_eq_eq] at hall

theorem SameMeaning.problem {α : Type} (cause : ProblemCause) {s s' : Span} (hs : S s s') :
    SameMeaning (α := α) S (.error [⟨cause, s⟩]) (.error [⟨cause, s'⟩]) :=
  .error (.cons ⟨rfl, hs⟩ .nil)

namespace DataType

theorem sameMeaning_ofName {n n' : TypeName} (hn : n.Alike S n') (ts : List DataType)
    {s s' : Span} (hs : S s s') : SameMeaning S (ofName n ts s) (ofName n' ts s') := by
  obtain @⟨module, name, t, t', -⟩ := hn
  have hcontainer : Container.ofTypeName? ⟨module, name, t'⟩ =
      Container.ofTypeName? ⟨module, name, t⟩ := rfl
  unfold ofName
  rw [hcontainer]
  cases Container.ofTypeName? ⟨module, name, t⟩ with
  | none => exact .ok rfl
  | some container =>
      simp only
      cases container.saturated? ts with
      | none => exact .problem _ hs
      | some t => exact .ok rfl

theorem sameMeaning_ofTypeExpr {e e' : TypeExpr} (h : e.Alike S e') :
    SameMeaning S (ofTypeExpr e) (ofTypeExpr e') := by
  have hall {es es' : List TypeExpr} (h : List.Forall₂ (TypeExpr.Alike S) es es')
      (ih : ∀ e ∈ es, ∀ {e' : TypeExpr}, e.Alike S e' →
        SameMeaning S (ofTypeExpr e) (ofTypeExpr e')) :
      SameMeaning S (ofTypeExprs es) (ofTypeExprs es') := by
    rw [ofTypeExprs_eq_accumulate, ofTypeExprs_eq_accumulate]
    exact .accumulate (forall₂_map h fun e he _ h => ih e he h)
  induction e generalizing e' with
  | typeVariable name s =>
      cases h with
      | «variable» hs => exact .ok rfl
  | named n arguments s ih =>
      cases h with
      | @named _ _ _ arguments' _ _ hn has hs =>
          have harguments := hall has ih
          rw [ofTypeExpr, ofTypeExpr]
          generalize ofTypeExprs arguments = r, ofTypeExprs arguments' = r' at harguments
          cases harguments with
          | error hps => exact .error hps
          | ok hts =>
              obtain rfl := hts
              exact sameMeaning_ofName hn _ hs
  | unit s =>
      cases h with
      | unit hs => exact .problem _ hs
  | tuple elements s ih =>
      cases h with
      | tuple has hs => exact (hall has ih).map DataType.tuple
  | record fields s ih =>
      cases h with
      | record hfs hs =>
          rw [ofTypeExpr, ofTypeExpr, ofFields_eq_accumulate, ofFields_eq_accumulate]
          refine SameMeaning.map (.accumulate (forall₂_map hfs ?_)) DataType.record
          rintro _ hf _ ⟨ha, -⟩
          exact (ih _ hf ha).map _
  | extensible base fields s ih =>
      cases h with
      | extensible hfs hs => exact .problem _ hs
  | function domain codomain s ihd ihc =>
      cases h with
      | function ha hb hs => exact .problem _ hs

end DataType

namespace TypeDecl

theorem sameMeaning_ofDeclaration {d d' : Declaration} (h : d.Alike S d') :
    SameMeaning S (ofDeclaration d) (ofDeclaration d') := by
  obtain ⟨hd, hs⟩ := h
  cases hd with
  | «alias» ha => exact (DataType.sameMeaning_ofTypeExpr ha).map _
  | @custom name parameters vs vs' hvs =>
      have hconstructors : SameMeaning S (Validated.accumulate (vs.map Constructor.ofVariant))
          (Validated.accumulate (vs'.map Constructor.ofVariant)) := by
        refine .accumulate (forall₂_map hvs ?_)
        rintro _ - _ ⟨has, -⟩
        simp only [Constructor.ofVariant, DataType.ofTypeExprs_eq_accumulate]
        refine SameMeaning.map (.accumulate (forall₂_map has fun _ _ _ ha => ?_)) _
        exact DataType.sameMeaning_ofTypeExpr ha
      simp only [ofDeclaration]
      generalize Validated.accumulate (vs.map _) = r,
        Validated.accumulate (vs'.map _) = r' at hconstructors
      cases hconstructors with
      | error hps => exact .error hps
      | @ok constructors _ hcs =>
          obtain rfl := hcs
          cases constructors with
          | nil => exact .problem _ hs
          | cons first rest => exact .ok rfl
  | value _ => exact .problem _ hs
  | port _ => exact .problem _ hs
  | fixity => exact .problem _ hs

theorem sameMeaning_ofFile {f f' : SourceFile}
    (h : List.Forall₂ (Declaration.Alike S) f.declarations f'.declarations) :
    SameMeaning S (ofFile f) (ofFile f') :=
  .accumulate (forall₂_map h fun _ _ _ hd => sameMeaning_ofDeclaration hd)

end TypeDecl

inductive Failure.Alike (S : Span → Span → Prop) : Failure → Failure → Prop where
  | malformed {es es' : List SyntaxError} (h : List.Forall₂ (SyntaxError.Alike S) es es') :
      Alike S (.malformed es) (.malformed es')
  | invalid {ps ps' : List Problem} (h : List.Forall₂ (Problem.Alike S) ps ps') :
      Alike S (.invalid ps) (.invalid ps')

theorem agrees_check (hS : KeepsHulls S) (hempty : S .empty .empty) {s s' : String}
    {ts ts' : List Token} (hl : lex s = .ok ts) (hl' : lex s' = .ok ts')
    (hts : List.Forall₂ (fun t t' => t'.kind = t.kind ∧
      t'.startsDeclaration = t.startsDeclaration ∧ S t.span t'.span) ts ts') :
    Agrees (Failure.Alike S) Eq (check s) (check s') := by
  let p : Pairing := ⟨S, hS, [], by simp, ts.length + 1, Nat.succ_pos _⟩
  have hp : p.Even := ⟨rfl, hempty⟩
  have hlike : List.Forall₂ p.Like ts ts' := hts.imp fun t t' ⟨hk, hst, hs⟩ => ⟨hk, hst, hs⟩
  have habreast : p.Abreast (.start ts) (.start ts') := by
    refine ⟨⟨?_, fun _ => ⟨rfl, hempty⟩⟩, Nat.lt_succ_self _⟩
    have hahead := Pairing.Ahead.of_forall₂ hlike
    rwa [List.append_nil] at hahead
  have hfile := hp.ofTokens hlike.length_eq.symm habreast
  unfold check SourceFile.parse
  rw [hl, hl']
  simp only
  generalize SourceFile.ofTokens ts = r, SourceFile.ofTokens ts' = r' at hfile
  cases hfile with
  | error hes => exact .error (.malformed hes)
  | @ok file file' hfile =>
      have hmeaning := TypeDecl.sameMeaning_ofFile hfile.resolve
      simp only
      generalize TypeDecl.ofFile file.resolve = x, TypeDecl.ofFile file'.resolve = x' at hmeaning
      cases hmeaning with
      | error hps => exact .error (.invalid hps)
      | ok ht => exact .ok ht

end

end ElmTypes
