import ElmTypes.DataType.OfSource
import ElmTypes.Proofs.Source.Induction
import ElmTypes.Proofs.Validation.Accumulation

namespace ElmTypes

inductive TypeExpr.Translates : TypeExpr → DataType → Prop
  | typeVariable (name : String) (s : Span) :
      Translates (.variable name s) (.base (.other name) [])
  | base {n : TypeName} {arguments : List TypeExpr} {ts : List DataType} (s : Span) :
      Container.ofTypeName? n = none → List.Forall₂ Translates arguments ts →
      Translates (.named n arguments s) (.base (.ofTypeName n) ts)
  | list {n : TypeName} {a : TypeExpr} {t : DataType} (s : Span) :
      Container.ofTypeName? n = some .list → Translates a t → Translates (.named n [a] s) (.list t)
  | maybe {n : TypeName} {a : TypeExpr} {t : DataType} (s : Span) :
      Container.ofTypeName? n = some .maybe → Translates a t →
      Translates (.named n [a] s) (.maybe t)
  | dict {n : TypeName} {a b : TypeExpr} {t u : DataType} (s : Span) :
      Container.ofTypeName? n = some .dict → Translates a t → Translates b u →
      Translates (.named n [a, b] s) (.dict t u)
  | result {n : TypeName} {a b : TypeExpr} {t u : DataType} (s : Span) :
      Container.ofTypeName? n = some .result → Translates a t → Translates b u →
      Translates (.named n [a, b] s) (.result t u)
  | tuple {elements : List TypeExpr} {ts : List DataType} (s : Span) :
      List.Forall₂ Translates elements ts → Translates (.tuple elements s) (.tuple ts)
  | record {fields : List (RecordField TypeExpr)} {gs : List (String × DataType)} (s : Span) :
      fields.map RecordField.name = gs.map Prod.fst →
      List.Forall₂ Translates (fields.map RecordField.type) (gs.map Prod.snd) →
      Translates (.record fields s) (.record gs)

def Variant.Translates (v : Variant) (c : Constructor) : Prop :=
  v.name = c.name ∧ List.Forall₂ TypeExpr.Translates v.arguments c.arguments

inductive Declaration.Translates : Declaration → TypeDecl → Prop
  | alias (name : String) (parameters : List String) {e : TypeExpr} {t : DataType} (s : Span) :
      e.Translates t → Translates ⟨.alias name parameters e, s⟩ (.alias name parameters t)
  | custom (name : String) (parameters : List String) {v : Variant} {vs : List Variant}
      {c : Constructor} {cs : List Constructor} (s : Span) :
      List.Forall₂ Variant.Translates (v :: vs) (c :: cs) →
      Translates ⟨.custom name parameters (v :: vs), s⟩ (.custom name parameters c cs)

namespace DataType

theorem ofTypeExprs_ne_error_nil (es : List TypeExpr) : ofTypeExprs es ≠ .error [] := by
  rw [ofTypeExprs_eq_accumulate]
  exact Validated.accumulate_ne_error_nil _

theorem ofTypeExpr_ne_error_nil (e : TypeExpr) : ofTypeExpr e ≠ .error [] := by
  cases e with
  | «variable» name s => simp [ofTypeExpr]
  | named n arguments s =>
      have h := ofTypeExprs_ne_error_nil arguments
      rw [ofTypeExpr]
      split
      · rw [ofName]
        split
        · simp
        · split <;> simp
      · intro hc
        exact h (by simp_all)
  | unit s => simp [ofTypeExpr]
  | tuple elements s => exact Validated.map_ne_error_nil _ (ofTypeExprs_ne_error_nil _)
  | record fields s =>
      refine Validated.map_ne_error_nil _ ?_
      rw [ofFields_eq_accumulate]
      exact Validated.accumulate_ne_error_nil _
  | extensible base fields s => simp [ofTypeExpr]
  | function domain codomain s => simp [ofTypeExpr]

theorem forall₂_of_ofTypeExprs_eq_ok {es : List TypeExpr} {ts : List DataType}
    (h : ofTypeExprs es = .ok ts) : List.Forall₂ (fun e t => ofTypeExpr e = .ok t) es ts := by
  rw [ofTypeExprs_eq_accumulate] at h
  have hr : ∀ r ∈ es.map ofTypeExpr, r ≠ .error [] := by
    simpa using fun e _ => ofTypeExpr_ne_error_nil e
  exact List.forall₂_map_left_iff.1 (Validated.forall₂_of_accumulate_eq_ok hr h)

theorem forall₂_of_ofFields_eq_ok {fields : List (RecordField TypeExpr)}
    {gs : List (String × DataType)} (h : ofFields fields = .ok gs) :
    List.Forall₂ (fun f g => f.name = g.1 ∧ ofTypeExpr f.type = .ok g.2) fields gs := by
  rw [ofFields_eq_accumulate] at h
  have hr : ∀ r ∈ fields.map fun f => (ofTypeExpr f.type).map fun t => (f.name, t),
      r ≠ .error [] := by
    simpa using fun (f : RecordField TypeExpr) _ =>
      Validated.map_ne_error_nil _ (ofTypeExpr_ne_error_nil f.type)
  refine (List.forall₂_map_left_iff.1 (Validated.forall₂_of_accumulate_eq_ok hr h)).imp ?_
  intro f g hfg
  obtain ⟨t, ht, rfl⟩ := Validated.exists_of_map_eq_ok hfg
  exact ⟨rfl, ht⟩

end DataType

namespace TypeExpr

theorem translates_ofName {n : TypeName} {arguments : List TypeExpr} {ts : List DataType}
    {s : Span} {t : DataType} (ha : List.Forall₂ Translates arguments ts)
    (h : DataType.ofName n ts s = .ok t) : Translates (.named n arguments s) t := by
  rw [DataType.ofName] at h
  split at h
  · rename_i hn
    obtain rfl := Except.ok.inj h
    exact .base s hn ha
  · rename_i c hn
    split at h
    · rename_i u hu
      obtain rfl := Except.ok.inj h
      -- the number of arguments is the arity of the container
      cases c <;> rcases ha with _ | ⟨h1, _ | ⟨h2, _ | ⟨h3, _⟩⟩⟩ <;>
        simp only [Container.saturated?, Option.some.injEq, reduceCtorEq] at hu <;> subst hu
      · exact .list s hn h1
      · exact .maybe s hn h1
      · exact .dict s hn h1 h2
      · exact .result s hn h1 h2
    · simp at h

theorem forall₂_translates {es : List TypeExpr} {ts : List DataType}
    (ih : ∀ e ∈ es, ∀ {t}, DataType.ofTypeExpr e = .ok t → e.Translates t)
    (h : DataType.ofTypeExprs es = .ok ts) : List.Forall₂ Translates es ts :=
  ((List.forall₂_and_left _ _).2 ⟨ih, DataType.forall₂_of_ofTypeExprs_eq_ok h⟩).imp
    fun _ _ h => h.1 h.2

theorem translates_of_ofTypeExpr_eq_ok {e : TypeExpr} {t : DataType}
    (h : DataType.ofTypeExpr e = .ok t) : e.Translates t := by
  induction e generalizing t with
  | typeVariable name s =>
      obtain rfl := Except.ok.inj h
      exact .typeVariable name s
  | unit s => simp [DataType.ofTypeExpr] at h
  | extensible base fields s _ => simp [DataType.ofTypeExpr] at h
  | function domain codomain s _ _ => simp [DataType.ofTypeExpr] at h
  | named n arguments s ih =>
      rw [DataType.ofTypeExpr] at h
      split at h
      · rename_i ts hts
        refine translates_ofName ?_ h
        exact forall₂_translates ih hts
      · simp at h
  | tuple elements s ih =>
      obtain ⟨ts, hts, rfl⟩ := Validated.exists_of_map_eq_ok h
      refine .tuple s ?_
      exact forall₂_translates ih hts
  | record fields s ih =>
      obtain ⟨gs, hgs, rfl⟩ := Validated.exists_of_map_eq_ok h
      have hf := DataType.forall₂_of_ofFields_eq_ok hgs
      have hn : List.Forall₂ (· = ·) (fields.map RecordField.name) (gs.map Prod.fst) :=
        List.forall₂_map_left_iff.2 (List.forall₂_map_right_iff.2 (hf.imp fun _ _ h => h.1))
      refine .record s (by rwa [List.forall₂_eq_eq_eq] at hn) ?_
      refine List.forall₂_map_left_iff.2 (List.forall₂_map_right_iff.2 ?_)
      exact ((List.forall₂_and_left _ _).2 ⟨ih, hf⟩).imp fun f g h => h.1 h.2.2

end TypeExpr

theorem Constructor.ofVariant_ne_error_nil (v : Variant) : Constructor.ofVariant v ≠ .error [] :=
  Validated.map_ne_error_nil _ (DataType.ofTypeExprs_ne_error_nil _)

theorem Variant.translates_of_ofVariant_eq_ok {v : Variant} {c : Constructor}
    (h : Constructor.ofVariant v = .ok c) : v.Translates c := by
  obtain ⟨ts, hts, rfl⟩ := Validated.exists_of_map_eq_ok h
  exact ⟨rfl, TypeExpr.forall₂_translates (fun _ _ => TypeExpr.translates_of_ofTypeExpr_eq_ok) hts⟩

namespace TypeDecl

theorem forall₂_of_accumulate_ofVariant {vs : List Variant} {cs : List Constructor}
    (h : Validated.accumulate (vs.map Constructor.ofVariant) = .ok cs) :
    List.Forall₂ (fun v c => Constructor.ofVariant v = .ok c) vs cs := by
  have hr : ∀ r ∈ vs.map Constructor.ofVariant, r ≠ .error [] := by
    simpa using fun v _ => Constructor.ofVariant_ne_error_nil v
  exact List.forall₂_map_left_iff.1 (Validated.forall₂_of_accumulate_eq_ok hr h)

theorem ofDeclaration_ne_error_nil (d : Declaration) : ofDeclaration d ≠ .error [] := by
  rcases d with ⟨_ | ⟨name, parameters, vs⟩ | _ | _ | _, s⟩
  · exact Validated.map_ne_error_nil _ (DataType.ofTypeExpr_ne_error_nil _)
  · simp only [ofDeclaration]
    have h := Validated.accumulate_ne_error_nil (vs.map Constructor.ofVariant)
    split
    · rename_i cs _
      cases cs <;> simp [ofConstructors]
    · simp_all
  all_goals simp [ofDeclaration]

theorem translates_of_ofDeclaration_eq_ok {d : Declaration} {t : TypeDecl}
    (h : ofDeclaration d = .ok t) : d.Translates t := by
  rcases d with ⟨⟨name, parameters, e⟩ | ⟨name, parameters, vs⟩ | _ | _ | _, s⟩
  · obtain ⟨u, hu, rfl⟩ := Validated.exists_of_map_eq_ok h
    exact .alias name parameters s (TypeExpr.translates_of_ofTypeExpr_eq_ok hu)
  · simp only [ofDeclaration] at h
    split at h
    · rename_i cs hcs
      have hv := (forall₂_of_accumulate_ofVariant hcs).imp
        fun _ _ => Variant.translates_of_ofVariant_eq_ok
      cases hv with
      | nil => simp [ofConstructors] at h
      | cons hc hrest =>
          obtain rfl := Except.ok.inj h
          exact .custom name parameters s (.cons hc hrest)
    · simp at h
  all_goals simp [ofDeclaration] at h

theorem forall₂_of_ofFile_eq_ok {f : SourceFile} {types : List TypeDecl}
    (h : ofFile f = .ok types) : List.Forall₂ Declaration.Translates f.declarations types := by
  have hr : ∀ r ∈ f.declarations.map ofDeclaration, r ≠ .error [] := by
    simpa using fun d _ => ofDeclaration_ne_error_nil d
  have hd := List.forall₂_map_left_iff.1 (Validated.forall₂_of_accumulate_eq_ok hr h)
  exact hd.imp fun _ _ => translates_of_ofDeclaration_eq_ok

end TypeDecl

end ElmTypes
