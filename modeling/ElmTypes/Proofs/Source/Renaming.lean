import Mathlib.Data.List.Forall2
import ElmTypes.Proofs.Source.Parts
import ElmTypes.Source.Declaration

namespace ElmTypes

inductive RecordField.Renamed {α : Type} (R : α → α → Prop) : RecordField α → RecordField α → Prop
  where
  | mk {name : String} {a a' : α} {s : Span} (ha : R a a') : Renamed R ⟨name, a, s⟩ ⟨name, a', s⟩

inductive TypeExpr.Renamed (R : TypeName → TypeName → Prop) : TypeExpr → TypeExpr → Prop where
  | «variable» {name : String} {s : Span} : Renamed R (.variable name s) (.variable name s)
  | named {n n' : TypeName} {as as' : List TypeExpr} {s : Span} (hn : R n n')
      (has : List.Forall₂ (Renamed R) as as') : Renamed R (.named n as s) (.named n' as' s)
  | unit {s : Span} : Renamed R (.unit s) (.unit s)
  | tuple {as as' : List TypeExpr} {s : Span} (has : List.Forall₂ (Renamed R) as as') :
      Renamed R (.tuple as s) (.tuple as' s)
  | record {fs fs' : List (RecordField TypeExpr)} {s : Span}
      (hfs : List.Forall₂ (RecordField.Renamed (Renamed R)) fs fs') :
      Renamed R (.record fs s) (.record fs' s)
  | extensible {base : String} {fs fs' : List (RecordField TypeExpr)} {s : Span}
      (hfs : List.Forall₂ (RecordField.Renamed (Renamed R)) fs fs') :
      Renamed R (.extensible base fs s) (.extensible base fs' s)
  | function {a a' b b' : TypeExpr} {s : Span} (ha : Renamed R a a') (hb : Renamed R b b') :
      Renamed R (.function a b s) (.function a' b' s)

inductive Variant.Renamed (R : TypeName → TypeName → Prop) : Variant → Variant → Prop where
  | mk {name : String} {as as' : List TypeExpr} {s : Span}
      (has : List.Forall₂ (TypeExpr.Renamed R) as as') : Renamed R ⟨name, as, s⟩ ⟨name, as', s⟩

inductive Declared.Renamed (R : TypeName → TypeName → Prop) : Declared → Declared → Prop where
  | «alias» {name : String} {parameters : List String} {a a' : TypeExpr} (ha : a.Renamed R a') :
      Renamed R (.alias name parameters a) (.alias name parameters a')
  | custom {name : String} {parameters : List String} {vs vs' : List Variant}
      (hvs : List.Forall₂ (Variant.Renamed R) vs vs') :
      Renamed R (.custom name parameters vs) (.custom name parameters vs')
  | value {name : String} {signature signature' : Option TypeExpr}
      (hs : Option.Rel (TypeExpr.Renamed R) signature signature') :
      Renamed R (.value name signature) (.value name signature')
  | port {name : String} {a a' : TypeExpr} (ha : a.Renamed R a') :
      Renamed R (.port name a) (.port name a')
  | fixity {associativity : Associativity} {precedence : Nat} {operator function : String} :
      Renamed R (.fixity associativity precedence operator function)
        (.fixity associativity precedence operator function)

inductive Declaration.Renamed (R : TypeName → TypeName → Prop) : Declaration → Declaration → Prop
  where
  | mk {d d' : Declared} {s : Span} (hd : d.Renamed R d') : Renamed R ⟨d, s⟩ ⟨d', s⟩

section

variable {R : TypeName → TypeName → Prop} {f : TypeName → TypeName} (hf : ∀ n, R n (f n))

include hf

theorem TypeExpr.renamed_mapNames (e : TypeExpr) : e.Renamed R (e.mapNames f) := by
  have hall {es : List TypeExpr} (h : ∀ a ∈ es, a.Renamed R (a.mapNames f)) :
      List.Forall₂ (TypeExpr.Renamed R) es (es.map (mapNames f)) :=
    List.forall₂_map_right_iff.2 (List.forall₂_same.2 h)
  have hfields {fs : List (RecordField TypeExpr)}
      (h : ∀ r ∈ fs, r.type.Renamed R (r.type.mapNames f)) :
      List.Forall₂ (RecordField.Renamed (TypeExpr.Renamed R)) fs (mapNamesFields f fs) := by
    rw [mapNamesFields_eq_map]
    exact List.forall₂_map_right_iff.2 (List.forall₂_same.2 fun r hr => .mk (h r hr))
  induction e with
  | typeVariable name s => exact .variable
  | named n arguments s ih =>
      rw [mapNames, mapNamesAll_eq_map]
      exact .named (hf n) (hall ih)
  | unit s => exact .unit
  | tuple elements s ih =>
      rw [mapNames, mapNamesAll_eq_map]
      exact .tuple (hall ih)
  | record fields s ih => exact .record (hfields ih)
  | extensible base fields s ih => exact .extensible (hfields ih)
  | function domain codomain s ihd ihc => exact .function ihd ihc

theorem Variant.renamed_mapNames (v : Variant) :
    v.Renamed R { v with arguments := v.arguments.map (TypeExpr.mapNames f) } := by
  refine .mk (List.forall₂_map_right_iff.2 (List.forall₂_same.2 fun a _ => ?_))
  exact a.renamed_mapNames hf

theorem Declared.renamed_mapNames (d : Declared) : d.Renamed R (d.mapNames f) := by
  cases d with
  | «alias» name parameters type => exact .alias (type.renamed_mapNames hf)
  | custom name parameters variants =>
      refine .custom (List.forall₂_map_right_iff.2 (List.forall₂_same.2 fun v _ => ?_))
      exact v.renamed_mapNames hf
  | value name signature =>
      cases signature with
      | none => exact .value .none
      | some type => exact .value (.some (type.renamed_mapNames hf))
  | port name type => exact .port (type.renamed_mapNames hf)
  | fixity associativity precedence operator function => exact .fixity

theorem Declaration.renamed_mapNames (d : Declaration) : d.Renamed R (d.mapNames f) :=
  .mk (d.declared.renamed_mapNames hf)

end

end ElmTypes
