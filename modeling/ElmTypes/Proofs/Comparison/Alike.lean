import Mathlib.Data.List.Forall2
import ElmTypes.Grammar.TypeExpr
import ElmTypes.Source.File

namespace ElmTypes

inductive TypeName.Alike (S : Span → Span → Prop) : TypeName → TypeName → Prop where
  | mk {module : Option String} {name : String} {s s' : Span} (hs : S s s') :
      Alike S ⟨module, name, s⟩ ⟨module, name, s'⟩

inductive RecordField.Alike {α : Type} (S : Span → Span → Prop) (R : α → α → Prop) :
    RecordField α → RecordField α → Prop where
  | mk {name : String} {a a' : α} {s s' : Span} (ha : R a a') (hs : S s s') :
      Alike S R ⟨name, a, s⟩ ⟨name, a', s'⟩

inductive TypeExpr.Alike (S : Span → Span → Prop) : TypeExpr → TypeExpr → Prop where
  | «variable» {name : String} {s s' : Span} (hs : S s s') :
      Alike S (.variable name s) (.variable name s')
  | named {n n' : TypeName} {as as' : List TypeExpr} {s s' : Span} (hn : n.Alike S n')
      (has : List.Forall₂ (Alike S) as as') (hs : S s s') : Alike S (.named n as s) (.named n' as' s')
  | unit {s s' : Span} (hs : S s s') : Alike S (.unit s) (.unit s')
  | tuple {as as' : List TypeExpr} {s s' : Span} (has : List.Forall₂ (Alike S) as as')
      (hs : S s s') : Alike S (.tuple as s) (.tuple as' s')
  | record {fs fs' : List (RecordField TypeExpr)} {s s' : Span}
      (hfs : List.Forall₂ (RecordField.Alike S (Alike S)) fs fs') (hs : S s s') :
      Alike S (.record fs s) (.record fs' s')
  | extensible {base : String} {fs fs' : List (RecordField TypeExpr)} {s s' : Span}
      (hfs : List.Forall₂ (RecordField.Alike S (Alike S)) fs fs') (hs : S s s') :
      Alike S (.extensible base fs s) (.extensible base fs' s')
  | function {a a' b b' : TypeExpr} {s s' : Span} (ha : Alike S a a') (hb : Alike S b b')
      (hs : S s s') : Alike S (.function a b s) (.function a' b' s')

inductive Variant.Alike (S : Span → Span → Prop) : Variant → Variant → Prop where
  | mk {name : String} {as as' : List TypeExpr} {s s' : Span}
      (has : List.Forall₂ (TypeExpr.Alike S) as as') (hs : S s s') :
      Alike S ⟨name, as, s⟩ ⟨name, as', s'⟩

inductive Declared.Alike (S : Span → Span → Prop) : Declared → Declared → Prop where
  | «alias» {name : String} {parameters : List String} {a a' : TypeExpr} (ha : a.Alike S a') :
      Alike S (.alias name parameters a) (.alias name parameters a')
  | custom {name : String} {parameters : List String} {vs vs' : List Variant}
      (hvs : List.Forall₂ (Variant.Alike S) vs vs') :
      Alike S (.custom name parameters vs) (.custom name parameters vs')
  | value {name : String} {signature signature' : Option TypeExpr}
      (hs : Option.Rel (TypeExpr.Alike S) signature signature') :
      Alike S (.value name signature) (.value name signature')
  | port {name : String} {a a' : TypeExpr} (ha : a.Alike S a') :
      Alike S (.port name a) (.port name a')
  | fixity {associativity : Associativity} {precedence : Nat} {operator function : String} :
      Alike S (.fixity associativity precedence operator function)
        (.fixity associativity precedence operator function)

inductive Declaration.Alike (S : Span → Span → Prop) : Declaration → Declaration → Prop where
  | mk {d d' : Declared} {s s' : Span} (hd : d.Alike S d') (hs : S s s') : Alike S ⟨d, s⟩ ⟨d', s'⟩

inductive Header.Alike (S : Span → Span → Prop) : Header → Header → Prop where
  | mk {kind : ModuleKind} {name : String} {exposed : Exposing} {s s' : Span} (hs : S s s') :
      Alike S ⟨kind, name, exposed, s⟩ ⟨kind, name, exposed, s'⟩

inductive Import.Alike (S : Span → Span → Prop) : Import → Import → Prop where
  | mk {module : String} {shortName : Option String} {exposed : Option Exposing} {s s' : Span}
      (hs : S s s') : Alike S ⟨module, shortName, exposed, s⟩ ⟨module, shortName, exposed, s'⟩

structure SourceFile.Alike (S : Span → Span → Prop) (f f' : SourceFile) : Prop where
  header : Option.Rel (Header.Alike S) f.header f'.header
  imports : List.Forall₂ (Import.Alike S) f.imports f'.imports
  declarations : List.Forall₂ (Declaration.Alike S) f.declarations f'.declarations

def KeepsHulls (S : Span → Span → Prop) : Prop :=
  ∀ a a' b b', S a a' → S b b' → S (a.hull b) (a'.hull b')

variable {S : Span → Span → Prop}

theorem TypeName.alike_ofWord (w : String) {s s' : Span} (hs : S s s') :
    (TypeName.ofWord w s).Alike S (.ofWord w s') := by
  unfold ofWord
  split
  · exact .mk hs
  · exact .mk hs

namespace TypeExpr.Alike

theorem span {a a' : TypeExpr} (h : a.Alike S a') : S a.span a'.span := by
  cases h <;> assumption

theorem withSpan {a a' : TypeExpr} (h : a.Alike S a') {s s' : Span} (hs : S s s') :
    (a.withSpan s).Alike S (a'.withSpan s') := by
  cases h with
  | «variable» => exact .variable hs
  | named hn has => exact .named hn has hs
  | unit => exact .unit hs
  | tuple has => exact .tuple has hs
  | record hfs => exact .record hfs hs
  | extensible hfs => exact .extensible hfs hs
  | function ha hb => exact .function ha hb hs

theorem hullAll (hS : KeepsHulls S) {as as' : List TypeExpr}
    (h : List.Forall₂ (TypeExpr.Alike S) as as') {s s' : Span} (hs : S s s') :
    S (Reader.hullAll s as) (Reader.hullAll s' as') := by
  induction h generalizing s s' with
  | nil => exact hs
  | cons ha _ ih => exact ih (hS _ _ _ _ hs ha.span)

end TypeExpr.Alike

end ElmTypes
