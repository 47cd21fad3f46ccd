import ElmTypes.Proofs.Comparison.Declaration
import ElmTypes.Proofs.Source.Parts

namespace ElmTypes

def Variant.mapSpans (f : Span → Span) (v : Variant) : Variant :=
  ⟨v.name, v.arguments.map (TypeExpr.mapSpans f), f v.span⟩

def Declared.mapSpans (f : Span → Span) : Declared → Declared
  | .alias name parameters type => .alias name parameters (type.mapSpans f)
  | .custom name parameters variants => .custom name parameters (variants.map (Variant.mapSpans f))
  | .value name signature => .value name (signature.map (TypeExpr.mapSpans f))
  | .port name type => .port name (type.mapSpans f)
  | .fixity associativity precedence operator function =>
      .fixity associativity precedence operator function

def Declaration.mapSpans (f : Span → Span) (d : Declaration) : Declaration :=
  ⟨d.declared.mapSpans f, f d.span⟩

theorem eq_map_of_forall₂ {α β : Type} {R : α → β → Prop} {f : α → β} {as : List α} {bs : List β}
    (h : List.Forall₂ R as bs) (hR : ∀ a ∈ as, ∀ b, R a b → b = f a) : bs = as.map f := by
  induction h with
  | nil => rfl
  | @cons a b as bs hab _ ih =>
      obtain ⟨ha, has⟩ := List.forall_mem_cons.1 hR
      rw [List.map_cons, ← ha b hab, ← ih has]

section

variable {f : Span → Span}

theorem TypeExpr.Alike.eq_mapSpans {a a' : TypeExpr} (h : a.Alike (fun s s' => s' = f s) a') :
    a' = a.mapSpans f := by
  have hfields {fs fs' : List (RecordField TypeExpr)}
      (h : List.Forall₂ (RecordField.Alike (fun s s' => s' = f s)
        (TypeExpr.Alike fun s s' => s' = f s)) fs fs')
      (ih : ∀ r ∈ fs, ∀ {a' : TypeExpr}, r.type.Alike (fun s s' => s' = f s) a' →
        a' = r.type.mapSpans f) : fs' = mapSpansFields f fs := by
    rw [mapSpansFields_eq_map]
    apply eq_map_of_forall₂ h
    rintro _ hr _ ⟨ha, rfl⟩
    rw [ih _ hr ha]
  induction a generalizing a' with
  | typeVariable name s =>
      cases h with
      | «variable» hs => rw [mapSpans, hs]
  | named n arguments s ih =>
      cases h with
      | named hn has hs =>
          cases hn with
          | mk hn =>
              have harguments := eq_map_of_forall₂ has fun a ha b hab => ih a ha hab
              rw [mapSpans, mapSpansAll_eq_map, harguments, hs, hn]
  | unit s =>
      cases h with
      | unit hs => rw [mapSpans, hs]
  | tuple elements s ih =>
      cases h with
      | tuple has hs =>
          have helements := eq_map_of_forall₂ has fun a ha b hab => ih a ha hab
          rw [mapSpans, mapSpansAll_eq_map, helements, hs]
  | record fields s ih =>
      cases h with
      | record hfs hs => rw [mapSpans, hfields hfs ih, hs]
  | extensible base fields s ih =>
      cases h with
      | extensible hfs hs => rw [mapSpans, hfields hfs ih, hs]
  | function domain codomain s ihd ihc =>
      cases h with
      | function ha hb hs => rw [mapSpans, ihd ha, ihc hb, hs]

theorem Variant.Alike.eq_mapSpans {v v' : Variant} (h : v.Alike (fun s s' => s' = f s) v') :
    v' = v.mapSpans f := by
  cases h with
  | mk has hs =>
      have harguments := eq_map_of_forall₂ has fun _ _ _ ha => ha.eq_mapSpans
      rw [mapSpans, harguments, hs]

theorem Declared.Alike.eq_mapSpans {d d' : Declared} (h : d.Alike (fun s s' => s' = f s) d') :
    d' = d.mapSpans f := by
  cases h with
  | «alias» ha => rw [mapSpans, ha.eq_mapSpans]
  | custom hvs =>
      have hvariants := eq_map_of_forall₂ hvs fun _ _ _ hv => hv.eq_mapSpans
      rw [mapSpans, hvariants]
  | value hs =>
      cases hs with
      | none => rfl
      | some ha => rw [mapSpans, ha.eq_mapSpans, Option.map_some]
  | port ha => rw [mapSpans, ha.eq_mapSpans]
  | fixity => rfl

theorem Declaration.Alike.eq_mapSpans {d d' : Declaration}
    (h : d.Alike (fun s s' => s' = f s) d') : d' = d.mapSpans f := by
  cases h with
  | mk hd hs => rw [mapSpans, hd.eq_mapSpans, hs]

end

theorem Span.shift_zero : Span.shift 0 = id := by
  funext s
  simp [shift]

theorem TypeExpr.mapSpans_id (e : TypeExpr) : e.mapSpans id = e := by
  have hfields {fields : List (RecordField TypeExpr)}
      (ih : ∀ f ∈ fields, f.type.mapSpans id = f.type) : mapSpansFields id fields = fields := by
    rw [mapSpansFields_eq_map]
    refine (List.map_congr_left fun f hf => ?_).trans (List.map_id' fields)
    rw [ih f hf]
    rfl
  induction e with
  | typeVariable name s => rfl
  | named n arguments s ih =>
      rw [mapSpans, mapSpansAll_eq_map, List.map_congr_left ih, List.map_id']
      rfl
  | unit s => rfl
  | tuple elements s ih =>
      rw [mapSpans, mapSpansAll_eq_map, List.map_congr_left ih, List.map_id']
      rfl
  | record fields s ih =>
      rw [mapSpans, hfields ih]
      rfl
  | extensible base fields s ih =>
      rw [mapSpans, hfields ih]
      rfl
  | function domain codomain s ihd ihc =>
      rw [mapSpans, ihd, ihc]
      rfl

theorem map_eq_self {α : Type} {f : α → α} (h : ∀ a, f a = a) (as : List α) : as.map f = as := by
  rw [funext h, List.map_id']

theorem Variant.mapSpans_id (v : Variant) : v.mapSpans id = v := by
  rw [mapSpans, map_eq_self TypeExpr.mapSpans_id]
  rfl

theorem Declaration.mapSpans_id (d : Declaration) : d.mapSpans id = d := by
  obtain ⟨d, s⟩ := d
  have hd : d.mapSpans id = d := by
    cases d with
    | «alias» name parameters a => rw [Declared.mapSpans, TypeExpr.mapSpans_id]
    | custom name parameters vs => rw [Declared.mapSpans, map_eq_self Variant.mapSpans_id]
    | value name signature =>
        cases signature with
        | none => rfl
        | some a => rw [Declared.mapSpans, Option.map_some, TypeExpr.mapSpans_id]
    | port name a => rw [Declared.mapSpans, TypeExpr.mapSpans_id]
    | fixity => rfl
  rw [mapSpans, hd]
  rfl

theorem keepsHulls_shift (n : Nat) : KeepsHulls fun s s' => s' = s.shift n := by
  rintro a _ b _ rfl rfl
  exact Span.hull_shift n a b

namespace Pairing

def shifted (n : Nat) (rest : List Token)
    (starts : ∀ t ∈ rest.head?, t.startsDeclaration = true) (fresh : Nat) (h : 0 < fresh) :
    Pairing where
  same s s' := s' = s.shift n
  keepsHulls := keepsHulls_shift n
  rest := rest
  starts := starts
  fresh := fresh
  fresh_pos := h

theorem Ahead.of_forall₂ {p : Pairing} {ts us : List Token} (h : List.Forall₂ p.Like ts us) :
    p.Ahead ts (us ++ p.rest) := by
  induction h with
  | nil => exact .done
  | cons ht _ ih => exact .cons ht ih

end Pairing

end ElmTypes
