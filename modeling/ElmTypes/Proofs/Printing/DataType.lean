import ElmTypes.DataType.Basic
import ElmTypes.Proofs.Printing.Spelling

namespace ElmTypes

namespace DataType

@[induction_eliminator]
theorem induction {motive : DataType → Prop}
    (record : ∀ fields, (∀ f ∈ fields, motive f.2) → motive (.record fields))
    (tuple : ∀ elements, (∀ t ∈ elements, motive t) → motive (.tuple elements))
    (list : ∀ t, motive t → motive (.list t)) (maybe : ∀ t, motive t → motive (.maybe t))
    (dict : ∀ k v, motive k → motive v → motive (.dict k v))
    (result : ∀ e v, motive e → motive v → motive (.result e v))
    (base : ∀ b arguments, (∀ t ∈ arguments, motive t) → motive (.base b arguments))
    (t : DataType) : motive t := by
  refine @DataType.rec motive (fun fields => ∀ f ∈ fields, motive f.2)
    (fun ts => ∀ t ∈ ts, motive t) (fun f => motive f.2)
    record tuple list maybe dict result base ?_ ?_ ?_ ?_ ?_ t
  · simp
  · intro f fields hf hfields
    exact List.forall_mem_cons.2 ⟨hf, hfields⟩
  · simp
  · intro t ts ht hts
    exact List.forall_mem_cons.2 ⟨ht, hts⟩
  · intro name t ht
    exact ht

end DataType

def TypeName.plain (name : String) : TypeName := ⟨none, name, .empty⟩

def BaseType.isVariable (b : BaseType) (arguments : List DataType) : Bool :=
  arguments.isEmpty && !Word.beginsUppercase b.text

namespace DataType

mutual

def toExpr : DataType → TypeExpr
  | .record fields => .record (fieldExprs fields) .empty
  | .tuple elements => .tuple (exprs elements) .empty
  | .list t => .named (.plain Container.list.name) [t.toExpr] .empty
  | .maybe t => .named (.plain Container.maybe.name) [t.toExpr] .empty
  | .dict k v => .named (.plain Container.dict.name) [k.toExpr, v.toExpr] .empty
  | .result e v => .named (.plain Container.result.name) [e.toExpr, v.toExpr] .empty
  | .base b arguments =>
      if b.isVariable arguments then .variable b.text .empty
      else .named (.plain b.text) (exprs arguments) .empty

def exprs : List DataType → List TypeExpr
  | [] => []
  | t :: ts => t.toExpr :: exprs ts

def fieldExprs : List (String × DataType) → List (RecordField TypeExpr)
  | [] => []
  | (name, t) :: fields => ⟨name, t.toExpr, .empty⟩ :: fieldExprs fields

end

theorem exprs_eq_map (ts : List DataType) : exprs ts = ts.map toExpr := by
  induction ts with
  | nil => rfl
  | cons t ts ih => rw [exprs, ih, List.map_cons]

theorem fieldExprs_eq_map (fields : List (String × DataType)) :
    fieldExprs fields = fields.map fun f => ⟨f.1, f.2.toExpr, .empty⟩ := by
  induction fields with
  | nil => rfl
  | cons f fields ih => rw [fieldExprs, ih, List.map_cons]

theorem toExpr_base_variable {b : BaseType} {arguments : List DataType}
    (h : b.isVariable arguments = true) :
    arguments = [] ∧ (base b arguments).toExpr = .variable b.text .empty := by
  refine ⟨?_, by simp [toExpr, h]⟩
  simp only [BaseType.isVariable, Bool.and_eq_true, List.isEmpty_iff] at h
  exact h.1

theorem toExpr_base_named {b : BaseType} {arguments : List DataType}
    (h : b.isVariable arguments = false) :
    (base b arguments).toExpr = .named (.plain b.text) (arguments.map toExpr) .empty := by
  simp [toExpr, h, exprs_eq_map]

theorem isCompound_toExpr (t : DataType) : t.toExpr.isCompound = t.isCompound := by
  cases t with
  | base b arguments =>
      cases h : b.isVariable arguments with
      | true =>
          obtain ⟨rfl, he⟩ := toExpr_base_variable h
          rw [he]
          rfl
      | false =>
          rw [toExpr_base_named h]
          simp [TypeExpr.isCompound, isCompound]
  | _ => rfl

theorem argumentTexts_map_toExpr {ts : List DataType} (h : ∀ t ∈ ts, t.toExpr.text = t.text) :
    TypeExpr.argumentTexts (ts.map toExpr) = argumentTexts ts := by
  induction ts with
  | nil => rfl
  | cons t ts ih =>
      obtain ⟨ht, hts⟩ := List.forall_mem_cons.1 h
      rw [List.map_cons, TypeExpr.argumentTexts, argumentTexts, isCompound_toExpr, ht, ih hts]

theorem elementTexts_exprs {ts : List DataType} (h : ∀ t ∈ ts, t.toExpr.text = t.text) :
    TypeExpr.elementTexts (exprs ts) = elementTexts ts := by
  induction ts with
  | nil => rfl
  | cons t ts ih =>
      obtain ⟨ht, hts⟩ := List.forall_mem_cons.1 h
      rw [exprs, TypeExpr.elementTexts, elementTexts, ht, ih hts]

theorem fieldTexts_fieldExprs {fields : List (String × DataType)}
    (h : ∀ f ∈ fields, f.2.toExpr.text = f.2.text) :
    TypeExpr.fieldTexts (fieldExprs fields) = fieldTexts fields := by
  induction fields with
  | nil => rfl
  | cons f fields ih =>
      obtain ⟨hf, hfields⟩ := List.forall_mem_cons.1 h
      rw [fieldExprs, TypeExpr.fieldTexts, fieldTexts, hf, ih hfields]

theorem map_erase_map_toExpr {ts : List DataType} (h : ∀ t ∈ ts, t.toExpr.erase = t.toExpr) :
    (ts.map toExpr).map TypeExpr.erase = ts.map toExpr := by
  rw [List.map_map]
  exact List.map_congr_left h

theorem erase_toExpr (t : DataType) : t.toExpr.erase = t.toExpr := by
  induction t with
  | record fields ih =>
      simp only [toExpr, fieldExprs_eq_map, TypeExpr.erase_record, List.map_map]
      congr 1
      refine List.map_congr_left fun f hf => ?_
      simp [TypeExpr.eraseField, ih f hf]
  | tuple elements ih =>
      rw [toExpr, exprs_eq_map, TypeExpr.erase_tuple, map_erase_map_toExpr ih]
  | list t ih | maybe t ih => simp [toExpr, TypeName.plain, ih]
  | dict k v ihk ihv | result k v ihk ihv => simp [toExpr, TypeName.plain, ihk, ihv]
  | base b arguments ih =>
      cases hb : b.isVariable arguments with
      | true => rw [(toExpr_base_variable hb).2, TypeExpr.erase_variable]
      | false =>
          rw [toExpr_base_named hb, TypeExpr.erase_named, map_erase_map_toExpr ih]
          rfl

theorem text_toExpr {t : DataType} (h : t.toExpr.All TypeExpr.WellNamed) :
    t.toExpr.text = t.text := by
  induction t with
  | record fields ih =>
      have hf : ∀ f ∈ fields, f.2.toExpr.text = f.2.text := by
        intro f hf
        refine ih f hf (h.parts _ ?_)
        simp only [toExpr, TypeExpr.parts, fieldExprs_eq_map, List.map_map]
        exact List.mem_map_of_mem hf
      have ht := fieldTexts_fieldExprs hf
      cases fields with
      | nil => rfl
      | cons f fields =>
          rw [toExpr, fieldExprs, TypeExpr.text, ← fieldExprs, ht]
          rfl
  | tuple elements ih =>
      have he : ∀ t ∈ elements, t.toExpr.text = t.text := by
        intro t ht
        refine ih t ht (h.parts _ ?_)
        simp only [toExpr, TypeExpr.parts, exprs_eq_map]
        exact List.mem_map_of_mem ht
      have ht := elementTexts_exprs he
      cases elements with
      | nil => exact absurd h.self (by simp [toExpr, exprs, TypeExpr.WellNamed])
      | cons t ts =>
          rw [toExpr, TypeExpr.text, ht]
          rfl
  | list t ih | maybe t ih =>
      have ht := ih (h.parts _ (by simp [toExpr, TypeExpr.parts]))
      rw [toExpr, TypeExpr.text, TypeExpr.argumentTexts, TypeExpr.argumentTexts,
        isCompound_toExpr, ht]
      rfl
  | dict k v ihk ihv | result k v ihk ihv =>
      have hk := ihk (h.parts _ (by simp [toExpr, TypeExpr.parts]))
      have hv := ihv (h.parts _ (by simp [toExpr, TypeExpr.parts]))
      rw [toExpr, TypeExpr.text, TypeExpr.argumentTexts, TypeExpr.argumentTexts,
        TypeExpr.argumentTexts, isCompound_toExpr, isCompound_toExpr, hk, hv]
      rfl
  | base b arguments ih =>
      cases hb : b.isVariable arguments with
      | true =>
          obtain ⟨rfl, he⟩ := toExpr_base_variable hb
          rw [he]
          simp [TypeExpr.text, text, argumentTexts, applied]
      | false =>
          rw [toExpr_base_named hb] at h ⊢
          have ha : ∀ t ∈ arguments, t.toExpr.text = t.text :=
            fun t ht => ih t ht (h.parts _ (List.mem_map_of_mem ht))
          rw [TypeExpr.text, argumentTexts_map_toExpr ha]
          rfl

end DataType

end ElmTypes
