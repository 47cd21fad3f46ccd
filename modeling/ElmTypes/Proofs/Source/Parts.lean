import ElmTypes.Proofs.Source.Induction

namespace ElmTypes.TypeExpr

inductive All (P : TypeExpr → Prop) : TypeExpr → Prop where
  | mk {e : TypeExpr} (hp : P e) (hs : ∀ a ∈ e.parts, All P a) : All P e

section

variable {P Q : TypeExpr → Prop} {e : TypeExpr}

theorem All.self (h : e.All P) : P e := by
  cases h with
  | mk hp _ => exact hp

theorem All.parts (h : e.All P) : ∀ a ∈ e.parts, a.All P := by
  cases h with
  | mk _ hs => exact hs

theorem All.mono (h : e.All P) (hpq : ∀ e, P e → Q e) : e.All Q := by
  induction h with
  | mk hp _ ih => exact .mk (hpq _ hp) ih

theorem parts_withSpan (s : Span) (e : TypeExpr) : (e.withSpan s).parts = e.parts := by
  cases e <;> rfl

theorem mapNamesFields_eq_map (f : TypeName → TypeName) (fs : List (RecordField TypeExpr)) :
    mapNamesFields f fs = fs.map fun field => { field with type := field.type.mapNames f } := by
  induction fs with
  | nil => rfl
  | cons field fs ih => simp [mapNamesFields, ih]

theorem parts_mapNames (f : TypeName → TypeName) (e : TypeExpr) :
    (e.mapNames f).parts = e.parts.map (mapNames f) := by
  cases e <;> simp [mapNames, parts, mapNamesAll_eq_map, mapNamesFields_eq_map]

theorem All.mapNames (h : e.All P) (f : TypeName → TypeName)
    (hpq : ∀ e, P e → Q (e.mapNames f)) : (e.mapNames f).All Q := by
  induction h with
  | mk hp _ ih =>
      refine .mk (hpq _ hp) ?_
      rw [parts_mapNames]
      exact List.forall_mem_map.2 ih

end

mutual

def mapSpans (f : Span → Span) : TypeExpr → TypeExpr
  | .variable name s => .variable name (f s)
  | .named n arguments s =>
      .named { n with span := f n.span } (mapSpansAll f arguments) (f s)
  | .unit s => .unit (f s)
  | .tuple elements s => .tuple (mapSpansAll f elements) (f s)
  | .record fields s => .record (mapSpansFields f fields) (f s)
  | .extensible base fields s => .extensible base (mapSpansFields f fields) (f s)
  | .function domain codomain s => .function (domain.mapSpans f) (codomain.mapSpans f) (f s)

def mapSpansAll (f : Span → Span) : List TypeExpr → List TypeExpr
  | [] => []
  | e :: es => e.mapSpans f :: mapSpansAll f es

def mapSpansFields (f : Span → Span) : List (RecordField TypeExpr) → List (RecordField TypeExpr)
  | [] => []
  | ⟨name, e, s⟩ :: fields => ⟨name, e.mapSpans f, f s⟩ :: mapSpansFields f fields

end

theorem mapSpansAll_eq_map (f : Span → Span) (es : List TypeExpr) :
    mapSpansAll f es = es.map (mapSpans f) := by
  induction es with
  | nil => rfl
  | cons e es ih => simp [mapSpansAll, ih]

theorem mapSpansFields_eq_map (f : Span → Span) (fs : List (RecordField TypeExpr)) :
    mapSpansFields f fs = fs.map fun r => ⟨r.name, r.type.mapSpans f, f r.span⟩ := by
  induction fs with
  | nil => rfl
  | cons r fs ih => simp [mapSpansFields, ih]

def erase (e : TypeExpr) : TypeExpr := e.mapSpans fun _ => .empty

theorem erase_withSpan (s : Span) (e : TypeExpr) : (e.withSpan s).erase = e.erase := by
  cases e <;> rfl

def eraseField (f : RecordField TypeExpr) : RecordField TypeExpr := ⟨f.name, f.type.erase, .empty⟩

@[simp] theorem erase_variable (name : String) (s : Span) :
    (TypeExpr.variable name s).erase = .variable name .empty := rfl

@[simp] theorem erase_named (n : TypeName) (arguments : List TypeExpr) (s : Span) :
    (named n arguments s).erase =
      .named { n with span := .empty } (arguments.map erase) .empty := by
  rw [erase, mapSpans, mapSpansAll_eq_map]
  rfl

@[simp] theorem erase_unit (s : Span) : (unit s).erase = .unit .empty := rfl

@[simp] theorem erase_tuple (elements : List TypeExpr) (s : Span) :
    (tuple elements s).erase = .tuple (elements.map erase) .empty := by
  rw [erase, mapSpans, mapSpansAll_eq_map]
  rfl

@[simp] theorem erase_record (fields : List (RecordField TypeExpr)) (s : Span) :
    (record fields s).erase = .record (fields.map eraseField) .empty := by
  rw [erase, mapSpans, mapSpansFields_eq_map]
  rfl

@[simp] theorem erase_extensible (base : String) (fields : List (RecordField TypeExpr)) (s : Span) :
    (extensible base fields s).erase = .extensible base (fields.map eraseField) .empty := by
  rw [erase, mapSpans, mapSpansFields_eq_map]
  rfl

@[simp] theorem erase_function (domain codomain : TypeExpr) (s : Span) :
    (function domain codomain s).erase = .function domain.erase codomain.erase .empty := rfl

end ElmTypes.TypeExpr
