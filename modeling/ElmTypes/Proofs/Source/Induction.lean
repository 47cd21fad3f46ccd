import ElmTypes.Source.TypeExpr

namespace ElmTypes.TypeExpr

@[induction_eliminator]
theorem induction {motive : TypeExpr → Prop}
    (typeVariable : ∀ name s, motive (.variable name s))
    (named : ∀ n arguments s, (∀ a ∈ arguments, motive a) → motive (.named n arguments s))
    (unit : ∀ s, motive (.unit s))
    (tuple : ∀ elements s, (∀ a ∈ elements, motive a) → motive (.tuple elements s))
    (record : ∀ fields s, (∀ f ∈ fields, motive f.type) → motive (.record fields s))
    (extensible : ∀ base fields s, (∀ f ∈ fields, motive f.type) →
      motive (.extensible base fields s))
    (function : ∀ domain codomain s, motive domain → motive codomain →
      motive (.function domain codomain s))
    (e : TypeExpr) : motive e := by
  refine @TypeExpr.rec motive (fun es => ∀ e ∈ es, motive e)
    (fun fields => ∀ f ∈ fields, motive f.type) (fun f => motive f.type)
    typeVariable named unit tuple record extensible function ?_ ?_ ?_ ?_ ?_ e
  · simp
  · intro e es he hes
    simpa using And.intro he hes
  · simp
  · intro f fields hf hfields
    simpa using And.intro hf hfields
  · intro name e s he
    exact he

def parts : TypeExpr → List TypeExpr
  | .variable .. | .unit _ => []
  | .named _ arguments _ => arguments
  | .tuple elements _ => elements
  | .record fields _ | .extensible _ fields _ => fields.map RecordField.type
  | .function domain codomain _ => [domain, codomain]

theorem parts_induction {motive : TypeExpr → Prop}
    (step : ∀ e, (∀ a ∈ e.parts, motive a) → motive e) (e : TypeExpr) : motive e := by
  induction e with
  | typeVariable name s => exact step _ (by simp [parts])
  | unit s => exact step _ (by simp [parts])
  | named n arguments s ih => exact step _ ih
  | tuple elements s ih => exact step _ ih
  | record fields s ih => exact step _ (by simpa [parts] using ih)
  | extensible base fields s ih => exact step _ (by simpa [parts] using ih)
  | function domain codomain s ihd ihc => exact step _ (by simpa [parts] using And.intro ihd ihc)

end ElmTypes.TypeExpr
