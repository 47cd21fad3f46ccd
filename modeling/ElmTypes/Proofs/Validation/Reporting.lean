import ElmTypes.Proofs.Validation.Nodes
import ElmTypes.Proofs.Validation.Translation

namespace ElmTypes

namespace Visit

def report? (v : Visit) : Option Problem := if v.isReported then v.node.problem? else none

theorem forall₂_problem?_reports (vs : List Visit) :
    List.Forall₂ (fun v p => v.node.problem? = some p) (vs.filter isReported)
      (vs.filterMap report?) := by
  induction vs with
  | nil => exact .nil
  | cons v vs ih =>
      cases h : v.isReported with
      | false => simpa [report?, h] using ih
      | true =>
          have ho : v.node.isOffending = true := by
            simp only [isReported, Bool.and_eq_true] at h
            exact h.1.1
          obtain ⟨p, hp⟩ := Option.isSome_iff_exists.1 ho
          simpa [report?, h, hp] using ih

theorem report?_eq_none_of_isOpaque {v : Visit} {n : Node} (hn : n ∈ v.around)
    (h : n.isOpaque = true) : v.report? = none := by
  have ha : v.around.all (!·.isOpaque) = false := by
    simpa using ⟨n, hn, h⟩
  simp [report?, isReported, ha]

end Visit

namespace TypeExpr

theorem suffix_around_of_mem_visits {e : TypeExpr} {around : List Node} {v : Visit}
    (h : v ∈ e.visits around) : around <:+ v.around := by
  induction e using parts_induction generalizing around with
  | step e ih =>
      rw [visits_eq_cons, List.mem_cons, List.mem_flatMap] at h
      rcases h with rfl | ⟨a, ha, hv⟩
      · exact List.suffix_rfl
      · exact (List.suffix_cons _ _).trans (ih a ha hv)

theorem filterMap_report?_eq_nil {around : List Node} (e : TypeExpr) {n : Node} (hn : n ∈ around)
    (h : n.isOpaque = true) : (e.visits around).filterMap Visit.report? = [] := by
  rw [List.filterMap_eq_nil_iff]
  intro v hv
  exact Visit.report?_eq_none_of_isOpaque ((suffix_around_of_mem_visits hv).subset hn) h

theorem map_node_visits (e : TypeExpr) (around around' : List Node) :
    (e.visits around).map Visit.node = (e.visits around').map Visit.node := by
  induction e using parts_induction generalizing around around' with
  | step e ih =>
      rw [visits_eq_cons, visits_eq_cons around' e, List.map_cons, List.map_cons, List.map_flatMap,
        List.map_flatMap]
      congr 1
      exact List.flatMap_congr fun a ha => ih a ha _ _

def IsClean (e : TypeExpr) : Prop := ∀ v ∈ e.visits [], v.node.isOffending = false

theorem forall_isOffending_iff_isClean (e : TypeExpr) (around : List Node) :
    (∀ v ∈ e.visits around, v.node.isOffending = false) ↔ e.IsClean := by
  have h := map_node_visits e around []
  have hiff (vs : List Visit) : (∀ v ∈ vs, v.node.isOffending = false) ↔
      ∀ n ∈ vs.map Visit.node, n.isOffending = false := by simp
  rw [IsClean, hiff, hiff, h]

theorem isClean_iff (e : TypeExpr) :
    e.IsClean ↔ (Node.type e).isOffending = false ∧ ∀ a ∈ e.parts, a.IsClean := by
  have hp : (∀ v ∈ e.parts.flatMap (visits [.type e]), v.node.isOffending = false) ↔
      ∀ a ∈ e.parts, a.IsClean := by
    rw [List.forall_mem_flatMap]
    exact forall₂_congr fun a _ => forall_isOffending_iff_isClean a _
  rw [IsClean, visits_eq_cons, List.forall_mem_cons, hp]

end TypeExpr

namespace DataType

theorem problems_ofTypeExprs (es : List TypeExpr) :
    (ofTypeExprs es).problems = es.flatMap fun e => (ofTypeExpr e).problems := by
  rw [ofTypeExprs_eq_accumulate, Validated.problems_accumulate, List.flatMap_map]

theorem problems_ofFields (fields : List (RecordField TypeExpr)) :
    (ofFields fields).problems =
      (fields.map RecordField.type).flatMap fun e => (ofTypeExpr e).problems := by
  rw [ofFields_eq_accumulate, Validated.problems_accumulate, List.flatMap_map, List.flatMap_map]
  exact List.flatMap_congr fun f _ => Validated.problems_map _ _

theorem problems_ofName (n : TypeName) {arguments : List TypeExpr} {ts : List DataType} (s : Span)
    (h : ts.length = arguments.length) :
    (ofName n ts s).problems = (Node.problem? (.type (.named n arguments s))).toList := by
  rw [ofName, Node.problem?]
  cases Container.ofTypeName? n with
  | none => rfl
  | some c =>
      by_cases hc : arguments.length = c.arity
      · have hs := (Container.isSome_saturated? c ts).2 (h.trans hc)
        obtain ⟨t, ht⟩ := Option.isSome_iff_exists.1 hs
        simp [ht, hc, Validated.problems]
      · have hs : c.saturated? ts = none := by
          rw [← Option.not_isSome_iff_eq_none, Container.isSome_saturated?, h]
          exact hc
        simp [hs, hc, h, Validated.problems]

theorem problems_ofTypeExpr_eq_nil_iff (e : TypeExpr) :
    (ofTypeExpr e).problems = [] ↔ e.IsClean := by
  induction e with
  | typeVariable name s =>
      rw [TypeExpr.isClean_iff]
      simp [TypeExpr.parts, Node.isOffending, Node.problem?, ofTypeExpr, Validated.problems]
  | unit s =>
      rw [TypeExpr.isClean_iff]
      simp [Node.isOffending, Node.problem?, ofTypeExpr, Validated.problems]
  | extensible base fields s _ =>
      rw [TypeExpr.isClean_iff]
      simp [Node.isOffending, Node.problem?, ofTypeExpr, Validated.problems]
  | function domain codomain s _ _ =>
      rw [TypeExpr.isClean_iff]
      simp [Node.isOffending, Node.problem?, ofTypeExpr, Validated.problems]
  | tuple elements s ih =>
      rw [TypeExpr.isClean_iff, ofTypeExpr, Validated.problems_map, problems_ofTypeExprs,
        List.flatMap_eq_nil_iff, forall₂_congr ih]
      simp [TypeExpr.parts, Node.isOffending, Node.problem?]
  | record fields s ih =>
      rw [TypeExpr.isClean_iff, ofTypeExpr, Validated.problems_map, problems_ofFields,
        List.flatMap_eq_nil_iff, List.forall_mem_map, forall₂_congr ih]
      simp [TypeExpr.parts, Node.isOffending, Node.problem?]
  | named n arguments s ih =>
      have ha : (ofTypeExprs arguments).problems = [] ↔ ∀ a ∈ arguments, a.IsClean := by
        rw [problems_ofTypeExprs, List.flatMap_eq_nil_iff]
        exact forall₂_congr ih
      rw [TypeExpr.isClean_iff, ofTypeExpr]
      cases h : ofTypeExprs arguments with
      | error ps =>
          have hn : ps ≠ [] := fun hp => ofTypeExprs_ne_error_nil arguments (hp ▸ h)
          have hc : ¬ ∀ a ∈ arguments, a.IsClean := fun hc => hn (h ▸ ha.2 hc :)
          exact iff_of_false hn fun hp => hc hp.2
      | ok ts =>
          have hl := (forall₂_of_ofTypeExprs_eq_ok h).length_eq
          have hc : ∀ a ∈ arguments, a.IsClean := ha.1 (by rw [h]; rfl)
          simp only [problems_ofName n s hl.symm, Node.isOffending, Option.toList_eq_nil_iff,
            Option.isSome_eq_false_iff, Option.isNone_iff_eq_none]
          exact ⟨fun hp => ⟨hp, hc⟩, fun hp => hp.1⟩

theorem filterMap_report?_visits (e : TypeExpr) (around : List Node) :
    (e.visits around).filterMap Visit.report? =
      (Visit.report? ⟨.type e, around⟩).toList ++
        e.parts.flatMap fun a => (a.visits (.type e :: around)).filterMap Visit.report? := by
  rw [TypeExpr.visits_eq_cons, List.filterMap_cons, List.filterMap_flatMap]
  cases Visit.report? ⟨.type e, around⟩ <;> rfl

theorem report?_of_around {e : TypeExpr} {around : List Node}
    (h : ∀ n ∈ around, n.isOpaque = false) (hd : Visit.isDeferred ⟨.type e, around⟩ = false) :
    Visit.report? ⟨.type e, around⟩ = Node.problem? (.type e) := by
  have ha : around.all (!·.isOpaque) = true := by simpa using h
  cases hp : Node.problem? (.type e) <;>
    simp [Visit.report?, Visit.isReported, Node.isOffending, ha, hd, hp]

theorem isDeferred_eq_false_iff (n : TypeName) (arguments : List TypeExpr) (s : Span)
    (around : List Node) :
    Visit.isDeferred ⟨.type (.named n arguments s), around⟩ = false ↔
      ∀ a ∈ arguments, a.IsClean := by
  simp only [Visit.isDeferred, List.any_eq_false, TypeExpr.visitsAll_eq_flatMap,
    Bool.not_eq_true, List.forall_mem_flatMap, TypeExpr.IsClean]

theorem problems_ofTypeExpr (e : TypeExpr) {around : List Node}
    (h : ∀ n ∈ around, n.isOpaque = false) :
    (ofTypeExpr e).problems = (e.visits around).filterMap Visit.report? := by
  induction e generalizing around with
  | typeVariable name s =>
      rw [filterMap_report?_visits, report?_of_around h rfl]
      rfl
  | unit s =>
      rw [filterMap_report?_visits, report?_of_around h rfl]
      rfl
  | extensible base fields s _ =>
      have hi : ∀ a ∈ (TypeExpr.extensible base fields s).parts,
          (a.visits (.type (.extensible base fields s) :: around)).filterMap Visit.report? = [] :=
        fun a _ => a.filterMap_report?_eq_nil (List.mem_cons_self ..) rfl
      rw [filterMap_report?_visits, report?_of_around h rfl, List.flatMap_eq_nil_iff.2 hi]
      rfl
  | function domain codomain s _ _ =>
      have hi : ∀ a ∈ (TypeExpr.function domain codomain s).parts,
          (a.visits (.type (.function domain codomain s) :: around)).filterMap Visit.report? = [] :=
        fun a _ => a.filterMap_report?_eq_nil (List.mem_cons_self ..) rfl
      rw [filterMap_report?_visits, report?_of_around h rfl, List.flatMap_eq_nil_iff.2 hi]
      rfl
  | tuple elements s ih =>
      have hi : ∀ n ∈ Node.type (.tuple elements s) :: around, n.isOpaque = false := by
        simpa [Node.isOpaque] using h
      rw [filterMap_report?_visits, report?_of_around h rfl, ofTypeExpr, Validated.problems_map,
        problems_ofTypeExprs]
      exact List.flatMap_congr fun a ha => ih a ha hi
  | record fields s ih =>
      have hi : ∀ n ∈ Node.type (.record fields s) :: around, n.isOpaque = false := by
        simpa [Node.isOpaque] using h
      rw [filterMap_report?_visits, report?_of_around h rfl, ofTypeExpr, Validated.problems_map,
        problems_ofFields]
      refine List.flatMap_congr fun a ha => ?_
      obtain ⟨f, hf, rfl⟩ := List.mem_map.1 ha
      exact ih f hf hi
  | named n arguments s ih =>
      have hi : ∀ m ∈ Node.type (.named n arguments s) :: around, m.isOpaque = false := by
        simpa [Node.isOpaque] using h
      have hp : (ofTypeExprs arguments).problems = arguments.flatMap fun a =>
          (a.visits (.type (.named n arguments s) :: around)).filterMap Visit.report? := by
        rw [problems_ofTypeExprs]
        exact List.flatMap_congr fun a ha => ih a ha hi
      have hc : (ofTypeExprs arguments).problems = [] ↔ ∀ a ∈ arguments, a.IsClean := by
        rw [problems_ofTypeExprs, List.flatMap_eq_nil_iff]
        exact forall₂_congr fun a _ => problems_ofTypeExpr_eq_nil_iff a
      rw [filterMap_report?_visits, TypeExpr.parts, ← hp, ofTypeExpr]
      cases ha : ofTypeExprs arguments with
      | error ps =>
          have hd : Visit.isDeferred ⟨.type (.named n arguments s), around⟩ = true := by
            have hn : ps ≠ [] := fun hp => ofTypeExprs_ne_error_nil arguments (hp ▸ ha)
            rw [ha, ← isDeferred_eq_false_iff n arguments s around] at hc
            simpa using mt hc.2 hn
          simp [Visit.report?, Visit.isReported, hd, Validated.problems]
      | ok ts =>
          have hl := (forall₂_of_ofTypeExprs_eq_ok ha).length_eq
          have hd := (isDeferred_eq_false_iff n arguments s around).2 (hc.1 (by rw [ha]; rfl))
          rw [report?_of_around h hd, ← problems_ofName n s hl.symm]
          simp [Validated.problems]

end DataType

namespace TypeDecl

open DataType

theorem problems_ofVariants (vs : List Variant) :
    (Validated.accumulate (vs.map Constructor.ofVariant)).problems =
      (vs.flatMap Variant.arguments).flatMap fun e => (ofTypeExpr e).problems := by
  rw [Validated.problems_accumulate, List.flatMap_map, List.flatMap_assoc]
  refine List.flatMap_congr fun v _ => ?_
  rw [Constructor.ofVariant, Validated.problems_map, problems_ofTypeExprs]

theorem problems_ofDeclaration_eq (d : Declaration) :
    (ofDeclaration d).problems =
      if d.declared.typeName?.isSome ∧ (Node.declaration d).isOffending = false then
        d.declared.types.flatMap fun e => (ofTypeExpr e).problems
      else (Node.declaration d).problem?.toList := by
  rcases d with ⟨⟨name, parameters, e⟩ | ⟨name, parameters, vs⟩ | _ | _ | _, s⟩
  · simp [ofDeclaration, Declared.typeName?, Node.isOffending, Node.problem?, Declared.types,
      Validated.problems_map]
  · cases vs with
    | nil => rfl
    | cons v vs =>
        have hp := problems_ofVariants (v :: vs)
        simp only [Declared.typeName?, Node.isOffending, Node.problem?, Option.isSome_some,
          Option.isSome_none, and_self, if_true, Declared.types, ← hp]
        simp only [ofDeclaration]
        cases hc : Validated.accumulate ((v :: vs).map Constructor.ofVariant) with
        | error ps => rfl
        | ok cs =>
            cases forall₂_of_accumulate_ofVariant hc with
            | cons => rfl
  all_goals rfl

theorem problems_ofDeclaration (d : Declaration) :
    (ofDeclaration d).problems = d.visits.filterMap Visit.report? := by
  have hd : Visit.report? ⟨.declaration d, []⟩ = (Node.declaration d).problem? := by
    cases hp : (Node.declaration d).problem? <;>
      simp [Visit.report?, Visit.isReported, Visit.isDeferred, Node.isOffending, hp]
  have hv : d.visits.filterMap Visit.report? = (Node.declaration d).problem?.toList ++
      d.declared.types.flatMap fun e => (e.visits [.declaration d]).filterMap Visit.report? := by
    rw [Declaration.visits, List.filterMap_cons, hd, TypeExpr.visitsAll_eq_flatMap,
      List.filterMap_flatMap]
    cases (Node.declaration d).problem? <;> rfl
  rw [hv, problems_ofDeclaration_eq]
  split
  · rename_i h
    have hn : (Node.declaration d).problem? = none := by simpa [Node.isOffending] using h.2
    rw [hn]
    refine List.flatMap_congr fun e _ => problems_ofTypeExpr e ?_
    simpa [Node.isOpaque] using h.1
  · rename_i h
    -- nothing inside the declaration is seen: it is no type declaration, or it has no parts
    have hi : d.declared.types.flatMap
        (fun e => (e.visits [.declaration d]).filterMap Visit.report?) = [] := by
      rw [List.flatMap_eq_nil_iff]
      intro e he
      refine e.filterMap_report?_eq_nil (List.mem_singleton_self _) ?_
      rcases d with ⟨_ | ⟨_, _, _ | _⟩ | _ | _ | _, s⟩ <;>
        simp_all [Node.isOffending, Node.problem?, Node.isOpaque, Declared.typeName?,
          Declared.types]
    rw [hi, List.append_nil]

theorem problems_ofFile (f : SourceFile) :
    (ofFile f).problems = f.visits.filterMap Visit.report? := by
  rw [ofFile, Validated.problems_accumulate, List.flatMap_map, SourceFile.visits,
    List.filterMap_flatMap]
  exact List.flatMap_congr fun d _ => problems_ofDeclaration d

end TypeDecl

end ElmTypes
