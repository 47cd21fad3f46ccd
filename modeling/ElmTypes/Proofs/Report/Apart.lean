import ElmTypes.Proofs.Grammar.Layout
import ElmTypes.Proofs.Position
import ElmTypes.Proofs.Report.Lines

namespace ElmTypes

namespace Span

theorem encloses_self (s : Span) : s.Encloses [s] :=
  ⟨List.forall_mem_singleton.2 ⟨Nat.le_refl _, Nat.le_refl _⟩, List.pairwise_singleton _ _⟩

theorem encloses_nil (s : Span) : s.Encloses [] := ⟨List.forall_mem_nil _, .nil⟩

section

variable {α : Type} {xs : List α} {f : α → Span} {g : α → List Span} {s : Span}

theorem pairwise_flatMap_of_encloses (h : (xs.map f).Pairwise fun p q => p.stop ≤ q.start)
    (hg : ∀ x ∈ xs, (f x).Encloses (g x)) :
    (xs.flatMap g).Pairwise fun p q => p.stop ≤ q.start := by
  refine List.pairwise_flatMap.2 ⟨fun x hx => (hg x hx).ordered, ?_⟩
  refine (List.pairwise_map.1 h).imp_of_mem fun {x y} hx hy hxy p hp q hq => ?_
  have hpx := (hg x hx).inside p hp
  have hqy := (hg y hy).inside q hq
  omega

theorem Encloses.flatMap (h : s.Encloses (xs.map f)) (hg : ∀ x ∈ xs, (f x).Encloses (g x)) :
    s.Encloses (xs.flatMap g) := by
  refine ⟨?_, pairwise_flatMap_of_encloses h.ordered hg⟩
  refine List.forall_mem_flatMap.2 fun x hx p hp => ?_
  have hpx := (hg x hx).inside p hp
  have hxs := h.inside (f x) (List.mem_map_of_mem hx)
  omega

end

end Span

namespace TypeExpr

def HasPartsApart (e : TypeExpr) : Prop := e.span.Encloses (e.parts.map span)

theorem InOrder.hasPartsApart {e : TypeExpr} (h : e.InOrder) : e.HasPartsApart := by
  obtain ⟨hinner, hfields⟩ := h
  have hrecord {s : Span} {fs : List (RecordField TypeExpr)} (h : s.Encloses (fs.map (·.span)))
      (hfs : ∀ f ∈ fs, f.span.Encloses [f.type.span]) :
      s.Encloses ((fs.map RecordField.type).map span) := by
    have hflat := h.flatMap hfs
    rwa [← List.map_eq_flatMap, ← Function.comp_def span, ← List.map_map] at hflat
  cases e with
  | named n arguments s =>
      refine ⟨fun p hp => hinner.inside p (List.mem_cons_of_mem _ hp), ?_⟩
      exact (List.pairwise_cons.1 hinner.ordered).2
  | record fields s => exact hrecord hinner hfields
  | extensible base fields s => exact hrecord hinner hfields
  | _ => exact hinner

theorem HasPartsApart.mapNames {e : TypeExpr} (h : e.HasPartsApart) (f : TypeName → TypeName) :
    (e.mapNames f).HasPartsApart := by
  have hspan : span ∘ TypeExpr.mapNames f = span := funext (span_mapNames f)
  rw [HasPartsApart, parts_mapNames, span_mapNames, List.map_map, hspan]
  exact h

end TypeExpr

namespace DataType

theorem problems_whole_or_parts (e : TypeExpr) :
    (∃ p : Problem, p.span = e.span ∧ (ofTypeExpr e).problems = [p]) ∨
      (ofTypeExpr e).problems = e.parts.flatMap fun a => (ofTypeExpr a).problems := by
  cases e with
  | «variable» name s => exact .inr rfl
  | unit s => exact .inl ⟨_, rfl, rfl⟩
  | extensible base fields s => exact .inl ⟨_, rfl, rfl⟩
  | function domain codomain s => exact .inl ⟨_, rfl, rfl⟩
  | tuple elements s =>
      refine .inr ?_
      rw [ofTypeExpr, Validated.problems_map, problems_ofTypeExprs]
      rfl
  | record fields s =>
      refine .inr ?_
      rw [ofTypeExpr, Validated.problems_map, problems_ofFields]
      rfl
  | named n arguments s =>
      have harguments := problems_ofTypeExprs arguments
      rw [ofTypeExpr]
      cases h : ofTypeExprs arguments with
      | error ps =>
          rw [h] at harguments
          exact .inr harguments
      -- only where the arguments are in order their number is looked at
      | ok ts =>
          rw [h] at harguments
          have hlength := (forall₂_of_ofTypeExprs_eq_ok h).length_eq
          simp only [problems_ofName n s hlength.symm]
          cases hp : Node.problem? (.type (.named n arguments s)) with
          | none => exact .inr harguments
          | some p => exact .inl ⟨p, Node.span_of_problem? hp, rfl⟩

theorem encloses_problems {e : TypeExpr} (h : e.All TypeExpr.HasPartsApart) :
    e.span.Encloses ((ofTypeExpr e).problems.map Problem.span) := by
  induction h with
  | @mk e hparts _ ih =>
      rcases problems_whole_or_parts e with ⟨p, hp, hproblems⟩ | hproblems
      · rw [hproblems, ← hp]
        exact p.span.encloses_self
      · rw [hproblems, List.map_flatMap]
        exact hparts.flatMap ih

end DataType

namespace Declaration

theorem InOrder.encloses_types {d : Declaration} (h : d.InOrder) :
    d.span.Encloses (d.declared.types.map TypeExpr.span) := by
  obtain ⟨declared, s⟩ := d
  obtain ⟨hinner, hvariants, -⟩ := h
  cases declared with
  | custom name parameters variants =>
      rw [Declared.types, List.map_flatMap]
      exact hinner.flatMap fun v hv => (hvariants v hv).inner
  | _ => exact hinner

theorem InOrder.encloses_problems {d : Declaration} (h : d.InOrder) (f : TypeName → TypeName) :
    d.span.Encloses ((TypeDecl.ofDeclaration (d.mapNames f)).problems.map Problem.span) := by
  rw [TypeDecl.problems_ofDeclaration_eq]
  split
  · rw [mapNames, Declared.types_mapNames, List.flatMap_map, List.map_flatMap]
    refine h.encloses_types.flatMap fun e he => ?_
    rw [← TypeExpr.span_mapNames f e]
    apply DataType.encloses_problems
    apply ((h.types e he).mono fun _ => TypeExpr.InOrder.hasPartsApart).mapNames
    exact fun _ he => he.mapNames f
  · cases hp : (Node.declaration (d.mapNames f)).problem? with
    | none => exact d.span.encloses_nil
    | some p =>
        have hspan : p.span = d.span := Node.span_of_problem? hp
        rw [← hspan]
        exact p.span.encloses_self

end Declaration

theorem TypeDecl.pairwise_of_ofFile_eq_error {file : SourceFile} {ps : List Problem}
    (hfile : (file.declarations.map Declaration.span).Pairwise fun p q => p.stop ≤ q.start)
    (hin : ∀ d ∈ file.declarations, d.InOrder) (h : ofFile file.resolve = .error ps) :
    (ps.map Problem.span).Pairwise fun p q => p.stop ≤ q.start := by
  have hps : ps = file.resolve.declarations.flatMap fun d => (ofDeclaration d).problems := by
    rw [← List.flatMap_map, ← Validated.problems_accumulate, ← ofFile, h]
    rfl
  rw [hps, SourceFile.resolve, List.flatMap_map, List.map_flatMap]
  exact Span.pairwise_flatMap_of_encloses hfile fun d hd => (hin d hd).encloses_problems _

theorem Span.pairwise_position {ss : List Span} {text : List Char}
    (h : ss.Pairwise fun s t => s.stop ≤ t.start) (hs : ∀ s ∈ ss, s.Within text.length) :
    (ss.map fun s => s.position text).Pairwise Position.Before := by
  refine List.pairwise_map.2 (h.imp_of_mem fun {s t} hs' ht hst => ?_)
  have hpos := (within_iff.1 (hs s hs')).1
  have hstop := (hs t ht).2
  unfold stop at hst hstop
  apply position_before <;> omega

theorem check_separates_problems {source : String} {ps : List Problem}
    (h : check source = .error (.invalid ps)) :
    (∀ p ∈ ps, 0 < p.span.length) ∧ (ps.Pairwise fun p q => p.span.stop ≤ q.span.start) ∧
      (ps.map fun p => p.span.position source.toList).Pairwise Position.Before ∧
      List.Forall₂ (fun p line => (Failure.place source.toList p.span).toList <+: line.toList) ps
        ((Failure.invalid ps).lines source.toList) := by
  have hwithin : ∀ s ∈ ps.map Problem.span, s.Within source.toList.length := by
    rw [String.length_toList]
    exact (Failure.within_of_check_eq_error h).2
  have hpairwise : (ps.map Problem.span).Pairwise fun p q => p.stop ≤ q.start := by
    unfold check SourceFile.parse at h
    split at h
    · cases h
    · rename_i file hparse
      split at hparse
      · rename_i tokens hl
        split at h
        · rename_i ps' hps
          cases h
          obtain ⟨hfile, hin⟩ :=
            SourceFile.pairwise_of_ofTokens_eq_ok (ordered_of_lex hl) hparse
          exact TypeDecl.pairwise_of_ofFile_eq_error hfile hin hps
        · cases h
      · cases hparse
  refine ⟨?_, List.pairwise_map.1 hpairwise, ?_, ?_⟩
  · exact fun p hp => (Span.within_iff.1 (hwithin _ (List.mem_map_of_mem hp))).1
  · have hpositions := Span.pairwise_position hpairwise hwithin
    rwa [List.map_map] at hpositions
  · have hlines := Failure.forall₂_place_lines source.toList (.invalid ps)
    rw [Failure.spans, List.forall₂_map_left_iff, List.forall₂_map_right_iff] at hlines
    exact hlines

theorem check_separates_problems_nested :
    let source := "type alias A =\n  ( Maybe () Int, Maybe a b )\nport p : ()"
    let ps : List Problem := [⟨.unsupported .unit, ⟨25, 2⟩⟩, ⟨.wrongArity .maybe 2, ⟨33, 9⟩⟩,
      ⟨.unsupported (.declaration "port declaration" "p"), ⟨45, 11⟩⟩]
    check source = .error (.invalid ps) ∧
      (ps.map fun p => p.span.position source.toList) = [⟨2, 11⟩, ⟨2, 19⟩, ⟨3, 1⟩] ∧
      (ps.map fun p => p.span.position source.toList).Pairwise Position.Before := by
  intro source ps
  have hl : lex source = .ok [⟨.word "type", ⟨0, 4⟩, 0⟩, ⟨.word "alias", ⟨5, 5⟩, 5⟩,
      ⟨.word "A", ⟨11, 1⟩, 11⟩, ⟨.symbol .equals, ⟨13, 1⟩, 13⟩, ⟨.opening .round, ⟨17, 1⟩, 2⟩,
      ⟨.word "Maybe", ⟨19, 5⟩, 4⟩, ⟨.opening .round, ⟨25, 1⟩, 10⟩, ⟨.closing .round, ⟨26, 1⟩, 11⟩,
      ⟨.word "Int", ⟨28, 3⟩, 13⟩, ⟨.symbol .comma, ⟨31, 1⟩, 16⟩, ⟨.word "Maybe", ⟨33, 5⟩, 18⟩,
      ⟨.word "a", ⟨39, 1⟩, 24⟩, ⟨.word "b", ⟨41, 1⟩, 26⟩, ⟨.closing .round, ⟨43, 1⟩, 28⟩,
      ⟨.word "port", ⟨45, 4⟩, 0⟩, ⟨.word "p", ⟨50, 1⟩, 5⟩, ⟨.symbol .colon, ⟨52, 1⟩, 7⟩,
      ⟨.opening .round, ⟨54, 1⟩, 9⟩, ⟨.closing .round, ⟨55, 1⟩, 10⟩] := by
    decide +kernel
  have h : check source = .error (.invalid ps) := by
    rw [check, SourceFile.parse, hl]
    rfl
  exact ⟨h, by decide +kernel, (check_separates_problems h).2.2.1⟩

end ElmTypes
