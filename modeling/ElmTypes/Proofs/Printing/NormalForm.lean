import ElmTypes.Proofs.Printing.Declaration
import ElmTypes.Proofs.Printing.Resolution

namespace ElmTypes

open Lexeme

def TypeDecl.nodes : TypeDecl → List DataType
  | .alias _ _ type => type.nodes
  | .custom _ _ first rest => (first :: rest).flatMap fun c => c.arguments.flatMap DataType.nodes

def normalForm (types : List TypeDecl) : String := "\n".intercalate (types.map TypeDecl.text)

/-- Every built-in name means one thing only: the built-in type, if the name is not declared, or
else the declared one. -/
def Unambiguous (types : List TypeDecl) : Prop :=
  ∀ name ∈ builtinNames,
    (name ∉ types.map TypeDecl.name ∧
      ∀ t ∈ types.flatMap TypeDecl.nodes, t.otherName? ≠ some name) ∨
    (name ∈ types.map TypeDecl.name ∧
      ∀ t ∈ types.flatMap TypeDecl.nodes, t.builtinName? ≠ some name)

instance (types : List TypeDecl) : Decidable (Unambiguous types) :=
  inferInstanceAs (Decidable (∀ name ∈ builtinNames, _ ∨ _))

theorem DataType.builtinName?_mem {t : DataType} {name : String} (h : t.builtinName? = some name) :
    name ∈ builtinNames := by
  cases t with
  | base b arguments => cases b <;> cases h <;> decide
  | record | tuple => cases h
  | list | maybe | dict | result =>
      cases h
      decide

theorem Unambiguous.resolves {types : List TypeDecl} (h : Unambiguous types) :
    ∀ t ∈ types.flatMap TypeDecl.nodes, t.Resolves (types.map TypeDecl.name) := by
  intro t ht
  refine ⟨fun name hname => ?_, fun name hname => ?_⟩
  · rcases h name (DataType.builtinName?_mem hname) with ⟨hd, -⟩ | ⟨-, hd⟩
    · exact hd
    · exact absurd hname (hd t ht)
  · by_cases hb : name ∈ builtinNames
    · rcases h name hb with ⟨-, hd⟩ | ⟨hd, -⟩
      · exact absurd hname (hd t ht)
      · exact .inl hd
    · exact .inr hb

theorem lexFrom_normalForm {types : List TypeDecl} (h : ∀ t ∈ types, t.WellNamed) (offset : Nat) :
    ∃ tss, List.Forall₂ TypeDecl.LinedUp tss types ∧
      lexFrom 0 offset 0 (normalForm types).toList = .ok tss.flatten := by
  induction types generalizing offset with
  | nil => exact ⟨[], .nil, rfl⟩
  | cons t types ih =>
      obtain ⟨ht, hts⟩ := List.forall_mem_cons.1 h
      cases types with
      | nil =>
          obtain ⟨ts, hts, hl⟩ := ht.lexFrom_text offset delimits_nil rfl
          refine ⟨[ts], .cons hts .nil, ?_⟩
          simpa [normalForm] using hl
      | cons u types =>
          obtain ⟨tss, htss, hl⟩ := ih hts (offset + t.text.length + 1)
          have hline := (lexFrom_lineFeed (offset + t.text.length) t.text.length _).trans hl
          obtain ⟨ts, hts, hl⟩ := ht.lexFrom_text offset (delimits_cons (by decide) _) hline
          refine ⟨ts :: tss, .cons hts htss, ?_⟩
          have hn : (normalForm (t :: u :: types)).toList =
              t.text.toList ++ '\n' :: (normalForm (u :: types)).toList := by
            simp [normalForm, String.toList_intercalate]
          rw [hn]
          exact hl

section

variable {declared : List String}

theorem Constructor.ofVariant_of_isWrittenAs {c : Constructor} {v : Variant} (h : c.IsWrittenAs v)
    (hr : ∀ u ∈ c.arguments.flatMap DataType.nodes, u.Resolves declared) :
    ofVariant (v.mapNames (Scope.alone declared).resolve) = .ok c := by
  have ha : DataType.ofTypeExprs
      (TypeExpr.mapNamesAll (Scope.alone declared).resolve v.arguments) = .ok c.arguments :=
    DataType.ofTypeExprs_of_erase
      (fun t ht e he => DataType.ofTypeExpr_of_erase (List.forall_mem_flatMap.1 hr t ht) he) h.2
  rw [TypeExpr.mapNamesAll_eq_map] at ha
  rw [ofVariant, Variant.mapNames, ha, h.1]
  rfl

theorem TypeDecl.ofDeclaration_of_isWrittenAs {t : TypeDecl} {d : Declaration}
    (h : t.IsWrittenAs d.declared) (hr : ∀ u ∈ t.nodes, u.Resolves declared) :
    ofDeclaration (d.mapNames (Scope.alone declared).resolve) = .ok t := by
  obtain ⟨d, span⟩ := d
  cases t with
  | «alias» name parameters type =>
      obtain ⟨e, rfl, he⟩ := h
      simp only [Declaration.mapNames, Declared.mapNames, ofDeclaration]
      rw [DataType.ofTypeExpr_of_erase hr he]
      rfl
  | custom name parameters first rest =>
      obtain ⟨vs, rfl, hvs⟩ := h
      have hc : ∀ c ∈ first :: rest,
          ∀ u ∈ c.arguments.flatMap DataType.nodes, u.Resolves declared :=
        List.forall_mem_flatMap.1 hr
      have hall : Validated.accumulate ((vs.map (Variant.mapNames (Scope.alone declared).resolve)).map
          Constructor.ofVariant) = .ok (first :: rest) := by
        refine Validated.accumulate_eq_ok_of_forall₂ ?_
        refine List.forall₂_map_left_iff.2 (List.forall₂_map_left_iff.2 ?_)
        exact forall₂_of_forall_mem hvs fun c hmem v hv =>
          Constructor.ofVariant_of_isWrittenAs hv (hc c hmem)
      rw [Declaration.mapNames_custom, ofDeclaration]
      simp only [hall]
      rfl

end

theorem exists_declarations {types : List TypeDecl} {tss : List (List Token)}
    (h : ∀ t ∈ types, t.WellNamed) (hts : List.Forall₂ TypeDecl.LinedUp tss types) :
    ∃ ds : List Declaration, List.Forall₂ DerivesType tss ds ∧
      List.Forall₂ (fun d t => TypeDecl.IsWrittenAs d.declared t) ds types := by
  induction hts with
  | nil => exact ⟨[], .nil, .nil⟩
  | cons hlined _ ih =>
      obtain ⟨ht, hts⟩ := List.forall_mem_cons.1 h
      obtain ⟨ds, hds, hws⟩ := ih hts
      obtain ⟨d, hw, hd⟩ := ht.derivesType hlined
      exact ⟨d :: ds, .cons hd hds, .cons hw hws⟩

theorem TypeDecl.IsWrittenAs.typeName? {t : TypeDecl} {d : Declared} (h : t.IsWrittenAs d) :
    d.typeName? = some t.name := by
  cases t with
  | «alias» name parameters type =>
      obtain ⟨e, rfl, -⟩ := h
      rfl
  | custom name parameters first rest =>
      obtain ⟨vs, rfl, -⟩ := h
      rfl

theorem filterMap_typeName? {ds : List Declaration} {types : List TypeDecl}
    (h : List.Forall₂ (fun d t => TypeDecl.IsWrittenAs d.declared t) ds types) :
    ds.filterMap (fun d => d.declared.typeName?) = types.map TypeDecl.name := by
  induction h with
  | nil => rfl
  | cons hd _ ih => rw [List.filterMap_cons, hd.typeName?, List.map_cons, ← ih]

theorem check_normalForm {source : String} {types : List TypeDecl} (h : check source = .ok types)
    (hu : Unambiguous types) :
    check (normalForm types) = .ok types ∧
      (check (normalForm types)).map normalForm = .ok (normalForm types) := by
  have hw := wellNamed_of_check h
  obtain ⟨tss, htss, hl⟩ := lexFrom_normalForm hw 0
  obtain ⟨ds, hds, hwritten⟩ := exists_declarations hw htss
  have hcheck : check (normalForm types) = .ok types := by
    refine check_eq_ok_iff.2 ⟨tss.flatten, _, hl, SourceFile.ofTokens_eq_ok hds, ?_⟩
    refine Validated.accumulate_eq_ok_of_forall₂ ?_
    rw [SourceFile.resolve, Scope.ofFile_eq_alone, filterMap_typeName? hwritten]
    refine List.forall₂_map_left_iff.2 (List.forall₂_map_left_iff.2 ?_)
    refine forall₂_of_forall_mem hwritten fun t ht d hd => ?_
    exact TypeDecl.ofDeclaration_of_isWrittenAs hd fun u hu' =>
      hu.resolves u (List.mem_flatMap.2 ⟨t, ht, hu'⟩)
  refine ⟨hcheck, ?_⟩
  rw [hcheck]
  rfl

theorem check_eq_ok_of_toOption {source : String} {types : List TypeDecl}
    (h : (check source).toOption = some types) : check source = .ok types := by
  cases hc : check source with
  | ok ts => simpa [hc, Except.toOption] using h
  | error f => simp [hc, Except.toOption] at h

theorem check_normalForm_shop :
    let source := "\n".intercalate
      ["module Shop exposing (..)", "import Dict as D", "type alias Cart a =",
        "  \x7b items : D.Dict Int (List a) \x7d", "type Maybe = None | Some Cart"]
    let cart : DataType :=
      .record [("items", .dict (.base .int []) (.list (.base (.other "a") [])))]
    let types : List TypeDecl :=
      [.alias "Cart" ["a"] cart,
        .custom "Maybe" [] ⟨"None", []⟩ [⟨"Some", [.base (.other "Cart") []]⟩]]
    let text := "\n".intercalate
      ["type alias Cart a = \x7b items : Dict Int (List a) \x7d", "type Maybe = None | Some Cart"]
    check source = .ok types ∧ Unambiguous types ∧ normalForm types = text ∧
      check text = .ok types := by
  intro source cart types text
  have h : check source = .ok types := check_eq_ok_of_toOption (by decide +kernel)
  have hu : Unambiguous types := by decide
  have ht : normalForm types = text := by decide +kernel
  exact ⟨h, hu, ht, ht ▸ (check_normalForm h hu).1⟩

end ElmTypes
