import ElmTypes.Proofs.Scope.Precedence
import ElmTypes.Proofs.Validation.Nodes

namespace ElmTypes

namespace TypeExpr

mutual

def references : TypeExpr → List TypeName
  | .variable .. | .unit _ => []
  | .named n arguments _ => n :: referencesAll arguments
  | .tuple elements _ => referencesAll elements
  | .record fields _ | .extensible _ fields _ => referencesFields fields
  | .function domain codomain _ => domain.references ++ codomain.references

def referencesAll : List TypeExpr → List TypeName
  | [] => []
  | e :: es => e.references ++ referencesAll es

def referencesFields : List (RecordField TypeExpr) → List TypeName
  | [] => []
  | ⟨_, e, _⟩ :: fields => e.references ++ referencesFields fields

end

theorem references_subset_of_mem {es : List TypeExpr} {e : TypeExpr} (h : e ∈ es) :
    e.references ⊆ referencesAll es := by
  induction h with
  | head es => exact List.subset_append_left ..
  | tail e _ ih => exact List.Subset.trans ih (List.subset_append_right ..)

theorem references_subset_of_mem_fields {fields : List (RecordField TypeExpr)}
    {field : RecordField TypeExpr} (h : field ∈ fields) :
    field.type.references ⊆ referencesFields fields := by
  induction h with
  | head fields => exact List.subset_append_left ..
  | tail field _ ih => exact List.Subset.trans ih (List.subset_append_right ..)

theorem mapNames_trans {f g k : TypeName → TypeName} (e : TypeExpr)
    (h : ∀ n ∈ e.references, g (f n) = k n) : (e.mapNames f).mapNames g = e.mapNames k := by
  have hall {es : List TypeExpr}
      (ih : ∀ e ∈ es, (∀ n ∈ e.references, g (f n) = k n) →
        (e.mapNames f).mapNames g = e.mapNames k)
      (h : ∀ n ∈ referencesAll es, g (f n) = k n) :
      mapNamesAll g (mapNamesAll f es) = mapNamesAll k es := by
    simp only [mapNamesAll_eq_map, List.map_map]
    exact List.map_congr_left fun e he =>
      ih e he fun n hn => h n (references_subset_of_mem he hn)
  have hfields {fields : List (RecordField TypeExpr)}
      (ih : ∀ r ∈ fields, (∀ n ∈ r.type.references, g (f n) = k n) →
        (r.type.mapNames f).mapNames g = r.type.mapNames k)
      (h : ∀ n ∈ referencesFields fields, g (f n) = k n) :
      mapNamesFields g (mapNamesFields f fields) = mapNamesFields k fields := by
    simp only [mapNamesFields_eq_map, List.map_map]
    refine List.map_congr_left fun r hr => ?_
    rw [Function.comp_apply, ih r hr fun n hn => h n (references_subset_of_mem_fields hr hn)]
  induction e with
  | typeVariable name s => rfl
  | unit s => rfl
  | named n arguments s ih =>
      have hn := h n (by simp [references])
      have hs := hall ih fun m hm => h m (by simp [references, hm])
      simp only [mapNames, hn, hs]
  | tuple elements s ih => simp only [mapNames, hall ih h]
  | record fields s ih => simp only [mapNames, hfields ih h]
  | extensible base fields s ih => simp only [mapNames, hfields ih h]
  | function domain codomain s ihd ihc =>
      have hd := ihd fun n hn => h n (List.mem_append_left _ hn)
      have hc := ihc fun n hn => h n (List.mem_append_right _ hn)
      simp only [mapNames, hd, hc]

end TypeExpr

theorem Declared.mapNames_trans {f g k : TypeName → TypeName} (d : Declared)
    (h : ∀ e ∈ d.types, ∀ n ∈ e.references, g (f n) = k n) :
    (d.mapNames f).mapNames g = d.mapNames k := by
  have hes {es : List TypeExpr} (hs : es ⊆ d.types) :
      (es.map (TypeExpr.mapNames f)).map (TypeExpr.mapNames g) = es.map (TypeExpr.mapNames k) := by
    rw [List.map_map]
    exact List.map_congr_left fun e he => e.mapNames_trans (h e (hs he))
  cases d with
  | «alias» name parameters type =>
      have htype := type.mapNames_trans (h type (by simp [types]))
      exact congrArg (Declared.alias name parameters) htype
  | custom name parameters variants =>
      simp only [Declared.mapNames, List.map_map]
      congr 1
      refine List.map_congr_left fun v hv => ?_
      have hsub : v.arguments ⊆ (Declared.custom name parameters variants).types :=
        fun e he => List.mem_flatMap.2 ⟨v, hv, he⟩
      rw [Function.comp_apply, hes hsub]
  | value name signature =>
      cases signature with
      | none => rfl
      | some type =>
          have ht := type.mapNames_trans (h type (by simp [types]))
          simp only [Declared.mapNames, Option.map_some, ht]
  | port name type =>
      exact congrArg (Declared.port name) (type.mapNames_trans (h type (by simp [types])))
  | fixity associativity precedence operator function => rfl

def SourceFile.references (f : SourceFile) : List TypeName :=
  f.declarations.flatMap fun d => d.declared.types.flatMap TypeExpr.references

theorem SourceFile.map_mapNames_trans {f g k : TypeName → TypeName} (file : SourceFile)
    (h : ∀ n ∈ file.references, g (f n) = k n) :
    (file.declarations.map (Declaration.mapNames f)).map (Declaration.mapNames g) =
      file.declarations.map (Declaration.mapNames k) := by
  rw [List.map_map]
  refine List.map_congr_left fun d hd => ?_
  have hdeclared := d.declared.mapNames_trans (g := g) (k := k) fun e he n hn =>
    h n (List.mem_flatMap.2 ⟨d, hd, List.mem_flatMap.2 ⟨e, he, hn⟩⟩)
  rw [Function.comp_apply, Declaration.mapNames, Declaration.mapNames, hdeclared,
    Declaration.mapNames]

def renamed (old new name : String) : String := if name = old then new else name

theorem renamed_of_ne {old new name : String} (h : name ≠ old) : renamed old new name = name :=
  if_neg h

theorem renamed_inj {old new a b : String} (ha : a ≠ new) (hb : b ≠ new) :
    renamed old new a = renamed old new b ↔ a = b := by
  unfold renamed
  split <;> split <;> grind

def TypeName.renameQualifier (old new : String) (n : TypeName) : TypeName :=
  { n with module := n.module.map (renamed old new) }

def Import.renameShort (old new : String) (i : Import) : Import :=
  { i with shortName := i.shortName.map (renamed old new) }

def SourceFile.renameShort (old new : String) (f : SourceFile) : SourceFile :=
  { f with
    imports := f.imports.map (Import.renameShort old new)
    declarations := f.declarations.map (Declaration.mapNames (TypeName.renameQualifier old new)) }

section

variable {old new : String}

theorem Import.binds_renameShort {i : Import} {q : String} (hi : ¬ i.Binds new) (hq : q ≠ new) :
    (i.renameShort old new).Binds (renamed old new q) ↔ i.Binds q := by
  unfold Binds renameShort at *
  cases hs : i.shortName with
  | none => simp
  | some name =>
      rw [hs, Option.some_inj] at hi
      simp [renamed_inj hi hq]

theorem Import.exposes_renameShort {i : Import} {name : String} :
    (i.renameShort old new).Exposes name ↔ i.Exposes name := Iff.rfl

theorem IsLast.map {α β : Type} {p : α → Prop} {p' : β → Prop} {g : α → β} {xs : List α} {x : α}
    (h : IsLast p xs x) (hp : ∀ x ∈ xs, p' (g x) ↔ p x) : IsLast p' (xs.map g) (g x) := by
  obtain ⟨before, after, rfl, hx, hafter⟩ := h
  refine ⟨before.map g, after.map g, by simp, (hp x (by simp)).2 hx, ?_⟩
  exact List.forall_mem_map.2 fun y hy => mt (hp y (by simp [hy])).1 (hafter y hy)

namespace SourceFile

variable {f : SourceFile}

theorem declares_renameShort {name : String} :
    (f.renameShort old new).Declares name ↔ f.Declares name := by
  simp [Declares, renameShort, Declaration.mapNames]

theorem Means.renameShort (ha : ∃ i ∈ f.imports, i.Binds old)
    (hi : ∀ i ∈ f.imports, ¬ i.Binds new) {n : TypeName} (hn : n.module ≠ some new)
    {m : Option String} (h : f.Means n m) :
    (f.renameShort old new).Means (n.renameQualifier old new) m := by
  have hq {q : String} (hq : q ≠ new) (i : Import) (him : i ∈ f.imports) :
      (i.renameShort old new).Binds (renamed old new q) ↔ i.Binds q :=
    Import.binds_renameShort (hi i him) hq
  -- a qualifier that no import binds is not the name that is replaced
  have hfree {q : String} (hne : q ≠ new) (hb : ∀ i ∈ f.imports, ¬ i.Binds q) :
      renamed old new q = q ∧ ∀ i ∈ (f.renameShort old new).imports, ¬ i.Binds q := by
    obtain ⟨j, hj, hjb⟩ := ha
    have hr : renamed old new q = q := by
      refine renamed_of_ne ?_
      rintro rfl
      exact hb j hj hjb
    refine ⟨hr, List.forall_mem_map.2 fun i him => ?_⟩
    have hiff := hq hne i him
    rw [hr] at hiff
    exact mt hiff.1 (hb i him)
  have hexposed {name : String} {i : Import} (hl : IsLast (Import.Exposes name) f.imports i) :
      IsLast (Import.Exposes name) (f.renameShort old new).imports (i.renameShort old new) :=
    hl.map fun _ _ => Import.exposes_renameShort
  have hhidden {name : String} (hl : ∀ i ∈ f.imports, ¬ i.Exposes name) :
      ∀ i ∈ (f.renameShort old new).imports, ¬ i.Exposes name :=
    List.forall_mem_map.2 fun i him => mt Import.exposes_renameShort.1 (hl i him)
  cases h with
  | @imported q name s i hl =>
      have hne : q ≠ new := fun h => hn (congrArg some h)
      exact Means.imported (i := i.renameShort old new) (hl.map (hq hne))
  | @command q m name s hb hc =>
      obtain ⟨hr, hb⟩ := hfree (fun h => hn (congrArg some h)) hb
      rw [TypeName.renameQualifier, Option.map_some, hr]
      exact .command hb hc
  | @qualified q name s hb hc =>
      obtain ⟨hr, hb⟩ := hfree (fun h => hn (congrArg some h)) hb
      rw [TypeName.renameQualifier, Option.map_some, hr]
      exact .qualified hb hc
  | declared hd => exact Means.declared (f := f.renameShort old new) (declares_renameShort.2 hd)
  | @exposed name s i hd hl =>
      exact Means.exposed (i := i.renameShort old new) (mt declares_renameShort.1 hd) (hexposed hl)
  | visible hd hl hc => exact .visible (mt declares_renameShort.1 hd) (hhidden hl) hc
  | unknown hd hl hc => exact .unknown (mt declares_renameShort.1 hd) (hhidden hl) hc

theorem resolve_renameShort (ha : ∃ i ∈ f.imports, i.shortName = some old)
    (hi : ∀ i ∈ f.imports, i.shortName ≠ some new)
    (hr : ∀ n ∈ f.references, n.module ≠ some new) :
    (f.renameShort old new).resolve.declarations = f.resolve.declarations ∧
      TypeDecl.ofFile (f.renameShort old new).resolve = TypeDecl.ofFile f.resolve := by
  have hd : (f.renameShort old new).resolve.declarations = f.resolve.declarations := by
    refine f.map_mapNames_trans fun n hn => ?_
    have hm := Means.renameShort ha hi (hr n hn) (means_iff.2 rfl)
    rw [Scope.resolve, ← hm.eq_module?]
    rfl
  exact ⟨hd, by rw [TypeDecl.ofFile, hd, ← TypeDecl.ofFile]⟩

theorem resolve_renameShort_two_imports :
    let shop : Import := ⟨"Shop.Dict", some "D", none, ⟨0, 21⟩⟩
    let dict : Import := ⟨"Dict", some "D", none, ⟨22, 16⟩⟩
    let name : TypeName := ⟨some "D", "Dict", ⟨65, 6⟩⟩
    let bad : Declaration :=
      ⟨.alias "Bad" [] (.record [⟨"ids", .named name [.variable "a" ⟨72, 1⟩] ⟨65, 8⟩, ⟨59, 14⟩⟩]
        ⟨57, 18⟩), ⟨40, 35⟩⟩
    let f : SourceFile := ⟨none, [shop, dict], [bad]⟩
    ((∃ i ∈ f.imports, i.shortName = some "D") ∧
      (∀ i ∈ f.imports, i.shortName ≠ some "List") ∧
      ∀ n ∈ f.references, n.module ≠ some "List") ∧
    TypeDecl.ofFile f.resolve = .error [⟨.wrongArity .dict 1, ⟨65, 8⟩⟩] ∧
    TypeDecl.ofFile (f.renameShort "D" "List").resolve =
      .error [⟨.wrongArity .dict 1, ⟨65, 8⟩⟩] := by
  intro shop dict name bad f
  have ha : ∃ i ∈ f.imports, i.shortName = some "D" := ⟨shop, by simp [f], rfl⟩
  have hi : ∀ i ∈ f.imports, i.shortName ≠ some "List" := by decide
  have hr : ∀ n ∈ f.references, n.module ≠ some "List" := by decide
  have hf : TypeDecl.ofFile f.resolve = .error [⟨.wrongArity .dict 1, ⟨65, 8⟩⟩] := rfl
  exact ⟨⟨ha, hi, hr⟩, hf, (resolve_renameShort ha hi hr).2.trans hf⟩

end SourceFile

end

end ElmTypes
