import ElmTypes.Proofs.Source.Renaming
import ElmTypes.Scope

namespace ElmTypes

def IsLast {α : Type} (p : α → Prop) (xs : List α) (x : α) : Prop :=
  ∃ before after, xs = before ++ x :: after ∧ p x ∧ ∀ y ∈ after, ¬ p y

theorem exists_isLast {α : Type} {p : α → Prop} {xs : List α} (h : ∃ x ∈ xs, p x) :
    ∃ x, IsLast p xs x := by
  induction xs with
  | nil =>
      obtain ⟨x, hx, -⟩ := h
      cases hx
  | cons x xs ih =>
      by_cases hxs : ∃ y ∈ xs, p y
      · obtain ⟨y, before, after, rfl, hy, hafter⟩ := ih hxs
        exact ⟨y, x :: before, after, rfl, hy, hafter⟩
      · obtain ⟨y, hy, hpy⟩ := h
        rcases List.mem_cons.1 hy with rfl | hy
        · exact ⟨y, [], xs, rfl, hpy, fun z hz hpz => hxs ⟨z, hz, hpz⟩⟩
        · exact absurd ⟨y, hy, hpy⟩ hxs

namespace Import

def Binds (name : String) (i : Import) : Prop := i.shortName = some name

def Exposes (name : String) (i : Import) : Prop :=
  ∃ names isOpen, i.exposing = some (.only names) ∧ .type name isOpen ∈ names

end Import

def SourceFile.Declares (f : SourceFile) (name : String) : Prop :=
  ∃ d ∈ f.declarations, d.declared.typeName? = some name

def visibleTypes : List (String × String) :=
  [("Int", "Basics"), ("Float", "Basics"), ("Bool", "Basics"), ("Order", "Basics"),
   ("Never", "Basics"), ("List", "List"), ("Maybe", "Maybe"), ("Result", "Result"),
   ("String", "String"), ("Char", "Char"), ("Program", "Platform"), ("Cmd", "Platform.Cmd"),
   ("Sub", "Platform.Sub")]

inductive SourceFile.Means (f : SourceFile) : TypeName → Option String → Prop where
  | imported {q name : String} {s : Span} {i : Import} (h : IsLast (Import.Binds q) f.imports i) :
      Means f ⟨some q, name, s⟩ (some i.module)
  | command {q m name : String} {s : Span} (h : ∀ i ∈ f.imports, ¬ i.Binds q)
      (hq : (q, m) ∈ [("Cmd", "Platform.Cmd"), ("Sub", "Platform.Sub")]) :
      Means f ⟨some q, name, s⟩ (some m)
  | qualified {q name : String} {s : Span} (h : ∀ i ∈ f.imports, ¬ i.Binds q)
      (hq : q ∉ ["Cmd", "Sub"]) : Means f ⟨some q, name, s⟩ (some q)
  | declared {name : String} {s : Span} (hd : f.Declares name) :
      Means f ⟨none, name, s⟩ (some f.moduleName)
  | exposed {name : String} {s : Span} {i : Import} (hd : ¬ f.Declares name)
      (h : IsLast (Import.Exposes name) f.imports i) : Means f ⟨none, name, s⟩ (some i.module)
  | visible {name m : String} {s : Span} (hd : ¬ f.Declares name)
      (h : ∀ i ∈ f.imports, ¬ i.Exposes name) (hn : (name, m) ∈ visibleTypes) :
      Means f ⟨none, name, s⟩ (some m)
  | unknown {name : String} {s : Span} (hd : ¬ f.Declares name)
      (h : ∀ i ∈ f.imports, ¬ i.Exposes name) (hn : ∀ m, (name, m) ∉ visibleTypes) :
      Means f ⟨none, name, s⟩ none

namespace Scope

theorem lookup_of_mem {table : List (String × String)} {name m : String} (h : (name, m) ∈ table)
    (hu : ∀ m', (name, m') ∈ table → m' = m) : table.lookup name = some m := by
  cases hl : table.lookup name with
  | none =>
      have hne := List.lookup_eq_none_iff.1 hl (name, m) h
      simp at hne
  | some m' =>
      obtain ⟨before, after, rfl, -⟩ := List.lookup_eq_some_iff.1 hl
      rw [hu m' (by simp)]

theorem lookup_of_not_mem {table : List (String × String)} {name : String}
    (h : ∀ m, (name, m) ∉ table) : table.lookup name = none := by
  refine List.lookup_eq_none_iff.2 ?_
  rintro ⟨name', m⟩ hm
  refine bne_iff_ne.2 ?_
  rintro rfl
  exact h m hm

theorem mem_importedAliases {i : Import} {name m : String} :
    (name, m) ∈ importedAliases i ↔ i.Binds name ∧ m = i.module := by
  simp [importedAliases, Import.Binds, eq_comm]

theorem mem_importedTypes {i : Import} {name m : String} :
    (name, m) ∈ importedTypes i ↔ i.Exposes name ∧ m = i.module := by
  have htype (x : Exposed) (name : String) :
      exposedType? x = some name ↔ ∃ isOpen, x = .type name isOpen := by
    cases x <;> simp [exposedType?]
  unfold importedTypes
  cases hi : i.exposing with
  | none => simp [Import.Exposes, hi]
  | some exposing =>
      cases exposing with
      | all => simp [Import.Exposes, hi]
      | only names =>
          simp only [List.mem_map, List.mem_filterMap, htype, Import.Exposes, hi, Prod.mk.injEq]
          constructor
          · rintro ⟨_, ⟨_, hx, isOpen, rfl⟩, rfl, rfl⟩
            exact ⟨⟨names, isOpen, rfl, hx⟩, rfl⟩
          · rintro ⟨⟨_, isOpen, ⟨⟩, hx⟩, rfl⟩
            exact ⟨name, ⟨_, hx, isOpen, rfl⟩, rfl, rfl⟩

section

variable {bind : Import → List (String × String)} {p : String → Import → Prop}
  (hbind : ∀ {i name m}, (name, m) ∈ bind i ↔ p name i ∧ m = i.module)
  {imports : List Import} {name : String} (defaults : List (String × String))

include hbind

theorem lookup_of_forall_not (h : ∀ i ∈ imports, ¬ p name i) :
    (imports.reverse.flatMap bind ++ defaults).lookup name = defaults.lookup name := by
  have hnone : (imports.reverse.flatMap bind).lookup name = none := by
    refine lookup_of_not_mem fun m hm => ?_
    obtain ⟨i, hi, him⟩ := List.mem_flatMap.1 hm
    exact h i (List.mem_reverse.1 hi) (hbind.1 him).1
  rw [List.lookup_append, hnone, Option.none_or]

theorem lookup_of_isLast {i : Import} (h : IsLast (p name) imports i) :
    (imports.reverse.flatMap bind ++ defaults).lookup name = some i.module := by
  obtain ⟨before, after, rfl, hi, hafter⟩ := h
  have hlookup : (bind i).lookup name = some i.module :=
    lookup_of_mem (hbind.2 ⟨hi, rfl⟩) fun m hm => (hbind.1 hm).2
  have htable : (before ++ i :: after).reverse.flatMap bind ++ defaults =
      after.reverse.flatMap bind ++ (bind i ++ (before.reverse.flatMap bind ++ defaults)) := by
    simp
  rw [htable, lookup_of_forall_not hbind _ hafter, List.lookup_append, hlookup, Option.some_or]

end

theorem lookup_defaultAliases : ∀ a ∈ defaultAliases, defaultAliases.lookup a.1 = some a.2 := by
  decide

theorem defaultExposed_eq : defaultExposed = visibleTypes := rfl

theorem lookup_visibleTypes : ∀ a ∈ visibleTypes, visibleTypes.lookup a.1 = some a.2 := by
  decide

variable {f : SourceFile} {q name : String} {s : Span}

theorem module?_qualified :
    (ofFile f).module? ⟨some q, name, s⟩ = some (((ofFile f).aliases.lookup q).getD q) := rfl

theorem module?_of_declares (h : f.Declares name) :
    (ofFile f).module? ⟨none, name, s⟩ = some f.moduleName := by
  obtain ⟨d, hd, hn⟩ := h
  refine if_pos ?_
  rw [List.contains_iff_mem]
  exact List.mem_filterMap.2 ⟨d, hd, hn⟩

theorem module?_of_not_declares (h : ¬ f.Declares name) :
    (ofFile f).module? ⟨none, name, s⟩ = (ofFile f).exposed.lookup name := by
  refine if_neg ?_
  rw [List.contains_iff_mem]
  exact mt List.mem_filterMap.1 h

end Scope

namespace SourceFile

variable {f : SourceFile}

theorem Means.eq_module? {n : TypeName} {m : Option String} (h : f.Means n m) :
    m = (Scope.ofFile f).module? n := by
  cases h with
  | imported h =>
      rw [Scope.module?_qualified, Scope.ofFile,
        Scope.lookup_of_isLast Scope.mem_importedAliases _ h, Option.getD_some]
  | @command q m name s h hq =>
      have hm : Scope.defaultAliases.lookup q = some m := Scope.lookup_defaultAliases (q, m) hq
      rw [Scope.module?_qualified, Scope.ofFile,
        Scope.lookup_of_forall_not Scope.mem_importedAliases _ h, hm, Option.getD_some]
  | @qualified q name s h hq =>
      have hm : Scope.defaultAliases.lookup q = none := by
        refine Scope.lookup_of_not_mem fun m hm => hq ?_
        exact List.mem_map_of_mem (f := Prod.fst) hm
      rw [Scope.module?_qualified, Scope.ofFile,
        Scope.lookup_of_forall_not Scope.mem_importedAliases _ h, hm, Option.getD_none]
  | declared hd => exact (Scope.module?_of_declares hd).symm
  | exposed hd h =>
      rw [Scope.module?_of_not_declares hd, Scope.ofFile,
        Scope.lookup_of_isLast Scope.mem_importedTypes _ h]
  | @visible name m s hd h hn =>
      have hm : visibleTypes.lookup name = some m := Scope.lookup_visibleTypes (name, m) hn
      rw [Scope.module?_of_not_declares hd, Scope.ofFile,
        Scope.lookup_of_forall_not Scope.mem_importedTypes _ h, Scope.defaultExposed_eq, hm]
  | unknown hd h hn =>
      rw [Scope.module?_of_not_declares hd, Scope.ofFile,
        Scope.lookup_of_forall_not Scope.mem_importedTypes _ h, Scope.defaultExposed_eq,
        Scope.lookup_of_not_mem hn]

theorem exists_means (f : SourceFile) (n : TypeName) : ∃ m, f.Means n m := by
  obtain ⟨module, name, s⟩ := n
  cases module with
  | some q =>
      by_cases hb : ∃ i ∈ f.imports, i.Binds q
      · obtain ⟨i, hi⟩ := exists_isLast hb
        exact ⟨_, .imported hi⟩
      · have hnone : ∀ i ∈ f.imports, ¬ i.Binds q := fun i hi hib => hb ⟨i, hi, hib⟩
        by_cases hq : q ∈ ["Cmd", "Sub"]
        · obtain ⟨⟨_, m⟩, hm, rfl⟩ :=
            List.mem_map.1 (show q ∈ Scope.defaultAliases.map Prod.fst from hq)
          exact ⟨_, .command hnone hm⟩
        · exact ⟨_, .qualified hnone hq⟩
  | none =>
      by_cases hd : f.Declares name
      · exact ⟨_, .declared hd⟩
      by_cases he : ∃ i ∈ f.imports, i.Exposes name
      · obtain ⟨i, hi⟩ := exists_isLast he
        exact ⟨_, .exposed hd hi⟩
      · have hnone : ∀ i ∈ f.imports, ¬ i.Exposes name := fun i hi hie => he ⟨i, hi, hie⟩
        by_cases hn : ∃ m, (name, m) ∈ visibleTypes
        · obtain ⟨m, hm⟩ := hn
          exact ⟨_, .visible hd hnone hm⟩
        · exact ⟨_, .unknown hd hnone (not_exists.1 hn)⟩

theorem means_iff {n : TypeName} {m : Option String} :
    f.Means n m ↔ m = (Scope.ofFile f).module? n := by
  constructor
  · exact Means.eq_module?
  · rintro rfl
    obtain ⟨m, hm⟩ := f.exists_means n
    rwa [← hm.eq_module?]

theorem resolve_keeps_all_but_modules (f : SourceFile) :
    f.resolve.header = f.header ∧ f.resolve.imports = f.imports ∧
      List.Forall₂ (Declaration.Renamed fun n n' =>
          n'.name = n.name ∧ n'.span = n.span ∧ f.Means n n'.module)
        f.declarations f.resolve.declarations ∧
      ∀ n, ∃! m, f.Means n m := by
  refine ⟨rfl, rfl, ?_, fun n => ?_⟩
  · refine List.forall₂_map_right_iff.2 (List.forall₂_same.2 fun d _ => ?_)
    apply Declaration.renamed_mapNames
    exact fun n => ⟨rfl, rfl, means_iff.2 rfl⟩
  · exact ⟨(Scope.ofFile f).module? n, means_iff.2 rfl, fun m hm => hm.eq_module?⟩

end SourceFile

end ElmTypes
