import Mathlib.Data.List.Forall2
import ElmTypes.Event
import ElmTypes.Proofs.Scope.Precedence
import ElmTypes.Proofs.Source.Parts
import ElmTypes.Proofs.Validation.Reporting

namespace ElmTypes

def builtInHomes : List (String × String) :=
  [("String", "String"), ("Int", "Basics"), ("Float", "Basics"), ("List", "List"),
   ("Maybe", "Maybe"), ("Dict", "Dict"), ("Result", "Result")]

def IsBuiltIn (module name : String) : Prop := (name, module) ∈ builtInHomes

instance (module name : String) : Decidable (IsBuiltIn module name) :=
  inferInstanceAs (Decidable (_ ∈ _))

theorem TypeName.refersTo_eq_false {m name m' name' : String} (h : IsBuiltIn m' name')
    (hn : ¬ IsBuiltIn m name) (s : Span) : refersTo ⟨some m, name, s⟩ m' name' = false := by
  rw [Bool.eq_false_iff]
  intro hr
  have hboth : name = name' ∧ m = m' := by simpa [refersTo] using hr
  obtain ⟨rfl, rfl⟩ := hboth
  exact hn h

namespace DataType

section

variable {m name : String}

theorem ofName_of_not_isBuiltIn (h : ¬ IsBuiltIn m name) (s : Span) (ts : List DataType)
    (span : Span) : ofName ⟨some m, name, s⟩ ts span = .ok (.base (.other name) ts) := by
  have hrefers (m' name' : String) (hb : IsBuiltIn m' name') :=
    TypeName.refersTo_eq_false hb h s
  have hc : Container.ofTypeName? ⟨some m, name, s⟩ = none := by
    rw [Container.ofTypeName?, List.find?_eq_none]
    intro c _
    rw [hrefers c.name c.name (by cases c <;> decide)]
    exact Bool.false_ne_true
  rw [ofName, hc]
  simp only [BaseType.ofTypeName]
  rw [hrefers "String" "String" (by decide), hrefers "Basics" "Int" (by decide),
    hrefers "Basics" "Float" (by decide)]
  rfl

theorem ofName_ne_of_isBuiltIn (h : IsBuiltIn m name) (s span : Span) :
    ofName ⟨some m, name, s⟩ [] span ≠ .ok (.base (.other name) []) := by
  simp only [IsBuiltIn, builtInHomes, List.mem_cons, Prod.mk.injEq, List.not_mem_nil,
    or_false] at h
  rcases h with ⟨rfl, rfl⟩ | ⟨rfl, rfl⟩ | ⟨rfl, rfl⟩ | ⟨rfl, rfl⟩ | ⟨rfl, rfl⟩ | ⟨rfl, rfl⟩ |
    ⟨rfl, rfl⟩ <;> exact nofun

end

def parts : DataType → List DataType
  | .record fields => fields.map Prod.snd
  | .tuple elements => elements
  | .list t | .maybe t => [t]
  | .dict t u | .result t u => [t, u]
  | .base _ arguments => arguments

theorem parts_of_saturated? {c : Container} {ts : List DataType} {t : DataType}
    (h : c.saturated? ts = some t) : t.parts = ts := by
  unfold Container.saturated? at h
  split at h <;> cases h <;> rfl

theorem parts_of_ofName {n : TypeName} {ts : List DataType} {span : Span} {t : DataType}
    (h : ofName n ts span = .ok t) : t.parts = ts := by
  unfold ofName at h
  split at h
  · cases h
    rfl
  · split at h
    · rename_i u hu
      cases h
      exact parts_of_saturated? hu
    · cases h

theorem forall₂_parts {e : TypeExpr} {t : DataType} (h : ofTypeExpr e = .ok t) :
    List.Forall₂ (fun a u => ofTypeExpr a = .ok u) e.parts t.parts := by
  cases e with
  | «variable» name s =>
      cases h
      exact .nil
  | named n arguments s =>
      rw [ofTypeExpr] at h
      split at h
      · rename_i ts hts
        rw [parts_of_ofName h]
        exact forall₂_of_ofTypeExprs_eq_ok hts
      · cases h
  | tuple elements s =>
      obtain ⟨ts, hts, rfl⟩ := Validated.exists_of_map_eq_ok h
      exact forall₂_of_ofTypeExprs_eq_ok hts
  | record fields s =>
      obtain ⟨gs, hgs, rfl⟩ := Validated.exists_of_map_eq_ok h
      refine List.forall₂_map_left_iff.2 (List.forall₂_map_right_iff.2 ?_)
      exact (forall₂_of_ofFields_eq_ok hgs).imp fun _ _ h => h.2
  | unit s | extensible base fields s | function domain codomain s => cases h

end DataType

def TypeExpr.at? : (path : List Nat) → TypeExpr → Option TypeExpr
  | [], e => some e
  | i :: path, e => e.parts[i]?.bind (at? path)

def DataType.at? : (path : List Nat) → DataType → Option DataType
  | [], t => some t
  | i :: path, t => t.parts[i]?.bind (at? path)

theorem exists_getElem?_of_forall₂ {α β : Type} {R : α → β → Prop} {as : List α} {bs : List β}
    (h : List.Forall₂ R as bs) {i : Nat} {a : α} (ha : as[i]? = some a) :
    ∃ b, bs[i]? = some b ∧ R a b := by
  induction h generalizing i with
  | nil => simp at ha
  | cons hab _ ih =>
      cases i with
      | zero =>
          obtain rfl : _ = a := by simpa using ha
          exact ⟨_, rfl, hab⟩
      | succ i => exact ih (by simpa using ha)

theorem DataType.exists_at? {e : TypeExpr} {t : DataType} (h : ofTypeExpr e = .ok t)
    {path : List Nat} {a : TypeExpr} (ha : e.at? path = some a) :
    ∃ u, t.at? path = some u ∧ ofTypeExpr a = .ok u := by
  induction path generalizing e t with
  | nil =>
      cases ha
      exact ⟨t, rfl, h⟩
  | cons i path ih =>
      obtain ⟨b, hb, hba⟩ := Option.bind_eq_some_iff.1 ha
      obtain ⟨v, hv, hbv⟩ := exists_getElem?_of_forall₂ (forall₂_parts h) hb
      obtain ⟨u, hu, hau⟩ := ih hbv hba
      exact ⟨u, Option.bind_eq_some_iff.2 ⟨v, hv, hu⟩, hau⟩

theorem TypeExpr.at?_mapNames (f : TypeName → TypeName) (path : List Nat) (e : TypeExpr) :
    (e.mapNames f).at? path = (e.at? path).map (mapNames f) := by
  induction path generalizing e with
  | nil => rfl
  | cons i path ih =>
      rw [at?, at?, parts_mapNames, List.getElem?_map]
      cases e.parts[i]? with
      | none => rfl
      | some a => exact ih a

structure Place where
  declaration : Nat
  type : Nat
  path : List Nat

def SourceFile.at? (f : SourceFile) (p : Place) : Option TypeExpr :=
  (f.declarations[p.declaration]?.bind fun d => d.declared.types[p.type]?).bind
    (TypeExpr.at? p.path)

namespace TypeDecl

def types : TypeDecl → List DataType
  | .alias _ _ type => [type]
  | .custom _ _ first rest => (first :: rest).flatMap Constructor.arguments

def at? (ds : List TypeDecl) (p : Place) : Option DataType :=
  (ds[p.declaration]?.bind fun d => d.types[p.type]?).bind (DataType.at? p.path)

theorem forall₂_types {d : Declaration} {t : TypeDecl} (h : ofDeclaration d = .ok t) :
    List.Forall₂ (fun e u => DataType.ofTypeExpr e = .ok u) d.declared.types t.types := by
  rcases d with ⟨⟨name, parameters, e⟩ | ⟨name, parameters, vs⟩ | _ | _ | _, s⟩
  · obtain ⟨u, hu, rfl⟩ := Validated.exists_of_map_eq_ok h
    exact .cons hu .nil
  · simp only [ofDeclaration] at h
    split at h
    · rename_i cs hcs
      have harguments : List.Forall₂ (fun e u => DataType.ofTypeExpr e = .ok u)
          (vs.flatMap Variant.arguments) (cs.flatMap Constructor.arguments) := by
        refine List.rel_flatMap (forall₂_of_accumulate_ofVariant hcs) ?_
        intro v c hvc
        obtain ⟨ts, hts, rfl⟩ := Validated.exists_of_map_eq_ok hvc
        exact DataType.forall₂_of_ofTypeExprs_eq_ok hts
      cases cs with
      | nil => cases h
      | cons c cs =>
          cases h
          exact harguments
    · cases h
  all_goals cases h

theorem forall₂_ofDeclaration {f : SourceFile} {ds : List TypeDecl} (h : ofFile f = .ok ds) :
    List.Forall₂ (fun d t => ofDeclaration d = .ok t) f.declarations ds := by
  refine List.forall₂_map_left_iff.1 (Validated.forall₂_of_accumulate_eq_ok ?_ h)
  exact List.forall_mem_map.2 fun d _ => ofDeclaration_ne_error_nil d

theorem exists_at? {f : SourceFile} {ds : List TypeDecl} (h : ofFile f = .ok ds) {p : Place}
    {a : TypeExpr} (ha : f.at? p = some a) :
    ∃ u, at? ds p = some u ∧ DataType.ofTypeExpr a = .ok u := by
  obtain ⟨e, he, hea⟩ := Option.bind_eq_some_iff.1 ha
  obtain ⟨d, hd, hde⟩ := Option.bind_eq_some_iff.1 he
  obtain ⟨t, ht, hdt⟩ := exists_getElem?_of_forall₂ (forall₂_ofDeclaration h) hd
  obtain ⟨v, hv, hev⟩ := exists_getElem?_of_forall₂ (forall₂_types hdt) hde
  obtain ⟨u, hu, hau⟩ := DataType.exists_at? hev hea
  refine ⟨u, Option.bind_eq_some_iff.2 ⟨v, ?_, hu⟩, hau⟩
  exact Option.bind_eq_some_iff.2 ⟨t, ht, hv⟩

end TypeDecl

namespace SourceFile

variable {f : SourceFile} {name : String}

theorem at?_resolve (f : SourceFile) (p : Place) :
    f.resolve.at? p = (f.at? p).map (TypeExpr.mapNames (Scope.ofFile f).resolve) := by
  rw [at?, at?, resolve, List.getElem?_map]
  cases f.declarations[p.declaration]? with
  | none => rfl
  | some d =>
      simp only [Option.map_some, Option.bind_some, Declaration.mapNames, Declared.types_mapNames,
        List.getElem?_map]
      cases d.declared.types[p.type]? with
      | none => rfl
      | some e => exact TypeExpr.at?_mapNames _ _ e

def reference (f : SourceFile) (name : String) (s : Span) (arguments : List TypeExpr)
    (span : Span) : TypeExpr :=
  (TypeExpr.named ⟨none, name, s⟩ arguments span).mapNames (Scope.ofFile f).resolve

/-- References by this name mean a type that is not looked into: they are applied to all of their
arguments, and nothing is wrong with them but what is wrong with an argument. -/
def Shadows (f : SourceFile) (name : String) : Prop :=
  ∀ s arguments span, DataType.ofTypeExpr (f.reference name s arguments span) =
    (DataType.ofTypeExprs (arguments.map (TypeExpr.mapNames (Scope.ofFile f).resolve))).map
      (.base (.other name))

theorem Declares.reference_eq (h : f.Declares name) (s : Span) (arguments : List TypeExpr)
    (span : Span) : f.reference name s arguments span =
      .named ⟨some f.moduleName, name, s⟩
        (arguments.map (TypeExpr.mapNames (Scope.ofFile f).resolve)) span := by
  rw [reference, TypeExpr.mapNames, TypeExpr.mapNamesAll_eq_map, Scope.resolve,
    Scope.module?_of_declares h]

theorem Declares.shadows_iff (h : f.Declares name) :
    f.Shadows name ↔ ¬ IsBuiltIn f.moduleName name := by
  constructor
  · intro hs hb
    have hnone := hs .empty [] .empty
    rw [h.reference_eq] at hnone
    exact DataType.ofName_ne_of_isBuiltIn hb _ _ hnone
  · intro hb s arguments span
    rw [h.reference_eq, DataType.ofTypeExpr]
    cases DataType.ofTypeExprs (arguments.map (TypeExpr.mapNames (Scope.ofFile f).resolve)) with
    | error ps => rfl
    | ok ts => exact DataType.ofName_of_not_isBuiltIn hb s ts span

theorem Declares.problem?_reference (h : f.Declares name) (hb : ¬ IsBuiltIn f.moduleName name)
    (s : Span) (arguments : List TypeExpr) (span : Span) :
    (Node.type (f.reference name s arguments span)).problem? = none := by
  rw [h.reference_eq, ← Option.toList_eq_nil_iff]
  have harguments : (List.replicate arguments.length (DataType.base (.other name) [])).length =
      (arguments.map (TypeExpr.mapNames (Scope.ofFile f).resolve)).length := by simp
  rw [← DataType.problems_ofName _ _ harguments, DataType.ofName_of_not_isBuiltIn hb]
  rfl

theorem Declares.problems_elsewhere (h : f.Declares name) (hb : ¬ IsBuiltIn f.moduleName name)
    {ps : List Problem} (hps : TypeDecl.ofFile f.resolve = .error ps) :
    ∃ vs, vs.Sublist f.resolve.visits ∧
      List.Forall₂ (fun v p => v.node.problem? = some p) vs ps ∧
      ∀ v ∈ vs, ∀ s arguments span, v.node ≠ .type (f.reference name s arguments span) := by
  have hreports : ps = f.resolve.visits.filterMap Visit.report? := by
    rw [← TypeDecl.problems_ofFile, hps]
    rfl
  rw [hreports]
  refine ⟨f.resolve.visits.filter Visit.isReported, List.filter_sublist,
    Visit.forall₂_problem?_reports _, ?_⟩
  intro v hv s arguments span hnode
  have hreported : v.isReported = true := (List.mem_filter.1 hv).2
  simp only [Visit.isReported, Node.isOffending, hnode, h.problem?_reference hb,
    Option.isSome_none, Bool.false_and, Bool.false_eq_true] at hreported

end SourceFile

theorem check_of_parse_eq_ok {source : String} {file : SourceFile}
    (hp : SourceFile.parse source = .ok file) :
    check source = (TypeDecl.ofFile file.resolve).mapError .invalid := by
  simp only [check, hp]
  cases TypeDecl.ofFile file.resolve <;> rfl

theorem check_shadows_builtIn {source name : String} {file : SourceFile}
    (hp : SourceFile.parse source = .ok file) (hd : file.Declares name) :
    (file.Shadows name ↔ ¬ IsBuiltIn file.moduleName name) ∧
    (file.Shadows name →
      (∀ ds, check source = .ok ds → ∀ p s arguments span,
        file.at? p = some (.named ⟨none, name, s⟩ arguments span) →
          ∃ ts, DataType.ofTypeExprs
              (arguments.map (TypeExpr.mapNames (Scope.ofFile file).resolve)) = .ok ts ∧
            TypeDecl.at? ds p = some (.base (.other name) ts)) ∧
      ∀ ps, check source = .error (.invalid ps) →
        ∃ vs, vs.Sublist file.resolve.visits ∧
          List.Forall₂ (fun v p => v.node.problem? = some p) vs ps ∧
          ∀ v ∈ vs, ∀ s arguments span, v.node ≠ .type (file.reference name s arguments span)) := by
  refine ⟨hd.shadows_iff, fun hs => ⟨?_, ?_⟩⟩
  · intro ds hds p s arguments span ha
    rw [check_of_parse_eq_ok hp] at hds
    have hfile : TypeDecl.ofFile file.resolve = .ok ds := by
      cases hf : TypeDecl.ofFile file.resolve with
      | error ps => simp [hf, Except.mapError] at hds
      | ok ds' => simpa [hf, Except.mapError] using hds
    have hresolved : file.resolve.at? p = some (file.reference name s arguments span) := by
      rw [SourceFile.at?_resolve, ha]
      rfl
    obtain ⟨u, hu, hau⟩ := TypeDecl.exists_at? hfile hresolved
    rw [hs] at hau
    obtain ⟨ts, hts, rfl⟩ := Validated.exists_of_map_eq_ok hau
    exact ⟨ts, hts, hu⟩
  · intro ps hps
    rw [check_of_parse_eq_ok hp] at hps
    refine hd.problems_elsewhere (hd.shadows_iff.1 hs) ?_
    cases hf : TypeDecl.ofFile file.resolve with
    | error ps' => simpa [hf, Except.mapError] using hps
    | ok ds => simp [hf, Except.mapError] at hps

theorem check_shadows_builtIn_list :
    let source := "type List a = Nil | Cons a (List a)\n\ntype alias Pair = List Int String"
    ∃ file ds, SourceFile.parse source = .ok file ∧ file.Declares "List" ∧
      file.Shadows "List" ∧ check source = .ok ds ∧
      TypeDecl.at? ds ⟨1, 0, []⟩ = some (.base (.other "List") [.base .int [], .base .string []]) := by
  intro source
  have hl : lex source = .ok [⟨.word "type", ⟨0, 4⟩, 0⟩, ⟨.word "List", ⟨5, 4⟩, 5⟩,
      ⟨.word "a", ⟨10, 1⟩, 10⟩, ⟨.symbol .equals, ⟨12, 1⟩, 12⟩, ⟨.word "Nil", ⟨14, 3⟩, 14⟩,
      ⟨.symbol .bar, ⟨18, 1⟩, 18⟩, ⟨.word "Cons", ⟨20, 4⟩, 20⟩, ⟨.word "a", ⟨25, 1⟩, 25⟩,
      ⟨.opening .round, ⟨27, 1⟩, 27⟩, ⟨.word "List", ⟨28, 4⟩, 28⟩, ⟨.word "a", ⟨33, 1⟩, 33⟩,
      ⟨.closing .round, ⟨34, 1⟩, 34⟩, ⟨.word "type", ⟨37, 4⟩, 0⟩, ⟨.word "alias", ⟨42, 5⟩, 5⟩,
      ⟨.word "Pair", ⟨48, 4⟩, 11⟩, ⟨.symbol .equals, ⟨53, 1⟩, 16⟩, ⟨.word "List", ⟨55, 4⟩, 18⟩,
      ⟨.word "Int", ⟨60, 3⟩, 23⟩, ⟨.word "String", ⟨64, 6⟩, 27⟩] := by
    decide +kernel
  have hparse : ∃ file, SourceFile.parse source = .ok file ∧ file.Declares "List" ∧
      ¬ IsBuiltIn file.moduleName "List" ∧
      file.at? ⟨1, 0, []⟩ = some (.named ⟨none, "List", ⟨55, 4⟩⟩
        [.named ⟨none, "Int", ⟨60, 3⟩⟩ [] ⟨60, 3⟩, .named ⟨none, "String", ⟨64, 6⟩⟩ [] ⟨64, 6⟩]
        ⟨55, 15⟩) ∧
      DataType.ofTypeExprs ([.named ⟨none, "Int", ⟨60, 3⟩⟩ [] ⟨60, 3⟩,
          .named ⟨none, "String", ⟨64, 6⟩⟩ [] ⟨64, 6⟩].map
        (TypeExpr.mapNames (Scope.ofFile file).resolve)) =
          .ok [.base .int [], .base .string []] := by
    rw [SourceFile.parse, hl]
    exact ⟨_, rfl, ⟨_, List.mem_cons_self, rfl⟩, by decide, rfl, rfl⟩
  have hcheck : ∃ ds, check source = .ok ds := by
    rw [check, SourceFile.parse, hl]
    exact ⟨_, rfl⟩
  obtain ⟨file, hp, hd, hb, ha, harguments⟩ := hparse
  obtain ⟨ds, hds⟩ := hcheck
  obtain ⟨hiff, hs⟩ := check_shadows_builtIn hp hd
  obtain ⟨ts, hts, hu⟩ := (hs (hiff.2 hb)).1 ds hds _ _ _ _ ha
  rw [harguments] at hts
  cases hts
  exact ⟨file, ds, hp, hd, hiff.2 hb, hds, hu⟩

theorem check_rejects_declared_list :
    let source := "module List exposing (..)\n\ntype List a = Nil | Cons a (List a)\n\n" ++
      "type alias Pair = List Int String"
    ∃ file arguments, SourceFile.parse source = .ok file ∧ file.Declares "List" ∧
      .collision .list ∈ journal source ∧
      file.at? ⟨1, 0, []⟩ = some (.named ⟨none, "List", ⟨82, 4⟩⟩ arguments ⟨82, 15⟩) ∧
      DataType.ofTypeExprs (arguments.map (TypeExpr.mapNames (Scope.ofFile file).resolve)) =
        .ok [.base .int [], .base .string []] ∧
      check source = .error (.invalid [⟨.wrongArity .list 2, ⟨82, 15⟩⟩]) := by
  intro source
  have hl : lex source = .ok [⟨.word "module", ⟨0, 6⟩, 0⟩, ⟨.word "List", ⟨7, 4⟩, 7⟩,
      ⟨.word "exposing", ⟨12, 8⟩, 12⟩, ⟨.opening .round, ⟨21, 1⟩, 21⟩, ⟨.symbol .dots, ⟨22, 2⟩, 22⟩,
      ⟨.closing .round, ⟨24, 1⟩, 24⟩, ⟨.word "type", ⟨27, 4⟩, 0⟩, ⟨.word "List", ⟨32, 4⟩, 5⟩,
      ⟨.word "a", ⟨37, 1⟩, 10⟩, ⟨.symbol .equals, ⟨39, 1⟩, 12⟩, ⟨.word "Nil", ⟨41, 3⟩, 14⟩,
      ⟨.symbol .bar, ⟨45, 1⟩, 18⟩, ⟨.word "Cons", ⟨47, 4⟩, 20⟩, ⟨.word "a", ⟨52, 1⟩, 25⟩,
      ⟨.opening .round, ⟨54, 1⟩, 27⟩, ⟨.word "List", ⟨55, 4⟩, 28⟩, ⟨.word "a", ⟨60, 1⟩, 33⟩,
      ⟨.closing .round, ⟨61, 1⟩, 34⟩, ⟨.word "type", ⟨64, 4⟩, 0⟩, ⟨.word "alias", ⟨69, 5⟩, 5⟩,
      ⟨.word "Pair", ⟨75, 4⟩, 11⟩, ⟨.symbol .equals, ⟨80, 1⟩, 16⟩, ⟨.word "List", ⟨82, 4⟩, 18⟩,
      ⟨.word "Int", ⟨87, 3⟩, 23⟩, ⟨.word "String", ⟨91, 6⟩, 27⟩] := by
    decide +kernel
  have hparse : ∃ file arguments, SourceFile.parse source = .ok file ∧ file.Declares "List" ∧
      file.at? ⟨1, 0, []⟩ = some (.named ⟨none, "List", ⟨82, 4⟩⟩ arguments ⟨82, 15⟩) ∧
      DataType.ofTypeExprs (arguments.map (TypeExpr.mapNames (Scope.ofFile file).resolve)) =
        .ok [.base .int [], .base .string []] := by
    rw [SourceFile.parse, hl]
    exact ⟨_, _, rfl, ⟨_, List.mem_cons_self, rfl⟩, rfl, rfl⟩
  obtain ⟨file, arguments, hp, hd, ha, harguments⟩ := hparse
  refine ⟨file, arguments, hp, hd, ?_, ha, harguments, ?_⟩
  · rw [journal, hl]
    decide +kernel
  · rw [check, SourceFile.parse, hl]
    rfl

end ElmTypes
