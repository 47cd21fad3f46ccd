import ElmTypes.DataType.OfSource
import ElmTypes.Proofs.Printing.DataType
import ElmTypes.Proofs.Source.Parts
import ElmTypes.Scope

namespace ElmTypes

def builtinNames : List String :=
  [BaseType.string.text, BaseType.int.text, BaseType.float.text] ++ Container.all.map Container.name

namespace DataType

def builtinName? : DataType → Option String
  | .list _ => some Container.list.name
  | .maybe _ => some Container.maybe.name
  | .dict .. => some Container.dict.name
  | .result .. => some Container.result.name
  | .base (.other _) _ => none
  | .base b _ => some b.text
  | .record _ | .tuple _ => none

def otherName? : DataType → Option String
  | .base (.other name) _ => some name
  | _ => none

mutual

def nodes : DataType → List DataType
  | .record fields => .record fields :: nodesFields fields
  | .tuple elements => .tuple elements :: nodesAll elements
  | .list t => .list t :: t.nodes
  | .maybe t => .maybe t :: t.nodes
  | .dict k v => .dict k v :: (k.nodes ++ v.nodes)
  | .result e v => .result e v :: (e.nodes ++ v.nodes)
  | .base b arguments => .base b arguments :: nodesAll arguments

def nodesAll : List DataType → List DataType
  | [] => []
  | t :: ts => t.nodes ++ nodesAll ts

def nodesFields : List (String × DataType) → List DataType
  | [] => []
  | (_, t) :: fields => t.nodes ++ nodesFields fields

end

theorem nodesAll_eq_flatMap (ts : List DataType) : nodesAll ts = ts.flatMap nodes := by
  induction ts with
  | nil => rfl
  | cons t ts ih => rw [nodesAll, ih, List.flatMap_cons]

theorem nodesFields_eq_flatMap (fields : List (String × DataType)) :
    nodesFields fields = fields.flatMap fun f => f.2.nodes := by
  induction fields with
  | nil => rfl
  | cons f fields ih => rw [nodesFields, ih, List.flatMap_cons]

structure Resolves (declared : List String) (t : DataType) : Prop where
  builtin : ∀ name ∈ t.builtinName?, name ∉ declared
  other : ∀ name ∈ t.otherName?, name ∈ declared ∨ name ∉ builtinNames

end DataType

def Scope.alone (declared : List String) : Scope :=
  ⟨"Main", declared, defaultAliases, defaultExposed⟩

theorem Scope.ofFile_eq_alone (ds : List Declaration) :
    Scope.ofFile ⟨none, [], ds⟩ = .alone (ds.filterMap fun d => d.declared.typeName?) := rfl

section

variable {declared : List String} {name : String}

theorem Scope.resolve_of_mem (h : name ∈ declared) (s : Span) :
    (alone declared).resolve ⟨none, name, s⟩ = ⟨some "Main", name, s⟩ := by
  simp [resolve, module?, alone, h]

theorem Scope.resolve_of_not_mem (h : name ∉ declared) (s : Span) :
    (alone declared).resolve ⟨none, name, s⟩ = ⟨defaultExposed.lookup name, name, s⟩ := by
  simp [resolve, module?, alone, h]

theorem Container.ofTypeName?_eq_none {n : TypeName}
    (h : ∀ c : Container, n.refersTo c.name c.name = false) : ofTypeName? n = none := by
  simp [ofTypeName?, h]

theorem TypeName.refersTo_of_ne {n : TypeName} {w : String} (m : String) (h : n.name ≠ w) :
    n.refersTo m w = false := by
  simp [refersTo, h]

theorem TypeName.refersTo_main {n : TypeName} {m : String} (w : String)
    (hn : n.module = some "Main") (hm : m ≠ "Main") : n.refersTo m w = false := by
  simp [refersTo, hn, Ne.symm hm]

theorem ofName_other (h : name ∈ declared ∨ name ∉ builtinNames) (s : Span)
    (arguments : List DataType) (span : Span) :
    DataType.ofName ((Scope.alone declared).resolve ⟨none, name, s⟩) arguments span =
      .ok (.base (.other name) arguments) := by
  have hrefers : ∀ m w, m ≠ "Main" → w ∈ builtinNames →
      ((Scope.alone declared).resolve ⟨none, name, s⟩).refersTo m w = false := by
    intro m w hm hw
    by_cases hd : name ∈ declared
    · rw [Scope.resolve_of_mem hd]
      exact TypeName.refersTo_main w rfl hm
    · refine TypeName.refersTo_of_ne m fun hn => ?_
      have hname : name = w := hn
      exact (h.resolve_left hd) (hname ▸ hw)
  have hc := Container.ofTypeName?_eq_none fun c =>
    hrefers c.name c.name (by cases c <;> decide) (by cases c <;> decide)
  rw [DataType.ofName, hc]
  simp only [BaseType.ofTypeName]
  rw [hrefers "String" "String" (by decide) (by decide),
    hrefers "Basics" "Int" (by decide) (by decide),
    hrefers "Basics" "Float" (by decide) (by decide)]
  rfl

theorem ofTypeName?_container (c : Container) (h : c.name ∉ declared) (s : Span) :
    Container.ofTypeName? ((Scope.alone declared).resolve ⟨none, c.name, s⟩) = some c := by
  rw [Scope.resolve_of_not_mem h]
  cases c <;> rfl

theorem ofName_base {b : BaseType} {arguments : List DataType}
    (h : (DataType.base b arguments).Resolves declared) (s span : Span) :
    DataType.ofName ((Scope.alone declared).resolve ⟨none, b.text, s⟩) arguments span =
      .ok (.base b arguments) := by
  cases b with
  | string =>
      rw [Scope.resolve_of_not_mem (h.builtin _ rfl)]
      rfl
  | int =>
      rw [Scope.resolve_of_not_mem (h.builtin _ rfl)]
      rfl
  | float =>
      rw [Scope.resolve_of_not_mem (h.builtin _ rfl)]
      rfl
  | other name => exact ofName_other (h.other _ rfl) s arguments span

end

namespace TypeExpr

theorem eq_variable_of_erase {e : TypeExpr} {name : String} (h : e.erase = .variable name .empty) :
    ∃ s, e = .variable name s := by
  cases e <;> simp at h
  subst h
  exact ⟨_, rfl⟩

theorem eq_named_of_erase {e : TypeExpr} {name : String} {as : List TypeExpr}
    (h : e.erase = .named (.plain name) as .empty) :
    ∃ bs s s', e = .named ⟨none, name, s⟩ bs s' ∧ bs.map erase = as := by
  cases e <;> simp at h
  rename_i n bs s
  obtain ⟨module, name', span⟩ := n
  simp only [TypeName.plain, TypeName.mk.injEq] at h
  obtain ⟨⟨rfl, rfl, -⟩, hbs⟩ := h
  exact ⟨bs, span, s, rfl, hbs⟩

theorem eq_tuple_of_erase {e : TypeExpr} {as : List TypeExpr} (h : e.erase = .tuple as .empty) :
    ∃ bs s, e = .tuple bs s ∧ bs.map erase = as := by
  cases e <;> simp at h
  exact ⟨_, _, rfl, h⟩

theorem eq_record_of_erase {e : TypeExpr} {fs : List (RecordField TypeExpr)}
    (h : e.erase = .record fs .empty) : ∃ gs s, e = .record gs s ∧ gs.map eraseField = fs := by
  cases e <;> simp at h
  exact ⟨_, _, rfl, h⟩

end TypeExpr

namespace DataType

variable {f : TypeName → TypeName} {declared : List String}

theorem ofTypeExprs_of_erase {as : List TypeExpr} {ts : List DataType}
    (ih : ∀ t ∈ ts, ∀ e : TypeExpr, e.erase = t.toExpr → ofTypeExpr (e.mapNames f) = .ok t)
    (h : as.map TypeExpr.erase = ts.map toExpr) :
    ofTypeExprs (TypeExpr.mapNamesAll f as) = .ok ts := by
  induction ts generalizing as with
  | nil =>
      obtain rfl := List.map_eq_nil_iff.1 h
      rfl
  | cons t ts ihs =>
      obtain ⟨a, as, rfl, ha, has⟩ := List.map_eq_cons_iff.1 h
      obtain ⟨ih, ih'⟩ := List.forall_mem_cons.1 ih
      rw [TypeExpr.mapNamesAll, ofTypeExprs, ih a ha, ihs ih' has]
      rfl

theorem ofFields_of_erase {fs : List (RecordField TypeExpr)} {gs : List (String × DataType)}
    (ih : ∀ g ∈ gs, ∀ e : TypeExpr, e.erase = g.2.toExpr → ofTypeExpr (e.mapNames f) = .ok g.2)
    (h : fs.map TypeExpr.eraseField = fieldExprs gs) :
    ofFields (TypeExpr.mapNamesFields f fs) = .ok gs := by
  induction gs generalizing fs with
  | nil =>
      obtain rfl := List.map_eq_nil_iff.1 h
      rfl
  | cons g gs ihs =>
      obtain ⟨⟨name, e, s⟩, fs, rfl, hr, hfs⟩ := List.map_eq_cons_iff.1 h
      obtain ⟨ih, ih'⟩ := List.forall_mem_cons.1 ih
      simp only [TypeExpr.eraseField, RecordField.mk.injEq, and_true] at hr
      obtain ⟨rfl, he⟩ := hr
      rw [TypeExpr.mapNamesFields, ofFields, ih e he, ihs ih' hfs]
      rfl

theorem ofTypeExpr_of_container {c : Container} (hc : c.name ∉ declared) {e : TypeExpr}
    (ts : List DataType) {t : DataType} (hs : c.saturated? ts = some t)
    (ih : ∀ t ∈ ts, ∀ e : TypeExpr, e.erase = t.toExpr →
      ofTypeExpr (e.mapNames (Scope.alone declared).resolve) = .ok t)
    (he : e.erase = .named (.plain c.name) (ts.map toExpr) .empty) :
    ofTypeExpr (e.mapNames (Scope.alone declared).resolve) = .ok t := by
  obtain ⟨bs, s, s', rfl, hbs⟩ := TypeExpr.eq_named_of_erase he
  rw [TypeExpr.mapNames, ofTypeExpr, ofTypeExprs_of_erase ih hbs]
  simp only [ofName, ofTypeName?_container c hc, hs]

theorem ofTypeExpr_of_erase {t : DataType} (h : ∀ u ∈ t.nodes, u.Resolves declared) {e : TypeExpr}
    (he : e.erase = t.toExpr) : ofTypeExpr (e.mapNames (Scope.alone declared).resolve) = .ok t := by
  induction t generalizing e with
  | record fields ih =>
      obtain ⟨fs, s, rfl, hfs⟩ := TypeExpr.eq_record_of_erase he
      have hf : ∀ g ∈ fields, ∀ u ∈ g.2.nodes, u.Resolves declared := by
        rw [nodes, nodesFields_eq_flatMap] at h
        exact List.forall_mem_flatMap.1 (List.forall_mem_cons.1 h).2
      have hall := ofFields_of_erase (fun g hg e he => ih g hg (hf g hg) he) hfs
      rw [TypeExpr.mapNames, ofTypeExpr, hall]
      rfl
  | tuple elements ih =>
      rw [toExpr, exprs_eq_map] at he
      obtain ⟨as, s, rfl, has⟩ := TypeExpr.eq_tuple_of_erase he
      have ht : ∀ t ∈ elements, ∀ u ∈ t.nodes, u.Resolves declared := by
        rw [nodes, nodesAll_eq_flatMap] at h
        exact List.forall_mem_flatMap.1 (List.forall_mem_cons.1 h).2
      have hall := ofTypeExprs_of_erase (fun t hm e he => ih t hm (ht t hm) he) has
      rw [TypeExpr.mapNames, ofTypeExpr, hall]
      rfl
  | list t ih | maybe t ih =>
      obtain ⟨hself, ht⟩ := List.forall_mem_cons.1 h
      refine ofTypeExpr_of_container (hself.builtin _ rfl) [t] rfl ?_ he
      exact List.forall_mem_singleton.2 fun e he => ih ht he
  | dict k v ihk ihv | result k v ihk ihv =>
      obtain ⟨hself, hkv⟩ := List.forall_mem_cons.1 h
      obtain ⟨hk, hv⟩ := List.forall_mem_append.1 hkv
      refine ofTypeExpr_of_container (hself.builtin _ rfl) [k, v] rfl ?_ he
      refine List.forall_mem_cons.2 ⟨fun e he => ihk hk he, ?_⟩
      exact List.forall_mem_singleton.2 fun e he => ihv hv he
  | base b arguments ih =>
      rw [nodes, nodesAll_eq_flatMap, List.forall_mem_cons, List.forall_mem_flatMap] at h
      obtain ⟨hself, ht⟩ := h
      cases hb : b.isVariable arguments with
      | true =>
          obtain ⟨rfl, hexpr⟩ := toExpr_base_variable hb
          obtain ⟨s, rfl⟩ := TypeExpr.eq_variable_of_erase (he.trans hexpr)
          cases b with
          | other name => rfl
          | string | int | float => exact absurd hb (by decide)
      | false =>
          rw [toExpr_base_named hb] at he
          obtain ⟨bs, s, s', rfl, hbs⟩ := TypeExpr.eq_named_of_erase he
          rw [TypeExpr.mapNames, ofTypeExpr,
            ofTypeExprs_of_erase (fun t hm e he => ih t hm (ht t hm) he) hbs]
          exact ofName_base hself s s'

end DataType

end ElmTypes
