import ElmTypes.Proofs.Scope.Precedence
import ElmTypes.Proofs.Validation.Translation

namespace ElmTypes

def rearrange {α : Type} (order : List Nat) (xs : List α) : List α :=
  order.filterMap fun i => xs[i]?

section

variable {α β : Type} {order : List Nat} {xs : List α}

theorem rearrange_map (f : α → β) : rearrange order (xs.map f) = (rearrange order xs).map f := by
  simp only [rearrange, List.getElem?_map, List.map_filterMap]

theorem filterMap_getElem?_range (xs : List α) :
    (List.range xs.length).filterMap (fun i => xs[i]?) = xs := by
  induction xs with
  | nil => rfl
  | cons x xs ih =>
      rw [List.length_cons, List.range_succ_eq_map, List.filterMap_cons, List.filterMap_map]
      simpa [Function.comp_def] using ih

theorem perm_rearrange (h : order.Perm (List.range xs.length)) : (rearrange order xs).Perm xs := by
  have hperm := h.filterMap fun i => xs[i]?
  rwa [filterMap_getElem?_range] at hperm

end

namespace Validated

variable {ε α : Type} {rs : List (Validated ε α)}

theorem accumulate_eq_error (h : rs.flatMap problems ≠ []) :
    accumulate rs = .error (rs.flatMap problems) := by
  rw [← problems_accumulate] at h ⊢
  cases hrs : accumulate rs with
  | ok vs =>
      rw [hrs] at h
      exact absurd rfl h
  | error es => rfl

theorem accumulate_rearrange_eq_ok {order : List Nat} {vs : List α}
    (hr : ∀ r ∈ rs, r ≠ .error []) (h : accumulate rs = .ok vs) :
    accumulate (rearrange order rs) = .ok (rearrange order vs) := by
  have hrs : rs = vs.map .ok := by
    rw [← List.forall₂_eq_eq_eq, List.forall₂_map_right_iff]
    exact forall₂_of_accumulate_eq_ok hr h
  apply accumulate_eq_ok_of_forall₂
  rw [hrs, rearrange_map]
  exact List.forall₂_map_left_iff.2 (List.forall₂_same.2 fun v _ => rfl)

theorem accumulate_rearrange_eq_error {order : List Nat} {es : List ε}
    (ho : order.Perm (List.range rs.length)) (h : accumulate rs = .error es) :
    es = (rs.map problems).flatten ∧
      accumulate (rearrange order rs) = .error (rearrange order (rs.map problems)).flatten := by
  have hes : es = rs.flatMap problems := by
    rw [← problems_accumulate, h]
    rfl
  have hne : (rearrange order rs).flatMap problems ≠ [] := by
    intro hnil
    have hall : rs.flatMap problems = [] := by
      rw [List.flatMap_eq_nil_iff] at hnil ⊢
      exact fun r hrs => hnil r ((perm_rearrange ho).mem_iff.2 hrs)
    exact accumulate_ne_error_nil rs (by rw [h, hes, hall])
  rw [rearrange_map, ← List.flatMap_def, ← List.flatMap_def]
  exact ⟨hes, accumulate_eq_error hne⟩

end Validated

section

variable {α : Type} {p : α → Prop} {xs ys : List α} {x : α}

theorem IsLast.of_perm (h : IsLast p xs x) (hp : ys.Perm xs)
    (hu : xs.Pairwise fun y z => p y → ¬ p z) : IsLast p ys x := by
  obtain ⟨before, after, rfl, hx, -⟩ := h
  have hmem : x ∈ ys := hp.mem_iff.2 (by simp)
  obtain ⟨before', after', rfl⟩ := List.append_of_mem hmem
  refine ⟨before', after', rfl, hx, fun y hy => ?_⟩
  have hys := hp.symm.pairwise hu fun hyz hz hy => hyz hy hz
  exact (List.pairwise_cons.1 (List.pairwise_append.1 hys).2.1).1 y hy hx

end

namespace SourceFile

variable {f g : SourceFile}

theorem Means.imp {n : TypeName} {m : Option String} (h : f.Means n m)
    (hm : g.moduleName = f.moduleName) (hd : ∀ name, g.Declares name ↔ f.Declares name)
    (hi : ∀ i ∈ g.imports, i ∈ f.imports)
    (hb : ∀ q i, IsLast (Import.Binds q) f.imports i → IsLast (Import.Binds q) g.imports i)
    (he : ∀ name i, IsLast (Import.Exposes name) f.imports i →
      IsLast (Import.Exposes name) g.imports i) : g.Means n m := by
  cases h with
  | imported h => exact .imported (hb _ _ h)
  | command h hq => exact .command (fun i hg => h i (hi i hg)) hq
  | qualified h hq => exact .qualified (fun i hg => h i (hi i hg)) hq
  | declared h =>
      rw [← hm]
      exact .declared ((hd _).2 h)
  | exposed h hl => exact .exposed (mt (hd _).1 h) (he _ _ hl)
  | visible h hl hn => exact .visible (mt (hd _).1 h) (fun i hg => hl i (hi i hg)) hn
  | unknown h hl hn => exact .unknown (mt (hd _).1 h) (fun i hg => hl i (hi i hg)) hn

theorem resolve_eq_of_means (h : ∀ n m, f.Means n m → g.Means n m) :
    (Scope.ofFile g).resolve = (Scope.ofFile f).resolve := by
  funext n
  rw [Scope.resolve, Scope.resolve, ← (h n _ (means_iff.2 rfl)).eq_module?]

theorem declares_of_perm {ds : List Declaration} (h : ds.Perm f.declarations) (name : String) :
    ({ f with declarations := ds } : SourceFile).Declares name ↔ f.Declares name := by
  simp only [Declares, h.mem_iff]

theorem resolve_of_perm_declarations {ds : List Declaration} (h : ds.Perm f.declarations) :
    (Scope.ofFile { f with declarations := ds }).resolve = (Scope.ofFile f).resolve :=
  resolve_eq_of_means fun _ _ hn =>
    hn.imp rfl (declares_of_perm h) (fun _ hi => hi) (fun _ _ hl => hl) fun _ _ hl => hl

theorem resolve_of_perm_imports {is : List Import} (h : is.Perm f.imports)
    (hb : f.imports.Pairwise fun i j => ∀ q, i.Binds q → ¬ j.Binds q)
    (he : f.imports.Pairwise fun i j => ∀ name, i.Exposes name → ¬ j.Exposes name) :
    (Scope.ofFile { f with imports := is }).resolve = (Scope.ofFile f).resolve := by
  apply resolve_eq_of_means
  intro n m hn
  refine Means.imp (g := { f with imports := is }) hn rfl (fun _ => Iff.rfl) ?_ ?_ ?_
  · exact fun i => h.mem_iff.1
  · exact fun q i hl => hl.of_perm h (hb.imp fun hij => hij q)
  · exact fun name i hl => hl.of_perm h (he.imp fun hij => hij name)

theorem order_keeps_meaning (f : SourceFile) :
    (∀ order : List Nat, order.Perm (List.range f.declarations.length) →
      let g : SourceFile := { f with declarations := rearrange order f.declarations }
      let pss := f.resolve.declarations.map fun d => (TypeDecl.ofDeclaration d).problems
      (∀ types, TypeDecl.ofFile f.resolve = .ok types →
        TypeDecl.ofFile g.resolve = .ok (rearrange order types)) ∧
      ∀ ps, TypeDecl.ofFile f.resolve = .error ps →
        ps = pss.flatten ∧ TypeDecl.ofFile g.resolve = .error (rearrange order pss).flatten) ∧
    ∀ is : List Import, is.Perm f.imports →
      (f.imports.Pairwise fun i j => ∀ q, i.Binds q → ¬ j.Binds q) →
      (f.imports.Pairwise fun i j => ∀ name, i.Exposes name → ¬ j.Exposes name) →
      ({ f with imports := is } : SourceFile).resolve.declarations = f.resolve.declarations := by
  constructor
  · intro order ho g pss
    have hg : g.resolve.declarations = rearrange order f.resolve.declarations := by
      rw [resolve, resolve, resolve_of_perm_declarations (perm_rearrange ho)]
      exact (rearrange_map _).symm
    have hlength : order.Perm (List.range
        (f.resolve.declarations.map TypeDecl.ofDeclaration).length) := by
      rwa [resolve, List.length_map, List.length_map]
    have hpss : pss = (f.resolve.declarations.map TypeDecl.ofDeclaration).map
        Validated.problems := by
      rw [List.map_map]
      rfl
    rw [TypeDecl.ofFile, TypeDecl.ofFile, hg, ← rearrange_map, hpss]
    constructor
    · intro types ht
      refine Validated.accumulate_rearrange_eq_ok ?_ ht
      exact List.forall_mem_map.2 fun d _ => TypeDecl.ofDeclaration_ne_error_nil d
    · exact fun ps hps => Validated.accumulate_rearrange_eq_error hlength hps
  · intro is h hb he
    rw [resolve, resolve, resolve_of_perm_imports h hb he]

theorem order_keeps_meaning_two_imports :
    let dict : Import := ⟨"Dict", none, some (.only [.type "Dict" false]), ⟨0, 27⟩⟩
    let money : Import := ⟨"Shop.Money", some "Money", some (.only [.value "zero"]), ⟨28, 47⟩⟩
    let price : Declaration :=
      ⟨.alias "Price" [] (.named ⟨some "Money", "Cents", ⟨96, 11⟩⟩ [] ⟨96, 11⟩), ⟨77, 30⟩⟩
    let ids : Declaration :=
      ⟨.alias "Ids" [] (.named ⟨none, "List", ⟨125, 4⟩⟩ [.variable "a" ⟨130, 1⟩] ⟨125, 6⟩),
        ⟨108, 23⟩⟩
    let names : Declaration :=
      ⟨.alias "Names" [] (.named ⟨none, "Dict", ⟨148, 4⟩⟩ [.variable "a" ⟨153, 1⟩] ⟨148, 6⟩),
        ⟨132, 22⟩⟩
    let send : Declaration := ⟨.port "send" (.unit ⟨167, 2⟩), ⟨155, 14⟩⟩
    (TypeDecl.ofFile (resolve ⟨none, [dict, money], [price, ids]⟩) =
        .ok [.alias "Price" [] (.base (.other "Cents") []),
          .alias "Ids" [] (.list (.base (.other "a") []))] ∧
      TypeDecl.ofFile (resolve ⟨none, [dict, money], [ids, price]⟩) =
        .ok [.alias "Ids" [] (.list (.base (.other "a") [])),
          .alias "Price" [] (.base (.other "Cents") [])]) ∧
    (TypeDecl.ofFile (resolve ⟨none, [dict, money], [names, ids, send]⟩) =
        .error [⟨.wrongArity .dict 1, ⟨148, 6⟩⟩,
          ⟨.unsupported (.declaration "port declaration" "send"), ⟨155, 14⟩⟩] ∧
      TypeDecl.ofFile (resolve ⟨none, [dict, money], [send, names, ids]⟩) =
        .error [⟨.unsupported (.declaration "port declaration" "send"), ⟨155, 14⟩⟩,
          ⟨.wrongArity .dict 1, ⟨148, 6⟩⟩]) ∧
    (resolve ⟨none, [money, dict], [price, names]⟩).declarations =
      (resolve ⟨none, [dict, money], [price, names]⟩).declarations := by
  intro dict money price ids names send
  have htypes := (order_keeps_meaning ⟨none, [dict, money], [price, ids]⟩).1 [1, 0] (by decide)
  have hproblems := (order_keeps_meaning ⟨none, [dict, money], [names, ids, send]⟩).1
    [2, 0, 1] (by decide)
  have himports := (order_keeps_meaning ⟨none, [dict, money], [price, names]⟩).2
    [money, dict] (.swap ..)
  refine ⟨⟨rfl, htypes.1 _ rfl⟩, ⟨rfl, (hproblems.2 _ rfl).2⟩, himports ?_ ?_⟩
  · simp [dict, money, Import.Binds]
  · simp [dict, money, Import.Exposes]

end SourceFile

end ElmTypes
