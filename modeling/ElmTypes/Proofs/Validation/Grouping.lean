import ElmTypes.Proofs.Validation.Accumulation

namespace ElmTypes.Validated

variable {ε α : Type}

structure Tally (ε α : Type) where
  values : List α
  problems : List ε

namespace Tally

def start : Tally ε α := ⟨[], []⟩

def add (t : Tally ε α) : Validated ε α → Tally ε α
  | .ok v => if t.problems.isEmpty then ⟨t.values ++ [v], t.problems⟩ else t
  | .error es => ⟨t.values, t.problems ++ es⟩

def outcome (t : Tally ε α) : Validated ε (List α) :=
  if t.problems = [] then .ok t.values else .error t.problems

structure Of (rs : List (Validated ε α)) (t : Tally ε α) : Prop where
  problems : t.problems = rs.flatMap Validated.problems
  values : t.problems = [] → t.values = rs.filterMap Except.toOption

variable {rs : List (Validated ε α)} {t : Tally ε α}

theorem of_start : Of [] (start : Tally ε α) := ⟨rfl, fun _ => rfl⟩

theorem Of.add (h : Of rs t) (r : Validated ε α) : Of (rs ++ [r]) (t.add r) := by
  cases r with
  | ok v =>
      have hproblems : (rs ++ [Except.ok v]).flatMap Validated.problems = t.problems := by
        rw [List.flatMap_append, ← h.problems]
        exact List.append_nil t.problems
      cases ht : t.problems with
      | nil =>
          refine ⟨?_, fun _ => ?_⟩
          · simpa [Tally.add, ht] using hproblems.symm
          · simp [Tally.add, ht, h.values ht, Except.toOption]
      | cons e es =>
          refine ⟨?_, fun hnil => ?_⟩
          · simpa [Tally.add, ht] using hproblems.symm
          · simp [Tally.add, ht] at hnil
  | error es =>
      refine ⟨?_, fun hnil => ?_⟩
      · simp [Tally.add, h.problems, Validated.problems]
      · have ht : t.problems = [] := (List.append_eq_nil_iff.1 hnil).1
        simp [Tally.add, h.values ht, Except.toOption]

theorem Of.foldl (h : Of rs t) (ss : List (Validated ε α)) :
    Of (rs ++ ss) (ss.foldl Tally.add t) := by
  induction ss generalizing rs t with
  | nil => simpa using h
  | cons s ss ih => simpa using ih (h.add s)

end Tally

theorem accumulate_eq_ite (rs : List (Validated ε α)) :
    accumulate rs =
      if rs.flatMap problems = [] then .ok (rs.filterMap Except.toOption)
      else .error (rs.flatMap problems) := by
  induction rs with
  | nil => rfl
  | cons r rs ih =>
      rw [accumulate_cons, ih]
      rcases r with (_ | ⟨e, es⟩) | v
      · rfl
      · split <;> simp_all [cons, problems]
      · split <;> simp_all [cons, problems, Except.toOption]

theorem outcome_foldl (rs : List (Validated ε α)) :
    (rs.foldl Tally.add .start).outcome = accumulate rs := by
  have h : Tally.Of rs (rs.foldl Tally.add .start) := Tally.of_start.foldl rs
  rw [accumulate_eq_ite, Tally.outcome, ← h.problems]
  split
  · rename_i hnil
    rw [h.values hnil]
  · rfl

theorem flatMap_problems_map_accumulate (rss : List (List (Validated ε α))) :
    (rss.map accumulate).flatMap problems = rss.flatten.flatMap problems := by
  induction rss with
  | nil => rfl
  | cons rs rss ih =>
      rw [List.map_cons, List.flatMap_cons, ih, problems_accumulate, List.flatten_cons,
        List.flatMap_append]

theorem flatten_filterMap_map_accumulate {rss : List (List (Validated ε α))}
    (h : rss.flatten.flatMap problems = []) :
    ((rss.map accumulate).filterMap Except.toOption).flatten =
      rss.flatten.filterMap Except.toOption := by
  induction rss with
  | nil => rfl
  | cons rs rss ih =>
      rw [List.flatten_cons, List.flatMap_append] at h
      obtain ⟨hrs, hrss⟩ := List.append_eq_nil_iff.1 h
      have hok : accumulate rs = .ok (rs.filterMap Except.toOption) := by
        rw [accumulate_eq_ite, if_pos hrs]
      rw [List.map_cons, hok, List.flatten_cons, List.filterMap_append, ← ih hrss]
      rfl

theorem accumulate_flatten (rss : List (List (Validated ε α))) :
    accumulate rss.flatten = (accumulate (rss.map accumulate)).map List.flatten := by
  rw [accumulate_eq_ite rss.flatten, accumulate_eq_ite (rss.map accumulate),
    flatMap_problems_map_accumulate]
  split
  · rename_i h
    rw [Except.map, flatten_filterMap_map_accumulate h]
  · rfl

theorem exists_accumulate_eq_ok_iff {rs : List (Validated ε α)} (h : .error [] ∉ rs) :
    (∃ vs, accumulate rs = .ok vs) ↔ ∀ r ∈ rs, ∃ v, r = .ok v := by
  have hne : ∀ r ∈ rs, r ≠ .error [] := fun r hr he => h (he ▸ hr)
  rw [← problems_eq_nil_iff (accumulate_ne_error_nil rs), problems_accumulate,
    List.flatMap_eq_nil_iff]
  exact forall₂_congr fun r hr => problems_eq_nil_iff (hne r hr)

theorem accumulate_keeps_all :
    (∀ rs : List (Validated ε α),
      accumulate rs = (rs.foldl Tally.add .start).outcome ∧
        accumulate rs =
          if rs.flatMap problems ≠ [] then .error (rs.flatMap problems)
          else .ok (rs.filterMap Except.toOption)) ∧
    (∀ rss : List (List (Validated ε α)),
      (accumulate (rss.map accumulate)).map List.flatten = accumulate rss.flatten) ∧
    ∀ rs : List (Validated ε α), .error [] ∉ rs →
      ((∃ vs, accumulate rs = .ok vs) ↔ ∀ r ∈ rs, ∃ v, r = .ok v) ∧
        ∀ es, accumulate rs = .error es → es ≠ [] := by
  refine ⟨fun rs => ⟨(outcome_foldl rs).symm, ?_⟩, fun rss => (accumulate_flatten rss).symm,
    fun rs h => ⟨exists_accumulate_eq_ok_iff h, ?_⟩⟩
  · rw [accumulate_eq_ite, ite_not]
  · rintro es hes rfl
    exact accumulate_ne_error_nil rs hes

theorem accumulate_keeps_all_three :
    let group : List (Validated String Nat) := [.error ["a", "b"], .ok 1, .error ["c"]]
    accumulate [accumulate group, accumulate [.ok 2]] = .error ["a", "b", "c"] ∧
      accumulate (group ++ [.ok 2]) = .error ["a", "b", "c"] ∧
      (¬ ∃ vs, accumulate group = .ok vs) ∧ .error [] ∉ group := by
  have hgroup : (.error [] : Validated String Nat) ∉
      [.error ["a", "b"], .ok 1, .error ["c"]] := by simp
  obtain ⟨hiff, -⟩ := accumulate_keeps_all.2.2 _ hgroup
  refine ⟨rfl, rfl, fun h => ?_, hgroup⟩
  obtain ⟨v, hv⟩ := hiff.1 h (.error ["c"]) (by simp)
  cases hv

end ElmTypes.Validated
