import ElmTypes.Validated
import Mathlib.Data.List.Forall2

namespace ElmTypes.Validated

variable {ε α β : Type}

theorem accumulate_ne_error_nil (rs : List (Validated ε α)) : accumulate rs ≠ .error [] := by
  induction rs with
  | nil => simp
  | cons r rs ih =>
      rw [accumulate_cons]
      rcases r with (_ | ⟨e, es⟩) | v
      · exact ih
      · simp [cons]
      · cases h : accumulate rs with
        | error es =>
            intro hc
            exact ih (h.trans hc)
        | ok vs => simp [cons]

theorem map_ne_error_nil (f : α → β) {r : Validated ε α} (h : r ≠ .error []) :
    r.map f ≠ .error [] := by
  rcases r with es | v
  · simpa [Except.map] using h
  · simp [Except.map]

theorem exists_of_map_eq_ok {f : α → β} {r : Validated ε α} {b : β} (h : r.map f = .ok b) :
    ∃ a, r = .ok a ∧ f a = b := by
  rcases r with es | a
  · simp [Except.map] at h
  · exact ⟨a, rfl, Except.ok.inj h⟩

theorem problems_map (f : α → β) (r : Validated ε α) : problems (r.map f) = r.problems := by
  cases r <;> rfl

theorem problems_eq_nil_iff {r : Validated ε α} (h : r ≠ .error []) :
    r.problems = [] ↔ ∃ v, r = .ok v := by
  rcases r with es | v
  · have hes : es ≠ [] := fun he => h (he ▸ rfl)
    simpa [problems] using hes
  · simp [problems]

theorem forall₂_of_accumulate_eq_ok {rs : List (Validated ε α)} {vs : List α}
    (hr : ∀ r ∈ rs, r ≠ .error []) (h : accumulate rs = .ok vs) :
    List.Forall₂ (fun r v => r = .ok v) rs vs := by
  induction rs generalizing vs with
  | nil =>
      obtain rfl := Except.ok.inj h
      exact .nil
  | cons r rs ih =>
      have hrs : ∀ r ∈ rs, r ≠ .error [] := fun r h => hr r (List.mem_cons_of_mem _ h)
      rw [accumulate_cons] at h
      rcases r with (_ | ⟨e, es⟩) | v
      · exact absurd rfl (hr _ (List.mem_cons_self ..))
      · simp [cons] at h
      · cases hv : accumulate rs with
        | error es => simp [cons, hv] at h
        | ok vs =>
            simp only [cons, hv, Except.ok.injEq] at h
            exact h ▸ .cons rfl (ih hrs hv)

theorem mem_of_accumulate_eq_ok {rs : List (Validated ε α)} {vs : List α} {v : α}
    (h : accumulate rs = .ok vs) (hv : v ∈ vs) : .ok v ∈ rs := by
  induction rs generalizing vs with
  | nil =>
      obtain rfl := Except.ok.inj h
      exact absurd hv (by simp)
  | cons r rs ih =>
      rw [accumulate_cons] at h
      rcases r with (_ | ⟨e, es⟩) | w
      · exact List.mem_cons_of_mem _ (ih h hv)
      · simp [cons] at h
      · cases hw : accumulate rs with
        | error es => simp [cons, hw] at h
        | ok ws =>
            simp only [cons, hw, Except.ok.injEq] at h
            subst h
            rcases List.mem_cons.1 hv with rfl | hv
            · exact List.mem_cons_self ..
            · exact List.mem_cons_of_mem _ (ih hw hv)

theorem accumulate_eq_ok_of_forall₂ {rs : List (Validated ε α)} {vs : List α}
    (h : List.Forall₂ (fun r v => r = .ok v) rs vs) : accumulate rs = .ok vs := by
  induction h with
  | nil => rfl
  | cons hr _ ih => rw [accumulate_cons, hr, ih, cons]

theorem accumulate_ok_cons_eq_ok_iff {v : α} {rs : List (Validated ε α)} {vs : List α} :
    accumulate (.ok v :: rs) = .ok vs ↔ ∃ ws, vs = v :: ws ∧ accumulate rs = .ok ws := by
  rw [accumulate_cons]
  cases accumulate rs with
  | ok ws => simp [cons, eq_comm]
  | error es => simp [cons]

end ElmTypes.Validated
