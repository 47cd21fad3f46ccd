import ElmTypes.Span

namespace ElmTypes.Span

def Within (n : Nat) (s : Span) : Prop := s.isEmpty = false ∧ s.stop ≤ n

variable {a b s : Span} {m n : Nat}

theorem within_iff : s.Within n ↔ 0 < s.length ∧ s.stop ≤ n := by
  simp [Within, isEmpty, Nat.pos_iff_ne_zero]

theorem Within.mono (h : s.Within m) (hmn : m ≤ n) : s.Within n :=
  ⟨h.1, Nat.le_trans h.2 hmn⟩

theorem Within.shift (h : s.Within n) (m : Nat) : (s.shift m).Within (m + n) := by
  refine ⟨h.1, ?_⟩
  rw [stop_shift]
  exact Nat.add_le_add_left h.2 m

theorem Within.hull (ha : a.Within n) (hb : b.Within n) : (a.hull b).Within n := by
  rw [within_iff] at *
  have hae : a.isEmpty = false := by simpa [isEmpty] using Nat.pos_iff_ne_zero.1 ha.1
  have hbe : b.isEmpty = false := by simpa [isEmpty] using Nat.pos_iff_ne_zero.1 hb.1
  have hstart := start_hull hae hbe
  have hstop := stop_hull hae hbe
  refine ⟨?_, by omega⟩
  simp only [stop] at *
  omega

theorem isEmpty_hull (ha : a.isEmpty = false) (hb : b.isEmpty = false) :
    (a.hull b).isEmpty = false := by
  have hwithin : (a.hull b).Within (max a.stop b.stop) :=
    .hull ⟨ha, Nat.le_max_left _ _⟩ ⟨hb, Nat.le_max_right _ _⟩
  exact hwithin.1

end ElmTypes.Span
