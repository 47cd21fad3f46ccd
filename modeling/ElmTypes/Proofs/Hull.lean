import Mathlib.Data.List.Perm.Basic
import ElmTypes.Proofs.Span

namespace ElmTypes.Span

def Contains (s t : Span) : Prop := s.start ≤ t.start ∧ t.stop ≤ s.stop

structure IsLeastAround (s : Span) (spans : List Span) : Prop where
  contains : ∀ t ∈ spans, s.Contains t
  least : ∀ s' : Span, (∀ t ∈ spans, s'.Contains t) → s'.Contains s

variable {a b s : Span} {spans spans' : List Span} {n : Nat}

theorem eq_of_start_of_stop (hstart : a.start = b.start) (hstop : a.stop = b.stop) : a = b := by
  obtain ⟨start, length⟩ := a
  obtain ⟨start', length'⟩ := b
  simp only [stop, mk.injEq] at *
  omega

theorem hull_comm (h : a.isEmpty = false ∨ b.isEmpty = false) : a.hull b = b.hull a := by
  cases ha : a.isEmpty with
  | true =>
      have hb : b.isEmpty = false := by simpa [ha] using h
      rw [hull_of_isEmpty_left ha hb, hull_of_isEmpty_right ha]
  | false =>
      cases hb : b.isEmpty with
      | true => rw [hull_of_isEmpty_left hb ha, hull_of_isEmpty_right hb]
      | false =>
          apply eq_of_start_of_stop
          · rw [start_hull ha hb, start_hull hb ha, Nat.min_comm]
          · rw [stop_hull ha hb, stop_hull hb ha, Nat.max_comm]

theorem hull_assoc (a b c : Span) : (a.hull b).hull c = a.hull (b.hull c) := by
  cases hc : c.isEmpty with
  | true => rw [hull_of_isEmpty_right hc, hull_of_isEmpty_right hc]
  | false =>
      cases hb : b.isEmpty with
      | true => rw [hull_of_isEmpty_right hb, hull_of_isEmpty_left hb hc]
      | false =>
          have hbc := isEmpty_hull hb hc
          cases ha : a.isEmpty with
          | true => rw [hull_of_isEmpty_left ha hb, hull_of_isEmpty_left ha hbc]
          | false =>
              have hab := isEmpty_hull ha hb
              apply eq_of_start_of_stop
              · rw [start_hull hab hc, start_hull ha hb, start_hull ha hbc, start_hull hb hc,
                  Nat.min_assoc]
              · rw [stop_hull hab hc, stop_hull ha hb, stop_hull ha hbc, stop_hull hb hc,
                  Nat.max_assoc]

theorem foldl_hull_of_perm (h : spans'.Perm spans) (hne : ∀ t ∈ spans, t.isEmpty = false)
    (s : Span) : spans'.foldl hull s = spans.foldl hull s := by
  apply h.foldl_eq'
  intro t ht u _ s
  have htne : t.isEmpty = false := hne t (h.mem_iff.1 ht)
  rw [hull_assoc, hull_assoc, hull_comm (.inl htne)]

theorem start_foldl_hull (hs : s.isEmpty = false) (h : ∀ t ∈ spans, t.isEmpty = false) :
    (spans.foldl hull s).start = (spans.map start).foldl min s.start := by
  induction spans generalizing s with
  | nil => rfl
  | cons t spans ih =>
      obtain ⟨ht, hspans⟩ := List.forall_mem_cons.1 h
      rw [List.foldl_cons, ih (isEmpty_hull hs ht) hspans, start_hull hs ht]
      rfl

theorem stop_foldl_hull (hs : s.isEmpty = false) (h : ∀ t ∈ spans, t.isEmpty = false) :
    (spans.foldl hull s).stop = (spans.map stop).foldl max s.stop := by
  induction spans generalizing s with
  | nil => rfl
  | cons t spans ih =>
      obtain ⟨ht, hspans⟩ := List.forall_mem_cons.1 h
      rw [List.foldl_cons, ih (isEmpty_hull hs ht) hspans, stop_hull hs ht]
      rfl

theorem bounds_foldl_hull (hne : spans ≠ []) (h : ∀ t ∈ spans, t.isEmpty = false) :
    (spans.map start).min? = some (spans.foldl hull empty).start ∧
      (spans.map stop).max? = some (spans.foldl hull empty).stop := by
  cases spans with
  | nil => exact absurd rfl hne
  | cons t spans =>
      obtain ⟨ht, hspans⟩ := List.forall_mem_cons.1 h
      -- to start from the empty span is to start from the first one
      rw [List.foldl_cons, hull_of_isEmpty_left isEmpty_empty ht, start_foldl_hull ht hspans,
        stop_foldl_hull ht hspans, List.map_cons, List.map_cons, List.min?_cons', List.max?_cons']
      exact ⟨rfl, rfl⟩

theorem isLeastAround_of_bounds (hstart : (spans.map start).min? = some s.start)
    (hstop : (spans.map stop).max? = some s.stop) : s.IsLeastAround spans := by
  obtain ⟨hfirst, hmin⟩ := List.min?_eq_some_iff.1 hstart
  obtain ⟨hlast, hmax⟩ := List.max?_eq_some_iff.1 hstop
  constructor
  · intro t ht
    exact ⟨hmin _ (List.mem_map_of_mem ht), hmax _ (List.mem_map_of_mem ht)⟩
  · intro s' hs'
    obtain ⟨t, ht, hts⟩ := List.mem_map.1 hfirst
    obtain ⟨u, hu, hus⟩ := List.mem_map.1 hlast
    rw [Contains, ← hts, ← hus]
    exact ⟨(hs' t ht).1, (hs' u hu).2⟩

theorem stop_hull_le (ha : a.stop ≤ n) (hb : b.stop ≤ n) : (a.hull b).stop ≤ n := by
  cases hbe : b.isEmpty with
  | true => rwa [hull_of_isEmpty_right hbe]
  | false =>
      cases hae : a.isEmpty with
      | true => rwa [hull_of_isEmpty_left hae hbe]
      | false =>
          rw [stop_hull hae hbe]
          exact Nat.max_le.2 ⟨ha, hb⟩

theorem stop_foldl_hull_le (hs : s.stop ≤ n) (h : ∀ t ∈ spans, t.stop ≤ n) :
    (spans.foldl hull s).stop ≤ n := by
  induction spans generalizing s with
  | nil => exact hs
  | cons t spans ih =>
      obtain ⟨ht, hspans⟩ := List.forall_mem_cons.1 h
      exact ih (stop_hull_le hs ht) hspans

theorem hull_in_any_order :
    (∀ a b c : Span, (a.hull b).hull c = a.hull (b.hull c)) ∧
    (∀ a b : Span, a.isEmpty = false ∨ b.isEmpty = false → a.hull b = b.hull a) ∧
    (∀ a b : Span, a.isEmpty = true → b.isEmpty = false → a.hull b = b ∧ b.hull a = b) ∧
    ∀ spans spans' : List Span, spans ≠ [] → (∀ t ∈ spans, t.isEmpty = false) →
      spans'.Perm spans →
        (spans'.foldl hull empty).IsLeastAround spans ∧
        (spans.map start).min? = some (spans'.foldl hull empty).start ∧
        (spans.map stop).max? = some (spans'.foldl hull empty).stop ∧
        ∀ n, (∀ t ∈ spans, t.stop ≤ n) → ∀ before, before <+: spans' →
          (before.foldl hull empty).stop ≤ n := by
  refine ⟨hull_assoc, fun _ _ => hull_comm, fun a b ha hb => ?_, ?_⟩
  · exact ⟨hull_of_isEmpty_left ha hb, hull_of_isEmpty_right ha⟩
  · intro spans spans' hne h hperm
    obtain ⟨hstart, hstop⟩ := bounds_foldl_hull hne h
    rw [foldl_hull_of_perm hperm h]
    refine ⟨isLeastAround_of_bounds hstart hstop, hstart, hstop, fun n hn before hbefore => ?_⟩
    apply stop_foldl_hull_le (Nat.zero_le n)
    intro t ht
    exact hn t (hperm.mem_iff.1 (hbefore.subset ht))

theorem hull_in_any_order_apart :
    let spans : List Span := [⟨4, 9⟩, ⟨6, 2⟩, ⟨20, 1⟩, ⟨2, 1⟩]
    spans.reverse.foldl hull empty = ⟨2, 19⟩ ∧
      (spans.reverse.foldl hull empty).IsLeastAround spans ∧
      ((spans.reverse.take 2).foldl hull empty).stop ≤ 21 ∧
      (⟨7, 0⟩ : Span).hull ⟨4, 9⟩ = ⟨4, 9⟩ ∧
      (⟨4, 9⟩ : Span).hull ⟨20, 1⟩ = (⟨20, 1⟩ : Span).hull ⟨4, 9⟩ := by
  intro spans
  obtain ⟨-, hcomm, hneutral, hfold⟩ := hull_in_any_order
  obtain ⟨hleast, -, -, hbound⟩ :=
    hfold spans spans.reverse (by decide) (by decide) (List.reverse_perm spans)
  refine ⟨by decide, hleast, ?_, (hneutral ⟨7, 0⟩ ⟨4, 9⟩ rfl rfl).1, hcomm _ _ (.inl rfl)⟩
  exact hbound 21 (by decide) (spans.reverse.take 2) (List.take_prefix _ _)

end ElmTypes.Span
