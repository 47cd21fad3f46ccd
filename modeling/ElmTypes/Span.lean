namespace ElmTypes

structure Span where
  start : Nat
  length : Nat
deriving DecidableEq

namespace Span

def empty : Span := ⟨0, 0⟩

def stop (s : Span) : Nat := s.start + s.length

def isEmpty (s : Span) : Bool := s.length == 0

def shift (n : Nat) (s : Span) : Span := ⟨n + s.start, s.length⟩

def hull (a b : Span) : Span :=
  -- an empty span adds nothing
  if b.isEmpty then a
  else if a.isEmpty then b
  else ⟨min a.start b.start, max a.stop b.stop - min a.start b.start⟩

@[simp] theorem isEmpty_empty : empty.isEmpty = true := rfl

@[simp] theorem stop_shift (n : Nat) (s : Span) : (s.shift n).stop = n + s.stop := by
  simp [shift, stop, Nat.add_assoc]

@[simp] theorem isEmpty_shift (n : Nat) (s : Span) : (s.shift n).isEmpty = s.isEmpty := rfl

theorem shift_shift (m n : Nat) (s : Span) : (s.shift m).shift n = s.shift (n + m) := by
  simp [shift, Nat.add_assoc]

theorem hull_of_isEmpty_right {a b : Span} (h : b.isEmpty = true) : a.hull b = a := by
  simp [hull, h]

theorem hull_of_isEmpty_left {a b : Span} (ha : a.isEmpty = true) (hb : b.isEmpty = false) :
    a.hull b = b := by
  simp [hull, ha, hb]

theorem start_hull {a b : Span} (ha : a.isEmpty = false) (hb : b.isEmpty = false) :
    (a.hull b).start = min a.start b.start := by
  simp [hull, ha, hb]

theorem hull_shift (n : Nat) (a b : Span) : (a.shift n).hull (b.shift n) = (a.hull b).shift n := by
  unfold hull
  rw [isEmpty_shift, isEmpty_shift, stop_shift, stop_shift]
  split
  · rfl
  · split
    · rfl
    · simp only [shift, mk.injEq]
      omega

theorem stop_hull {a b : Span} (ha : a.isEmpty = false) (hb : b.isEmpty = false) :
    (a.hull b).stop = max a.stop b.stop := by
  simp only [hull, ha, hb, stop, Bool.false_eq_true, if_false]
  omega

end Span

end ElmTypes
