import Mathlib.Data.List.Induction
import ElmTypes.Proofs.Position

namespace ElmTypes

def closedLines (lines : List (List Char)) : List Char := lines.flatMap (· ++ ['\n'])

variable {lines : List (List Char)}

theorem length_closedLines (lines : List (List Char)) :
    (closedLines lines).length = lines.flatten.length + lines.length := by
  induction lines with
  | nil => rfl
  | cons line lines ih =>
      rw [closedLines, List.flatMap_cons, List.length_append, ← closedLines, ih,
        List.length_append, List.length_singleton, List.flatten_cons, List.length_append,
        List.length_cons]
      omega

theorem splitOn_closedLines (h : ∀ line ∈ lines, '\n' ∉ line) (text : List Char) :
    (closedLines lines ++ text).splitOn '\n' = lines ++ text.splitOn '\n' := by
  induction lines with
  | nil => rfl
  | cons line lines ih =>
      obtain ⟨hline, hlines⟩ := List.forall_mem_cons.1 h
      rw [List.cons_append, ← ih hlines, ← List.splitOn_append_cons_self_of_not_mem hline]
      simp [closedLines]

theorem splitOn_of_not_mem_append {start : List Char} (h : '\n' ∉ start) (text : List Char) :
    ∃ line lines, (start ++ text).splitOn '\n' = line :: lines ∧ start.length ≤ line.length := by
  induction start with
  | nil =>
      obtain ⟨line, lines, hlines⟩ := List.exists_cons_of_ne_nil (List.splitOn_ne_nil '\n' text)
      exact ⟨line, lines, hlines, Nat.zero_le _⟩
  | cons c start ih =>
      rw [List.mem_cons, not_or] at h
      obtain ⟨line, lines, hlines, hle⟩ := ih h.2
      refine ⟨c :: line, lines, ?_, Nat.succ_le_succ hle⟩
      rw [List.cons_append, List.splitOn_cons_eq_if_modifyHead, hlines,
        if_neg (by simpa using Ne.symm h.1)]
      rfl

theorem exists_closedLines (text : List Char) :
    ∃ lines last, text = closedLines lines ++ last ∧ (∀ line ∈ lines, '\n' ∉ line) ∧
      '\n' ∉ last ∧ Position.after text = ⟨lines.length + 1, last.length + 1⟩ := by
  induction text using List.reverseRecOn with
  | nil => exact ⟨[], [], rfl, List.forall_mem_nil _, List.not_mem_nil, rfl⟩
  | append_singleton text c ih =>
      obtain ⟨lines, last, rfl, hlines, hlast, hafter⟩ := ih
      rw [Position.after_append_singleton, hafter]
      by_cases hc : c = '\n'
      · subst hc
        refine ⟨lines ++ [last], [], by simp [closedLines], ?_, List.not_mem_nil, ?_⟩
        · exact List.forall_mem_append.2 ⟨hlines, List.forall_mem_singleton.2 hlast⟩
        · rw [Position.advance_lineFeed, List.length_append]
          rfl
      · refine ⟨lines, last ++ [c], by simp, hlines, ?_, ?_⟩
        · simpa [hlast] using Ne.symm hc
        · rw [Position.advance_of_ne hc, List.length_append]
          rfl

theorem Span.position_faithful (source : String) :
    (∀ s t : Span, s.start < t.start → t.start ≤ source.length →
      (s.position source.toList).Before (t.position source.toList)) ∧
    ∀ s : Span, s.start ≤ source.length →
      ∃ row column line, s.position source.toList = ⟨row + 1, column + 1⟩ ∧
        (source.toList.splitOn '\n')[row]? = some line ∧ column ≤ line.length ∧
        ((source.toList.splitOn '\n').take row).flatten.length + row + column = s.start := by
  rw [← String.length_toList]
  refine ⟨fun s t => position_before, fun s hs => ?_⟩
  obtain ⟨lines, last, htake, hlines, hlast, hafter⟩ :=
    exists_closedLines (source.toList.take s.start)
  obtain ⟨line, others, hsplit, hle⟩ :=
    splitOn_of_not_mem_append hlast (source.toList.drop s.start)
  have hall : source.toList.splitOn '\n' = lines ++ line :: others := by
    rw [← hsplit, ← splitOn_closedLines hlines, ← List.append_assoc, ← htake,
      List.take_append_drop]
  have hlength : s.start = lines.flatten.length + lines.length + last.length := by
    rw [← length_closedLines, ← List.length_append, ← htake, List.length_take, Nat.min_eq_left hs]
  refine ⟨lines.length, last.length, line, ?_, ?_, hle, ?_⟩
  · rw [position_eq_after_take, hafter]
  · rw [hall, List.getElem?_append_right (Nat.le_refl _), Nat.sub_self]
    rfl
  · rw [hall, List.take_left, hlength]

theorem Span.position_faithful_empty_line :
    let text := "a\n\nbc\n".toList
    text.splitOn '\n' = [['a'], [], ['b', 'c'], []] ∧
      ((⟨1, 1⟩ : Span).position text = ⟨1, 2⟩ ∧ (⟨2, 0⟩ : Span).position text = ⟨2, 1⟩ ∧
        (⟨6, 0⟩ : Span).position text = ⟨4, 1⟩) ∧
      ((⟨1, 1⟩ : Span).position text).Before ((⟨2, 0⟩ : Span).position text) ∧
      ∃ row column line, (⟨6, 0⟩ : Span).position text = ⟨row + 1, column + 1⟩ ∧
        (text.splitOn '\n')[row]? = some line ∧ column ≤ line.length ∧
        ((text.splitOn '\n').take row).flatten.length + row + column = 6 := by
  intro text
  obtain ⟨hbefore, hplace⟩ := Span.position_faithful "a\n\nbc\n"
  exact ⟨by decide, by decide, hbefore ⟨1, 1⟩ ⟨2, 0⟩ (by decide) (by decide),
    hplace ⟨6, 0⟩ (by decide)⟩

end ElmTypes
