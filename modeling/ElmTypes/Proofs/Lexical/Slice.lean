import Mathlib.Data.List.Forall2
import ElmTypes.Proofs.Lexical.Joining
import ElmTypes.Proofs.Lexical.Tiling

namespace ElmTypes

open Lexeme

theorem foldl_columnAfter_eq_zero_iff {j k : Nat} (h : j = 0 ↔ k = 0) (cs : List Char) :
    cs.foldl columnAfter j = 0 ↔ cs.foldl columnAfter k = 0 := by
  induction cs generalizing j k with
  | nil => exact h
  | cons c cs ih =>
      apply ih
      unfold columnAfter
      split
      · exact Iff.rfl
      · simp

theorem Lexeme.Comment.line_eq_of_length_lt {q x : List Char}
    (h : (line (q ++ x)).length < q.length) : line (q ++ x) = line q := by
  unfold line at h ⊢
  rw [List.takeWhile_append] at h ⊢
  split
  · rename_i hq
    rw [if_pos hq, List.length_append] at h
    omega
  · rfl

theorem Lexeme.scan_of_skipped {c : Char} {q x : List Char} {l : Lexeme}
    (h : scan c (q ++ x) = .ok l) (hk : l.kind = none) (hl : l.tail < q.length) :
    scan c q = .ok l := by
  have hform := choose_of_skipped h hk
  have hchoose := choose_append_congr delimits_nil h (Nat.le_of_lt hl)
  rw [List.append_nil] at hchoose
  rw [scan_eq_read_choose] at h ⊢
  rw [hchoose]
  -- a gap that ends before the text is cut off does not depend on what comes after it
  rcases hform with hform | hform | hform
  · rw [hform] at h ⊢
    have hread := Comment.readBlock_append_congr (y := []) h (Nat.le_of_lt hl)
    rwa [List.append_nil] at hread
  · rw [hform] at h ⊢
    obtain rfl := Except.ok.inj h
    rw [Form.read, Comment.line_eq_of_length_lt hl]
  · rw [hform] at h ⊢
    exact h

structure Token.Moved (n : Nat) (v t : Token) : Prop where
  kind : t.kind = v.kind
  starts : t.startsDeclaration = v.startsDeclaration
  span : t.span = v.span.shift n

def LexesMoved (before text : List Char) (us : List Token) : Prop :=
  ∀ n offset column, before.length = n + offset →
    (column = 0 ↔ before.foldl columnAfter 0 = 0) →
    ∃ vs, lexFrom 0 offset column text = .ok vs ∧ List.Forall₂ (Token.Moved n) vs us

namespace LexesMoved

variable {before cs text : List Char} {c : Char} {us : List Token}

theorem nil (before : List Char) : LexesMoved before [] [] := fun _ _ _ _ _ => ⟨[], rfl, .nil⟩

theorem skipped (hs : scan c (cs ++ text) = .ok (.skipped cs.length))
    (h : LexesMoved (before ++ c :: cs) text us) : LexesMoved before (c :: cs ++ text) us := by
  intro n offset column hn hcolumn
  rw [lexFrom_of_scan_eq_skipped hs]
  apply h
  · rw [List.length_append]
    omega
  · rw [List.foldl_append]
    exact foldl_columnAfter_eq_zero_iff hcolumn _

theorem token {kind : TokenKind} (hs : scan c (cs ++ text) = .ok ⟨some kind, cs.length⟩)
    (h : LexesMoved (before ++ c :: cs) text us) :
    LexesMoved before (c :: cs ++ text)
      (⟨kind, ⟨before.length, (c :: cs).length⟩, before.foldl columnAfter 0⟩ :: us) := by
  intro n offset column hn hcolumn
  obtain ⟨vs, hvs, hmoved⟩ := h n (offset + (c :: cs).length) ((c :: cs).foldl columnAfter column)
    (by rw [List.length_append]; omega)
    (by rw [List.foldl_append]; exact foldl_columnAfter_eq_zero_iff hcolumn _)
  refine ⟨⟨kind, ⟨offset, (c :: cs).length⟩, column⟩ :: vs, ?_, .cons ⟨rfl, ?_, ?_⟩ hmoved⟩
  · rw [lexFrom_of_scan_eq_ok hs rfl, hvs]
    rfl
  · rw [Token.startsDeclaration, Token.startsDeclaration, Bool.eq_iff_iff, beq_iff_eq, beq_iff_eq]
    exact hcolumn.symm
  · rw [hn]
    rfl

end LexesMoved

namespace Tiles

variable {before ahead : List Char} {tokens : List Token}

theorem exists_at {xs ts : List Token} {t : Token} (h : Tiles before ahead (xs ++ t :: ts)) :
    ∃ b rest, before ++ ahead = b ++ rest ∧ Tiles b rest (t :: ts) ∧ b.length = t.span.start ∧
      t.column = b.foldl columnAfter 0 := by
  generalize hts : xs ++ t :: ts = tokens at h
  induction h generalizing xs with
  | done => simp at hts
  | skipped hs hl hk hr ih =>
      obtain ⟨b, rest, heq, h⟩ := ih hts
      rw [List.append_assoc] at heq
      exact ⟨b, rest, heq, h⟩
  | @token before cs rest c kind tokens hs hr ih =>
      cases xs with
      | nil =>
          obtain ⟨rfl, rfl⟩ := List.cons.inj hts
          exact ⟨before, _, rfl, .token hs hr, rfl, rfl⟩
      | cons x xs =>
          obtain ⟨b, rest, heq, h⟩ := ih (List.cons.inj hts).2
          rw [List.append_assoc] at heq
          exact ⟨b, rest, heq, h⟩

theorem exists_lexesMoved (h : Tiles before ahead tokens) {us ys : List Token} {l : Token}
    (hts : tokens = us ++ ys) (hl : us.getLast? = some l) :
    ∃ q rest, ahead = q ++ rest ∧ q ≠ [] ∧ before.length + q.length = l.span.stop ∧
      LexesMoved before q us := by
  induction h generalizing us with
  | done =>
      obtain ⟨rfl, rfl⟩ := List.append_eq_nil_iff.1 hts.symm
      cases hl
  | @skipped before cs rest c lexeme tokens hs hlexeme hk hr ih =>
      obtain ⟨q, rest, rfl, hq, hlength, hlex⟩ := ih hts hl
      have hscan : scan c (cs ++ q) = .ok (.skipped cs.length) := by
        obtain ⟨kind, tail⟩ := lexeme
        obtain rfl : kind = none := hk
        obtain rfl : tail = cs.length := hlexeme
        rw [← List.append_assoc] at hs
        apply scan_of_skipped hs rfl
        rw [List.length_append]
        exact Nat.lt_add_of_pos_right (List.length_pos_iff.2 hq)
      refine ⟨c :: cs ++ q, rest, by simp, by simp, ?_, hlex.skipped hscan⟩
      simp only [List.length_append] at hlength ⊢
      omega
  | @token before cs rest c kind tokens hs hr ih =>
      cases us with
      | nil => cases hl
      | cons t us =>
        obtain ⟨rfl, rfl⟩ := List.cons.inj hts
        cases us with
        | nil =>
            obtain rfl := Option.some.inj hl
            have hscan : scan c (cs ++ []) = .ok ⟨some kind, cs.length⟩ :=
              scan_append_congr delimits_nil hs (by simp) (Nat.le_refl _)
            have hlex := LexesMoved.token hscan (.nil (before ++ c :: cs))
            rw [List.append_nil] at hlex
            exact ⟨c :: cs, rest, rfl, List.cons_ne_nil c cs, rfl, hlex⟩
        | cons u us =>
            rw [List.getLast?_cons_cons] at hl
            obtain ⟨q, rest, rfl, hq, hlength, hlex⟩ := ih rfl hl
            have hscan : scan c (cs ++ q) = .ok ⟨some kind, cs.length⟩ := by
              rw [← List.append_assoc] at hs
              have hcut := scan_append_congr delimits_nil hs (by simp) (by simp)
              rwa [List.append_nil] at hcut
            refine ⟨c :: cs ++ q, rest, by simp, by simp, ?_, .token hscan hlex⟩
            simp only [List.length_append] at hlength ⊢
            omega

end Tiles

def Stretches (ts : List Token) (s : Span) : Prop :=
  ∃ t l, ts.head? = some t ∧ ts.getLast? = some l ∧ s.start = t.span.start ∧ s.stop = l.span.stop

theorem lex_slice {source : String} {tokens us : List Token} {s : Span}
    (h : lex source = .ok tokens) (hus : us <:+: tokens) (hs : Stretches us s)
    (hin : ∀ t ∈ us.head?, t.startsDeclaration = false) :
    ∃ n vs, s.start = n + 1 ∧ lex (" " ++ String.ofList (s.slice source.toList)) = .ok vs ∧
      List.Forall₂ (Token.Moved n) vs us := by
  obtain ⟨xs, ys, rfl⟩ := hus
  obtain ⟨t, l, ht, hl, hstart, hstop⟩ := hs
  replace hin := hin t ht
  obtain ⟨us, rfl⟩ := List.head?_eq_some_iff.1 ht
  rw [List.append_assoc] at h
  have htiles : Tiles [] source.toList (xs ++ t :: (us ++ ys)) := tiles_of_lexFrom h
  obtain ⟨b, rest, hsource, hb, hlength, hcolumn⟩ := htiles.exists_at
  obtain ⟨q, rest, rfl, hq, hqlength, hlex⟩ := @Tiles.exists_lexesMoved _ _ _ hb (t :: us) ys l rfl hl
  have hcolumn' : b.foldl columnAfter 0 ≠ 0 := by
    rw [← hcolumn]
    simpa [Token.startsDeclaration] using hin
  have hne : b ≠ [] := by
    rintro rfl
    exact hcolumn' rfl
  obtain ⟨n, hn⟩ := Nat.exists_eq_add_one_of_ne_zero (mt List.length_eq_zero_iff.1 hne)
  obtain ⟨vs, hvs, hmoved⟩ := hlex n 1 1 hn (by simp [hcolumn'])
  have hslice : s.slice source.toList = q := by
    have hlen : s.length = q.length := by
      have hend : s.start + s.length = l.span.stop := hstop
      omega
    rw [List.nil_append] at hsource
    rw [Span.slice, hsource, hstart, ← hlength, List.drop_left, hlen, List.take_left]
  have htext : (" " ++ String.ofList q).toList = ' ' :: q := by simp
  refine ⟨n, vs, by omega, ?_, hmoved⟩
  rw [hslice, lex, htext]
  exact (@lexFrom_of_scan_eq_skipped ' ' [] q (scan_blank rfl q) 0 0).trans hvs

end ElmTypes
