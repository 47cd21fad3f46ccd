import ElmTypes.Proofs.Lexical.Scan
import ElmTypes.Token.Lex

namespace ElmTypes

open Lexeme

inductive Gap : List Char → Prop where
  | nil : Gap []
  | blank {c : Char} {rest : List Char} (hc : isBlank c = true) (hr : Gap rest) : Gap (c :: rest)
  | lineComment {text rest : List Char} (ht : ∀ c ∈ text, c ≠ '\n' ∧ c ≠ '\r')
      (hn : ∀ c ∈ rest.head?, c = '\n' ∨ c = '\r') (hr : Gap rest) :
      Gap ('-' :: '-' :: text ++ rest)
  | blockComment {text rest : List Char} (ht : Comment.lengthToClose 1 text = some text.length)
      (hr : Gap rest) : Gap ('{' :: '-' :: text ++ rest)

theorem lexFrom_of_scan_eq_ok {c : Char} {cs rest : List Char} {l : Lexeme}
    (h : scan c (cs ++ rest) = .ok l) (hl : l.tail = cs.length) (offset column : Nat) :
    lexFrom 0 offset column (c :: cs ++ rest) = (do
      let tokens ← lexFrom 0 (offset + (c :: cs).length) ((c :: cs).foldl columnAfter column) rest
      return l.place offset column ++ tokens) := by
  rw [List.cons_append, lexFrom, h]
  simp only
  rw [lexFrom_pending, hl, List.take_left, List.drop_left, List.foldl_cons, List.length_cons,
    Nat.add_assoc, Nat.add_comm 1]

theorem lexFrom_of_scan_eq_skipped {c : Char} {cs rest : List Char}
    (h : scan c (cs ++ rest) = .ok (.skipped cs.length)) (offset column : Nat) :
    lexFrom 0 offset column (c :: cs ++ rest) =
      lexFrom 0 (offset + (c :: cs).length) ((c :: cs).foldl columnAfter column) rest := by
  rw [lexFrom_of_scan_eq_ok h rfl]
  cases lexFrom 0 (offset + (c :: cs).length) ((c :: cs).foldl columnAfter column) rest <;> rfl

theorem lexFrom_lineFeed (offset column : Nat) (cs : List Char) :
    lexFrom 0 offset column ('\n' :: cs) = lexFrom 0 (offset + 1) 0 cs :=
  @lexFrom_of_scan_eq_skipped '\n' [] cs (scan_blank rfl cs) offset column

theorem Lexeme.Comment.line_append {text rest : List Char}
    (ht : ∀ c ∈ text, c ≠ '\n' ∧ c ≠ '\r') (hn : ∀ c ∈ rest.head?, c = '\n' ∨ c = '\r') :
    line (text ++ rest) = text := by
  have hp : ∀ c ∈ text, (c != '\n' && c != '\r') = true := by simpa using ht
  rw [line, List.takeWhile_append_of_pos hp]
  cases rest with
  | nil => simp
  | cons c rest =>
      rcases hn c rfl with rfl | rfl <;> simp

theorem Lexeme.Comment.line_append_eq_of_length_eq {text rest : List Char}
    (h : (line (text ++ rest)).length = text.length) : line (text ++ rest) = text := by
  have hpre : line (text ++ rest) <+: text ++ rest := List.takeWhile_prefix _
  exact (List.prefix_of_prefix_length_le hpre (List.prefix_append text rest)
    (Nat.le_of_eq h)).eq_of_length h

theorem Lexeme.Comment.forall_of_line_append_eq {text rest : List Char}
    (h : line (text ++ rest) = text) :
    (∀ c ∈ text, c ≠ '\n' ∧ c ≠ '\r') ∧ ∀ c ∈ rest.head?, c = '\n' ∨ c = '\r' := by
  have hp : ∀ c ∈ text, (c != '\n' && c != '\r') = true := by
    intro c hc
    rw [← h] at hc
    exact List.all_eq_true.1 List.all_takeWhile c hc
  refine ⟨by simpa using hp, ?_⟩
  intro c hc
  obtain ⟨rest, rfl⟩ := List.head?_eq_some_iff.1 hc
  clear hc
  rw [line, List.takeWhile_append_of_pos hp] at h
  rcases hc : (c != '\n' && c != '\r') with - | -
  · simpa [Classical.or_iff_not_imp_left] using hc
  · simp [hc] at h

theorem Gap.lexFrom_eq_nil {g : List Char} (h : Gap g) (offset column : Nat) :
    lexFrom 0 offset column g = .ok [] := by
  induction h generalizing offset column with
  | nil => rfl
  | @blank c rest hc _ ih =>
      have hs : scan c ([] ++ rest) = .ok (.skipped ([] : List Char).length) := scan_blank hc rest
      exact (lexFrom_of_scan_eq_skipped hs offset column).trans (ih _ _)
  | @lineComment text rest ht hn _ ih =>
      have hs : scan '-' ('-' :: text ++ rest) = .ok (.skipped ('-' :: text).length) := by
        have hd : ∀ c ∈ '-' :: text, c ≠ '\n' ∧ c ≠ '\r' :=
          List.forall_mem_cons.2 ⟨by decide, ht⟩
        rw [List.cons_append, scan_lineComment, ← List.cons_append, Comment.line_append hd hn]
      exact (lexFrom_of_scan_eq_skipped hs offset column).trans (ih _ _)
  | @blockComment text rest ht _ ih =>
      have hs : scan '{' ('-' :: text ++ rest) = .ok (.skipped ('-' :: text).length) := by
        have hc : Comment.lengthToClose 1 (text ++ rest) = some text.length :=
          Comment.lengthToClose_append_congr (x := []) (by simpa using ht) (Nat.le_refl _)
        rw [List.cons_append, scan_blockComment]
        exact Comment.readBlock_eq_ok_iff.2 ⟨_, hc, rfl⟩
      exact (lexFrom_of_scan_eq_skipped hs offset column).trans (ih _ _)

theorem Gap.lex_eq_nil {g : List Char} (h : Gap g) : lex (String.ofList g) = .ok [] := by
  rw [lex, String.toList_ofList]
  exact h.lexFrom_eq_nil 0 0

theorem Lexeme.Number.kind_of_literal {tail : List Char} {r : Except LexicalCause TokenKind}
    {l : Lexeme} (h : literal tail r = .ok l) : l.kind ≠ none := by
  cases r with
  | error e => cases h
  | ok k =>
      obtain rfl := Except.ok.inj h
      simp [Lexeme.token]

theorem Lexeme.choose_of_skipped {c : Char} {cs : List Char} {l : Lexeme} (h : scan c cs = .ok l)
    (hk : l.kind = none) :
    Form.choose c cs = .blockComment ∨ Form.choose c cs = .lineComment ∨
      Form.choose c cs = .blank := by
  rw [scan_eq_read_choose] at h
  cases hform : Form.choose c cs with
  | blockComment => exact .inl rfl
  | lineComment => exact .inr (.inl rfl)
  | blank => exact .inr (.inr rfl)
  | number =>
      rw [hform] at h
      obtain ⟨r, hr, -⟩ := Number.read_eq_literal c cs
      rw [Form.read, hr] at h
      exact absurd hk (Number.kind_of_literal h)
  | string =>
      rw [hform] at h
      obtain ⟨text, total, rfl, -⟩ := Quoted.readString_eq_ok_iff.1 h
      cases hk
  | character =>
      rw [hform] at h
      obtain ⟨d, total, rfl, -⟩ := Quoted.readChar_eq_ok_iff.1 h
      cases hk
  | shader =>
      rw [hform] at h
      simp only [Form.read, Shader.read] at h
      split at h
      · obtain rfl := Except.ok.inj h
        cases hk
      · cases h
  | name | single | operator =>
      rw [hform] at h
      obtain rfl := Except.ok.inj h
      cases hk
  | unknown =>
      rw [hform] at h
      cases h

theorem Gap.of_scan_eq_ok {c : Char} {cs rest g : List Char} {l : Lexeme}
    (h : scan c (cs ++ rest) = .ok l) (hl : l.tail = cs.length) (hk : l.kind = none)
    (hg : Gap g) (hp : g <+: rest) : Gap (c :: cs ++ g) := by
  have hs := Form.suits_choose c (cs ++ rest)
  have hform := choose_of_skipped h hk
  rw [scan_eq_read_choose] at h
  rcases hform with hform | hform | hform
  · rw [hform] at h hs
    obtain ⟨rfl, hd⟩ := hs
    obtain ⟨ds, hds⟩ := List.head?_eq_some_iff.1 hd
    rw [Form.read, hds] at h
    obtain ⟨n, hn, rfl⟩ := Comment.readBlock_eq_ok_iff.1 h
    cases cs with
    | nil => cases hl
    | cons e text =>
        obtain ⟨rfl, rfl⟩ := List.cons.inj hds
        obtain rfl := Nat.succ.inj hl
        have ht := Comment.lengthToClose_append_congr (y := []) hn (Nat.le_refl _)
        rw [List.append_nil] at ht
        exact .blockComment ht hg
  · rw [hform] at h hs
    obtain ⟨rfl, hd⟩ := hs
    obtain ⟨ds, hds⟩ := List.head?_eq_some_iff.1 hd
    obtain rfl := Except.ok.inj h
    -- the line is what the lexeme takes, so the text after it begins with a line break
    have hline : Comment.line (cs ++ rest) = cs := Comment.line_append_eq_of_length_eq hl
    obtain ⟨ht, hr⟩ := Comment.forall_of_line_append_eq hline
    have hn : ∀ c ∈ g.head?, c = '\n' ∨ c = '\r' := by
      intro c hc
      obtain ⟨g', rfl⟩ := List.head?_eq_some_iff.1 hc
      obtain ⟨rest', rfl⟩ := hp
      exact hr c rfl
    cases cs with
    | nil =>
        rw [hline] at hl
        rw [List.nil_append] at hds
        rw [List.nil_append, hds] at hline
        simp [Comment.line] at hline
    | cons e text =>
        obtain ⟨rfl, rfl⟩ := List.cons.inj hds
        exact .lineComment (List.forall_mem_cons.1 ht).2 hn hg
  · rw [hform] at h hs
    obtain rfl := Except.ok.inj h
    obtain rfl := List.length_eq_zero_iff.1 hl.symm
    exact .blank hs hg

end ElmTypes
