import ElmTypes.Proofs.Lexical.Scan
import ElmTypes.Proofs.Span
import ElmTypes.Token.Lex

namespace ElmTypes

namespace Lexeme

namespace Quoted

theorem span_of_codePoint {cs : List Char} {e : LexicalError} (h : codePoint cs = .error e) :
    ∃ n, e.span = ⟨0, n + 1⟩ ∧ n ≤ cs.length + 2 := by
  let hex := cs.takeWhile fun c => c != '}' && c != '\n'
  have hle : hex.length ≤ cs.length := (List.takeWhile_prefix _).length_le
  have hn : hex.length + (if (cs.drop hex.length).head? = some '}' then 3 else 2) ≤
      cs.length + 2 := by
    split
    · rename_i hc
      -- a closing brace is one more character of the text
      rcases Nat.lt_or_ge hex.length cs.length with hl | hl
      · omega
      · simp [List.drop_eq_nil_of_le hl] at hc
    · omega
  refine ⟨_, ?_, hn⟩
  simp only [codePoint] at h
  split at h
  · split at h
    · cases h
    · cases h
      simp_all [hex]
  · cases h
    simp [hex]

theorem within_of_escape {cs : List Char} {e : LexicalError} (h : escape cs = .error e) :
    e.span.Within (cs.length + 1) := by
  rw [Span.within_iff]
  unfold escape at h
  split at h
  · cases h
    simp [Span.stop]
  · obtain ⟨n, hspan, hn⟩ := span_of_codePoint h
    rw [hspan]
    simp only [Span.stop, List.length_cons]
    omega
  · split at h
    · cases h
    · cases h
      simp [Span.stop]

theorem prepend_eq_error_iff {d : Char} {r : Except LexicalError (List Char × Nat)}
    {e : LexicalError} :
    (do let (es, n) ← r; return (d :: es, n)) = Except.error e ↔ r = .error e := by
  cases r <;> simp [bind, Except.bind, pure, Except.pure]

theorem body_cons_eq_error {k : Quote} {offset : Nat} {c : Char} {cs : List Char} {e : LexicalError}
    (h : body k 0 offset (c :: cs) = .error e) :
    k.mark.isPrefixOf (c :: cs) = false ∧
      ((c = '\\' ∧ ∃ x, escape cs = .error x ∧ e = x.shift offset) ∨
      (c = '\\' ∧ ∃ d n, escape cs = .ok (d, n) ∧ body k n (offset + 1) cs = .error e) ∨
      (c ≠ '\\' ∧ (c = '\n' && !k.spansLines) = true ∧
        e = ⟨.unfinished k.unfinished, ⟨0, offset⟩⟩) ∨
      (c ≠ '\\' ∧ (c = '\n' && !k.spansLines) = false ∧
        body k 0 (offset + 1) cs = .error e)) := by
  rw [body] at h
  split at h
  · cases h
  · rename_i hm
    refine ⟨Bool.eq_false_iff.2 hm, ?_⟩
    split at h
    · rename_i hc
      split at h
      · rename_i x hx
        cases h
        exact .inl ⟨hc, x, hx, rfl⟩
      · rename_i d n hd
        exact .inr (.inl ⟨hc, d, n, hd, prepend_eq_error_iff.1 h⟩)
    · rename_i hc
      split at h
      · rename_i hline
        cases h
        exact .inr (.inr (.inl ⟨hc, hline, rfl⟩))
      · rename_i hline
        exact .inr (.inr (.inr ⟨hc, by simpa using hline, prepend_eq_error_iff.1 h⟩))

theorem within_of_body {k : Quote} {pending offset : Nat} {cs : List Char} {e : LexicalError}
    (h : body k pending offset cs = .error e) (ho : 0 < offset) :
    e.span.Within (offset + cs.length) := by
  induction cs generalizing pending offset with
  | nil =>
      cases pending <;> cases h <;> exact Span.within_iff.2 ⟨ho, by simp [Span.stop]⟩
  | cons c cs ih =>
      have hstep {n : Nat} (hb : body k n (offset + 1) cs = .error e) :
          e.span.Within (offset + (c :: cs).length) := by
        have := ih hb (Nat.succ_pos offset)
        rwa [List.length_cons, Nat.add_comm cs.length, ← Nat.add_assoc]
      cases pending with
      | succ pending => exact hstep h
      | zero =>
          obtain ⟨-, ⟨-, x, hx, rfl⟩ | ⟨-, d, n, -, hb⟩ | ⟨-, -, rfl⟩ | ⟨-, -, hb⟩⟩ :=
            body_cons_eq_error h
          · exact (within_of_escape hx).shift offset
          · exact hstep hb
          · exact Span.within_iff.2 ⟨ho, by simp [Span.stop]⟩
          · exact hstep hb

theorem body_of_readString_eq_error {cs : List Char} {e : LexicalError}
    (h : readString cs = .error e) :
    body (opening cs) 0 (opening cs).mark.length (cs.drop ((opening cs).mark.length - 1)) =
      .error e := by
  have hr : readString cs = (do
      let (text, total) ← body (opening cs) 0 (opening cs).mark.length
        (cs.drop ((opening cs).mark.length - 1))
      return ⟨some (.string (String.ofList text)), total - 1⟩) := rfl
  rw [hr] at h
  cases hb : body (opening cs) 0 (opening cs).mark.length
      (cs.drop ((opening cs).mark.length - 1)) with
  | ok p =>
      rw [hb] at h
      cases h
  | error x =>
      rw [hb] at h
      cases h
      rfl

theorem within_of_readString {cs : List Char} {e : LexicalError} (h : readString cs = .error e) :
    e.span.Within (cs.length + 1) := by
  have hm : 0 < (opening cs).mark.length := by cases opening cs <;> decide
  exact drop_opening cs ▸ within_of_body (body_of_readString_eq_error h) hm

theorem within_of_readChar {cs : List Char} {e : LexicalError} (h : readChar cs = .error e) :
    e.span.Within (cs.length + 1) := by
  rw [readChar] at h
  cases hb : body .apostrophe 0 1 cs with
  | error x =>
      rw [hb] at h
      cases h
      exact Nat.add_comm _ _ ▸ within_of_body hb Nat.one_pos
  | ok p =>
      obtain ⟨text, total⟩ := p
      have hbounds := bounds_of_body_eq_ok hb
      rw [hb] at h
      have he : e = ⟨.notOneCharacter, ⟨0, total⟩⟩ := by
        rcases text with _ | ⟨c, _ | ⟨d, text⟩⟩ <;> cases h <;> rfl
      rw [he, Span.within_iff]
      simp only [Span.stop]
      omega

end Quoted

theorem Number.within_of_literal {tail : List Char} {r : Except LexicalCause TokenKind}
    {e : LexicalError} (h : literal tail r = .error e) : e.span.Within (tail.length + 1) := by
  cases r with
  | ok k => cases h
  | error cause =>
      cases h
      exact Span.within_iff.2 ⟨Nat.succ_pos _, by simp [Span.stop]⟩

theorem within_of_scan {c : Char} {cs : List Char} {e : LexicalError} (h : scan c cs = .error e) :
    e.span.Within (cs.length + 1) := by
  have hs := Form.suits_choose c cs
  rw [scan_eq_read_choose] at h
  cases hform : Form.choose c cs with
  | number =>
      rw [hform] at h
      obtain ⟨r, hr, -⟩ := Number.read_eq_literal c cs
      rw [Form.read, hr] at h
      exact (Number.within_of_literal h).mono
        (Nat.succ_le_succ (Number.textAfter_isPrefix c cs).length_le)
  | string =>
      rw [hform] at h
      exact Quoted.within_of_readString h
  | character =>
      rw [hform] at h
      exact Quoted.within_of_readChar h
  | blockComment =>
      rw [hform] at h hs
      obtain ⟨ds, rfl⟩ := List.head?_eq_some_iff.1 hs.2
      simp only [Form.read, Comment.readBlock] at h
      split at h
      · cases h
      · cases h
        simp [Span.within_iff, Span.stop]
  | shader =>
      rw [hform] at h hs
      have hm := Shader.length_drop_mark hs.2
      simp only [Form.read, Shader.read] at h
      split at h
      · cases h
      · cases h
        rw [Span.within_iff]
        simp only [Span.stop]
        omega
  | unknown =>
      rw [hform] at h
      cases h
      simp [Span.within_iff, Span.stop]
  | _ =>
      rw [hform] at h
      cases h

end Lexeme

theorem within_of_lexFrom {pending offset column : Nat} {cs : List Char} {e : LexicalError}
    (h : lexFrom pending offset column cs = .error e) : e.span.Within (offset + cs.length) := by
  induction cs generalizing pending offset column with
  | nil => cases pending <;> cases h
  | cons c cs ih =>
      have hstep {n column : Nat} (hl : lexFrom n (offset + 1) column cs = .error e) :
          e.span.Within (offset + (c :: cs).length) := by
        have := ih hl
        rwa [List.length_cons, Nat.add_comm cs.length, ← Nat.add_assoc]
      cases pending with
      | succ pending => exact hstep h
      | zero =>
          rw [lexFrom] at h
          split at h
          · rename_i x hx
            cases h
            exact (Lexeme.within_of_scan hx).shift offset
          · rename_i l hl
            cases hr : lexFrom l.tail (offset + 1) (columnAfter column c) cs with
            | ok tokens =>
                rw [hr] at h
                cases h
            | error x =>
                rw [hr] at h
                cases h
                exact hstep hr

theorem within_of_lex {source : String} {e : LexicalError} (h : lex source = .error e) :
    e.span.Within source.length := by
  have hw := within_of_lexFrom h
  rwa [Nat.zero_add, String.length_toList] at hw

end ElmTypes
