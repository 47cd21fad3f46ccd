import ElmTypes.Proofs.Lexical.Wording

namespace ElmTypes.Lexeme

namespace Number

theorem not_lineFeed_textAfter (c : Char) (cs : List Char) : '\n' ∉ textAfter c cs := by
  have hdigits : '\n' ∉ cs.takeWhile Char.isDigit :=
    not_lineFeed_of_isDigit (forall_mem_takeWhile _ cs)
  unfold textAfter
  split
  · rw [List.mem_cons, not_or]
    exact ⟨by decide, not_lineFeed_of_isHex (forall_mem_takeWhile _ _)⟩
  · split
    · rw [List.mem_append, not_or]
      exact ⟨hdigits, not_lineFeed_floatTail _⟩
    · exact hdigits

theorem not_lineFeed_of_read {c : Char} {cs : List Char} {l : Lexeme}
    (h : read c cs = .ok l) : '\n' ∉ cs.take l.tail := by
  obtain ⟨r, hr, -⟩ := read_eq_literal c cs
  rw [hr] at h
  rw [tail_eq_of_literal h, ← List.prefix_iff_eq_take.1 (textAfter_isPrefix c cs)]
  exact not_lineFeed_textAfter c cs

end Number

namespace Quoted

theorem not_lineFeed_mark (q : Quote) : '\n' ∉ q.mark := by
  cases q <;> decide

theorem not_lineFeed_of_escape {cs : List Char} {c : Char} {n : Nat}
    (h : escape cs = .ok (c, n)) : '\n' ∉ cs.take n := by
  rcases escape_eq_ok_iff.1 h with ⟨tail, rfl, ht⟩ | ⟨d, tail, rfl, hd, rfl⟩
  · obtain ⟨hex, rest, rfl, hhex, -, rfl⟩ := codePoint_eq_ok_iff.1 ht
    have htake : ('u' :: '{' :: (hex ++ '}' :: rest)).take (hex.length + 3) =
        'u' :: '{' :: (hex ++ ['}']) := by
      simp [List.take_append, List.take_of_length_le]
    have hline : '\n' ∉ hex := fun hm => (hhex _ hm).2 rfl
    simp [htake, hline]
  · rw [List.take_succ_cons, List.take_zero, List.mem_singleton]
    rintro rfl
    cases hd

theorem lineFeed_mem_of_body {q : Quote} {pending offset total : Nat} {cs ds : List Char}
    (h : body q pending offset cs = .ok (ds, total)) (hp : '\n' ∉ cs.take pending)
    (hn : '\n' ∈ cs.take (total - offset)) : q.spansLines = true ∧ '\n' ∈ ds := by
  induction cs generalizing pending offset ds with
  | nil => cases pending <;> cases h
  | cons c cs ih =>
      have hbounds := bounds_of_body_eq_ok h
      have hmark : 0 < q.mark.length := by cases q <;> decide
      obtain ⟨n, htotal⟩ : ∃ n, total = offset + 1 + n := Nat.exists_eq_add_of_le (by omega)
      have hrest : total - (offset + 1) = n := by omega
      have htake : total - offset = n + 1 := by omega
      rw [htake, List.take_succ_cons, List.mem_cons] at hn
      cases pending with
      | succ pending =>
          rw [List.take_succ_cons, List.mem_cons, not_or] at hp
          exact ih h hp.2 (hrest ▸ hn.resolve_left hp.1)
      | zero =>
          cases hm : q.mark.isPrefixOf (c :: cs) with
          | true =>
              rw [body_of_mark hm] at h
              cases h
              obtain ⟨rest, hcs⟩ := List.isPrefixOf_iff_prefix.1 hm
              have htail : (c :: cs).take (n + 1) = q.mark := by
                have hlength : n + 1 = q.mark.length := by omega
                rw [← hcs, hlength, List.take_left]
              rw [← List.mem_cons, ← List.take_succ_cons, htail] at hn
              exact absurd hn (not_lineFeed_mark q)
          | false =>
              by_cases hc : c = '\\'
              -- a line feed is no part of an escape, so it comes after this one
              · subst hc
                obtain ⟨d, m, es, he, rfl, hb⟩ := (body_escape_eq_ok_iff hm).1 h
                have hn := hn.resolve_left (by decide)
                obtain ⟨hlines, hes⟩ := ih hb (not_lineFeed_of_escape he) (hrest ▸ hn)
                exact ⟨hlines, List.mem_cons_of_mem d hes⟩
              · obtain ⟨hlines, es, rfl, hb⟩ := (body_plain_eq_ok_iff hm hc).1 h
                rcases hn with hn | hn
                · exact ⟨hlines hn.symm, hn ▸ List.mem_cons_self⟩
                · obtain ⟨hlines, hes⟩ := ih hb (by simp) (hrest ▸ hn)
                  exact ⟨hlines, List.mem_cons_of_mem c hes⟩

theorem not_lineFeed_opening (cs : List Char) :
    '\n' ∉ cs.take ((opening cs).mark.length - 1) := by
  unfold opening
  split
  · rename_i h
    obtain ⟨rest, rfl⟩ := List.isPrefixOf_iff_prefix.1 h
    simp [Quote.mark]
  · simp [Quote.mark]

theorem lineFeed_mem_of_readString {cs : List Char} {l : Lexeme} (h : readString cs = .ok l)
    (hn : '\n' ∈ cs.take l.tail) :
    ∃ text, l.kind = some (.string text) ∧ '\n' ∈ text.toList := by
  obtain ⟨text, total, rfl, hb⟩ := readString_eq_ok_iff.1 h
  have hbounds := bounds_of_body_eq_ok hb
  have hmark : 0 < (opening cs).mark.length := by cases opening cs <;> decide
  have hsplit : total - 1 = ((opening cs).mark.length - 1) +
      (total - (opening cs).mark.length) := by omega
  rw [hsplit, List.take_add, List.mem_append] at hn
  have htext := hn.resolve_left (not_lineFeed_opening cs)
  refine ⟨_, rfl, ?_⟩
  rw [String.toList_ofList]
  exact (lineFeed_mem_of_body hb (by simp) htext).2

theorem not_lineFeed_of_readChar {cs : List Char} {l : Lexeme} (h : readChar cs = .ok l) :
    '\n' ∉ cs.take l.tail := by
  obtain ⟨c, total, rfl, hb⟩ := readChar_eq_ok_iff.1 h
  intro hn
  cases (lineFeed_mem_of_body hb (by simp) hn).1

end Quoted

theorem Shader.lineFeed_mem_of_read {ds : List Char} {l : Lexeme}
    (h : Shader.read (Shader.mark ++ ds) = .ok l)
    (hn : '\n' ∈ (Shader.mark ++ ds).take l.tail) :
    ∃ text, l.kind = some (.string text) ∧ '\n' ∈ text.toList := by
  rw [Shader.read, List.drop_left] at h
  split at h
  · rename_i text ht
    cases h
    obtain ⟨rest, rfl⟩ := Shader.eq_append_of_text? ht
    rw [Nat.add_assoc, List.take_length_add_append, List.take_length_add_append,
      List.mem_append, List.mem_append] at hn
    refine ⟨_, rfl, ?_⟩
    rw [String.toList_ofList]
    rcases hn with hn | hn | hn
    · exact absurd hn (by decide)
    · exact hn
    · simp at hn
  · cases h

theorem lineFeed_mem_of_scan {c : Char} {cs : List Char} {kind : TokenKind} {n : Nat}
    (h : scan c cs = .ok ⟨some kind, n⟩) (hn : '\n' ∈ c :: cs.take n) :
    ∃ text, kind = .string text ∧ '\n' ∈ text.toList := by
  have hs := Form.suits_choose c cs
  have hscan := h
  have hc : '\n' ≠ c := by
    rintro rfl
    rw [scan_blank rfl] at h
    cases h
  rw [scan_eq_read_choose] at h
  replace hn := (List.mem_cons.1 hn).resolve_left hc
  cases hform : Form.choose c cs with
  | name =>
      rw [hform] at h
      cases h
      have hline := (isWord_of_scan hscan).ne_lineFeed
      rw [String.toList_ofList, List.mem_cons, not_or] at hline
      rw [← List.prefix_iff_eq_take.1 (Name.rest_prefix _ cs)] at hn
      exact absurd hn hline.2
  | number =>
      rw [hform] at h
      exact absurd hn (Number.not_lineFeed_of_read h)
  | string =>
      rw [hform] at h
      simpa using Quoted.lineFeed_mem_of_readString h hn
  | character =>
      rw [hform] at h
      exact absurd hn (Quoted.not_lineFeed_of_readChar h)
  | blockComment =>
      rw [hform] at h hs
      obtain ⟨ds, rfl⟩ := List.head?_eq_some_iff.1 hs.2
      obtain ⟨m, -, hl⟩ := Comment.readBlock_eq_ok_iff.1 h
      cases hl
  | shader =>
      rw [hform] at h hs
      obtain ⟨ds, rfl⟩ := List.isPrefixOf_iff_prefix.1 hs.2
      simpa using Shader.lineFeed_mem_of_read h hn
  | single kind =>
      rw [hform] at h
      cases h
      simp at hn
  | operator =>
      rw [hform] at h
      cases h
      have htake : cs.takeWhile isOperator <+: cs := List.takeWhile_prefix _
      rw [← List.prefix_iff_eq_take.1 htake] at hn
      exact absurd (forall_mem_takeWhile _ cs _ hn) (by decide)
  | lineComment | blank | unknown =>
      rw [hform] at h
      cases h

end ElmTypes.Lexeme
