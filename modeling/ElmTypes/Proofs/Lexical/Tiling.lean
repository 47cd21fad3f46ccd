import Mathlib.Data.List.Induction
import ElmTypes.Proofs.Lexical.Gap
import ElmTypes.Position

namespace ElmTypes

open Lexeme

inductive Tiles : (before ahead : List Char) → List Token → Prop where
  | done (before : List Char) : Tiles before [] []
  | skipped {before cs rest : List Char} {c : Char} {l : Lexeme} {tokens : List Token}
      (h : scan c (cs ++ rest) = .ok l) (hl : l.tail = cs.length) (hk : l.kind = none)
      (hr : Tiles (before ++ c :: cs) rest tokens) : Tiles before (c :: cs ++ rest) tokens
  | token {before cs rest : List Char} {c : Char} {kind : TokenKind} {tokens : List Token}
      (h : scan c (cs ++ rest) = .ok ⟨some kind, cs.length⟩)
      (hr : Tiles (before ++ c :: cs) rest tokens) :
      Tiles before (c :: cs ++ rest)
        (⟨kind, ⟨before.length, (c :: cs).length⟩, before.foldl columnAfter 0⟩ :: tokens)

theorem tiles_of_lexFrom {before ahead : List Char} {tokens : List Token}
    (h : lexFrom 0 before.length (before.foldl columnAfter 0) ahead = .ok tokens) :
    Tiles before ahead tokens := by
  induction hn : ahead.length using Nat.strongRecOn generalizing before ahead tokens with
  | ind n ih =>
    cases ahead with
    | nil =>
        cases h
        exact .done before
    | cons c ds =>
        cases hs : scan c ds with
        | error e =>
            rw [lexFrom, hs] at h
            cases h
        | ok l =>
            have hle := tail_le_of_scan_eq_ok hs
            obtain ⟨cs, rest, rfl, hl⟩ : ∃ cs rest, ds = cs ++ rest ∧ l.tail = cs.length :=
              ⟨ds.take l.tail, ds.drop l.tail, (List.take_append_drop _ _).symm, by simp [hle]⟩
            rw [← List.cons_append, lexFrom_of_scan_eq_ok hs hl, ← List.length_append,
              ← List.foldl_append] at h
            cases hr : lexFrom 0 (before ++ c :: cs).length
                ((before ++ c :: cs).foldl columnAfter 0) rest with
            | error e =>
                rw [hr] at h
                cases h
            | ok ts =>
                have ht : Tiles (before ++ c :: cs) rest ts := by
                  refine ih rest.length ?_ hr rfl
                  rw [← hn, List.length_cons, List.length_append]
                  omega
                rw [hr] at h
                obtain rfl := Except.ok.inj h
                obtain ⟨_ | kind, tail⟩ := l
                · exact .skipped hs hl rfl ht
                · obtain rfl := hl
                  exact .token hs ht

theorem Tiles.exists_of_mem {before ahead : List Char} {tokens : List Token} {t : Token}
    (h : Tiles before ahead tokens) (ht : t ∈ tokens) :
    ∃ b c cs rest, before ++ ahead = b ++ (c :: cs ++ rest) ∧ before.length ≤ b.length ∧
      scan c (cs ++ rest) = .ok ⟨some t.kind, cs.length⟩ ∧
      t.span = ⟨b.length, (c :: cs).length⟩ ∧ t.column = b.foldl columnAfter 0 := by
  induction h with
  | done => cases ht
  | skipped _ _ _ _ ih =>
      obtain ⟨b, c, cs, rest, heq, hle, h⟩ := ih ht
      rw [List.append_assoc] at heq
      rw [List.length_append] at hle
      exact ⟨b, c, cs, rest, heq, Nat.le_trans (Nat.le_add_right _ _) hle, h⟩
  | @token before cs rest c kind tokens hs _ ih =>
      rcases List.mem_cons.1 ht with rfl | ht
      · exact ⟨before, c, cs, rest, rfl, Nat.le_refl _, hs, rfl, rfl⟩
      · obtain ⟨b, c, cs, rest, heq, hle, h⟩ := ih ht
        rw [List.append_assoc] at heq
        rw [List.length_append] at hle
        exact ⟨b, c, cs, rest, heq, Nat.le_trans (Nat.le_add_right _ _) hle, h⟩

theorem Tiles.length_le_start {before ahead : List Char} {tokens : List Token} {t : Token}
    (h : Tiles before ahead tokens) (ht : t ∈ tokens) : before.length ≤ t.span.start := by
  obtain ⟨b, c, cs, rest, -, hle, -, hspan, -⟩ := h.exists_of_mem ht
  rw [hspan]
  exact hle

theorem Tiles.pairwise {before ahead : List Char} {tokens : List Token}
    (h : Tiles before ahead tokens) : tokens.Pairwise fun a b => a.span.stop ≤ b.span.start := by
  induction h with
  | done => exact .nil
  | skipped _ _ _ _ ih => exact ih
  | token _ hr ih =>
      refine List.pairwise_cons.2 ⟨?_, ih⟩
      intro t ht
      simpa [Span.stop] using hr.length_le_start ht

def gaps (text : List Char) : (start : Nat) → List Token → List (List Char)
  | start, [] => [text.drop start]
  | start, t :: ts => (text.drop start).take (t.span.start - start) :: gaps text t.span.stop ts

theorem gaps_append {before piece : List Char} (rest : List Char) {tokens : List Token}
    (h : ∀ t ∈ tokens, (before ++ piece).length ≤ t.span.start) :
    ∃ g gs, gaps (before ++ piece ++ rest) (before ++ piece).length tokens = g :: gs ∧
      g <+: rest ∧ gaps (before ++ piece ++ rest) before.length tokens = (piece ++ g) :: gs := by
  cases tokens with
  | nil =>
      refine ⟨rest, [], ?_, List.prefix_refl rest, ?_⟩
      · rw [gaps, List.drop_left]
      · rw [gaps, List.append_assoc, List.drop_left]
  | cons t ts =>
      have hle := h t List.mem_cons_self
      refine ⟨_, _, rfl, ?_, ?_⟩
      · rw [List.drop_left]
        exact List.take_prefix _ _
      · rw [gaps, List.drop_left, List.append_assoc, List.drop_left]
        rw [List.length_append] at hle
        have hsub : t.span.start - before.length =
            piece.length + (t.span.start - (before ++ piece).length) := by
          rw [List.length_append]
          omega
        rw [hsub, List.take_length_add_append]

theorem Tiles.forall_gap {before ahead : List Char} {tokens : List Token}
    (h : Tiles before ahead tokens) :
    ∀ g ∈ gaps (before ++ ahead) before.length tokens, Gap g := by
  induction h with
  | done before => simp [gaps, Gap.nil]
  | @skipped before cs rest c l tokens h hl hk hr ih =>
      obtain ⟨g, gs, hg, hp, hgs⟩ := gaps_append rest fun t ht => hr.length_le_start ht
      rw [hg] at ih
      rw [← List.append_assoc, hgs]
      refine List.forall_mem_cons.2 ⟨?_, ?_⟩
      · exact .of_scan_eq_ok h hl hk (ih g List.mem_cons_self) hp
      · exact fun g' hg' => ih g' (List.mem_cons_of_mem _ hg')
  | @token before cs rest c kind tokens h hr ih =>
      refine List.forall_mem_cons.2 ⟨?_, ?_⟩
      · simp [Gap.nil]
      · rw [← List.append_assoc]
        simpa [Span.stop] using ih

structure IsLineStart (text : List Char) (k : Nat) : Prop where
  le : k ≤ text.length
  begins : k = 0 ∨ text[k - 1]? = some '\n'
  unbroken : '\n' ∉ text.drop k

theorem isLineStart_columnAfter (text : List Char) :
    ∃ k, IsLineStart text k ∧ text.foldl columnAfter 0 = text.length - k := by
  induction text using List.reverseRecOn with
  | nil => exact ⟨0, ⟨Nat.le_refl _, .inl rfl, by simp⟩, rfl⟩
  | append_singleton text c ih =>
      obtain ⟨k, hk, hcol⟩ := ih
      rw [List.foldl_append, List.foldl_cons, List.foldl_nil, columnAfter, List.length_append,
        List.length_singleton]
      split
      · rename_i hc
        refine ⟨text.length + 1, ⟨by simp, .inr (by simp [hc]), by simp⟩, by omega⟩
      · rename_i hc
        have hle := hk.le
        refine ⟨k, ⟨?_, ?_, ?_⟩, by omega⟩
        · rw [List.length_append]
          omega
        · rcases hk.begins with h0 | hb
          · exact .inl h0
          · refine .inr ?_
            rw [List.getElem?_append_left (List.getElem?_eq_some_iff.1 hb).1, hb]
        · rw [List.drop_append_of_le_length hle, List.mem_append, not_or]
          exact ⟨hk.unbroken, by simpa using Ne.symm hc⟩

theorem column_after (text : List Char) :
    (Position.after text).column = text.foldl columnAfter 0 + 1 := by
  induction text using List.reverseRecOn with
  | nil => rfl
  | append_singleton text c ih =>
      rw [Position.after_append_singleton, List.foldl_append, List.foldl_cons, List.foldl_nil,
        columnAfter, Position.advance]
      split
      · rfl
      · simp only [ih]

theorem IsLineStart.eq_length_iff {text : List Char} {k : Nat} (h : IsLineStart text k) :
    k = text.length ↔ text.length = 0 ∨ text[text.length - 1]? = some '\n' := by
  constructor
  · rintro rfl
    exact h.begins
  · intro hn
    have hle := h.le
    rcases hn with h0 | hn
    · omega
    · by_cases hk : k = text.length
      · exact hk
      · refine absurd ?_ h.unbroken
        refine List.mem_of_getElem? (i := text.length - 1 - k) ?_
        rw [List.getElem?_drop, ← hn]
        congr 1
        omega

def Span.slice (s : Span) (text : List Char) : List Char := (text.drop s.start).take s.length

/-- A token where it belongs: within the text, in its column, and the token that its characters
alone are. -/
structure Token.Fits (source : List Char) (t : Token) : Prop where
  nonempty : 0 < t.span.length
  inside : t.span.stop ≤ source.length
  column : ∃ k, IsLineStart (source.take t.span.start) k ∧ t.column = t.span.start - k
  position : (t.span.position source).column = t.column + 1
  starts : t.startsDeclaration = true ↔
    t.span.start = 0 ∨ source[t.span.start - 1]? = some '\n'
  alone : lex (String.ofList (t.span.slice source)) = .ok [⟨t.kind, ⟨0, t.span.length⟩, 0⟩]

theorem lex_of_scan_eq_ok {c : Char} {cs rest : List Char} {kind : TokenKind}
    (h : scan c (cs ++ rest) = .ok ⟨some kind, cs.length⟩) :
    lex (String.ofList (c :: cs)) = .ok [⟨kind, ⟨0, (c :: cs).length⟩, 0⟩] := by
  have hs : scan c (cs ++ []) = .ok ⟨some kind, cs.length⟩ :=
    scan_append_congr delimits_nil h (by simp) (Nat.le_refl _)
  have hl := lexFrom_of_scan_eq_ok hs rfl 0 0
  rw [List.append_nil] at hl
  rw [lex, String.toList_ofList, hl, lexFrom]
  rfl

theorem startsDeclaration_iff {b rest : List Char} {t : Token} (hstart : t.span.start = b.length)
    (hcol : t.column = b.foldl columnAfter 0) :
    t.startsDeclaration = true ↔
      t.span.start = 0 ∨ (b ++ rest)[t.span.start - 1]? = some '\n' := by
  obtain ⟨k, hk, hfold⟩ := isLineStart_columnAfter b
  have hle := hk.le
  have hlast : b.length = 0 ∨ (b ++ rest)[b.length - 1]? = some '\n' ↔
      b.length = 0 ∨ b[b.length - 1]? = some '\n' := by
    by_cases h0 : b.length = 0
    · simp [h0]
    · rw [List.getElem?_append_left (by omega)]
  rw [hstart, hlast, ← hk.eq_length_iff, Token.startsDeclaration, beq_iff_eq, hcol, hfold]
  omega

theorem Tiles.fits {source : List Char} {tokens : List Token} {t : Token}
    (h : Tiles [] source tokens) (ht : t ∈ tokens) : t.Fits source := by
  obtain ⟨b, c, cs, rest, heq, -, hs, hspan, hcol⟩ := h.exists_of_mem ht
  rw [List.nil_append] at heq
  have hstart : t.span.start = b.length := by rw [hspan]
  have hlength : t.span.length = (c :: cs).length := by rw [hspan]
  have htake : source.take t.span.start = b := by
    rw [heq, hstart, List.take_left]
  constructor
  · rw [hlength]
    exact Nat.succ_pos _
  · rw [Span.stop, hstart, hlength, heq, List.length_append, List.length_append]
    omega
  · obtain ⟨k, hk, hfold⟩ := isLineStart_columnAfter b
    refine ⟨k, ?_, ?_⟩
    · rw [htake]
      exact hk
    · rw [hcol, hfold, hstart]
  · rw [Span.position_eq_after_take, htake, column_after, hcol]
  · rw [heq]
    exact startsDeclaration_iff hstart hcol
  · rw [Span.slice, hstart, hlength, heq, List.drop_left, List.take_left]
    exact lex_of_scan_eq_ok hs

theorem lex_tiles {source : String} {tokens : List Token} (h : lex source = .ok tokens) :
    (∀ t ∈ tokens, t.Fits source.toList) ∧
      tokens.Pairwise (fun a b => a.span.stop ≤ b.span.start) ∧
      ∀ g ∈ gaps source.toList 0 tokens, Gap g ∧ lex (String.ofList g) = .ok [] := by
  have ht : Tiles [] source.toList tokens := tiles_of_lexFrom h
  refine ⟨fun t => ht.fits, ht.pairwise, ?_⟩
  intro g hg
  have hgap : Gap g := ht.forall_gap g hg
  exact ⟨hgap, hgap.lex_eq_nil⟩

theorem lex_tiles_commented :
    let source := "a -- b\n  \x7b- \x7b--\x7d -\x7d = '\\n'"
    let tokens : List Token :=
      [⟨.word "a", ⟨0, 1⟩, 0⟩, ⟨.symbol .equals, ⟨20, 1⟩, 13⟩, ⟨.char '\n', ⟨22, 4⟩, 15⟩]
    lex source = .ok tokens ∧ (∀ t ∈ tokens, t.Fits source.toList) ∧
      ∀ g ∈ gaps source.toList 0 tokens, Gap g ∧ lex (String.ofList g) = .ok [] := by
  have h : lex "a -- b\n  \x7b- \x7b--\x7d -\x7d = '\\n'" = .ok
      [⟨.word "a", ⟨0, 1⟩, 0⟩, ⟨.symbol .equals, ⟨20, 1⟩, 13⟩, ⟨.char '\n', ⟨22, 4⟩, 15⟩] := by
    decide
  exact ⟨h, (lex_tiles h).1, (lex_tiles h).2.2⟩

end ElmTypes
