import Mathlib.Data.List.Forall2
import ElmTypes.Proofs.Lexical.Words

namespace ElmTypes

open Lexeme

/-- Before a delimiter, and at the end, the text is read as tokens of these kinds. -/
def Spells (cs : List Char) (ks : List TokenKind) : Prop :=
  ∀ y tokens offset column, Delimits y →
    lexFrom 0 (offset + cs.length) (column + cs.length) y = .ok tokens →
    ∃ ts, ts.map Token.kind = ks ∧ (∀ t ∈ ts, column ≤ t.column) ∧
      lexFrom 0 offset column (cs ++ y) = .ok (ts ++ tokens)

theorem Lexeme.Delimits.append {x y : List Char} (hx : Delimits x) (hy : Delimits y) :
    Delimits (x ++ y) := by
  cases x with
  | nil => exact hy
  | cons c x => exact hx

theorem foldl_columnAfter {cs : List Char} (h : '\n' ∉ cs) (column : Nat) :
    cs.foldl columnAfter column = column + cs.length := by
  induction cs generalizing column with
  | nil => rfl
  | cons c cs ih =>
      rw [List.mem_cons, not_or] at h
      rw [List.foldl_cons, columnAfter, if_neg (Ne.symm h.1), ih h.2, List.length_cons]
      omega

namespace Spells

variable {cs ds : List Char} {ks ls : List TokenKind}

theorem nil : Spells [] [] := by
  intro y tokens offset column _ h
  exact ⟨[], rfl, by simp, h⟩

theorem append (h : Spells cs ks) (h' : Spells ds ls) (hd : Delimits ds) :
    Spells (cs ++ ds) (ks ++ ls) := by
  intro y tokens offset column hy hl
  rw [List.length_append, ← Nat.add_assoc, ← Nat.add_assoc] at hl
  obtain ⟨us, hus, hcol, hl⟩ := h' y tokens _ _ hy hl
  obtain ⟨ts, hts, hcol', hl⟩ := h (ds ++ y) (us ++ tokens) offset column (hd.append hy) hl
  refine ⟨ts ++ us, by simp [hts, hus], ?_, ?_⟩
  · refine List.forall_mem_append.2 ⟨hcol', fun t ht => ?_⟩
    exact Nat.le_trans (Nat.le_add_right _ _) (hcol t ht)
  · rw [List.append_assoc, hl, List.append_assoc]

theorem lexeme {c : Char} {kind : Option TokenKind}
    (h : ∀ y, Delimits y → scan c (ds ++ (cs ++ y)) = .ok ⟨kind, ds.length⟩) (hn : '\n' ∉ c :: ds)
    (hs : Spells cs ks) : Spells (c :: ds ++ cs) (kind.toList ++ ks) := by
  intro y tokens offset column hy ht
  rw [List.length_append, ← Nat.add_assoc, ← Nat.add_assoc] at ht
  obtain ⟨ts, hts, hcol, hl⟩ := hs y tokens _ _ hy ht
  refine ⟨(⟨kind, ds.length⟩ : Lexeme).place offset column ++ ts, ?_, ?_, ?_⟩
  · cases kind <;> simp [place, hts]
  · refine List.forall_mem_append.2 ⟨?_, fun t ht => ?_⟩
    · cases kind <;> simp [place]
    · exact Nat.le_trans (Nat.le_add_right _ _) (hcol t ht)
  · rw [List.append_assoc, lexFrom_of_scan_eq_ok (h y hy) rfl, foldl_columnAfter hn, hl,
      List.append_assoc]
    rfl

theorem token {c : Char} {k : TokenKind} (h : scan c cs = .ok ⟨some k, cs.length⟩)
    (hn : '\n' ∉ c :: cs) : Spells (c :: cs) [k] := by
  have hscan : ∀ y, Delimits y → scan c (cs ++ ([] ++ y)) = .ok ⟨some k, cs.length⟩ := by
    intro y hy
    refine scan_append_congr (x := []) hy ?_ (by simp) (Nat.le_refl _)
    rw [List.append_nil]
    exact h
  simpa using lexeme hscan hn nil

theorem word {w : String} (h : IsWord w) : Spells w.toList [.word w] := by
  obtain ⟨c, cs, hw, -, -⟩ := id h
  have hn := h.ne_lineFeed
  rw [hw] at hn ⊢
  exact token (h.scan_eq_ok hw) hn

theorem cons {c : Char} {kind : Option TokenKind}
    (h : ∀ y, Delimits y → scan c (cs ++ y) = .ok ⟨kind, 0⟩) (hc : c ≠ '\n') (hs : Spells cs ks) :
    Spells (c :: cs) (kind.toList ++ ks) :=
  @lexeme cs [] ks c kind h (by simpa using Ne.symm hc) hs

theorem blank (h : Spells cs ks) : Spells (' ' :: cs) ks :=
  cons (fun _ _ => scan_blank rfl _) (by decide) h

theorem scan_delimiter {c : Char} {k : TokenKind} (h : Form.choose c cs = .single k) :
    scan c cs = .ok ⟨some k, 0⟩ := by
  rw [scan_eq_read_choose, h]
  rfl

theorem openRound (h : Spells cs ks) : Spells ('(' :: cs) (.opening .round :: ks) :=
  cons (fun _ _ => scan_delimiter rfl) (by decide) h

theorem closeRound (h : Spells cs ks) : Spells (')' :: cs) (.closing .round :: ks) :=
  cons (fun _ _ => scan_delimiter rfl) (by decide) h

theorem comma (h : Spells cs ks) : Spells (',' :: cs) (.symbol .comma :: ks) :=
  cons (fun _ _ => scan_delimiter rfl) (by decide) h

theorem closeBrace (h : Spells cs ks) : Spells ('}' :: cs) (.closing .brace :: ks) :=
  cons (fun _ _ => scan_delimiter rfl) (by decide) h

theorem openBrace {c : Char} (hc : c ≠ '-') (h : Spells (c :: cs) ks) :
    Spells ('{' :: c :: cs) (.opening .brace :: ks) := by
  have hb : Name.canBegin '{' = false := by decide
  have hf (y : List Char) : Form.choose '{' (c :: cs ++ y) = .single (.opening .brace) := by
    simp [Form.choose, hb, hc, delimiter?]
  exact cons (fun y _ => scan_delimiter (hf y)) (by decide) h

theorem symbol {c : Char} {s : Symbol} (h : scan c [] = .ok ⟨some (.symbol s), 0⟩) (hc : c ≠ '\n')
    (hs : Spells cs ks) : Spells (c :: ' ' :: cs) (.symbol s :: ks) :=
  append (token h (by simpa using Ne.symm hc)) (blank hs) (delimits_cons (by decide) _)

theorem equals (h : Spells cs ks) : Spells ('=' :: ' ' :: cs) (.symbol .equals :: ks) :=
  symbol (by decide) (by decide) h

theorem bar (h : Spells cs ks) : Spells ('|' :: ' ' :: cs) (.symbol .bar :: ks) :=
  symbol (by decide) (by decide) h

theorem colon (h : Spells cs ks) : Spells (':' :: ' ' :: cs) (.symbol .colon :: ks) :=
  symbol (by decide) (by decide) h

theorem arrow (h : Spells cs ks) : Spells ('-' :: '>' :: ' ' :: cs) (.symbol .arrow :: ks) :=
  @append ['-', '>'] (' ' :: cs) _ ks (token (by decide) (by decide)) (blank h)
    (delimits_cons (by decide) _)

theorem intercalate {sep : List Char} {sk : List TokenKind} {css : List (List Char)}
    {kss : List (List TokenKind)}
    (hsep : ∀ {cs ks}, Spells cs ks → Spells (sep ++ cs) (sk ++ ks))
    (hd : ∀ cs, Delimits (sep ++ cs)) (h : List.Forall₂ Spells css kss) :
    Spells (sep.intercalate css) (sk.intercalate kss) := by
  induction h with
  | nil => exact nil
  | cons hcs hrest ih =>
      cases hrest with
      | nil => simpa using hcs
      | cons hcs' hrest' =>
          rw [List.intercalate_cons_cons, List.intercalate_cons_cons, List.append_assoc,
            List.append_assoc]
          exact append hcs (hsep ih) (hd _)

theorem commas {css : List (List Char)} {kss : List (List TokenKind)}
    (h : List.Forall₂ Spells css kss) :
    Spells ([',', ' '].intercalate css) ([TokenKind.symbol .comma].intercalate kss) :=
  intercalate (fun h => comma (blank h)) (fun _ => delimits_cons (by decide) _) h

theorem bars {css : List (List Char)} {kss : List (List TokenKind)}
    (h : List.Forall₂ Spells css kss) :
    Spells ([' ', '|', ' '].intercalate css) ([TokenKind.symbol .bar].intercalate kss) :=
  intercalate (fun h => blank (bar h)) (fun _ => delimits_cons (by decide) _) h

theorem blanks {css : List (List Char)} {kss : List (List TokenKind)}
    (h : List.Forall₂ Spells css kss) : Spells ([' '].intercalate css) kss.flatten := by
  have hflat : ([] : List TokenKind).intercalate kss = kss.flatten := by
    clear h
    induction kss with
    | nil => rfl
    | cons ks kss ih =>
        cases kss with
        | nil => simp
        | cons ls kss =>
            rw [List.intercalate_cons_cons, ih, List.append_nil]
            rfl
  have hd (cs : List Char) : Delimits ([' '] ++ cs) := delimits_cons (by decide) cs
  rw [← hflat]
  exact intercalate (fun h => blank h) hd h

end Spells

end ElmTypes
