import ElmTypes.Grammar.Expected
import ElmTypes.Proofs.Lexical.Tiling
import ElmTypes.Source.TypeName

namespace ElmTypes

open Lexeme

namespace Lexeme.Name

theorem ne_dot_of_canContinue {c : Char} (h : canContinue c = true) : c ≠ '.' := by
  rintro rfl
  revert h
  decide

theorem rest_rest (capital : Bool) (cs : List Char) :
    rest capital (rest capital cs) = rest capital cs := by
  fun_induction rest capital cs with
  | case1 capital c cs h ih => simp [rest, h, ih]
  | case2 => rfl
  | case3 capital c cs _ h ih => simp [rest_cons_of_ne (ne_dot_of_canContinue h), h, ih]
  | case4 => rfl
  | case5 => rfl

theorem rest_of_forall {cs : List Char} (capital : Bool) (h : ∀ c ∈ cs, canContinue c = true) :
    rest capital cs = cs := by
  induction cs with
  | nil => rfl
  | cons c cs ih =>
      obtain ⟨hc, hcs⟩ := List.forall_mem_cons.1 h
      rw [rest_cons_of_ne (ne_dot_of_canContinue hc), if_pos hc, ih hcs]

theorem canContinue_of_mem_rest {capital : Bool} {cs : List Char} {d : Char}
    (hd : d ∈ rest capital cs) : canContinue d = true ∨ d = '.' := by
  fun_induction rest capital cs with
  | case1 capital c cs h ih =>
      have hc : canContinue c = true := by simp [canContinue, (Bool.and_eq_true_iff.1 h).2]
      rcases List.mem_cons.1 hd with rfl | hd
      · exact .inr rfl
      · rcases List.mem_cons.1 hd with rfl | hd
        · exact .inl hc
        · exact ih hd
  | case2 => cases hd
  | case3 capital c cs _ h ih =>
      rcases List.mem_cons.1 hd with rfl | hd
      · exact .inl h
      · exact ih hd
  | case4 => cases hd
  | case5 => cases hd

theorem of_rest_eq_append {capital : Bool} {cs before after : List Char}
    (h : rest capital cs = before ++ '.' :: after) (ha : '.' ∉ after) :
    ∃ c ds, after = c :: ds ∧ Unicode.isAlphabetic c = true ∧ ∀ d ∈ ds, canContinue d = true := by
  fun_induction rest capital cs generalizing before with
  | case1 capital c cs hc ih =>
      have hca : Unicode.isAlphabetic c = true := (Bool.and_eq_true_iff.1 hc).2
      rcases before with _ | ⟨b, _ | ⟨b', before⟩⟩
      · obtain rfl : c :: rest (Unicode.isUppercase c) cs = after := (List.cons.inj h).2
        refine ⟨c, _, rfl, hca, fun d hd => ?_⟩
        rcases canContinue_of_mem_rest hd with hd' | rfl
        · exact hd'
        · exact absurd (List.mem_cons_of_mem _ hd) ha
      · obtain rfl : c = '.' := (List.cons.inj (List.cons.inj h).2).1
        exact absurd hca (by decide)
      · exact ih (List.cons.inj (List.cons.inj h).2).2
  | case2 => simp at h
  | case3 capital c cs _ hc ih =>
      rcases before with _ | ⟨b, before⟩
      · exact absurd (List.cons.inj h).1 (ne_dot_of_canContinue hc)
      · exact ih (List.cons.inj h).2
  | case4 => simp at h
  | case5 => simp at h

end Lexeme.Name

def IsWord (w : String) : Prop :=
  ∃ c cs, w.toList = c :: cs ∧ Name.canBegin c = true ∧
    Name.rest (Unicode.isUppercase c) cs = cs

namespace IsWord

variable {w : String}

theorem of_rest {c : Char} (hc : Name.canBegin c = true) (cs : List Char) :
    IsWord (String.ofList (c :: Name.rest (Unicode.isUppercase c) cs)) :=
  ⟨c, _, String.toList_ofList, hc, Name.rest_rest _ _⟩

theorem scan_eq_ok {c : Char} {cs : List Char} (h : IsWord w) (hw : w.toList = c :: cs) :
    scan c cs = .ok ⟨some (.word w), cs.length⟩ := by
  obtain ⟨d, ds, hd, hc, hr⟩ := h
  obtain ⟨rfl, rfl⟩ := List.cons.inj (hw.symm.trans hd)
  rw [scan, if_pos hc, Name.read, hr, ← hw, String.ofList_toList]
  rfl

theorem ne_lineFeed (h : IsWord w) : '\n' ∉ w.toList := by
  obtain ⟨c, cs, hw, hc, hr⟩ := h
  rw [hw, List.mem_cons, not_or]
  refine ⟨?_, fun hm => ?_⟩
  · rintro rfl
    revert hc
    decide
  · rw [← hr] at hm
    rcases Name.canContinue_of_mem_rest hm with hn | hn
    · revert hn
      decide
    · cases hn

theorem of_splitLastDot {before after : List Char} (h : IsWord w)
    (hs : splitLastDot w.toList = some (before, after)) : IsWord (String.ofList after) := by
  have ha := not_mem_of_splitLastDot hs
  have hw := eq_append_of_splitLastDot hs
  obtain ⟨c, cs, hc, hbegin, hr⟩ := h
  rw [hc] at hw
  rcases before with _ | ⟨b, before⟩
  · obtain ⟨rfl, -⟩ := List.cons.inj hw
    exact absurd hbegin (by decide)
  · obtain ⟨rfl, hcs⟩ := List.cons.inj hw
    obtain ⟨d, ds, rfl, hd, hds⟩ := Name.of_rest_eq_append (hr.trans hcs) ha
    refine ⟨d, ds, String.toList_ofList, ?_, Name.rest_of_forall _ hds⟩
    simp [Name.canBegin, hd]

end IsWord

theorem TokenKind.ofOperator_ne_word (operator w : String) : ofOperator operator ≠ .word w := by
  unfold ofOperator
  split <;> simp

theorem Lexeme.delimiter?_ne_word (c : Char) (w : String) : delimiter? c ≠ some (.word w) := by
  unfold delimiter?
  split <;> simp

theorem isWord_of_scan {c : Char} {cs : List Char} {w : String} {n : Nat}
    (h : scan c cs = .ok ⟨some (.word w), n⟩) : IsWord w := by
  have hs := Form.suits_choose c cs
  rw [scan_eq_read_choose] at h
  cases hform : Form.choose c cs with
  | name =>
      rw [hform] at h hs
      cases h
      exact .of_rest hs cs
  | number =>
      rw [hform] at h
      obtain ⟨r, hr, hw⟩ := Number.read_eq_literal c cs
      rw [Form.read, hr] at h
      cases r with
      | error e => cases h
      | ok k =>
          cases h
          exact (hw _ rfl).elim
  | string =>
      rw [hform] at h
      obtain ⟨text, total, ht, -⟩ := Quoted.readString_eq_ok_iff.1 h
      cases ht
  | character =>
      rw [hform] at h
      obtain ⟨d, total, ht, -⟩ := Quoted.readChar_eq_ok_iff.1 h
      cases ht
  | blockComment =>
      rw [hform] at h hs
      obtain ⟨ds, rfl⟩ := List.head?_eq_some_iff.1 hs.2
      obtain ⟨m, -, hl⟩ := Comment.readBlock_eq_ok_iff.1 h
      cases hl
  | shader =>
      rw [hform] at h
      simp only [Form.read, Shader.read] at h
      split at h <;> cases h
  | single kind =>
      rw [hform] at h hs
      cases h
      exact absurd hs (delimiter?_ne_word c w)
  | operator =>
      rw [hform] at h
      have hk := congrArg Lexeme.kind (Except.ok.inj h)
      exact absurd (Option.some.inj hk) (TokenKind.ofOperator_ne_word _ w)
  | lineComment | blank | unknown =>
      rw [hform] at h
      cases h

theorem isWord_of_lex {source : String} {tokens : List Token} (h : lex source = .ok tokens)
    {t : Token} (ht : t ∈ tokens) {w : String} (hw : t.kind = .word w) : IsWord w := by
  have htiles : Tiles [] source.toList tokens := tiles_of_lexFrom h
  obtain ⟨b, c, cs, rest, -, -, hs, -, -⟩ := htiles.exists_of_mem ht
  rw [hw] at hs
  exact isWord_of_scan hs

namespace Word

theorem segmentsCapitalised_append {fresh : Bool} {before after : List Char}
    (h : segmentsCapitalised fresh (before ++ '.' :: after) = true) :
    segmentsCapitalised true after = true := by
  induction before generalizing fresh with
  | nil =>
      cases fresh with
      | true =>
          have hd : Unicode.isUppercase '.' = false := by decide
          simp [segmentsCapitalised, hd] at h
      | false => simpa [segmentsCapitalised] using h
  | cons c before ih =>
      cases fresh with
      | true => exact ih (Bool.and_eq_true_iff.1 h).2
      | false => exact ih h

theorem beginsUppercase_of_isCapitalised {w : String} (h : isCapitalised w = true) :
    beginsUppercase w = true := by
  unfold isCapitalised at h
  unfold beginsUppercase
  cases hw : w.toList with
  | nil =>
      rw [hw] at h
      cases h
  | cons c cs =>
      rw [hw] at h
      exact (Bool.and_eq_true_iff.1 h).1

end Word

structure IsLowerName (w : String) : Prop where
  isWord : IsWord w
  isLowercase : Word.isLowercase w = true

structure IsUpperName (w : String) : Prop where
  isWord : IsWord w
  isCapitalised : Word.isCapitalised w = true

structure IsTypeName (w : String) : Prop extends IsUpperName w where
  plain : '.' ∉ w.toList

theorem TokenKind.lowercaseName?_eq_some_iff {k : TokenKind} {w : String} :
    k.lowercaseName? = some w ↔ k = .word w ∧ Word.isLowercase w = true := by
  cases k with
  | word text =>
      simp only [lowercaseName?, Option.ite_none_right_eq_some, Option.some.injEq, word.injEq]
      constructor
      · rintro ⟨h, rfl⟩
        exact ⟨rfl, h⟩
      · rintro ⟨rfl, h⟩
        exact ⟨h, rfl⟩
  | _ => simp [lowercaseName?]

theorem TokenKind.capitalisedName?_eq_some_iff {k : TokenKind} {w : String} :
    k.capitalisedName? = some w ↔ k = .word w ∧ Word.isCapitalised w = true := by
  cases k with
  | word text =>
      simp only [capitalisedName?, Option.ite_none_right_eq_some, Option.some.injEq, word.injEq]
      constructor
      · rintro ⟨h, rfl⟩
        exact ⟨rfl, h⟩
      · rintro ⟨rfl, h⟩
        exact ⟨h, rfl⟩
  | _ => simp [capitalisedName?]

namespace IsUpperName

variable {w : String}

theorem ofWord (h : IsUpperName w) (s : Span) : IsTypeName (TypeName.ofWord w s).name := by
  unfold TypeName.ofWord
  split
  · rename_i before after hs
    refine ⟨⟨h.isWord.of_splitLastDot hs, ?_⟩, ?_⟩
    · have hc := h.isCapitalised
      rw [Word.isCapitalised, eq_append_of_splitLastDot hs] at hc
      rw [Word.isCapitalised, String.toList_ofList]
      exact Word.segmentsCapitalised_append hc
    · rw [String.toList_ofList]
      exact not_mem_of_splitLastDot hs
  · rename_i hs
    exact ⟨h, splitLastDot_eq_none_iff.1 hs⟩

end IsUpperName

theorem IsTypeName.ofWord_eq {w : String} (h : IsTypeName w) (s : Span) :
    TypeName.ofWord w s = ⟨none, w, s⟩ := by
  rw [TypeName.ofWord, splitLastDot_eq_none_iff.2 h.plain]

end ElmTypes
