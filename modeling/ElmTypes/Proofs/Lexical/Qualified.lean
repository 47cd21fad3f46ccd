import ElmTypes.Proofs.Lexical.Words

namespace ElmTypes

open Lexeme

theorem splitLastDot_append {after : List Char} (h : '.' ∉ after) (before : List Char) :
    splitLastDot (before ++ '.' :: after) = some (before, after) := by
  induction before with
  | nil => simp [splitLastDot, splitLastDot_eq_none_iff.2 h]
  | cons c before ih => simp [splitLastDot, ih]

theorem Word.segmentsCapitalised_qualified {fresh : Bool} {before after : List Char}
    (hb : segmentsCapitalised fresh before = true) (ha : segmentsCapitalised true after = true) :
    segmentsCapitalised fresh (before ++ '.' :: after) = true := by
  induction before generalizing fresh with
  | nil =>
      cases fresh with
      | true => cases hb
      | false => exact ha
  | cons c before ih =>
      cases fresh with
      | true =>
          obtain ⟨hc, hb⟩ := Bool.and_eq_true_iff.1 hb
          exact Bool.and_eq_true_iff.2 ⟨hc, ih hb⟩
      | false => exact ih hb

theorem Lexeme.Name.rest_qualified {cs ds : List Char} {d : Char} (hr : rest true cs = cs)
    (hc : Word.segmentsCapitalised false cs = true) (hd : Unicode.isAlphabetic d = true) :
    rest true (cs ++ '.' :: d :: ds) = cs ++ '.' :: d :: rest (Unicode.isUppercase d) ds := by
  generalize hcapital : true = capital at hr ⊢
  fun_induction rest capital cs with
  | case1 capital c cs h ih =>
      obtain ⟨hupper, hcs⟩ := Bool.and_eq_true_iff.1 hc
      simp only [List.cons_append, rest, h, if_true]
      rw [ih hcs hupper.symm (List.cons.inj (List.cons.inj hr).2).2]
  | case2 => cases hr
  | case3 capital c cs _ h ih =>
      have hne := ne_dot_of_canContinue h
      have hcs : Word.segmentsCapitalised false cs = true := by
        simpa [Word.segmentsCapitalised, beq_false_of_ne hne] using hc
      rw [List.cons_append, rest_cons_of_ne hne, if_pos h, ih hcs hcapital (List.cons.inj hr).2,
        List.cons_append]
  | case4 => cases hr
  | case5 =>
      subst hcapital
      simp [rest, hd]

theorem IsUpperName.qualified {m w : String} (hm : IsUpperName m) (hw : IsTypeName w) :
    IsUpperName (m ++ "." ++ w) := by
  obtain ⟨⟨c, cs, hmc, hbegin, hrest⟩, hmcap⟩ := hm
  obtain ⟨⟨⟨d, ds, hwd, hdbegin, hdrest⟩, hwcap⟩, -⟩ := hw
  have htext : (m ++ "." ++ w).toList = c :: (cs ++ '.' :: d :: ds) := by simp [hmc, hwd]
  rw [Word.isCapitalised, hmc] at hmcap
  rw [Word.isCapitalised, hwd] at hwcap
  obtain ⟨hcu, hcs⟩ := Bool.and_eq_true_iff.1 hmcap
  obtain ⟨hdu, -⟩ := Bool.and_eq_true_iff.1 hwcap
  have hda : Unicode.isAlphabetic d = true := by
    rcases Bool.or_eq_true_iff.1 hdbegin with ha | hu
    · exact ha
    · obtain rfl : d = '_' := by simpa using hu
      exact absurd hdu (by decide)
  refine ⟨⟨c, _, htext, hbegin, ?_⟩, ?_⟩
  · rw [hcu] at hrest ⊢
    rw [Name.rest_qualified hrest hcs hda, hdrest]
  · rw [Word.isCapitalised, htext, ← List.cons_append]
    exact Word.segmentsCapitalised_qualified hmcap hwcap

theorem IsTypeName.ofWord_qualified {w : String} (h : IsTypeName w) (m : String) (s : Span) :
    TypeName.ofWord (m ++ "." ++ w) s = ⟨some m, w, s⟩ := by
  have hs : splitLastDot (m ++ "." ++ w).toList = some (m.toList, w.toList) := by
    simpa using splitLastDot_append h.plain m.toList
  rw [TypeName.ofWord, hs]
  simp

end ElmTypes
