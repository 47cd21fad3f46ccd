import Mathlib.Tactic.SplitIfs
import ElmTypes.Token.Basic
import ElmTypes.Text.Phrase

namespace ElmTypes

def OneLine (s : String) : Prop := '\n' ∉ s.toList

instance (s : String) : Decidable (OneLine s) := inferInstanceAs (Decidable (_ ∉ _))

section

variable {s t : String} {ss : List String}

theorem oneLine_ofList {cs : List Char} : OneLine (String.ofList cs) ↔ '\n' ∉ cs := by
  rw [OneLine, String.toList_ofList]

theorem OneLine.append (hs : OneLine s) (ht : OneLine t) : OneLine (s ++ t) := by
  rw [OneLine, String.toList_append, List.mem_append, not_or]
  exact ⟨hs, ht⟩

theorem oneLine_join (h : ∀ s ∈ ss, OneLine s) : OneLine (String.join ss) := by
  rw [OneLine, String.toList_join, List.mem_flatMap]
  rintro ⟨s, hs, hmem⟩
  exact h s hs hmem

theorem OneLine.intercalate (hs : OneLine s) (h : ∀ t ∈ ss, OneLine t) :
    OneLine (s.intercalate ss) := by
  induction ss with
  | nil => simp [OneLine]
  | cons t ss ih =>
      obtain ⟨ht, hss⟩ := List.forall_mem_cons.1 h
      cases ss with
      | nil => simpa using ht
      | cons u ss =>
          rw [String.intercalate_cons_cons]
          exact (ht.append hs).append (ih hss)

theorem splitOn_intercalate_lines (hne : ss ≠ []) (h : ∀ s ∈ ss, OneLine s) :
    ("\n".intercalate ss).toList.splitOn '\n' = ss.map String.toList := by
  have hlines : ∀ l ∈ ss.map String.toList, '\n' ∉ l := List.forall_mem_map.2 h
  have hsplit := List.splitOn_intercalate '\n' hlines (by simpa using hne)
  rwa [String.toList_intercalate]

end

namespace OneLine

theorem digitChar_ne (n : Nat) : Nat.digitChar n ≠ '\n' := by
  intro h
  have hn : n < 16 ∨ 16 ≤ n := Nat.lt_or_ge n 16
  rcases hn with hn | hn
  · revert h
    revert n
    decide
  · rw [Nat.digitChar_eq_star.2 hn] at h
    exact absurd h (by decide)

theorem toDigits {base : Nat} (hb : 1 < base) (n : Nat) : '\n' ∉ Nat.toDigits base n := by
  induction n using Nat.strongRecOn with
  | ind n ih =>
      rcases Nat.lt_or_ge n base with hn | hn
      · rw [Nat.toDigits_of_lt_base hn, List.mem_singleton]
        exact (digitChar_ne n).symm
      · rw [Nat.toDigits_of_base_le hb hn, List.mem_append, List.mem_singleton, not_or]
        exact ⟨ih _ (Nat.div_lt_self (by omega) hb), (digitChar_ne _).symm⟩

theorem nat (n : Nat) : OneLine (toString n) := by
  change '\n' ∉ n.repr.toList
  rw [Nat.toList_repr]
  exact toDigits (by decide) n

theorem int (n : Int) : OneLine (toString n) := by
  cases n with
  | ofNat n => exact nat n
  | negSucc n => exact append (s := "-") (by decide) (nat (n + 1))

theorem counted (n : Nat) {noun : String} (h : OneLine noun) : OneLine (counted n noun) := by
  refine (((nat n).append (by decide)).append h).append ?_
  unfold plural
  split <;> decide

theorem char {c : Char} (h : c ≠ '\n') : OneLine c.toString := by
  change '\n' ∉ (String.singleton c).toList
  simpa using Ne.symm h

theorem escape {mark : Char} (c : Char) : OneLine (Quoted.escape mark c) := by
  unfold Quoted.escape
  split_ifs with ht hr hn h0 hq hp
  · decide
  · decide
  · decide
  · decide
  · rw [oneLine_ofList]
    simpa using Ne.symm hn
  · exact char hn
  · have hdigits : OneLine (String.ofList (Nat.toDigits 16 c.toNat)) :=
      oneLine_ofList.2 (toDigits (by decide) _)
    exact (append (by decide) hdigits).append (by decide)

theorem enclose {mark : Char} (hm : mark ≠ '\n') (cs : List Char) :
    OneLine (Quoted.enclose mark cs) := by
  refine ((char hm).append (oneLine_join ?_)).append (char hm)
  exact List.forall_mem_map.2 fun c _ => escape c

theorem positional {digits : List Char} (h : '\n' ∉ digits) (exponent : Int) :
    '\n' ∉ Decimal.positional digits exponent := by
  have hzeros (n : Int) : '\n' ∉ List.replicate n.toNat '0' := by simp
  simp only [Decimal.positional]
  split_ifs
  · simp [h]
  · simp only [List.mem_append, List.mem_cons, not_or]
    refine ⟨fun hm => h (List.mem_of_mem_take hm), by decide, fun hm => h (List.mem_of_mem_drop hm)⟩
  · simp [h]

theorem scientific {digits : List Char} (h : '\n' ∉ digits) (leading : Int) :
    '\n' ∉ Decimal.scientific digits leading := by
  have hfraction : '\n' ∉ digits.drop 1 := fun hm => h (List.mem_of_mem_drop hm)
  have hleading : '\n' ∉ (toString leading).toList := int leading
  simp only [Decimal.scientific, List.mem_append, List.mem_cons, not_or]
  refine ⟨⟨fun hm => h (List.mem_of_mem_take hm), ?_⟩, by decide, hleading⟩
  split
  · simp
  · simpa using hfraction

theorem render (layout : Decimal.Layout) (d : Decimal) : OneLine (d.render layout) := by
  have hdigits : '\n' ∉ Nat.toDigits 10 d.coefficient := toDigits (by decide) _
  unfold Decimal.render
  simp only
  split
  · exact oneLine_ofList.2 (positional hdigits _)
  · exact oneLine_ofList.2 (scientific hdigits _)

theorem float (layout : Decimal.Layout) (x : Binary64) : OneLine (x.render layout) := by
  cases x with
  | infinity => exact (by decide : OneLine "inf")
  | finite significand scale =>
      rw [Binary64.render]
      split_ifs
      · decide
      · exact render layout _

end OneLine

end ElmTypes
