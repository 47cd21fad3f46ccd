import Mathlib.Data.List.TakeWhile
import Mathlib.Data.Nat.Digits.Defs
import ElmTypes.Proofs.Lexical.Wording

namespace ElmTypes

namespace Digits

def positional (base : Nat) (digits : List Char) : Nat :=
  Nat.ofDigits base (digits.map value).reverse

theorem value_digitChar :
    ∀ d < 16, value (Nat.digitChar d) = d ∧ value (Nat.digitChar d).toUpper = d := by
  decide

theorem positional_append_singleton (base : Nat) (digits : List Char) (c : Char) :
    positional base (digits ++ [c]) = positional base digits * base + value c := by
  rw [positional, List.map_append, List.reverse_append, List.map_singleton, List.reverse_singleton,
    List.singleton_append, Nat.ofDigits_cons, ← positional, Nat.add_comm, Nat.mul_comm]

theorem toNat_eq_positional (base : Nat) (digits : List Char) :
    toNat base digits = positional base digits := by
  induction digits using List.reverseRecOn with
  | nil => rfl
  | append_singleton digits c ih =>
      rw [toNat_append_singleton, positional_append_singleton, ih]

end Digits

open Digits

namespace Lexeme

namespace Number

inductive Denotes : List Char → Nat → Prop where
  | decimal {digits : List Char} (hn : digits ≠ []) (h : ∀ c ∈ digits, c.isDigit = true) :
      Denotes digits (positional 10 digits)
  | hexadecimal {digits : List Char} (hn : digits ≠ []) (h : ∀ c ∈ digits, isHex c = true) :
      Denotes ('0' :: 'x' :: digits) (positional 16 digits)

theorem integer?_eq_ite {digits : List Char} (base : Nat) (marker : String) (h : digits ≠ []) :
    integer? base marker digits =
      if positional base digits ≤ 2 ^ 63 - 1 then .ok (.integer (positional base digits))
      else .error (.hugeInteger (marker ++ String.ofList digits)) := by
  have hbound : positional base digits < bound ↔ positional base digits ≤ 2 ^ 63 - 1 := by
    rw [bound]
    omega
  have hempty : digits.isEmpty = false := by simpa using h
  simp only [integer?, hempty, Bool.false_eq_true, if_false, toNat_eq_positional, hbound]

theorem of_integer?_eq_ok {base n : Nat} {marker : String} {digits : List Char}
    (h : integer? base marker digits = .ok (.integer n)) :
    digits ≠ [] ∧ positional base digits = n ∧ n ≤ 2 ^ 63 - 1 := by
  have hn : digits ≠ [] := by
    rintro rfl
    cases h
  rw [integer?_eq_ite base marker hn] at h
  split at h
  · rename_i hle
    cases h
    exact ⟨hn, rfl, hle⟩
  · cases h

theorem eq_ok_of_literal {tail : List Char} {r : Except LexicalCause TokenKind} {k : TokenKind}
    {n : Nat} (h : literal tail r = .ok ⟨some k, n⟩) : r = .ok k ∧ n = tail.length := by
  cases r with
  | ok k' =>
      cases h
      exact ⟨rfl, rfl⟩
  | error cause => cases h

theorem denotes_of_read {c : Char} {cs : List Char} {n k : Nat} (hc : c.isDigit = true)
    (h : read c cs = .ok ⟨some (.integer n), k⟩) :
    Denotes (c :: cs.take k) n ∧ n ≤ 2 ^ 63 - 1 := by
  by_cases hx : c = '0' ∧ cs.head? = some 'x'
  · obtain ⟨rfl, hhead⟩ := hx
    obtain ⟨ds, rfl⟩ := List.head?_eq_some_iff.1 hhead
    rw [read_hexadecimal] at h
    obtain ⟨hr, rfl⟩ := eq_ok_of_literal h
    obtain ⟨hn, rfl, hle⟩ := of_integer?_eq_ok hr
    rw [List.length_cons, List.take_succ_cons,
      ← List.prefix_iff_eq_take.1 (List.takeWhile_prefix isHex)]
    exact ⟨.hexadecimal hn (forall_mem_takeWhile isHex ds), hle⟩
  · cases hf : isFraction (cs.dropWhile Char.isDigit) with
    | true =>
        rw [read_float hx hf] at h
        have hr := (eq_ok_of_literal h).1
        unfold float? at hr
        split at hr <;> cases hr
    | false =>
        rw [read_decimal hx hf] at h
        obtain ⟨hr, rfl⟩ := eq_ok_of_literal h
        obtain ⟨hn, rfl, hle⟩ := of_integer?_eq_ok hr
        rw [← List.prefix_iff_eq_take.1 (List.takeWhile_prefix Char.isDigit)]
        exact ⟨.decimal hn (List.forall_mem_cons.2 ⟨hc, forall_mem_takeWhile _ cs⟩), hle⟩

end Number

theorem scan_digit {c : Char} (h : c.isDigit = true) (cs : List Char) :
    scan c cs = Number.read c cs := by
  have hrange : 48 ≤ c.toNat ∧ c.toNat ≤ 57 := by
    simpa [Char.isDigit, UInt32.le_iff_toNat_le, ← Char.toNat_val] using h
  have hname : Name.canBegin c = false := by
    have hunderscore : c ≠ '_' := by
      rintro rfl
      exact absurd h (by decide)
    have halpha : c.isAlpha = false := by
      have hdigits : ∀ n < 58, 48 ≤ n → (Char.ofNat n).isAlpha = false := by decide
      rw [← Char.ofNat_toNat c]
      exact hdigits c.toNat (by omega) hrange.1
    rw [Name.canBegin, Unicode.isAlphabetic_of_ascii (by omega), halpha]
    simpa using hunderscore
  rw [scan, if_neg (by simp [hname]), if_pos h]

theorem isDigit_of_scan {c : Char} {cs : List Char} {n k : Nat}
    (h : scan c cs = .ok ⟨some (.integer n), k⟩) : c.isDigit = true := by
  have hs := Form.suits_choose c cs
  rw [scan_eq_read_choose] at h
  cases hform : Form.choose c cs with
  | number =>
      unfold Form.choose at hform
      split at hform
      · cases hform
      · split at hform
        · assumption
        · grind
  | string =>
      rw [hform] at h
      obtain ⟨text, total, ht, -⟩ := Quoted.readString_eq_ok_iff.1 h
      cases ht
  | character =>
      rw [hform] at h
      obtain ⟨d, total, ht, -⟩ := Quoted.readChar_eq_ok_iff.1 h
      cases ht
  | blockComment =>
      rw [hform] at h hs
      obtain ⟨ds, rfl⟩ := List.head?_eq_some_iff.1 hs.2
      obtain ⟨m, -, hl⟩ := Comment.readBlock_eq_ok_iff.1 h
      cases hl
  | shader =>
      rw [hform] at h
      simp only [Form.read, Shader.read] at h
      split at h <;> cases h
  | single kind =>
      rw [hform] at h hs
      cases h
      simp only [Form.Suits, delimiter?] at hs
      split at hs <;> cases hs
  | operator =>
      rw [hform] at h
      simp only [Form.read, readOperator, token, TokenKind.ofOperator] at h
      split at h <;> cases h
  | name | lineComment | blank | unknown =>
      rw [hform] at h
      cases h

end Lexeme

open Lexeme Number

theorem lex_of_literal {c : Char} {cs : List Char} {r : Except LexicalCause TokenKind}
    (h : scan c cs = literal cs r) :
    lex (String.ofList (c :: cs)) =
      (r.map fun kind => [⟨kind, ⟨0, (c :: cs).length⟩, 0⟩]).mapError fun cause =>
        ⟨cause, ⟨0, (c :: cs).length⟩⟩ := by
  cases r with
  | ok kind =>
      refine @lex_of_scan_eq_ok c cs [] kind ?_
      rw [List.append_nil]
      exact h
  | error cause =>
      rw [lex, String.toList_ofList, lexFrom, h]
      rfl

theorem scan_decimal {c : Char} {cs : List Char} (h : ∀ d ∈ c :: cs, d.isDigit = true) :
    scan c cs = literal cs (integer? 10 "" (c :: cs)) := by
  obtain ⟨hc, hcs⟩ := List.forall_mem_cons.1 h
  have htake : cs.takeWhile Char.isDigit = cs := List.takeWhile_eq_self_iff.2 hcs
  have hdrop : cs.dropWhile Char.isDigit = [] := List.dropWhile_eq_nil_iff.2 hcs
  have hx : ¬ (c = '0' ∧ cs.head? = some 'x') := by
    rintro ⟨-, hhead⟩
    exact absurd (hcs 'x' (List.mem_of_mem_head? hhead)) (by decide)
  rw [scan_digit hc, read_decimal hx (by rw [hdrop]; rfl), htake]

theorem scan_hexadecimal {cs : List Char} (h : ∀ d ∈ cs, isHex d = true) :
    scan '0' ('x' :: cs) = literal ('x' :: cs) (integer? 16 "0x" cs) := by
  rw [scan_digit (by decide), read_hexadecimal, List.takeWhile_eq_self_iff.2 h]

theorem denotes_of_lex {source : String} {tokens : List Token} {t : Token} {n : Nat}
    (h : lex source = .ok tokens) (ht : t ∈ tokens) (hk : t.kind = .integer n) :
    Denotes (t.span.slice source.toList) n ∧ n ≤ 2 ^ 63 - 1 := by
  have htiles : Tiles [] source.toList tokens := tiles_of_lexFrom h
  obtain ⟨b, c, cs, rest, hsource, -, hs, hspan, -⟩ := htiles.exists_of_mem ht
  rw [hk] at hs
  have hread := hs
  rw [scan_digit (isDigit_of_scan hs)] at hread
  obtain ⟨hdenotes, hle⟩ := denotes_of_read (isDigit_of_scan hs) hread
  rw [List.take_left] at hdenotes
  rw [List.nil_append] at hsource
  rw [Span.slice, hspan, hsource, List.drop_left, List.take_left]
  exact ⟨hdenotes, hle⟩

theorem lex_integers :
    (∀ digits : List Char, digits ≠ [] → (∀ c ∈ digits, c.isDigit = true) →
      lex (String.ofList digits) =
        if positional 10 digits ≤ 2 ^ 63 - 1 then
          .ok [⟨.integer (positional 10 digits), ⟨0, digits.length⟩, 0⟩]
        else .error ⟨.hugeInteger (String.ofList digits), ⟨0, digits.length⟩⟩) ∧
    (∀ digits : List Char, (∀ c ∈ digits, isHex c = true) →
      lex (String.ofList ('0' :: 'x' :: digits)) =
        if digits = [] then .error ⟨.emptyInteger "0x", ⟨0, 2⟩⟩
        else if positional 16 digits ≤ 2 ^ 63 - 1 then
          .ok [⟨.integer (positional 16 digits), ⟨0, digits.length + 2⟩, 0⟩]
        else .error ⟨.hugeInteger ("0x" ++ String.ofList digits), ⟨0, digits.length + 2⟩⟩) ∧
    (∀ d < 16, value (Nat.digitChar d) = d ∧ value (Nat.digitChar d).toUpper = d) ∧
    ∀ source tokens, lex source = .ok tokens → ∀ t ∈ tokens, ∀ n, t.kind = .integer n →
      Denotes (t.span.slice source.toList) n ∧ n ≤ 2 ^ 63 - 1 := by
  refine ⟨fun digits hn h => ?_, fun digits h => ?_, value_digitChar, fun source tokens h t ht n hk =>
    denotes_of_lex h ht hk⟩
  · obtain ⟨c, cs, rfl⟩ := List.exists_cons_of_ne_nil hn
    rw [lex_of_literal (scan_decimal h), integer?_eq_ite 10 "" hn]
    split
    · rfl
    · rw [String.empty_append]
      rfl
  · rw [lex_of_literal (scan_hexadecimal h)]
    split
    · rename_i hnil
      subst hnil
      rfl
    · rename_i hn
      rw [integer?_eq_ite 16 "0x" hn]
      split <;> rfl

theorem lex_integers_bound :
    lex "0009223372036854775807" = .ok [⟨.integer (2 ^ 63 - 1), ⟨0, 22⟩, 0⟩] ∧
      lex "9223372036854775808" = .error ⟨.hugeInteger "9223372036854775808", ⟨0, 19⟩⟩ ∧
      lex "0x00007fffFFFFFFFFffff" = .ok [⟨.integer (2 ^ 63 - 1), ⟨0, 22⟩, 0⟩] ∧
      lex "0x8000000000000000" = .error ⟨.hugeInteger "0x8000000000000000", ⟨0, 18⟩⟩ ∧
      Denotes "0x1F".toList 31 := by
  have hdecimal : ∀ digits : List Char, digits.all Char.isDigit = true →
      ∀ c ∈ digits, c.isDigit = true := fun digits => List.all_eq_true.1
  have hhex : ∀ digits : List Char, digits.all isHex = true →
      ∀ c ∈ digits, isHex c = true := fun digits => List.all_eq_true.1
  refine ⟨?_, ?_, ?_, ?_, ?_⟩
  · exact lex_integers.1 "0009223372036854775807".toList (by decide) (hdecimal _ (by decide))
  · exact lex_integers.1 "9223372036854775808".toList (by decide) (hdecimal _ (by decide))
  · exact lex_integers.2.1 "00007fffFFFFFFFFffff".toList (hhex _ (by decide))
  · exact lex_integers.2.1 "8000000000000000".toList (hhex _ (by decide))
  · have h : lex "a = 0x1F" = .ok
        [⟨.word "a", ⟨0, 1⟩, 0⟩, ⟨.symbol .equals, ⟨2, 1⟩, 2⟩, ⟨.integer 31, ⟨4, 4⟩, 4⟩] := by decide
    exact (lex_integers.2.2.2 _ _ h ⟨.integer 31, ⟨4, 4⟩, 4⟩ (by decide) 31 rfl).1

end ElmTypes
