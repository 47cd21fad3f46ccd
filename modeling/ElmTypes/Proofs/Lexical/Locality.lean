import ElmTypes.Lexeme.Scan

namespace ElmTypes.Lexeme

def delimiters : List Char := [' ', '\t', '\n', '\r', ')', ',']

def Delimits (y : List Char) : Prop := ∀ c ∈ y.head?, c ∈ delimiters

theorem forall_mem_delimiters {p : Char → Prop} :
    (∀ c ∈ delimiters, p c) ↔ p ' ' ∧ p '\t' ∧ p '\n' ∧ p '\r' ∧ p ')' ∧ p ',' := by
  simp [delimiters]

theorem delimits_nil : Delimits [] := by simp [Delimits]

theorem delimits_cons {c : Char} (h : c ∈ delimiters) (y : List Char) : Delimits (c :: y) := by
  simpa [Delimits] using h

theorem Delimits.head {p : Char → Bool} {y : List Char} (hy : Delimits y)
    (hp : ∀ c ∈ delimiters, p c = false) : ∀ c ∈ y.head?, p c = false :=
  fun c hc => hp c (hy c hc)

theorem takeWhile_append_congr {p : Char → Bool} {q x y : List Char}
    (hy : ∀ c ∈ y.head?, p c = false) (h : ((q ++ x).takeWhile p).length ≤ q.length) :
    (q ++ y).takeWhile p = (q ++ x).takeWhile p := by
  induction q with
  | nil =>
      have hx : x.takeWhile p = [] := List.eq_nil_of_length_eq_zero (by simpa using h)
      cases y with
      | nil => simp [hx]
      | cons c y => simp [hx, hy c rfl]
  | cons c q ih =>
      cases hc : p c with
      | false => simp [hc]
      | true =>
          have hq := ih (by simpa [hc] using h)
          simp [hc, hq]

namespace Name

theorem not_canContinue_of_mem_delimiters : ∀ c ∈ delimiters, canContinue c = false :=
  forall_mem_delimiters.2 (by decide)

theorem not_isAlphabetic_of_mem_delimiters :
    ∀ c ∈ delimiters, Unicode.isAlphabetic c = false :=
  forall_mem_delimiters.2 (by decide)

theorem rest_cons_of_ne {c : Char} (h : c ≠ '.') (capital : Bool) (cs : List Char) :
    rest capital (c :: cs) = if canContinue c then c :: rest capital cs else [] :=
  rest.eq_2 _ _ _ fun _ _ hc _ => h hc

theorem rest_dot (capital : Bool) : rest capital ['.'] = [] := by
  rw [rest.eq_2 _ _ _ (by simp), if_neg (by decide)]

theorem rest_eq_nil_of_delimits (capital : Bool) {y : List Char} (hy : Delimits y) :
    rest capital y = [] := by
  cases y with
  | nil => rfl
  | cons c y =>
      have hc := hy c rfl
      rw [rest_cons_of_ne (fun h => by revert hc; rw [h]; decide)]
      simp [not_canContinue_of_mem_delimiters c hc]

theorem rest_dot_eq_nil_of_delimits (capital : Bool) {y : List Char} (hy : Delimits y) :
    rest capital ('.' :: y) = [] := by
  cases y with
  | nil => exact rest_dot capital
  | cons c y => simp [rest, not_isAlphabetic_of_mem_delimiters c (hy c rfl)]

theorem rest_append_congr {capital : Bool} {q x y : List Char} (hy : Delimits y)
    (h : (rest capital (q ++ x)).length ≤ q.length) :
    rest capital (q ++ y) = rest capital (q ++ x) := by
  fun_induction rest capital q with
  | case1 capital c q hc ih =>
      have hq := ih (by simpa [rest, hc] using h)
      simp [rest, hc, hq]
  | case2 capital c q hc => simp [rest, hc]
  | case3 capital c q _ hc ih =>
      have hd : c ≠ '.' := fun hd => by simp [hd, show canContinue '.' = false by decide] at hc
      have hq := ih (by simpa [rest_cons_of_ne hd, hc] using h)
      simp [rest_cons_of_ne hd, hc, hq]
  | case4 capital c q hp hc =>
      by_cases hd : c = '.'
      · obtain rfl : q = [] := by
          cases q with
          | nil => rfl
          | cons d q => exact absurd hd fun hd => hp d q hd rfl
        have hx : rest capital ('.' :: x) = [] := by
          cases x with
          | nil => exact rest_dot capital
          | cons d x =>
              -- a dot is taken together with the letter after it
              cases hl : capital && Unicode.isAlphabetic d <;> simp [hd, rest, hl] at h ⊢
        simp only [hd, List.cons_append, List.nil_append, hx, rest_dot_eq_nil_of_delimits capital hy]
      · simp [rest_cons_of_ne hd, hc]
  | case5 capital =>
      have hx : rest capital x = [] := List.eq_nil_of_length_eq_zero (by simpa using h)
      simp only [List.nil_append, hx, rest_eq_nil_of_delimits capital hy]

theorem read_append_congr {c : Char} {q x y : List Char} (hy : Delimits y)
    (h : (read c (q ++ x)).tail ≤ q.length) : read c (q ++ y) = read c (q ++ x) := by
  simp only [read, rest_append_congr hy h]

end Name

namespace Comment

theorem two_mul_le_of_lengthToClose {depth n : Nat} {cs : List Char}
    (h : lengthToClose depth cs = some n) : 2 * depth ≤ n := by
  fun_induction lengthToClose depth cs generalizing n with
  | case1 => omega
  | case2 depth cs ih =>
      obtain ⟨m, hm, rfl⟩ := Option.map_eq_some_iff.1 h
      have := ih hm
      omega
  | case3 depth cs ih =>
      obtain ⟨m, hm, rfl⟩ := Option.map_eq_some_iff.1 h
      have := ih hm
      omega
  | case4 depth c cs _ _ ih =>
      obtain ⟨m, hm, rfl⟩ := Option.map_eq_some_iff.1 h
      have := ih hm
      omega
  | case5 => simp at h

theorem lengthToClose_append_congr {depth n : Nat} {q x y : List Char}
    (h : lengthToClose depth (q ++ x) = some n) (hn : n ≤ q.length) :
    lengthToClose depth (q ++ y) = some n := by
  fun_induction lengthToClose depth q generalizing n with
  | case1 => simpa [lengthToClose] using h
  | case2 depth q ih =>
      simp only [List.cons_append, lengthToClose, Option.map_eq_some_iff] at h ⊢
      obtain ⟨m, hm, rfl⟩ := h
      exact ⟨m, ih hm (by simpa using hn), rfl⟩
  | case3 depth q ih =>
      simp only [List.cons_append, lengthToClose, Option.map_eq_some_iff] at h ⊢
      obtain ⟨m, hm, rfl⟩ := h
      exact ⟨m, ih hm (by simpa using hn), rfl⟩
  | case4 depth c q ho hc ih =>
      cases q with
      | nil =>
          have := two_mul_le_of_lengthToClose h
          simp only [List.length_singleton] at hn
          omega
      | cons d q =>
          have hx (z : List Char) : lengthToClose (depth + 1) (c :: d :: (q ++ z)) =
              (lengthToClose (depth + 1) (d :: (q ++ z))).map (· + 1) := by
            refine lengthToClose.eq_4 _ _ _ ?_ ?_
            · intro cs h1 h2
              exact ho q h1 (by simp_all)
            · intro cs h1 h2
              exact hc q h1 (by simp_all)
          simp only [List.cons_append, hx, Option.map_eq_some_iff] at h ⊢
          obtain ⟨m, hm, rfl⟩ := h
          exact ⟨m, ih hm (by simpa using hn), rfl⟩
  | case5 depth =>
      have := two_mul_le_of_lengthToClose h
      simp only [List.length_nil] at hn
      omega

theorem readBlock_append_congr {q x y : List Char} {l : Lexeme}
    (h : readBlock (q ++ x) = .ok l) (hl : l.tail ≤ q.length) : readBlock (q ++ y) = .ok l := by
  cases q with
  | nil =>
      simp only [readBlock] at h
      split at h
      · obtain rfl := Except.ok.inj h
        simp [skipped] at hl
      · simp at h
  | cons c q =>
      simp only [readBlock, List.cons_append, List.drop_succ_cons, List.drop_zero] at h ⊢
      split at h
      · rename_i n hn
        obtain rfl := Except.ok.inj h
        rw [lengthToClose_append_congr hn (by simpa [skipped] using hl)]
      · simp at h

end Comment

namespace Shader

theorem text?_append_congr {q x y text : List Char} (h : text? (q ++ x) = some text)
    (hl : text.length + 2 ≤ q.length) : text? (q ++ y) = some text := by
  fun_induction text? q generalizing text with
  | case1 q => simpa [text?] using h
  | case2 c q hp ih =>
      cases q with
      | nil => simp at hl
      | cons d q =>
          have hx (z : List Char) :
              text? (c :: d :: (q ++ z)) = (text? (d :: (q ++ z))).map (c :: ·) := by
            refine text?.eq_2 _ _ ?_
            intro cs h1 h2
            exact hp q h1 (by simp_all)
          simp only [List.cons_append, hx, Option.map_eq_some_iff] at h ⊢
          obtain ⟨t, ht, rfl⟩ := h
          exact ⟨t, ih ht (by simpa using hl), rfl⟩
  | case3 => simp at hl

theorem read_append_congr {q x y : List Char} {l : Lexeme} (h : read (q ++ x) = .ok l)
    (hl : l.tail ≤ q.length) : read (q ++ y) = .ok l := by
  simp only [read] at h ⊢
  split at h
  · rename_i text ht
    obtain rfl := Except.ok.inj h
    have hq : mark.length ≤ q.length := by
      simp only at hl
      omega
    rw [List.drop_append_of_le_length hq] at ht ⊢
    rw [text?_append_congr ht (by simp only [List.length_drop]; simp only at hl; omega)]
  · simp at h

end Shader

namespace Number

theorem not_isDigit_of_mem_delimiters : ∀ c ∈ delimiters, c.isDigit = false :=
  forall_mem_delimiters.2 (by decide)

theorem not_isHex_of_mem_delimiters : ∀ c ∈ delimiters, Digits.isHex c = false :=
  forall_mem_delimiters.2 (by decide)

theorem ne_of_mem_delimiters : ∀ c ∈ delimiters, c ≠ '.' ∧ c ≠ 'e' ∧ c ≠ 'x' ∧ c ≠ '-' ∧ c ≠ '+' :=
  forall_mem_delimiters.2 (by decide)

def isFloatCharacter (c : Char) : Bool := c.isDigit || c == '.' || c == 'e'

theorem not_isFloatCharacter_of_mem_delimiters :
    ∀ c ∈ delimiters, isFloatCharacter c = false :=
  forall_mem_delimiters.2 (by decide)

theorem floatTail_cons {c : Char} {cs : List Char}
    (h : c = 'e' → ∀ d ∈ cs.head?, d ≠ '-' ∧ d ≠ '+') :
    floatTail (c :: cs) = if isFloatCharacter c then c :: floatTail cs else [] := by
  refine floatTail.eq_3 c cs ?_ ?_
  · rintro ds hc rfl
    exact (h hc '-' rfl).1 rfl
  · rintro ds hc rfl
    exact (h hc '+' rfl).2 rfl

theorem floatTail_eq_nil_of_delimits {y : List Char} (hy : Delimits y) : floatTail y = [] := by
  cases y with
  | nil => rfl
  | cons c y =>
      have hc := hy c rfl
      rw [floatTail_cons (fun he => absurd he (ne_of_mem_delimiters c hc).2.1),
        not_isFloatCharacter_of_mem_delimiters c hc]
      rfl

theorem floatTail_append_congr {q x y : List Char} (hy : Delimits y)
    (h : (floatTail (q ++ x)).length ≤ q.length) :
    floatTail (q ++ y) = floatTail (q ++ x) := by
  fun_induction floatTail q with
  | case1 q ih =>
      have hq := ih (by simpa [floatTail] using h)
      simp [floatTail, hq]
  | case2 q ih =>
      have hq := ih (by simpa [floatTail] using h)
      simp [floatTail, hq]
  | case3 c q h1 h2 hc ih =>
      cases q with
      | nil =>
          have hys : c = 'e' → ∀ d ∈ y.head?, d ≠ '-' ∧ d ≠ '+' :=
            fun _ d hd => (ne_of_mem_delimiters d (hy d hd)).2.2.2
          -- a sign after an exponent mark is taken together with it
          have hxs : c = 'e' → ∀ d ∈ x.head?, d ≠ '-' ∧ d ≠ '+' := by
            rintro rfl d hd
            obtain ⟨x, rfl⟩ := List.head?_eq_some_iff.1 hd
            constructor <;> rintro rfl <;> simp [floatTail] at h
          have hcx : floatTail (c :: x) = c :: floatTail x := by
            rw [floatTail_cons hxs, isFloatCharacter, if_pos hc]
          have hx : floatTail x = [] := by
            refine List.eq_nil_of_length_eq_zero ?_
            simpa [hcx] using h
          simp only [List.cons_append, List.nil_append, hcx, hx]
          rw [floatTail_cons hys, isFloatCharacter, if_pos hc, floatTail_eq_nil_of_delimits hy]
      | cons d q =>
          have hd : c = 'e' → d ≠ '-' ∧ d ≠ '+' := by
            intro he
            constructor
            · rintro rfl
              exact h1 q he rfl
            · rintro rfl
              exact h2 q he rfl
          have hz (z : List Char) :
              floatTail (c :: d :: (q ++ z)) = c :: floatTail (d :: (q ++ z)) := by
            rw [floatTail_cons (by simpa using hd), isFloatCharacter, if_pos hc]
          have hq := ih (by simpa [hz] using h)
          simp only [List.cons_append, hz] at hq ⊢
          rw [hq]
  | case4 c q _ _ hc =>
      have he : c ≠ 'e' := by
        rintro rfl
        simp at hc
      simp [floatTail_cons fun h => absurd h he, isFloatCharacter, hc]
  | case5 =>
      have hx : floatTail x = [] := List.eq_nil_of_length_eq_zero (by simpa using h)
      simp only [List.nil_append, hx, floatTail_eq_nil_of_delimits hy]

theorem isFraction_iff {cs : List Char} :
    isFraction cs = true ↔
      (∃ c ds, cs = '.' :: c :: ds ∧ c.isDigit = true) ∨ ∃ ds, cs = 'e' :: ds := by
  fun_cases isFraction cs with
  | case1 c ds => simp
  | case2 ds => simp
  | case3 cs h1 h2 =>
      refine iff_of_false (by simp) ?_
      rintro (⟨c, ds, h, -⟩ | ⟨ds, h⟩)
      · exact h1 c ds h
      · exact h2 ds h

theorem length_floatTail_of_isDigit {c : Char} (hc : c.isDigit = true) (cs : List Char) :
    2 ≤ (floatTail ('.' :: c :: cs)).length := by
  have he : c ≠ 'e' := by
    rintro rfl
    simp at hc
  rw [floatTail_cons (by simp), floatTail_cons (fun h => absurd h he)]
  simp [isFloatCharacter, hc]

theorem length_floatTail_exponent (cs : List Char) : 1 ≤ (floatTail ('e' :: cs)).length := by
  by_cases h : ∀ d ∈ cs.head?, d ≠ '-' ∧ d ≠ '+'
  · rw [floatTail_cons fun _ => h]
    simp [isFloatCharacter]
  · cases cs with
    | nil => simp at h
    | cons d cs =>
        have hs : d = '-' ∨ d = '+' := by
          simpa [Classical.or_iff_not_imp_left] using h
        rcases hs with rfl | rfl <;> simp [floatTail]

theorem isFraction_append_congr {q x y : List Char} (hy : Delimits y)
    (h : isFraction (q ++ x) = true → (floatTail (q ++ x)).length ≤ q.length) :
    isFraction (q ++ y) = isFraction (q ++ x) := by
  rw [Bool.eq_iff_iff]
  constructor
  · intro hf
    rcases q with _ | ⟨c, _ | ⟨d, q⟩⟩
    · rcases isFraction_iff.1 hf with ⟨c, ds, rfl, -⟩ | ⟨ds, rfl⟩
      · exact absurd rfl (ne_of_mem_delimiters '.' (hy '.' rfl)).1
      · exact absurd rfl (ne_of_mem_delimiters 'e' (hy 'e' rfl)).2.1
    · rcases isFraction_iff.1 hf with ⟨d, ds, hd, hdigit⟩ | ⟨ds, hd⟩
      · obtain ⟨rfl, rfl⟩ := List.cons.inj hd
        simp [not_isDigit_of_mem_delimiters d (hy d rfl)] at hdigit
      · obtain ⟨rfl, -⟩ := List.cons.inj hd
        exact isFraction_iff.2 (.inr ⟨x, rfl⟩)
    · rcases isFraction_iff.1 hf with ⟨e, ds, hd, hdigit⟩ | ⟨ds, hd⟩
      · simp only [List.cons_append, List.cons.injEq] at hd
        obtain ⟨rfl, rfl, -⟩ := hd
        exact isFraction_iff.2 (.inl ⟨d, q ++ x, rfl, hdigit⟩)
      · obtain ⟨rfl, -⟩ := List.cons.inj hd
        exact isFraction_iff.2 (.inr ⟨_, rfl⟩)
  · intro hf
    have hl := h hf
    -- what makes a fraction is part of the float
    rcases isFraction_iff.1 hf with ⟨c, ds, hq, hdigit⟩ | ⟨ds, hq⟩
    · have h2 := length_floatTail_of_isDigit hdigit ds
      rw [← hq] at h2
      rcases q with _ | ⟨a, _ | ⟨b, q⟩⟩
      · simp at hl
        simp [hl] at h2
      · simp only [List.length_singleton] at hl
        omega
      · simp only [List.cons_append, List.cons.injEq] at hq
        obtain ⟨rfl, rfl, -⟩ := hq
        exact isFraction_iff.2 (.inl ⟨b, q ++ y, rfl, hdigit⟩)
    · have h1 := length_floatTail_exponent ds
      rw [← hq] at h1
      cases q with
      | nil =>
          simp only [List.length_nil] at hl
          omega
      | cons a q =>
          obtain ⟨rfl, -⟩ := List.cons.inj hq
          exact isFraction_iff.2 (.inr ⟨_, rfl⟩)

theorem tail_eq_of_literal {tail : List Char} {r : Except LexicalCause TokenKind} {l : Lexeme}
    (h : literal tail r = .ok l) : l.tail = tail.length := by
  cases r with
  | error e => simp [literal] at h
  | ok k =>
      obtain rfl := Except.ok.inj h
      rfl

theorem dropWhile_append_of_length_le {p : Char → Bool} {q : List Char} (x : List Char)
    (h : ((q ++ x).takeWhile p).length ≤ q.length) :
    (q ++ x).dropWhile p = q.drop ((q ++ x).takeWhile p).length ++ x := by
  have hd : ((q ++ x).takeWhile p ++ (q ++ x).dropWhile p).drop ((q ++ x).takeWhile p).length =
      (q ++ x).dropWhile p := List.drop_left
  rw [← hd, List.takeWhile_append_dropWhile, List.drop_append_of_le_length h]

theorem read_hexadecimal (cs : List Char) :
    read '0' ('x' :: cs) =
      literal ('x' :: cs.takeWhile Digits.isHex)
        (integer? 16 "0x" (cs.takeWhile Digits.isHex)) := rfl

section

variable {c : Char} {cs : List Char}

theorem read_float (hx : ¬ (c = '0' ∧ cs.head? = some 'x'))
    (hf : isFraction (cs.dropWhile Char.isDigit) = true) :
    read c cs =
      literal (cs.takeWhile Char.isDigit ++ floatTail (cs.dropWhile Char.isDigit))
        (float? (c :: (cs.takeWhile Char.isDigit ++ floatTail (cs.dropWhile Char.isDigit)))) := by
  simp only [read, ← Bool.decide_and, decide_eq_true_eq, hx, hf, if_false, if_true]

theorem read_decimal (hx : ¬ (c = '0' ∧ cs.head? = some 'x'))
    (hf : isFraction (cs.dropWhile Char.isDigit) = false) :
    read c cs =
      literal (cs.takeWhile Char.isDigit) (integer? 10 "" (c :: cs.takeWhile Char.isDigit)) := by
  simp only [read, ← Bool.decide_and, decide_eq_true_eq, hx, hf, if_false, Bool.false_eq_true]

end

theorem read_append_congr {c : Char} {q x y : List Char} {l : Lexeme} (hy : Delimits y)
    (h : read c (q ++ x) = .ok l) (hl : l.tail ≤ q.length) : read c (q ++ y) = .ok l := by
  by_cases hx : c = '0' ∧ (q ++ x).head? = some 'x'
  · obtain ⟨rfl, hd⟩ := hx
    obtain ⟨cs, hcs⟩ := List.head?_eq_some_iff.1 hd
    rw [hcs, read_hexadecimal] at h
    have ht := tail_eq_of_literal h
    cases q with
    | nil =>
        rw [ht] at hl
        simp at hl
    | cons d q =>
        obtain ⟨rfl, rfl⟩ := List.cons.inj hcs
        have hq : (q ++ y).takeWhile Digits.isHex = (q ++ x).takeWhile Digits.isHex := by
          refine takeWhile_append_congr (hy.head not_isHex_of_mem_delimiters) ?_
          simpa [ht] using hl
        rw [List.cons_append, read_hexadecimal, hq]
        exact h
  · have hxy : ¬ (c = '0' ∧ (q ++ y).head? = some 'x') := by
      rintro ⟨h0, hd⟩
      cases q with
      | nil => exact (ne_of_mem_delimiters 'x' (hy 'x' hd)).2.2.1 rfl
      | cons d q => exact hx ⟨h0, hd⟩
    have hle : ((q ++ x).takeWhile Char.isDigit).length ≤ q.length := by
      cases hf : isFraction ((q ++ x).dropWhile Char.isDigit) with
      | true =>
          rw [read_float hx hf] at h
          have ht := tail_eq_of_literal h
          rw [List.length_append] at ht
          omega
      | false =>
          rw [read_decimal hx hf] at h
          have ht := tail_eq_of_literal h
          omega
    have hd := takeWhile_append_congr (hy.head not_isDigit_of_mem_delimiters) hle
    have hrx := dropWhile_append_of_length_le x hle
    have hry := dropWhile_append_of_length_le y (hd ▸ hle)
    rw [hd] at hry
    cases hf : isFraction ((q ++ x).dropWhile Char.isDigit) with
    | true =>
        rw [read_float hx hf] at h
        have ht := tail_eq_of_literal h
        have hfl : (floatTail (q.drop ((q ++ x).takeWhile Char.isDigit).length ++ x)).length ≤
            (q.drop ((q ++ x).takeWhile Char.isDigit).length).length := by
          rw [List.length_append, hrx] at ht
          rw [List.length_drop]
          omega
        have hfy : isFraction ((q ++ y).dropWhile Char.isDigit) = true := by
          rw [hry, isFraction_append_congr hy fun _ => hfl, ← hrx, hf]
        rw [read_float hxy hfy, hd, hry, floatTail_append_congr hy hfl, ← hrx]
        exact h
    | false =>
        rw [read_decimal hx hf] at h
        have hfy : isFraction ((q ++ y).dropWhile Char.isDigit) = false := by
          rw [hrx] at hf
          rw [hry, isFraction_append_congr (x := x) hy fun ht => absurd (hf.symm.trans ht) (by simp), hf]
        rw [read_decimal hxy hfy, hd]
        exact h

end Number

end ElmTypes.Lexeme
