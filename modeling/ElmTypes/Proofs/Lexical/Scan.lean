import ElmTypes.Proofs.Lexical.Quoted

namespace ElmTypes

namespace Lexeme

inductive Form where
  | name | number | string | character | blockComment | lineComment | shader
  | single (kind : TokenKind) | operator | blank | unknown

namespace Form

def choose (c : Char) (cs : List Char) : Form :=
  if Name.canBegin c then .name
  else if c.isDigit then .number
  else if c = '"' then .string
  else if c = '\'' then .character
  else if c = '{' && cs.head? = some '-' then .blockComment
  else if c = '-' && cs.head? = some '-' then .lineComment
  else if c = '[' && Shader.mark.isPrefixOf cs then .shader
  else match delimiter? c with
    | some kind => .single kind
    | none => if isOperator c then .operator else if isBlank c then .blank else .unknown

def read (c : Char) (cs : List Char) : Form → Except LexicalError Lexeme
  | name => .ok (Name.read c cs)
  | number => Number.read c cs
  | string => Quoted.readString cs
  | character => Quoted.readChar cs
  | blockComment => Comment.readBlock cs
  | lineComment => .ok (.skipped (Comment.line cs).length)
  | shader => Shader.read cs
  | single kind => .ok (.single kind)
  | operator => .ok (readOperator c cs)
  | blank => .ok (.skipped 0)
  | unknown => .error ⟨.unexpectedCharacter c, ⟨0, 1⟩⟩

def Suits (c : Char) (cs : List Char) : Form → Prop
  | name => Name.canBegin c = true
  | blockComment => c = '{' ∧ cs.head? = some '-'
  | lineComment => c = '-' ∧ cs.head? = some '-'
  | shader => c = '[' ∧ Shader.mark.isPrefixOf cs = true
  | single kind => delimiter? c = some kind
  | blank => isBlank c = true
  | _ => True

theorem suits_choose (c : Char) (cs : List Char) : (choose c cs).Suits c cs := by
  unfold choose
  repeat (split; first | trivial | simp_all [Suits])
  trivial

end Form

theorem scan_eq_read_choose (c : Char) (cs : List Char) :
    scan c cs = (Form.choose c cs).read c cs := by
  simp only [scan, Form.choose, apply_ite (Form.read c cs)]
  repeat (refine if_congr Iff.rfl rfl ?_)
  cases delimiter? c with
  | some kind => rfl
  | none =>
      simp only [apply_ite (Form.read c cs)]
      rfl

theorem scan_blockComment (cs : List Char) :
    scan '{' ('-' :: cs) = Comment.readBlock ('-' :: cs) := by
  have hb : Name.canBegin '{' = false := by decide
  simp [scan, hb]

theorem scan_lineComment (cs : List Char) :
    scan '-' ('-' :: cs) = .ok (.skipped (Comment.line ('-' :: cs)).length) := by
  have hb : Name.canBegin '-' = false := by decide
  simp [scan, hb]

theorem scan_shader {cs : List Char} (h : Shader.mark.isPrefixOf cs = true) :
    scan '[' cs = Shader.read cs := by
  have hb : Name.canBegin '[' = false := by decide
  rw [scan, if_neg (by simp [hb]), if_neg (by decide), if_neg (by decide), if_neg (by decide),
    if_neg (by simp), if_neg (by simp), if_pos (by simp [h])]

theorem scan_blank {c : Char} (h : isBlank c = true) (cs : List Char) :
    scan c cs = .ok (.skipped 0) := by
  have hc : c = ' ' ∨ c = '\t' ∨ c = '\n' ∨ c = '\r' := by
    simpa [isBlank, or_assoc] using h
  have hb : Name.canBegin ' ' = false ∧ Name.canBegin '\t' = false ∧
      Name.canBegin '\n' = false ∧ Name.canBegin '\r' = false := by decide
  rcases hc with rfl | rfl | rfl | rfl <;> simp [scan, hb, delimiter?, isOperator, isBlank]

theorem Comment.readBlock_eq_ok_iff {cs : List Char} {l : Lexeme} :
    readBlock ('-' :: cs) = .ok l ↔ ∃ n, lengthToClose 1 cs = some n ∧ l = .skipped (n + 1) := by
  simp only [readBlock, List.drop_succ_cons, List.drop_zero]
  cases lengthToClose 1 cs with
  | none => simp
  | some n =>
      simp only [Except.ok.injEq, Option.some.injEq, exists_eq_left']
      exact eq_comm

theorem Shader.tail_of_read_eq_ok {cs : List Char} {l : Lexeme} (h : read cs = .ok l) :
    mark.length + 2 ≤ l.tail := by
  simp only [read] at h
  split at h
  · obtain rfl := Except.ok.inj h
    simp only
    omega
  · cases h

section

variable {c : Char} {q x y : List Char} {l : Lexeme}

theorem head?_append_congr (hy : Delimits y)
    (hx : (q ++ x).head? = some '-' → 1 ≤ q.length) :
    (q ++ y).head? = some '-' ↔ (q ++ x).head? = some '-' := by
  cases q with
  | nil =>
      refine iff_of_false ?_ ?_
      · intro h
        exact absurd (hy '-' h) (by decide)
      · intro h
        exact absurd (hx h) (by simp)
  | cons d q => simp

theorem shader_mark_append_congr (hy : Delimits y)
    (hx : Shader.mark.isPrefixOf (q ++ x) = true → Shader.mark.length ≤ q.length) :
    Shader.mark.isPrefixOf (q ++ y) = Shader.mark.isPrefixOf (q ++ x) := by
  by_cases hq : Shader.mark.length ≤ q.length
  · rw [Quoted.isPrefixOf_append_congr hq, Quoted.isPrefixOf_append_congr hq]
  · have hxn : Shader.mark.isPrefixOf (q ++ x) = false := by
      rw [Bool.eq_false_iff]
      exact fun h => hq (hx h)
    have hyn : Shader.mark.isPrefixOf (q ++ y) = false := by
      rw [Bool.eq_false_iff]
      intro h
      obtain ⟨z, hz⟩ := List.isPrefixOf_iff_prefix.1 h
      -- a part of the mark would have to come from the text after a delimiter
      have hd : (q ++ y)[q.length]? = Shader.mark[q.length]? := by
        rw [← hz, List.getElem?_append_left (by omega)]
      rw [List.getElem?_append_right (Nat.le_refl _), Nat.sub_self, ← List.head?_eq_getElem?,
        List.getElem?_eq_getElem (by omega)] at hd
      have hm : ∀ c ∈ Shader.mark, c ∉ delimiters := by simp [Shader.mark, delimiters]
      exact hm _ (List.getElem_mem _) (hy _ hd)
    rw [hxn, hyn]

theorem choose_append_congr (hy : Delimits y) (h : scan c (q ++ x) = .ok l)
    (hl : l.tail ≤ q.length) : Form.choose c (q ++ y) = Form.choose c (q ++ x) := by
  have hblock : c = '{' → ((q ++ y).head? = some '-' ↔ (q ++ x).head? = some '-') := by
    rintro rfl
    refine head?_append_congr hy fun hx => ?_
    obtain ⟨cs, hcs⟩ := List.head?_eq_some_iff.1 hx
    rw [hcs, scan_blockComment] at h
    obtain ⟨n, -, rfl⟩ := Comment.readBlock_eq_ok_iff.1 h
    exact Nat.le_trans (Nat.le_add_left 1 n) hl
  have hline : c = '-' → ((q ++ y).head? = some '-' ↔ (q ++ x).head? = some '-') := by
    rintro rfl
    refine head?_append_congr hy fun hx => ?_
    obtain ⟨cs, hcs⟩ := List.head?_eq_some_iff.1 hx
    rw [hcs, scan_lineComment] at h
    obtain rfl := Except.ok.inj h
    exact Nat.le_trans (by simp [Comment.line, skipped]) hl
  have hshader : c = '[' → Shader.mark.isPrefixOf (q ++ y) = Shader.mark.isPrefixOf (q ++ x) := by
    rintro rfl
    refine shader_mark_append_congr hy fun hx => ?_
    rw [scan_shader hx] at h
    have := Shader.tail_of_read_eq_ok h
    omega
  have h5 : (decide (c = '{') && decide ((q ++ y).head? = some '-')) =
      (decide (c = '{') && decide ((q ++ x).head? = some '-')) := by
    rw [Bool.eq_iff_iff]
    simpa using hblock
  have h6 : (decide (c = '-') && decide ((q ++ y).head? = some '-')) =
      (decide (c = '-') && decide ((q ++ x).head? = some '-')) := by
    rw [Bool.eq_iff_iff]
    simpa using hline
  have h7 : (decide (c = '[') && Shader.mark.isPrefixOf (q ++ y)) =
      (decide (c = '[') && Shader.mark.isPrefixOf (q ++ x)) := by
    by_cases hc : c = '['
    · rw [hshader hc]
    · simp [hc]
  simp only [Form.choose, h5, h6, h7]

theorem readOperator_append_congr (hy : Delimits y)
    (h : (readOperator c (q ++ x)).tail ≤ q.length) :
    readOperator c (q ++ y) = readOperator c (q ++ x) := by
  have ho : ∀ c ∈ delimiters, isOperator c = false := forall_mem_delimiters.2 (by decide)
  have hq : (q ++ y).takeWhile isOperator = (q ++ x).takeWhile isOperator :=
    takeWhile_append_congr (hy.head ho) h
  simp only [readOperator, hq]

theorem scan_append_congr (hy : Delimits y) (h : scan c (q ++ x) = .ok l) (hk : l.kind ≠ none)
    (hl : l.tail ≤ q.length) : scan c (q ++ y) = .ok l := by
  have hf := choose_append_congr hy h hl
  rw [scan_eq_read_choose] at h ⊢
  rw [hf]
  cases hform : Form.choose c (q ++ x) with
  | name =>
      rw [hform] at h
      obtain rfl := Except.ok.inj h
      exact congrArg Except.ok (Name.read_append_congr hy hl)
  | number =>
      rw [hform] at h
      exact Number.read_append_congr hy h hl
  | string =>
      rw [hform] at h
      exact Quoted.readString_append_congr hy h hl
  | character =>
      rw [hform] at h
      exact Quoted.readChar_append_congr h hl
  | blockComment =>
      rw [hform] at h
      exact Comment.readBlock_append_congr h hl
  | lineComment =>
      rw [hform] at h
      obtain rfl := Except.ok.inj h
      exact absurd rfl hk
  | shader =>
      rw [hform] at h
      exact Shader.read_append_congr h hl
  | single kind =>
      rw [hform] at h
      exact h
  | operator =>
      rw [hform] at h
      obtain rfl := Except.ok.inj h
      exact congrArg Except.ok (readOperator_append_congr hy hl)
  | blank =>
      rw [hform] at h
      exact h
  | unknown =>
      rw [hform] at h
      cases h

end

end Lexeme

def TokenKind.IsNumber : TokenKind → Prop
  | .integer _ | .float _ => True
  | _ => False

namespace Lexeme

theorem Name.tail_read_le (c : Char) (cs : List Char) : (read c cs).tail ≤ cs.length := by
  have h := rest_prefix (Unicode.isUppercase c) cs
  exact h.length_le

namespace Number

theorem floatTail_isPrefix (cs : List Char) : floatTail cs <+: cs := by
  fun_induction floatTail cs with
  | case1 cs ih => simpa using ih
  | case2 cs ih => simpa using ih
  | case3 c cs _ _ _ ih => simpa using ih
  | case4 => simp
  | case5 => simp

def textAfter (c : Char) (cs : List Char) : List Char :=
  if c = '0' ∧ cs.head? = some 'x' then 'x' :: (cs.drop 1).takeWhile Digits.isHex
  else if isFraction (cs.dropWhile Char.isDigit) = true then
    cs.takeWhile Char.isDigit ++ floatTail (cs.dropWhile Char.isDigit)
  else cs.takeWhile Char.isDigit

theorem textAfter_isPrefix (c : Char) (cs : List Char) : textAfter c cs <+: cs := by
  unfold textAfter
  split
  · rename_i hx
    obtain ⟨ds, rfl⟩ := List.head?_eq_some_iff.1 hx.2
    exact List.cons_prefix_cons.2 ⟨rfl, List.takeWhile_prefix _⟩
  · split
    · have h := (List.prefix_append_right_inj (cs.takeWhile Char.isDigit)).2
        (floatTail_isPrefix (cs.dropWhile Char.isDigit))
      rwa [List.takeWhile_append_dropWhile] at h
    · exact List.takeWhile_prefix _

theorem isNumber_of_integer? {base : Nat} {marker : String} {digits : List Char} {k : TokenKind}
    (h : integer? base marker digits = .ok k) : k.IsNumber := by
  unfold integer? at h
  split at h
  · cases h
  · split at h <;> cases h
    trivial

theorem isNumber_of_float? {text : List Char} {k : TokenKind} (h : float? text = .ok k) :
    k.IsNumber := by
  unfold float? at h
  split at h <;> cases h
  trivial

theorem read_eq_literal (c : Char) (cs : List Char) :
    ∃ r, read c cs = literal (textAfter c cs) r ∧ ∀ k, r = .ok k → k.IsNumber := by
  unfold textAfter
  split
  · rename_i hx
    obtain ⟨rfl, hd⟩ := hx
    obtain ⟨ds, rfl⟩ := List.head?_eq_some_iff.1 hd
    exact ⟨_, read_hexadecimal ds, fun _ => isNumber_of_integer?⟩
  · rename_i hx
    split
    · rename_i hf
      exact ⟨_, read_float hx hf, fun _ => isNumber_of_float?⟩
    · rename_i hf
      exact ⟨_, read_decimal hx (Bool.eq_false_iff.2 hf), fun _ => isNumber_of_integer?⟩

end Number

theorem Quoted.drop_opening (cs : List Char) :
    (opening cs).mark.length + (cs.drop ((opening cs).mark.length - 1)).length = cs.length + 1 := by
  unfold opening
  split
  · rename_i h
    have := length_le_of_isPrefixOf h
    simp only [Quote.mark, List.length_cons, List.length_nil, List.length_drop] at this ⊢
    omega
  · simp [Quote.mark, Nat.add_comm]

theorem Shader.length_drop_mark {cs : List Char} (h : mark.isPrefixOf cs = true) :
    mark.length + (cs.drop mark.length).length = cs.length := by
  have := Quoted.length_le_of_isPrefixOf h
  rw [List.length_drop]
  omega

theorem tail_le_of_scan_eq_ok {c : Char} {cs : List Char} {l : Lexeme} (h : scan c cs = .ok l) :
    l.tail ≤ cs.length := by
  have hs := Form.suits_choose c cs
  rw [scan_eq_read_choose] at h
  cases hform : Form.choose c cs with
  | name =>
      rw [hform] at h
      obtain rfl := Except.ok.inj h
      exact Name.tail_read_le c cs
  | number =>
      rw [hform] at h
      obtain ⟨r, hr, -⟩ := Number.read_eq_literal c cs
      rw [Form.read, hr] at h
      rw [Number.tail_eq_of_literal h]
      exact (Number.textAfter_isPrefix c cs).length_le
  | string =>
      rw [hform] at h
      obtain ⟨text, total, rfl, hb⟩ := Quoted.readString_eq_ok_iff.1 h
      have := Quoted.bounds_of_body_eq_ok hb
      have := Quoted.drop_opening cs
      simp only
      omega
  | character =>
      rw [hform] at h
      obtain ⟨d, total, rfl, hb⟩ := Quoted.readChar_eq_ok_iff.1 h
      have := Quoted.bounds_of_body_eq_ok hb
      simp only
      omega
  | blockComment =>
      rw [hform] at h hs
      obtain ⟨ds, rfl⟩ := List.head?_eq_some_iff.1 hs.2
      obtain ⟨n, hn, rfl⟩ := Comment.readBlock_eq_ok_iff.1 h
      have := Comment.lengthToClose_le hn
      simpa [skipped] using this
  | lineComment =>
      rw [hform] at h
      obtain rfl := Except.ok.inj h
      exact (List.takeWhile_prefix _).length_le
  | shader =>
      rw [hform] at h hs
      have hm := Shader.length_drop_mark hs.2
      simp only [Form.read, Shader.read] at h
      split at h
      · rename_i text ht
        obtain rfl := Except.ok.inj h
        obtain ⟨rest, hrest⟩ := Shader.eq_append_of_text? ht
        rw [hrest] at hm
        simp only [List.length_append, List.length_cons] at hm ⊢
        omega
      · cases h
  | single kind =>
      rw [hform] at h
      obtain rfl := Except.ok.inj h
      exact Nat.zero_le _
  | operator =>
      rw [hform] at h
      obtain rfl := Except.ok.inj h
      exact (List.takeWhile_prefix _).length_le
  | blank =>
      rw [hform] at h
      obtain rfl := Except.ok.inj h
      exact Nat.zero_le _
  | unknown =>
      rw [hform] at h
      cases h

end Lexeme

end ElmTypes
