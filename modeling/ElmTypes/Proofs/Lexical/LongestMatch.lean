import ElmTypes.Proofs.Lexical.Spelling

namespace ElmTypes

open Lexeme

structure IsLongestPrefix (p : List Char → Prop) (text source : List Char) : Prop where
  isPrefix : text <+: source
  holds : p text
  longest : ∀ text', text' <+: source → p text' → text'.length ≤ text.length

namespace Lexeme.Name

inductive IsSegment (begins : Char → Bool) : List Char → Prop where
  | mk {c : Char} {cs : List Char} (hc : begins c = true) (hcs : ∀ d ∈ cs, canContinue d = true) :
      IsSegment begins (c :: cs)

/-- Segments with dots between them, each but the last capitalised and each but the first beginning
with a letter. -/
inductive IsDotted : (begins : Char → Bool) → List Char → Prop where
  | last {begins : Char → Bool} {segment : List Char} (h : IsSegment begins segment) :
      IsDotted begins segment
  | dot {begins : Char → Bool} {segment rest : List Char}
      (h : IsSegment (fun c => begins c && Unicode.isUppercase c) segment)
      (hr : IsDotted Unicode.isAlphabetic rest) : IsDotted begins (segment ++ '.' :: rest)

variable {begins : Char → Bool} {c d : Char} {cs text : List Char} {capital : Bool}

theorem IsDotted.insert (h : IsDotted begins (c :: cs)) (hd : canContinue d = true) :
    IsDotted begins (c :: d :: cs) := by
  generalize hname : c :: cs = name at h
  cases h with
  | last h =>
      cases h with
      | mk hc hcs =>
          obtain ⟨rfl, rfl⟩ := List.cons.inj hname
          exact .last (.mk hc (List.forall_mem_cons.2 ⟨hd, hcs⟩))
  | dot h hr =>
      cases h with
      | mk hc hcs =>
          obtain ⟨rfl, rfl⟩ := List.cons.inj hname
          exact .dot (.mk hc (List.forall_mem_cons.2 ⟨hd, hcs⟩)) hr

theorem IsDotted.exists_cons (h : IsDotted begins text) :
    ∃ c cs, text = c :: cs ∧ begins c = true := by
  cases h with
  | last h =>
      cases h with
      | mk hc _ => exact ⟨_, _, rfl, hc⟩
  | dot h _ =>
      cases h with
      | mk hc _ => exact ⟨_, _, rfl, (Bool.and_eq_true_iff.1 hc).1⟩

theorem IsDotted.tail_cases (h : IsDotted begins (c :: text)) :
    text = [] ∨ (∃ d ds, text = d :: ds ∧ canContinue d = true ∧ IsDotted begins (c :: ds)) ∨
      Unicode.isUppercase c = true ∧ ∃ d ds, text = '.' :: d :: ds ∧
        Unicode.isAlphabetic d = true ∧ IsDotted Unicode.isAlphabetic (d :: ds) := by
  generalize hname : c :: text = name at h
  cases h with
  | last h =>
      cases h with
      | @mk _ cs hc hcs =>
          obtain ⟨rfl, rfl⟩ := List.cons.inj hname
          cases text with
          | nil => exact .inl rfl
          | cons d ds =>
              obtain ⟨hd, hds⟩ := List.forall_mem_cons.1 hcs
              exact .inr (.inl ⟨d, ds, rfl, hd, .last (.mk hc hds)⟩)
  | dot h hr =>
      cases h with
      | @mk _ cs hc hcs =>
          obtain ⟨rfl, rfl⟩ := List.cons.inj hname
          cases cs with
          | nil =>
              obtain ⟨d, ds, rfl, hd⟩ := hr.exists_cons
              exact .inr (.inr ⟨(Bool.and_eq_true_iff.1 hc).2, d, ds, rfl, hd, hr⟩)
          | cons d ds =>
              obtain ⟨hd, hds⟩ := List.forall_mem_cons.1 hcs
              exact .inr (.inl ⟨d, _, rfl, hd, .dot (.mk hc hds) hr⟩)

theorem isDotted_rest (hc : begins c = true) (hcapital : Unicode.isUppercase c = capital) :
    IsDotted begins (c :: rest capital cs) := by
  have hsingle : IsDotted begins [c] := .last (.mk hc (List.forall_mem_nil _))
  fun_induction rest capital cs generalizing begins c with
  | case1 capital d cs h ih =>
      obtain ⟨rfl, hd⟩ := Bool.and_eq_true_iff.1 h
      have hsegment : IsSegment (fun c => begins c && Unicode.isUppercase c) [c] :=
        .mk (Bool.and_eq_true_iff.2 ⟨hc, hcapital⟩) (List.forall_mem_nil _)
      exact .dot hsegment (ih hd rfl (.last (.mk hd (List.forall_mem_nil _))))
  | case2 => exact hsingle
  | case3 capital d cs _ h ih => exact (ih hc hcapital hsingle).insert h
  | case4 => exact hsingle
  | case5 => exact hsingle

theorem IsDotted.isPrefix_rest (h : IsDotted begins (c :: text)) (hp : text <+: cs)
    (hcapital : Unicode.isUppercase c = capital) : text <+: rest capital cs := by
  fun_induction rest capital cs generalizing begins c text with
  | case1 capital d cs hd ih =>
      rcases h.tail_cases with rfl | ⟨e, ds, rfl, he, -⟩ | ⟨-, e, ds, rfl, -, hds⟩
      · exact List.nil_prefix
      · obtain ⟨rfl, -⟩ := List.cons_prefix_cons.1 hp
        exact absurd rfl (ne_dot_of_canContinue he)
      · obtain ⟨-, hp⟩ := List.cons_prefix_cons.1 hp
        obtain ⟨rfl, hds'⟩ := List.cons_prefix_cons.1 hp
        simpa using ih hds hds' rfl
  | case2 capital d cs hd =>
      rcases h.tail_cases with rfl | ⟨e, ds, rfl, he, -⟩ | ⟨hc, e, ds, rfl, he, -⟩
      · exact List.nil_prefix
      · obtain ⟨rfl, -⟩ := List.cons_prefix_cons.1 hp
        exact absurd rfl (ne_dot_of_canContinue he)
      · obtain ⟨-, hp⟩ := List.cons_prefix_cons.1 hp
        obtain ⟨rfl, -⟩ := List.cons_prefix_cons.1 hp
        exact absurd (Bool.and_eq_true_iff.2 ⟨hcapital.symm.trans hc, he⟩) hd
  | case3 capital d cs hne hd ih =>
      rcases h.tail_cases with rfl | ⟨e, ds, rfl, -, hds⟩ | ⟨-, e, ds, rfl, -, -⟩
      · exact List.nil_prefix
      · obtain ⟨rfl, hds'⟩ := List.cons_prefix_cons.1 hp
        simpa using ih hds hds' hcapital
      · obtain ⟨rfl, -⟩ := List.cons_prefix_cons.1 hp
        exact absurd rfl (ne_dot_of_canContinue hd)
  | case4 capital d cs hne hd =>
      rcases h.tail_cases with rfl | ⟨e, ds, rfl, he, -⟩ | ⟨-, e, ds, rfl, -, -⟩
      · exact List.nil_prefix
      · obtain ⟨rfl, -⟩ := List.cons_prefix_cons.1 hp
        exact absurd he hd
      · obtain ⟨rfl, e', hp⟩ := List.cons_prefix_cons.1 hp
        exact (hne e _ rfl hp.symm).elim
  | case5 => exact hp

theorem isLongestPrefix_read (hc : canBegin c = true) (cs : List Char) :
    IsLongestPrefix (IsDotted canBegin) (c :: rest (Unicode.isUppercase c) cs) (c :: cs) := by
  refine ⟨List.cons_prefix_cons.2 ⟨rfl, rest_prefix _ cs⟩, isDotted_rest hc rfl, ?_⟩
  intro text hp h
  obtain ⟨d, ds, rfl, -⟩ := h.exists_cons
  obtain ⟨rfl, hds⟩ := List.cons_prefix_cons.1 hp
  exact Nat.succ_le_succ (h.isPrefix_rest hds rfl).length_le

theorem IsSegment.not_mem_dot (h : IsSegment Unicode.isUppercase text) : '.' ∉ text := by
  cases h with
  | mk hc hcs =>
      rw [List.mem_cons, not_or]
      constructor
      · rintro rfl
        exact absurd hc (by decide)
      · exact fun hm => ne_dot_of_canContinue (hcs _ hm) rfl

theorem IsDotted.isSegment_of_mem_splitOn (h : IsDotted begins text)
    (hcapital : Word.segmentsCapitalised true text = true) :
    ∀ segment ∈ text.splitOn '.', IsSegment Unicode.isUppercase segment := by
  induction h with
  | last h =>
      cases h with
      | @mk c cs _ hcs =>
          have hsegment : IsSegment Unicode.isUppercase (c :: cs) :=
            .mk (Bool.and_eq_true_iff.1 hcapital).1 hcs
          rw [List.splitOn_eq_singleton hsegment.not_mem_dot]
          exact List.forall_mem_singleton.2 hsegment
  | dot h _ ih =>
      cases h with
      | @mk c cs _ hcs =>
          have hsegment : IsSegment Unicode.isUppercase (c :: cs) :=
            .mk (Bool.and_eq_true_iff.1 hcapital).1 hcs
          rw [List.splitOn_append_cons_self_of_not_mem hsegment.not_mem_dot]
          exact List.forall_mem_cons.2 ⟨hsegment, ih (Word.segmentsCapitalised_append hcapital)⟩

end Lexeme.Name

structure TypeName.IsCapitalised (n : TypeName) : Prop where
  name : Name.IsSegment Unicode.isUppercase n.name.toList
  plain : '.' ∉ n.name.toList
  module : ∀ m, n.module = some m →
    ∀ segment ∈ m.toList.splitOn '.', Name.IsSegment Unicode.isUppercase segment

theorem TypeName.isCapitalised_ofWord {w : String}
    (h : ∀ segment ∈ w.toList.splitOn '.', Name.IsSegment Unicode.isUppercase segment) (s : Span) :
    (ofWord w s).IsCapitalised ∧ ((ofWord w s).module.isSome = true ↔ '.' ∈ w.toList) := by
  cases hs : splitLastDot w.toList with
  | none =>
      have hplain := splitLastDot_eq_none_iff.1 hs
      rw [List.splitOn_eq_singleton hplain, List.forall_mem_singleton] at h
      have hword : ofWord w s = ⟨none, w, s⟩ := by rw [ofWord, hs]
      rw [hword]
      exact ⟨⟨h, hplain, by simp⟩, by simpa using hplain⟩
  | some parts =>
      obtain ⟨before, after⟩ := parts
      have hplain := not_mem_of_splitLastDot hs
      have hw := eq_append_of_splitLastDot hs
      have hword : ofWord w s = ⟨some (String.ofList before), String.ofList after, s⟩ := by
        rw [ofWord, hs]
      rw [hw, List.splitOn_append_cons_self, List.splitOn_eq_singleton hplain,
        List.forall_mem_append, List.forall_mem_singleton] at h
      rw [hword, hw]
      refine ⟨⟨?_, ?_, ?_⟩, by simp⟩
      · rw [String.toList_ofList]
        exact h.2
      · rw [String.toList_ofList]
        exact hplain
      · intro m hm
        obtain rfl := Option.some.inj hm
        rw [String.toList_ofList]
        exact h.1

theorem IsUpperName.isSegment_of_mem_splitOn {w : String} (h : IsUpperName w) :
    ∀ segment ∈ w.toList.splitOn '.', Name.IsSegment Unicode.isUppercase segment := by
  obtain ⟨c, cs, hw, hc, hr⟩ := h.isWord
  have hdotted : Name.IsDotted Name.canBegin w.toList := by
    rw [hw, ← hr]
    exact Name.isDotted_rest hc rfl
  exact hdotted.isSegment_of_mem_splitOn h.isCapitalised

theorem isLongestPrefix_takeWhile (p : Char → Bool) (source : List Char) :
    IsLongestPrefix (fun text => ∀ d ∈ text, p d = true) (source.takeWhile p) source := by
  refine ⟨List.takeWhile_prefix p, List.all_eq_true.1 List.all_takeWhile, ?_⟩
  rintro text ⟨rest, rfl⟩ h
  rw [List.takeWhile_append_of_pos h, List.length_append]
  exact Nat.le_add_right _ _

namespace Lexeme

theorem scan_operator {c : Char} {cs : List Char} (hc : isOperator c = true)
    (hcomment : ¬ (c = '-' ∧ cs.head? = some '-')) : scan c cs = .ok (readOperator c cs) := by
  have hall : ['+', '-', '*', '/', '=', '<', '>', '!', '&', '|', ':', '^', '%', '.', '$', '#', '~',
      '?', '@', '\\'].all (fun d => decide (Name.canBegin d = false ∧ d.isDigit = false ∧
        d ≠ '"' ∧ d ≠ '\'' ∧ d ≠ '{' ∧ d ≠ '[' ∧ delimiter? d = none)) = true := by
    decide
  obtain ⟨hbegin, hdigit, hquote, hmark, hbrace, hsquare, hdelimiter⟩ :=
    of_decide_eq_true (List.all_eq_true.1 hall c (List.contains_iff_mem.1 hc))
  simp [scan, hbegin, hdigit, hquote, hmark, hbrace, hsquare, hdelimiter, hcomment, hc]

theorem lexFrom_of_scan_eq_token {c : Char} {cs rest : List Char} {kind : TokenKind}
    (h : scan c (cs ++ rest) = .ok ⟨some kind, cs.length⟩) (hn : '\n' ∉ c :: cs)
    (offset column : Nat) :
    lexFrom 0 offset column (c :: cs ++ rest) =
      (lexFrom 0 (offset + (c :: cs).length) (column + (c :: cs).length) rest).map
        (⟨kind, ⟨offset, (c :: cs).length⟩, column⟩ :: ·) := by
  rw [lexFrom_of_scan_eq_ok h rfl, foldl_columnAfter hn]
  cases lexFrom 0 (offset + (c :: cs).length) (column + (c :: cs).length) rest <;> rfl

end Lexeme

theorem lex_longest_match :
    (∀ (c : Char) (cs : List Char) (offset column : Nat), Name.canBegin c = true →
      ∃ text rest, c :: cs = text ++ rest ∧
        IsLongestPrefix (Name.IsDotted Name.canBegin) text (c :: cs) ∧
        lexFrom 0 offset column (c :: cs) =
          (lexFrom 0 (offset + text.length) (column + text.length) rest).map
            (⟨.word (String.ofList text), ⟨offset, text.length⟩, column⟩ :: ·)) ∧
    (∀ (c : Char) (cs : List Char) (offset column : Nat), isOperator c = true →
      ¬ (c = '-' ∧ cs.head? = some '-') →
      ∃ text rest, c :: cs = text ++ rest ∧
        IsLongestPrefix (fun text => ∀ d ∈ text, isOperator d = true) text (c :: cs) ∧
        lexFrom 0 offset column (c :: cs) =
          (lexFrom 0 (offset + text.length) (column + text.length) rest).map
            (⟨.ofOperator (String.ofList text), ⟨offset, text.length⟩, column⟩ :: ·)) ∧
    ∀ source tokens, lex source = .ok tokens →
      ∀ t ∈ tokens, Expected.capitalisedName.accepts t.kind = true →
        ∃ w, t.kind = .word w ∧ (TypeName.ofWord w t.span).IsCapitalised ∧
          ((TypeName.ofWord w t.span).module.isSome = true ↔ '.' ∈ w.toList) ∧
          (TypeName.ofWord w t.span).text = w := by
  refine ⟨?_, ?_, ?_⟩
  · intro c cs offset column hc
    have hlongest := Name.isLongestPrefix_read hc cs
    obtain ⟨rest, hrest⟩ := Name.rest_prefix (Unicode.isUppercase c) cs
    refine ⟨_, rest, by rw [List.cons_append, hrest], hlongest, ?_⟩
    have hword := IsWord.of_rest hc cs
    have hn := hword.ne_lineFeed
    rw [String.toList_ofList] at hn
    conv => lhs; rw [← hrest, ← List.cons_append]
    refine lexFrom_of_scan_eq_token ?_ hn offset column
    rw [hrest, scan, if_pos hc]
    rfl
  · intro c cs offset column hc hcomment
    have hlongest := isLongestPrefix_takeWhile isOperator (c :: cs)
    have hn : '\n' ∉ (c :: cs).takeWhile isOperator := fun hm =>
      absurd (hlongest.holds _ hm) (by decide)
    rw [List.takeWhile_cons_of_pos hc] at hlongest hn
    refine ⟨_, cs.dropWhile isOperator, ?_, hlongest, ?_⟩
    · rw [List.cons_append, List.takeWhile_append_dropWhile]
    · conv => lhs; rw [← List.takeWhile_append_dropWhile (p := isOperator) (l := cs)]
      rw [← List.cons_append]
      refine lexFrom_of_scan_eq_token ?_ hn offset column
      rw [List.takeWhile_append_dropWhile, scan_operator hc hcomment]
      rfl
  · intro source tokens h t ht hu
    obtain ⟨w, hw⟩ := Option.isSome_iff_exists.1 hu
    obtain ⟨hkind, hcapital⟩ := TokenKind.capitalisedName?_eq_some_iff.1 hw
    have hname : IsUpperName w := ⟨isWord_of_lex h ht hkind, hcapital⟩
    obtain ⟨hcap, hmodule⟩ :=
      TypeName.isCapitalised_ofWord hname.isSegment_of_mem_splitOn t.span
    exact ⟨w, hkind, hcap, hmodule, TypeName.text_ofWord w t.span⟩

theorem lex_longest_match_dots :
    (∃ text rest, "A.b.C".toList = text ++ rest ∧
      IsLongestPrefix (Name.IsDotted Name.canBegin) text "A.b.C".toList ∧
      lexFrom 0 0 0 "A.b.C".toList =
        (lexFrom 0 (0 + text.length) (0 + text.length) rest).map
          (⟨.word (String.ofList text), ⟨0, text.length⟩, 0⟩ :: ·)) ∧
    (∃ text rest, ".C".toList = text ++ rest ∧
      IsLongestPrefix (fun text => ∀ d ∈ text, isOperator d = true) text ".C".toList ∧
      lexFrom 0 3 3 ".C".toList =
        (lexFrom 0 (3 + text.length) (3 + text.length) rest).map
          (⟨.ofOperator (String.ofList text), ⟨3, text.length⟩, 3⟩ :: ·)) ∧
    lex "A.b.C" =
      .ok [⟨.word "A.b", ⟨0, 3⟩, 0⟩, ⟨.operator ".", ⟨3, 1⟩, 3⟩, ⟨.word "C", ⟨4, 1⟩, 4⟩] ∧
    lex "A.B" = .ok [⟨.word "A.B", ⟨0, 3⟩, 0⟩] ∧
    ∃ w, TokenKind.word "A.B" = .word w ∧ (TypeName.ofWord w ⟨0, 3⟩).IsCapitalised ∧
      ((TypeName.ofWord w ⟨0, 3⟩).module.isSome = true ↔ '.' ∈ w.toList) ∧
      (TypeName.ofWord w ⟨0, 3⟩).text = w := by
  have hlex : lex "A.B" = .ok [⟨.word "A.B", ⟨0, 3⟩, 0⟩] := by decide
  obtain ⟨hname, hoperator, htype⟩ := lex_longest_match
  exact ⟨hname 'A' ".b.C".toList 0 0 (by decide),
    hoperator '.' ['C'] 3 3 (by decide) (by decide), by decide, hlex,
    htype _ _ hlex ⟨.word "A.B", ⟨0, 3⟩, 0⟩ (by decide) (by decide)⟩

end ElmTypes
