import ElmTypes.Proofs.Grammar.Layout
import ElmTypes.Proofs.Grammar.Progress

namespace ElmTypes

theorem Ordered.head_start_le {ts : List Token} {t u : Token} (ho : Ordered ts) (ht : t ∈ ts.head?)
    (hu : u ∈ ts) : t.span.start ≤ u.span.start := by
  obtain ⟨us, rfl⟩ := List.head?_eq_some_iff.1 ht
  rcases List.mem_cons.1 hu with rfl | hu
  · exact Nat.le_refl _
  · exact Nat.le_trans (Nat.le_add_right _ _) ((List.pairwise_cons.1 ho.pairwise).1 u hu)

/-- How many errors can come of the tokens: the first of them may stand in any column, and after an
error a token in the first column is next. -/
def maxErrors : List Token → Nat
  | [] => 0
  | _ :: ts => ts.countP Token.startsDeclaration + 1

section

variable {ts us vs : List Token}

theorem maxErrors_le (ts : List Token) : maxErrors ts ≤ ts.countP Token.startsDeclaration + 1 := by
  cases ts with
  | nil => exact Nat.zero_le _
  | cons t ts => exact Nat.succ_le_succ (List.Sublist.countP_le (List.sublist_cons_self t ts))

theorem maxErrors_le_of_suffix (h : us <:+ ts) : maxErrors us ≤ maxErrors ts := by
  cases us with
  | nil => exact Nat.zero_le _
  | cons u us =>
      cases ts with
      | nil => exact absurd (List.suffix_nil.1 h) (List.cons_ne_nil u us)
      | cons t ts =>
          have hus : us <:+ ts := by
            rcases List.suffix_cons_iff.1 h with heq | h
            · cases heq
              exact List.suffix_rfl
            · exact (List.suffix_cons u us).trans h
          exact Nat.succ_le_succ hus.sublist.countP_le

theorem maxErrors_lt_of_suffix (h : us <:+ ts) (hlt : us.length < ts.length)
    (hstarts : ∀ u ∈ us.head?, u.startsDeclaration = true) : maxErrors us < maxErrors ts := by
  cases ts with
  | nil => exact absurd hlt (Nat.not_lt_zero _)
  | cons t ts =>
      cases us with
      | nil => exact Nat.zero_lt_succ _
      | cons u us =>
          have hus : u :: us <:+ ts := by
            rcases List.suffix_cons_iff.1 h with heq | h
            · rw [heq] at hlt
              exact absurd hlt (Nat.lt_irrefl _)
            · exact h
          have hcount := hus.sublist.countP_le (p := Token.startsDeclaration)
          rw [List.countP_cons_of_pos (hstarts u rfl)] at hcount
          exact Nat.succ_lt_succ hcount

structure Located (ts us : List Token) (es : List SyntaxError) : Prop where
  rest : us <:+ ts
  ordered : es.Pairwise fun e e' => e.span.start ≤ e'.span.start
  first : ∀ e ∈ es, ∃ t ∈ ts.head?, t.span.start ≤ e.span.start
  next : ∀ e ∈ es, ∀ u ∈ us.head?, e.span.start ≤ u.span.start
  count : es.length + maxErrors us ≤ maxErrors ts

namespace Located

variable {es es' : List SyntaxError}

theorem nil (h : us <:+ ts) : Located ts us [] := by
  refine ⟨h, .nil, List.forall_mem_nil _, List.forall_mem_nil _, ?_⟩
  rw [List.length_nil, Nat.zero_add]
  exact maxErrors_le_of_suffix h

theorem append (h : Located ts us es) (h' : Located us vs es') (ho : Ordered ts) :
    Located ts vs (es ++ es') := by
  refine ⟨h'.rest.trans h.rest, ?_, ?_, ?_, ?_⟩
  · refine List.pairwise_append.2 ⟨h.ordered, h'.ordered, fun e he e' he' => ?_⟩
    obtain ⟨u, hu, hle⟩ := h'.first e' he'
    exact Nat.le_trans (h.next e he u hu) hle
  · refine List.forall_mem_append.2 ⟨h.first, fun e he => ?_⟩
    obtain ⟨u, hu, hle⟩ := h'.first e he
    have hmem := h.rest.mem (List.mem_of_mem_head? hu)
    obtain ⟨t, ht⟩ := Option.isSome_iff_exists.1
      (List.isSome_head?.2 (List.ne_nil_of_mem hmem))
    exact ⟨t, ht, Nat.le_trans (ho.head_start_le ht hmem) hle⟩
  · refine List.forall_mem_append.2 ⟨fun e he v hv => ?_, h'.next⟩
    have hmem := h'.rest.mem (List.mem_of_mem_head? hv)
    obtain ⟨u, hu⟩ := Option.isSome_iff_exists.1
      (List.isSome_head?.2 (List.ne_nil_of_mem hmem))
    exact Nat.le_trans (h.next e he u hu) ((ho.part h.rest.isInfix).head_start_le hu hmem)
  · have hcount := h.count
    have hcount' := h'.count
    rw [List.length_append]
    omega

end Located

end

namespace Cursor

open Reader

variable {α : Type} {c d : Cursor} {us : List Token} {item : Reader α}
  {R : List Token → α → Prop}

theorem located_of_run_eq_error {e : SyntaxError} (hi : Reads item R) (ho : Ordered c.ahead)
    (hrun : item.run c = .error e d) (hus : us <:+ d.ahead)
    (hstarts : ∀ u ∈ us.head?, u.startsDeclaration = true) (hlt : us.length < c.ahead.length) :
    Located c.ahead us [e] := by
  obtain ⟨ts, hd, hb⟩ : ∃ ts, c.Takes ts d ∧ c.Blames ts d e := by simpa [hrun] using hi c
  have hne : c.ahead ≠ [] := List.ne_nil_of_length_pos (Nat.zero_lt_of_lt hlt)
  obtain ⟨t, ht, hspan⟩ := hb.place.resolve_right fun h => hne h.1
  have hsuffix : us <:+ c.ahead := hus.trans ⟨ts, hd.ahead.symm⟩
  have hmem : t ∈ c.ahead := by
    rw [hd.ahead]
    rcases List.mem_append.1 ht with ht | ht
    · exact List.mem_append_left _ ht
    · exact List.mem_append_right _ (List.mem_of_mem_head? (Option.mem_toList.1 ht))
  refine ⟨hsuffix, List.pairwise_singleton _ _, ?_, ?_, ?_⟩
  · rw [List.forall_mem_singleton, ← hspan]
    obtain ⟨f, hf⟩ := Option.isSome_iff_exists.1 (List.isSome_head?.2 hne)
    exact ⟨f, hf, ho.head_start_le hf hmem⟩
  · rw [List.forall_mem_singleton, ← hspan]
    intro u hu
    have hu' := hus.mem (List.mem_of_mem_head? hu)
    rw [hd.ahead] at ho
    rcases List.mem_append.1 ht with ht | ht
    · have hstop := (List.pairwise_append.1 ho.pairwise).2.2 t ht u hu'
      exact Nat.le_trans (Nat.le_add_right _ _) hstop
    · exact ho.right.head_start_le (Option.mem_toList.1 ht) hu'
  · rw [List.length_singleton, Nat.add_comm]
    exact maxErrors_lt_of_suffix hsuffix hlt hstarts

theorem starts_nextDeclaration (c : Cursor) :
    ∀ t ∈ c.nextDeclaration.ahead.head?, t.startsDeclaration = true :=
  (Option.all_eq_true _ _).1 c.atBoundary_nextDeclaration

theorem located_read (hi : Reads item R) (ho : Ordered c.ahead)
    (hlt : (c.read item).2.ahead.length < c.ahead.length) :
    Located c.ahead (c.read item).2.ahead (c.read item).1.problems := by
  unfold read at hlt ⊢
  cases hrun : item.run c with
  | ok a d =>
      obtain ⟨ts, hd, -⟩ := hi.of_run_eq_ok hrun
      exact .nil ⟨ts, hd.ahead.symm⟩
  | error e d =>
      rw [hrun] at hlt
      exact located_of_run_eq_error hi ho hrun (nextDeclaration_suffix d)
        (starts_nextDeclaration d) hlt

theorem located_readDeclaration (ho : Ordered c.ahead) (hne : c.ahead ≠ []) :
    Located c.ahead c.readDeclaration.2.ahead c.readDeclaration.1.problems := by
  have hlt := length_lt_of_readDeclaration hne
  unfold readDeclaration at hlt ⊢
  cases hrun : Reader.declaration.run c with
  | ok a d =>
      obtain ⟨ts, hd, -⟩ := reads_declaration.of_run_eq_ok hrun
      exact .nil ⟨ts, hd.ahead.symm⟩
  | error e d =>
      rw [hrun] at hlt
      refine located_of_run_eq_error reads_declaration ho hrun ?_ (starts_nextDeclaration _) hlt
      refine (nextDeclaration_suffix _).trans ?_
      split
      · rw [ahead_advance]
        exact List.tail_suffix _
      · exact List.suffix_rfl

theorem located_readHeader {tokens : List Token} (ho : Ordered tokens) :
    Located tokens (start tokens).readHeader.2.ahead (start tokens).readHeader.1.problems := by
  obtain ⟨expected, hstart⟩ := readHeader_start tokens
  rw [hstart]
  cases hk : headerKindOf tokens with
  | none => exact .nil List.suffix_rfl
  | some kind =>
      exact located_read (c := ⟨tokens, expected, .empty⟩) ((reads_header kind).map some) ho
        (length_lt_of_read_header hk)

theorem located_readImports (n : Nat) (ho : Ordered c.ahead) :
    Located c.ahead (c.readImports n).2.ahead
      ((c.readImports n).1.flatMap Validated.problems) := by
  induction n generalizing c with
  | zero => exact .nil List.suffix_rfl
  | succ n ih =>
      simp only [readImports]
      split
      · rename_i ha
        have hnote : (c.note (.keyword .import)).ahead = c.ahead := ahead_note _ _
        have hread := located_read reads_importLine (hnote ▸ ho) (length_lt_of_read_importLine ha)
        rw [hnote] at hread
        exact hread.append (ih (ho.part hread.rest.isInfix)) ho
      · rw [ahead_note]
        exact .nil List.suffix_rfl

theorem located_readDeclarations (n : Nat) (ho : Ordered c.ahead) :
    Located c.ahead [] ((c.readDeclarations n).flatMap Validated.problems) := by
  induction n generalizing c with
  | zero => exact .nil List.nil_suffix
  | succ n ih =>
      rw [readDeclarations]
      split
      · exact .nil List.nil_suffix
      · rename_i hne
        have hread := located_readDeclaration ho fun h => hne (List.isEmpty_iff.2 h)
        exact hread.append (ih (ho.part hread.rest.isInfix)) ho

end Cursor

namespace SourceFile

theorem problems_ofTokens {tokens : List Token} {es : List SyntaxError}
    (h : ofTokens tokens = .error es) :
    let header := (Cursor.start tokens).readHeader
    let imports := header.2.readImports (tokens.length + 1)
    es = header.1.problems ++ (imports.1.flatMap Validated.problems ++
      (imports.2.readDeclarations (tokens.length + 1)).flatMap Validated.problems) := by
  simp only [ofTokens] at h
  split at h
  · cases h
  · cases h
    rw [Validated.problems_accumulate, Validated.problems_accumulate, List.append_assoc]

theorem located_ofTokens {tokens : List Token} {es : List SyntaxError} (ho : Ordered tokens)
    (h : ofTokens tokens = .error es) : Located tokens [] es := by
  rw [problems_ofTokens h]
  have hheader := Cursor.located_readHeader ho
  refine hheader.append ?_ ho
  have hc := ho.part hheader.rest.isInfix
  have himports := Cursor.located_readImports (tokens.length + 1) hc
  refine himports.append ?_ hc
  exact Cursor.located_readDeclarations _ (hc.part himports.rest.isInfix)

theorem errors_in_order {source : String} {tokens : List Token} {es : List SyntaxError}
    (hl : lex source = .ok tokens) (h : ofTokens tokens = .error es) :
    es ≠ [] ∧ es.Pairwise (fun e e' => e.span.start ≤ e'.span.start) ∧
      es.length ≤ tokens.countP (fun t => t.column == 0) + 1 := by
  have hlocated := located_ofTokens (ordered_of_lex hl) h
  refine ⟨((sound_ofTokens tokens).2 es h).1, hlocated.ordered, ?_⟩
  exact Nat.le_trans hlocated.count (maxErrors_le tokens)

theorem errors_in_order_blamed_twice :
    let source := " import x\nf :\n)"
    let tokens : List Token := [⟨.word "import", ⟨1, 6⟩, 1⟩, ⟨.word "x", ⟨8, 1⟩, 8⟩,
      ⟨.word "f", ⟨10, 1⟩, 0⟩, ⟨.symbol .colon, ⟨12, 1⟩, 2⟩, ⟨.closing .round, ⟨14, 1⟩, 0⟩]
    let es : List SyntaxError := [⟨.unexpectedToken (.word "x") [.capitalisedName], ⟨8, 1⟩⟩,
      ⟨.unexpectedToken (.closing .round)
        [.capitalisedName, .lowercaseName, .opening .round, .opening .brace, .typeExpr], ⟨14, 1⟩⟩,
      ⟨.unexpectedToken (.closing .round)
        [.keyword .type, .keyword .port, .keyword .fixity, .lowercaseName, .declaration], ⟨14, 1⟩⟩]
    lex source = .ok tokens ∧ ofTokens tokens = .error es ∧
      es.Pairwise (fun e e' => e.span.start ≤ e'.span.start) ∧
      es.length = tokens.countP (fun t => t.column == 0) + 1 := by
  -- the bracket is blamed for what the signature lacks, and again because no declaration begins
  -- with it
  intro source tokens es
  have hl : lex source = .ok tokens := by decide
  have h : ofTokens tokens = .error es := by
    simp only [tokens, es]
    rfl
  obtain ⟨-, hordered, hcount⟩ := errors_in_order hl h
  exact ⟨hl, h, hordered, Nat.le_antisymm hcount (by decide)⟩

end SourceFile

end ElmTypes
