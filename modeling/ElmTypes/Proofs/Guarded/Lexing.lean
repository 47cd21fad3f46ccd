import ElmTypes.Proofs.Guarded.Literals

namespace ElmTypes.Guarded

open Lexeme

def Piece.ofToken (t : Token) : Piece := ⟨some t.kind, t.span, t.column⟩

namespace Scanner

variable {before cs rest : List Char} {c : Char} {n start depth : Nat}

theorem isPrefixOf_pair_eq_false {a b : Char} (h : ∀ ds, c = a → cs = b :: ds → False) :
    [a, b].isPrefixOf (c :: cs) = false := by
  rw [Bool.eq_false_iff]
  intro hp
  obtain ⟨ds, hds⟩ := List.isPrefixOf_iff_prefix.1 hp
  cases hds
  exact h _ rfl rfl

theorem scans_closeComments {k : Nat} (h : Comment.lengthToClose depth cs = some k) (hd : 0 < depth)
    (hn : cs.length < n) :
    Scans (closeComments start n depth) before (cs.take k) (cs.drop k) () := by
  fun_induction Comment.lengthToClose depth cs generalizing before k n with
  | case1 => exact absurd hd (Nat.lt_irrefl _)
  | case2 depth cs ih =>
      obtain ⟨m, hm, rfl⟩ := Option.map_eq_some_iff.1 h
      obtain ⟨n, rfl⟩ := Nat.exists_eq_succ_of_ne_zero (Nat.ne_zero_of_lt hn)
      apply Scans.look (scans_comesNext _)
      rw [if_pos (by simp)]
      apply Scans.bind (u := ['{', '-']) (v := cs.take m) (scans_skip _)
      exact ih hm (Nat.succ_pos _) (by simp at hn; omega)
  | case3 depth cs ih =>
      obtain ⟨m, hm, rfl⟩ := Option.map_eq_some_iff.1 h
      obtain ⟨n, rfl⟩ := Nat.exists_eq_succ_of_ne_zero (Nat.ne_zero_of_lt hn)
      apply Scans.look (scans_comesNext _)
      rw [if_neg (by simp)]
      apply Scans.look (scans_comesNext _)
      rw [if_pos (by simp)]
      apply Scans.bind (u := ['-', '}']) (v := cs.take m) (scans_skip _)
      rw [minus_eq (Nat.le_add_left 1 depth), Nat.add_sub_cancel, pure_bind]
      split
      · rename_i hzero
        subst hzero
        obtain rfl : 0 = m := by simpa [Comment.lengthToClose] using hm
        exact .pure ()
      · rename_i hpos
        exact ih hm (Nat.pos_of_ne_zero hpos) (by simp at hn; omega)
  | case4 depth c cs hopen hclose ih =>
      obtain ⟨m, hm, rfl⟩ := Option.map_eq_some_iff.1 h
      obtain ⟨n, rfl⟩ := Nat.exists_eq_succ_of_ne_zero (Nat.ne_zero_of_lt hn)
      have hscan : Scans (closeComments start n (depth + 1)) (before ++ [c]) (cs.take m) (cs.drop m)
          () := ih hm (Nat.succ_pos _) (by simp at hn; omega)
      have hopen := isPrefixOf_pair_eq_false hopen
      have hclose := isPrefixOf_pair_eq_false hclose
      rw [← List.take_append_drop m cs] at hopen hclose
      apply Scans.look (scans_comesNext _)
      rw [List.take_succ_cons, List.drop_succ_cons, List.cons_append, hopen,
        if_neg Bool.false_ne_true]
      apply Scans.look (scans_comesNext _)
      rw [List.cons_append, hclose, if_neg Bool.false_ne_true]
      exact Scans.bind (u := [c]) (v := cs.take m) (scans_next c) hscan
  | case5 => simp at h

theorem fails_closeComments (h : Comment.lengthToClose depth cs = none) (hn : cs.length < n) :
    Fails (closeComments start n depth) before cs ⟨.unfinished .comment, ⟨start, 2⟩⟩ := by
  fun_induction Comment.lengthToClose depth cs generalizing before n with
  | case1 => simp at h
  | case2 depth cs ih =>
      obtain ⟨n, rfl⟩ := Nat.exists_eq_succ_of_ne_zero (Nat.ne_zero_of_lt hn)
      apply Scans.look_fails (scans_comesNext _)
      rw [if_pos (by simp)]
      apply Scans.fails (u := ['{', '-']) (scans_skip _)
      exact ih (Option.map_eq_none_iff.1 h) (by simp at hn; omega)
  | case3 depth cs ih =>
      obtain ⟨n, rfl⟩ := Nat.exists_eq_succ_of_ne_zero (Nat.ne_zero_of_lt hn)
      replace h := Option.map_eq_none_iff.1 h
      apply Scans.look_fails (scans_comesNext _)
      rw [if_neg (by simp)]
      apply Scans.look_fails (scans_comesNext _)
      rw [if_pos (by simp)]
      apply Scans.fails (u := ['-', '}']) (scans_skip _)
      rw [minus_eq (Nat.le_add_left 1 depth), Nat.add_sub_cancel, pure_bind, if_neg]
      · exact ih h (by simp at hn; omega)
      · rintro rfl
        simp [Comment.lengthToClose] at h
  | case4 depth c cs hopen hclose ih =>
      obtain ⟨n, rfl⟩ := Nat.exists_eq_succ_of_ne_zero (Nat.ne_zero_of_lt hn)
      apply Scans.look_fails (scans_comesNext _)
      rw [isPrefixOf_pair_eq_false hopen, if_neg Bool.false_ne_true]
      apply Scans.look_fails (scans_comesNext _)
      rw [isPrefixOf_pair_eq_false hclose, if_neg Bool.false_ne_true]
      apply Scans.fails (u := [c]) (scans_next c)
      exact ih (Option.map_eq_none_iff.1 h) (by simp at hn; omega)
  | case5 =>
      obtain ⟨n, rfl⟩ := Nat.exists_eq_succ_of_ne_zero (Nat.ne_zero_of_lt hn)
      apply Scans.look_fails (scans_comesNext _)
      rw [if_neg (by simp)]
      apply Scans.look_fails (scans_comesNext _)
      rw [if_neg (by simp)]
      exact Scans.look_fails scans_next_nil fails_fail

theorem obeys_blockComment :
    Obeys (blockComment before.length) before '{' ('-' :: cs) (Comment.readBlock ('-' :: cs)) := by
  -- the comment that the loop finds first, with none open, is this one
  have hfirst {n : Nat} (hn : ('{' :: '-' :: cs).length < n) : ∃ m, n = m + 1 ∧ cs.length < m := by
    simp only [List.length_cons] at hn
    exact ⟨n - 1, by omega, by omega⟩
  cases h : Comment.lengthToClose 1 cs with
  | some k =>
      rw [Comment.readBlock, List.drop_one, List.tail_cons, h]
      have hscan : Scans (bounded fun bound => closeComments before.length bound 0) before
          ('{' :: '-' :: cs.take k) (cs.drop k) () := by
        apply scans_bounded
        intro n hn
        rw [List.cons_append, List.cons_append, List.take_append_drop] at hn
        obtain ⟨m, rfl, hm⟩ := hfirst hn
        apply Scans.look (scans_comesNext _)
        rw [if_pos (by simp)]
        apply Scans.bind (u := ['{', '-']) (v := cs.take k) (scans_skip _)
        exact scans_closeComments h Nat.one_pos hm
      exact hscan.finish (.pure none)
  | none =>
      rw [Comment.readBlock, List.drop_one, List.tail_cons, h]
      have hfails : Fails (bounded fun bound => closeComments before.length bound 0) before
          ('{' :: '-' :: cs) ⟨.unfinished .comment, ⟨before.length, 2⟩⟩ := by
        apply fails_bounded
        intro n hn
        obtain ⟨m, rfl, hm⟩ := hfirst hn
        apply Scans.look_fails (scans_comesNext _)
        rw [if_pos (by simp)]
        apply Scans.fails (u := ['{', '-']) (scans_skip _)
        exact fails_closeComments h hm
      exact hfails.bind

theorem obeys_lineComment :
    Obeys lineComment before '-' ('-' :: cs)
      (.ok (.skipped (Comment.line ('-' :: cs)).length)) := by
  have hw : ∀ d ∈ '-' :: Comment.line ('-' :: cs), (d != '\n' && d != '\r') = true :=
    List.forall_mem_cons.2 ⟨rfl, forall_mem_takeWhile _ _⟩
  have hscan : Scans lineComment before ('-' :: Comment.line ('-' :: cs))
      (('-' :: cs).dropWhile fun d => d != '\n' && d != '\r') none :=
    (scans_takeWhile hw (head?_dropWhile_not _ _)).finish (.pure none)
  have h := hscan.obeys
  rwa [Comment.line, List.takeWhile_append_dropWhile] at h

theorem scans_shaderText {text : List Char} (h : Shader.text? cs = some text) (hn : cs.length < n) :
    Scans (shaderText start n) before text (cs.drop text.length) text := by
  fun_induction Shader.text? cs generalizing before text n with
  | case1 cs =>
      obtain rfl := Option.some.inj h
      obtain ⟨n, rfl⟩ := Nat.exists_eq_succ_of_ne_zero (Nat.ne_zero_of_lt hn)
      apply Scans.look (scans_comesNext _)
      rw [if_pos (by simp)]
      exact .pure []
  | case2 c cs hend ih =>
      obtain ⟨text, htext, rfl⟩ := Option.map_eq_some_iff.1 h
      obtain ⟨n, rfl⟩ := Nat.exists_eq_succ_of_ne_zero (Nat.ne_zero_of_lt hn)
      obtain ⟨rest, rfl⟩ := Shader.eq_append_of_text? htext
      have hscan : Scans (shaderText start n) (before ++ [c]) text ('|' :: ']' :: rest) text := by
        have h : Scans (shaderText start n) (before ++ [c]) text _ text :=
          ih htext (by simp at hn ⊢; omega)
        rwa [List.drop_left] at h
      rw [List.length_cons, List.drop_succ_cons, List.drop_left]
      apply Scans.look (scans_comesNext _)
      rw [List.cons_append, isPrefixOf_pair_eq_false hend, if_neg Bool.false_ne_true]
      apply Scans.bind (u := [c]) (v := text) (scans_next c)
      exact hscan.finish (.pure _)
  | case3 => simp at h

theorem fails_shaderText (h : Shader.text? cs = none) (hn : cs.length < n) :
    Fails (shaderText start n) before cs
      ⟨.unfinished .shader, ⟨start, Shader.mark.length + 1⟩⟩ := by
  fun_induction Shader.text? cs generalizing before n with
  | case1 => simp at h
  | case2 c cs hend ih =>
      obtain ⟨n, rfl⟩ := Nat.exists_eq_succ_of_ne_zero (Nat.ne_zero_of_lt hn)
      apply Scans.look_fails (scans_comesNext _)
      rw [isPrefixOf_pair_eq_false hend, if_neg Bool.false_ne_true]
      apply Scans.fails (u := [c]) (scans_next c)
      exact (ih (Option.map_eq_none_iff.1 h) (by simp at hn; omega)).bind
  | case3 =>
      obtain ⟨n, rfl⟩ := Nat.exists_eq_succ_of_ne_zero (Nat.ne_zero_of_lt hn)
      apply Scans.look_fails (scans_comesNext _)
      rw [if_neg (by simp)]
      exact Scans.look_fails scans_next_nil fails_fail

theorem obeys_shader (hm : Shader.mark.isPrefixOf cs = true) :
    Obeys (shader before.length) before '[' cs (Shader.read cs) := by
  obtain ⟨ds, rfl⟩ := List.isPrefixOf_iff_prefix.1 hm
  cases h : Shader.text? ds with
  | some text =>
      obtain ⟨rest, rfl⟩ := Shader.eq_append_of_text? h
      rw [Shader.read, List.drop_left, h]
      have htext : Scans (bounded (shaderText before.length)) (before ++ '[' :: Shader.mark) text
          (['|', ']'] ++ rest) text := by
        apply scans_bounded
        intro n hn
        have hscan : Scans (shaderText before.length n) (before ++ '[' :: Shader.mark) text _
            text := scans_shaderText h hn
        rwa [List.drop_left] at hscan
      have hscan : Scans (shader before.length) before
          ('[' :: (Shader.mark ++ (text ++ ['|', ']']))) rest
          (some (.string (String.ofList text))) := by
        apply Scans.bind (u := '[' :: Shader.mark) (v := text ++ ['|', ']']) (scans_skip _)
        apply htext.bind
        exact Scans.finish (scans_skip ['|', ']']) (.pure _)
      have hlength : (Shader.mark ++ (text ++ ['|', ']'])).length =
          Shader.mark.length + text.length + 2 := by
        rw [List.length_append, List.length_append, ← Nat.add_assoc]
        rfl
      have hobeys := hscan.obeys
      rwa [hlength, List.append_assoc, List.append_assoc] at hobeys
  | none =>
      rw [Shader.read, List.drop_left, h]
      apply Scans.fails (u := '[' :: Shader.mark) (scans_skip _)
      exact (fails_bounded fun n hn => fails_shaderText h hn).bind

theorem Scans.look_obeys {α : Type} {x : Scanner α} {f : α → Scanner (Option TokenKind)} {a : α}
    {r : Except LexicalError Lexeme} (hx : Scans x before [] (c :: cs) a)
    (hf : Obeys (f a) before c cs r) : Obeys (x >>= f) before c cs r := by
  cases r with
  | ok l =>
      apply Scans.look _ hf
      rwa [List.cons_append, List.take_append_drop]
  | error e => exact hx.look_fails hf

theorem obeys_operator (hc : isOperator c = true) :
    Obeys operator before c cs (.ok (readOperator c cs)) := by
  have hw : ∀ d ∈ c :: cs.takeWhile isOperator, isOperator d = true :=
    List.forall_mem_cons.2 ⟨hc, forall_mem_takeWhile _ _⟩
  have hscan : Scans operator before (c :: cs.takeWhile isOperator) (cs.dropWhile isOperator)
      (some (.ofOperator (String.ofList (c :: cs.takeWhile isOperator)))) :=
    (scans_takeWhile hw (head?_dropWhile_not _ _)).finish (.pure _)
  have h := hscan.obeys
  rwa [List.takeWhile_append_dropWhile] at h

theorem obeys_single (kind : Option TokenKind) : Obeys (single kind) before c cs (.ok ⟨kind, 0⟩) :=
  (scans_next c).finish (.pure kind)

theorem obeys_kindOf : Obeys (kindOf c before.length) before c cs (scan c cs) := by
  have hsecond : (c :: cs)[1]? = cs.head? := by rw [List.getElem?_cons_succ, List.head?_eq_getElem?]
  have hshader : ('[' :: Shader.mark).isPrefixOf (c :: cs) =
      (decide (c = '[') && Shader.mark.isPrefixOf cs) := by
    rw [List.isPrefixOf_cons_cons, Bool.beq_eq_decide_eq]
    simp [eq_comm]
  unfold kindOf
  apply Scans.look_obeys (scans_peekAt 1)
  apply Scans.look_obeys (scans_comesNext _)
  simp only [hsecond, hshader, scan, Bool.and_eq_true, decide_eq_true_eq]
  split
  · rename_i hc
    exact obeys_word hc
  split
  · rename_i hc
    exact obeys_number hc
  split
  · rename_i hc
    exact hc ▸ obeys_string
  split
  · rename_i hc
    exact hc ▸ obeys_character
  split
  · rename_i hc
    obtain ⟨rfl, hd⟩ := hc
    obtain ⟨ds, rfl⟩ := List.head?_eq_some_iff.1 hd
    exact obeys_blockComment
  split
  · rename_i hc
    obtain ⟨rfl, hd⟩ := hc
    obtain ⟨ds, rfl⟩ := List.head?_eq_some_iff.1 hd
    exact obeys_lineComment
  split
  · rename_i hc
    obtain ⟨rfl, hm⟩ := hc
    exact obeys_shader hm
  cases delimiter? c with
  | some kind => exact obeys_single _
  | none =>
      dsimp only
      split
      · rename_i hc
        exact obeys_operator hc
      split
      · exact obeys_single none
      · exact fails_fail

theorem scans_piece {l : Lexeme} (h : scan c (cs ++ rest) = .ok l) (hl : l.tail = cs.length) :
    Scans (piece c) before (c :: cs) rest
      ⟨l.kind, ⟨before.length, (c :: cs).length⟩, before.foldl columnAfter 0⟩ := by
  have hkind : Obeys (kindOf c before.length) before c (cs ++ rest) (.ok l) := h ▸ obeys_kindOf
  simp only [Obeys, hl, List.take_left, List.drop_left] at hkind
  apply Scans.look scans_position
  apply Scans.look scans_columnOf
  apply hkind.finish
  exact Scans.look (v := []) scans_lengthFrom (.pure _)

theorem fails_piece {e : LexicalError} (h : scan c cs = .error e) :
    Fails (piece c) before (c :: cs) (e.shift before.length) := by
  have hkind : Obeys (kindOf c before.length) before c cs (.error e) := h ▸ obeys_kindOf
  apply Scans.look_fails scans_position
  apply Scans.look_fails scans_columnOf
  exact Fails.bind hkind

theorem Gives.map {α β : Type} {x : Scanner α} {u : List Char} {r : Except LexicalError α}
    (g : α → β) (h : Gives x before u rest r) :
    Gives (do let a ← x; return g a) before u rest (r.map g) := by
  cases r with
  | ok a => exact Scans.finish h (.pure _)
  | error e => exact Fails.bind h

theorem gives_pieces (before : List Char) {cs : List Char} (hn : cs.length < n) :
    Gives (pieces n) before cs []
      ((lexFrom 0 before.length (before.foldl columnAfter 0) cs).map (List.map .ofToken)) := by
  induction n generalizing before cs with
  | zero => exact absurd hn (Nat.not_lt_zero _)
  | succ n ih =>
      cases cs with
      | nil => exact Scans.look (v := []) (scans_peekAt 0) (.pure [])
      | cons c cs =>
          cases hs : scan c cs with
          | error e =>
              rw [lexFrom, hs]
              apply Scans.look_fails (scans_peekAt 0)
              rw [List.append_nil]
              exact (fails_piece hs).bind
          | ok l =>
              have hle := tail_le_of_scan_eq_ok hs
              obtain ⟨w, rest, rfl, hl⟩ : ∃ w rest, cs = w ++ rest ∧ l.tail = w.length :=
                ⟨cs.take l.tail, cs.drop l.tail, (List.take_append_drop _ _).symm, by simp [hle]⟩
              rw [← List.cons_append, lexFrom_of_scan_eq_ok hs hl, ← List.length_append,
                ← List.foldl_append]
              have hlt : rest.length < n := by
                simp only [List.length_cons, List.length_append] at hn
                omega
              have hrest := (ih (before ++ c :: w) hlt).map fun ps =>
                if l.kind.isSome then
                  ⟨l.kind, ⟨before.length, (c :: w).length⟩, before.foldl columnAfter 0⟩ :: ps
                else ps
              have hpiece : Scans (piece c) before (c :: w) (rest ++ []) _ :=
                (List.append_nil rest).symm ▸ scans_piece hs hl
              apply Scans.look_gives (scans_peekAt 0)
              apply hpiece.gives
              generalize lexFrom 0 (before ++ c :: w).length
                ((before ++ c :: w).foldl columnAfter 0) rest = r at hrest ⊢
              obtain ⟨_ | kind, tail⟩ := l
              · cases r <;> exact hrest
              · obtain rfl := hl
                cases r <;> exact hrest

end Scanner

theorem lex_eq (source : String) :
    lex source = ((ElmTypes.lex source).map (List.map .ofToken)).mapError .error := by
  have hstands : Tape.Stands ⟨source.toList, 0, 0⟩ [] (source.toList ++ []) :=
    ⟨(List.append_nil _).symm, rfl, rfl⟩
  have hrun : (Scanner.bounded Scanner.pieces).run ⟨source.toList, 0, 0⟩ =
      (Scanner.pieces (source.toList.length + 1)).run ⟨source.toList, 0, 0⟩ := rfl
  have h := Scanner.gives_pieces [] (Nat.lt_succ_self source.toList.length)
  unfold lex
  rw [hrun]
  change Scanner.Gives _ _ _ _ ((ElmTypes.lex source).map _) at h
  cases hlex : ElmTypes.lex source with
  | ok tokens =>
      rw [hlex] at h
      obtain ⟨t, ht, -⟩ := h _ hstands
      rw [ht]
      rfl
  | error e =>
      rw [hlex] at h
      obtain ⟨t, ht⟩ := h _ hstands
      rw [ht]
      rfl

end ElmTypes.Guarded
