import ElmTypes.Proofs.Lexical.Gap

namespace ElmTypes

namespace Lexeme.Comment

def opening : List Char := ['{', '-']

def closing : List Char := ['-', '}']

mutual

/-- The text is a comment where `rest` follows it in the source. -/
inductive IsComment : (text rest : List Char) → Prop where
  | marks {body rest : List Char} (hb : IsBody body (closing ++ rest)) :
      IsComment (opening ++ body ++ closing) rest

inductive IsBody : (text rest : List Char) → Prop where
  | nil {rest : List Char} : IsBody [] rest
  | comment {text body rest : List Char} (ht : IsComment text (body ++ rest))
      (hb : IsBody body rest) : IsBody (text ++ body) rest
  | char {c : Char} {body rest : List Char} (ho : ¬ opening <+: c :: (body ++ rest))
      (hc : ¬ closing <+: c :: (body ++ rest)) (hb : IsBody body rest) : IsBody (c :: body) rest

end

theorem length_marks (body : List Char) :
    (opening ++ body ++ closing).length = body.length + 2 + 2 := by
  rw [List.length_append, List.length_append, Nat.add_comm opening.length]
  rfl

theorem lengthToClose_opening (depth : Nat) (cs : List Char) :
    lengthToClose (depth + 1) (opening ++ cs) = (lengthToClose (depth + 2) cs).map (· + 2) := rfl

theorem lengthToClose_closing (depth : Nat) (cs : List Char) :
    lengthToClose (depth + 1) (closing ++ cs) = (lengthToClose depth cs).map (· + 2) := rfl

theorem lengthToClose_char {c : Char} {cs : List Char} (ho : ¬ opening <+: c :: cs)
    (hc : ¬ closing <+: c :: cs) (depth : Nat) :
    lengthToClose (depth + 1) (c :: cs) = (lengthToClose (depth + 1) cs).map (· + 1) := by
  apply lengthToClose.eq_4
  · rintro ds rfl rfl
    exact ho (List.prefix_append opening ds)
  · rintro ds rfl rfl
    exact hc (List.prefix_append closing ds)

mutual

theorem IsComment.lengthToClose_append : ∀ {text rest : List Char}, IsComment text rest →
    ∀ depth, lengthToClose (depth + 1) (text ++ rest) =
      (lengthToClose (depth + 1) rest).map (· + text.length)
  | _, _, @IsComment.marks body _ hb, depth => by
      rw [List.append_assoc, List.append_assoc, lengthToClose_opening,
        hb.lengthToClose_append (depth + 1), lengthToClose_closing, Option.map_map, Option.map_map]
      congr 1
      funext n
      rw [length_marks, Function.comp_apply, Function.comp_apply]
      omega

theorem IsBody.lengthToClose_append : ∀ {text rest : List Char}, IsBody text rest →
    ∀ depth, lengthToClose (depth + 1) (text ++ rest) =
      (lengthToClose (depth + 1) rest).map (· + text.length)
  | _, _, .nil, _ => by simp
  | _, _, .comment ht hb, depth => by
      rw [List.append_assoc, ht.lengthToClose_append depth, hb.lengthToClose_append depth,
        Option.map_map]
      congr 1
      funext n
      simp only [Function.comp_apply, List.length_append]
      omega
  | _, _, .char ho hc hb, depth => by
      rw [List.cons_append, lengthToClose_char ho hc, hb.lengthToClose_append depth, Option.map_map]
      congr 1

end

/-- A body, the closing mark and what closes the other comments that are open come next, and take
`n` characters. -/
inductive Closes (depth : Nat) : (cs : List Char) → (n : Nat) → Prop where
  | mk {body rest : List Char} {n : Nat} (hb : IsBody body (closing ++ rest))
      (hr : lengthToClose depth rest = some n) :
      Closes depth (body ++ (closing ++ rest)) (body.length + (n + 2))

theorem Closes.char {depth n : Nat} {c : Char} {cs : List Char} (ho : ¬ opening <+: c :: cs)
    (hc : ¬ closing <+: c :: cs) (h : Closes depth cs n) : Closes depth (c :: cs) (n + 1) := by
  obtain @⟨body, rest, n, hb, hr⟩ := h
  have hn : body.length + (n + 2) + 1 = (c :: body).length + (n + 2) := by
    rw [List.length_cons]
    omega
  rw [hn]
  exact .mk (.char ho hc hb) hr

theorem Closes.opening {depth n : Nat} {cs : List Char} (h : Closes (depth + 1) cs n)
    (hrest : ∀ rest m, rest.length < cs.length → lengthToClose (depth + 1) rest = some m →
      Closes depth rest m) : Closes depth (opening ++ cs) (n + 2) := by
  obtain @⟨inner, after, m, hinner, hafter⟩ := h
  have hlt : after.length < (inner ++ (closing ++ after)).length := by
    simp only [List.length_append, closing, List.length_cons]
    omega
  -- the comment that opens here is closed first, and the one around it goes on after that
  obtain @⟨body, rest, n, hbody, hr⟩ := hrest after m hlt hafter
  have htext : Comment.opening ++ (inner ++ (closing ++ (body ++ (closing ++ rest)))) =
      Comment.opening ++ inner ++ closing ++ body ++ (closing ++ rest) := by
    simp only [List.append_assoc]
  have hn : inner.length + (body.length + (n + 2) + 2) + 2 =
      (Comment.opening ++ inner ++ closing ++ body).length + (n + 2) := by
    rw [List.length_append, length_marks]
    omega
  rw [htext, hn]
  exact .mk (.comment (.marks hinner) hbody) hr

theorem closes_of_lengthToClose {depth n : Nat} {cs : List Char}
    (h : lengthToClose (depth + 1) cs = some n) : Closes depth cs n := by
  induction hk : cs.length using Nat.strongRecOn generalizing depth n cs with
  | ind k ih =>
  cases cs with
  | nil => cases h
  | cons c cs =>
  by_cases ho : opening <+: c :: cs
  · obtain ⟨ds, hds⟩ := ho
    rw [← hds] at h hk ⊢
    obtain ⟨n, hn, rfl⟩ := Option.map_eq_some_iff.1 h
    have hlt : ds.length < k := hk ▸ Nat.lt_add_of_pos_right (Nat.zero_lt_two)
    exact (ih _ hlt hn rfl).opening fun rest m hrest hm => ih _ (Nat.lt_trans hrest hlt) hm rfl
  by_cases hc : closing <+: c :: cs
  · obtain ⟨rest, hrest⟩ := hc
    rw [← hrest] at h ⊢
    obtain ⟨n, hn, rfl⟩ := Option.map_eq_some_iff.1 h
    have hcloses : Closes depth ([] ++ (closing ++ rest)) (0 + (n + 2)) := .mk .nil hn
    rwa [List.nil_append, Nat.zero_add] at hcloses
  · rw [lengthToClose_char ho hc] at h
    obtain ⟨n, hn, rfl⟩ := Option.map_eq_some_iff.1 h
    exact (ih cs.length (hk ▸ Nat.lt_succ_self _) hn rfl).char ho hc

theorem lengthToClose_zero (cs : List Char) : lengthToClose 0 cs = some 0 := by
  rw [lengthToClose]

theorem exists_comment_of_lengthToClose {n : Nat} {cs : List Char}
    (h : lengthToClose 1 cs = some n) :
    ∃ text rest, opening ++ cs = text ++ rest ∧ IsComment text rest ∧ text.length = n + 2 := by
  obtain @⟨body, rest, m, hbody, hm⟩ := closes_of_lengthToClose h
  obtain rfl := Option.some.inj ((lengthToClose_zero rest).symm.trans hm)
  refine ⟨opening ++ body ++ closing, rest, by simp only [List.append_assoc], .marks hbody, ?_⟩
  exact length_marks body

theorem IsComment.lengthToClose_one {cs text rest : List Char} (ht : IsComment text rest)
    (h : opening ++ cs = text ++ rest) :
    ∃ n, lengthToClose 1 cs = some n ∧ text.length = n + 2 := by
  obtain @⟨body, _, hb⟩ := ht
  rw [List.append_assoc, List.append_assoc] at h
  rw [List.append_cancel_left h, hb.lengthToClose_append 0, lengthToClose_closing,
    lengthToClose_zero]
  exact ⟨_, rfl, by rw [length_marks, Nat.add_comm body.length]⟩

theorem IsComment.unique {cs text text' rest rest' : List Char} (ht : IsComment text rest)
    (ht' : IsComment text' rest') (h : opening ++ cs = text ++ rest)
    (h' : opening ++ cs = text' ++ rest') : text' = text := by
  obtain ⟨n, hn, hlength⟩ := ht.lengthToClose_one h
  obtain ⟨n', hn', hlength'⟩ := ht'.lengthToClose_one h'
  obtain rfl := Option.some.inj (hn.symm.trans hn')
  exact (List.append_inj (h'.symm.trans h) (hlength'.trans hlength.symm)).1

end Lexeme.Comment

open Lexeme Comment

theorem lexFrom_opening (cs : List Char) (offset column : Nat) :
    (∃ text rest, opening ++ cs = text ++ rest ∧ IsComment text rest ∧
        (∀ text' rest', opening ++ cs = text' ++ rest' → IsComment text' rest' → text' = text) ∧
        readBlock ('-' :: cs) = .ok (.skipped (text.length - 1)) ∧
        lexFrom 0 offset column (opening ++ cs) =
          lexFrom 0 (offset + text.length) (text.foldl columnAfter column) rest) ∨
      ((∀ text rest, opening ++ cs = text ++ rest → ¬ IsComment text rest) ∧
        readBlock ('-' :: cs) = .error ⟨.unfinished .comment, ⟨0, 2⟩⟩ ∧
        lexFrom 0 offset column (opening ++ cs) =
          .error ⟨.unfinished .comment, ⟨offset, 2⟩⟩) := by
  cases hn : lengthToClose 1 cs with
  | some n =>
      obtain ⟨text, rest, hsource, htext, hlength⟩ := exists_comment_of_lengthToClose hn
      have hread : readBlock ('-' :: cs) = .ok (.skipped (text.length - 1)) := by
        rw [hlength]
        exact readBlock_eq_ok_iff.2 ⟨n, hn, rfl⟩
      refine .inl ⟨text, rest, hsource, htext, ?_, hread, ?_⟩
      · exact fun text' rest' hsource' htext' => htext.unique htext' hsource hsource'
      · obtain ⟨ds, rfl⟩ : ∃ ds, text = '{' :: ds := by
          cases htext with
          | marks _ => exact ⟨_, rfl⟩
        have htail : '-' :: cs = ds ++ rest := (List.cons.inj hsource).2
        rw [hsource]
        refine lexFrom_of_scan_eq_skipped ?_ offset column
        rw [← htail, scan_blockComment, hread]
        rfl
  | none =>
      have hread : readBlock ('-' :: cs) = .error ⟨.unfinished .comment, ⟨0, 2⟩⟩ := by
        rw [readBlock, List.drop_one, List.tail_cons, hn]
      refine .inr ⟨fun text rest hsource htext => ?_, hread, ?_⟩
      · obtain ⟨n, hsome, -⟩ := htext.lengthToClose_one hsource
        rw [hn] at hsome
        cases hsome
      · change lexFrom 0 offset column ('{' :: '-' :: cs) = _
        rw [lexFrom, scan_blockComment, hread]
        rfl

end ElmTypes
