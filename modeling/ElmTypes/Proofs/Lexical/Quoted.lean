import ElmTypes.Proofs.Lexical.Locality

namespace ElmTypes.Lexeme.Quoted

theorem isPrefixOf_append_congr {m q x : List Char} (h : m.length ≤ q.length) :
    m.isPrefixOf (q ++ x) = m.isPrefixOf q := by
  rw [Bool.eq_iff_iff, List.isPrefixOf_iff_prefix, List.isPrefixOf_iff_prefix]
  constructor
  · intro hp
    exact List.prefix_of_prefix_length_le hp (List.prefix_append q x) h
  · intro hp
    exact hp.trans (List.prefix_append q x)

theorem prefix_of_append_eq {q x a rest : List Char} (h : q ++ x = a ++ rest)
    (ha : a.length ≤ q.length) : a <+: q :=
  List.prefix_of_prefix_length_le (h ▸ List.prefix_append a rest) (List.prefix_append q x) ha

theorem takeWhile_append_drop (p : Char → Bool) (cs : List Char) :
    cs.takeWhile p ++ cs.drop (cs.takeWhile p).length = cs :=
  List.prefix_iff_eq_append.1 (List.takeWhile_prefix p)

theorem codePoint_eq_ok_iff {cs : List Char} {c : Char} {n : Nat} :
    codePoint cs = .ok (c, n) ↔
      ∃ hex rest, cs = hex ++ '}' :: rest ∧ (∀ d ∈ hex, d ≠ '}' ∧ d ≠ '\n') ∧
        scalar? hex = some c ∧ n = hex.length + 3 := by
  constructor
  · intro h
    simp only [codePoint] at h
    split at h
    · rename_i d hd
      split at h
      · rename_i hclosed
        simp only [Except.ok.injEq, Prod.mk.injEq] at h
        obtain ⟨rest, hrest⟩ := List.head?_eq_some_iff.1 hclosed
        refine ⟨_, rest, (hrest ▸ takeWhile_append_drop _ cs).symm, ?_, h.1 ▸ hd, ?_⟩
        · intro e he
          simpa using List.all_eq_true.1 List.all_takeWhile e he
        · exact h.2.symm
      · simp at h
    · simp at h
  · rintro ⟨hex, rest, rfl, hhex, hc, rfl⟩
    have ht : (hex ++ '}' :: rest).takeWhile (fun c => c != '}' && c != '\n') = hex := by
      rw [List.takeWhile_append_of_pos (by simpa using hhex)]
      simp
    simp [codePoint, ht, hc]

theorem escape_eq_ok_iff {cs : List Char} {c : Char} {n : Nat} :
    escape cs = .ok (c, n) ↔
      (∃ tail, cs = 'u' :: '{' :: tail ∧ codePoint tail = .ok (c, n)) ∨
        ∃ d tail, cs = d :: tail ∧ control? d = some c ∧ n = 1 := by
  fun_cases escape cs with
  | case1 => simp
  | case2 tail => simp [control?]
  | case3 d tail hu e he =>
      constructor
      · intro h
        simp only [Except.ok.injEq, Prod.mk.injEq] at h
        exact .inr ⟨d, tail, rfl, h.1 ▸ he, h.2.symm⟩
      · rintro (⟨tail', hd, -⟩ | ⟨d', tail', hd, hc, rfl⟩)
        · obtain ⟨rfl, rfl⟩ := List.cons.inj hd
          exact absurd rfl (hu tail' rfl)
        · obtain ⟨rfl, rfl⟩ := List.cons.inj hd
          rw [he] at hc
          rw [Option.some.inj hc]
  | case4 d tail hu he =>
      refine iff_of_false (by simp) ?_
      rintro (⟨tail', hd, -⟩ | ⟨d', tail', hd, hc, -⟩)
      · obtain ⟨rfl, rfl⟩ := List.cons.inj hd
        exact absurd rfl (hu tail' rfl)
      · obtain ⟨rfl, rfl⟩ := List.cons.inj hd
        simp [he] at hc

theorem escape_append_congr {q x y : List Char} {c : Char} {n : Nat}
    (h : escape (q ++ x) = .ok (c, n)) (hn : n ≤ q.length) : escape (q ++ y) = .ok (c, n) := by
  rcases escape_eq_ok_iff.1 h with ⟨tail, hq, ht⟩ | ⟨d, tail, hq, hc, rfl⟩
  · obtain ⟨hex, rest, rfl, hhex, hs, rfl⟩ := codePoint_eq_ok_iff.1 ht
    have ha : q ++ x = ('u' :: '{' :: (hex ++ ['}'])) ++ rest := by simpa using hq
    have hl : ('u' :: '{' :: (hex ++ ['}'])).length ≤ q.length := by
      simp only [List.length_cons, List.length_append, List.length_nil]
      omega
    obtain ⟨r, rfl⟩ := prefix_of_append_eq ha hl
    refine escape_eq_ok_iff.2 (.inl ⟨hex ++ '}' :: (r ++ y), by simp, ?_⟩)
    exact codePoint_eq_ok_iff.2 ⟨hex, r ++ y, rfl, hhex, hs, rfl⟩
  · cases q with
    | nil => simp at hn
    | cons e q =>
        obtain ⟨rfl, -⟩ := List.cons.inj hq
        exact escape_eq_ok_iff.2 (.inr ⟨e, q ++ y, rfl, hc, rfl⟩)

theorem prepend_eq_ok_iff {d : Char} {r : Except LexicalError (List Char × Nat)}
    {ds : List Char} {total : Nat} :
    (do let (es, n) ← r; return (d :: es, n)) = Except.ok (ds, total) ↔
      ∃ es, ds = d :: es ∧ r = .ok (es, total) := by
  rcases r with e | ⟨es, n⟩
  · constructor
    · intro h
      cases h
    · rintro ⟨es, -, h⟩
      cases h
  · constructor
    · intro h
      cases h
      exact ⟨es, rfl, rfl⟩
    · rintro ⟨es, rfl, h⟩
      cases h
      rfl

section

variable {k : Quote} {offset total : Nat} {c : Char} {cs ds : List Char}

theorem body_of_mark (h : k.mark.isPrefixOf (c :: cs) = true) :
    body k 0 offset (c :: cs) = .ok ([], offset + k.mark.length) := by
  rw [body, if_pos h]

theorem body_escape_eq_ok_iff (h : k.mark.isPrefixOf ('\\' :: cs) = false) :
    body k 0 offset ('\\' :: cs) = .ok (ds, total) ↔
      ∃ d n es, escape cs = .ok (d, n) ∧ ds = d :: es ∧
        body k n (offset + 1) cs = .ok (es, total) := by
  rw [body, if_neg (by simp [h]), if_pos rfl]
  rcases he : escape cs with e | ⟨d, n⟩
  · simp
  · refine prepend_eq_ok_iff.trans ⟨?_, ?_⟩
    · rintro ⟨es, rfl, hb⟩
      exact ⟨d, n, es, rfl, rfl, hb⟩
    · rintro ⟨d', n', es, he', rfl, hb⟩
      cases he'
      exact ⟨es, rfl, hb⟩

theorem body_plain_eq_ok_iff (h : k.mark.isPrefixOf (c :: cs) = false) (hc : c ≠ '\\') :
    body k 0 offset (c :: cs) = .ok (ds, total) ↔
      (c = '\n' → k.spansLines = true) ∧
        ∃ es, ds = c :: es ∧ body k 0 (offset + 1) cs = .ok (es, total) := by
  rw [body, if_neg (by simp [h]), if_neg hc]
  by_cases hn : c = '\n' ∧ k.spansLines = false
  · simp [hn]
  · have hs : c = '\n' → k.spansLines = true := by simpa using hn
    rw [if_neg (by simpa using hs), prepend_eq_ok_iff]
    exact ⟨fun h => ⟨hs, h⟩, fun h => h.2⟩

end

theorem body_pending (q : Quote) (offset : Nat) (u cs : List Char) :
    body q u.length offset (u ++ cs) = body q 0 (offset + u.length) cs := by
  induction u generalizing offset with
  | nil => rfl
  | cons c u ih =>
      rw [List.length_cons, List.cons_append, body, ih, Nat.add_assoc, Nat.add_comm 1]

theorem length_le_of_isPrefixOf {m cs : List Char} (h : m.isPrefixOf cs = true) :
    m.length ≤ cs.length :=
  (List.isPrefixOf_iff_prefix.1 h).length_le

theorem bounds_of_body_eq_ok {k : Quote} {pending offset total : Nat} {cs ds : List Char}
    (h : body k pending offset cs = .ok (ds, total)) :
    offset + pending + k.mark.length ≤ total ∧ total ≤ offset + cs.length := by
  induction cs generalizing pending offset ds with
  | nil => cases pending <;> cases h
  | cons c cs ih =>
      rw [List.length_cons]
      cases pending with
      | succ pending =>
          have := ih h
          omega
      | zero =>
          cases hm : k.mark.isPrefixOf (c :: cs) with
          | true =>
              have hl := length_le_of_isPrefixOf hm
              rw [body_of_mark hm] at h
              cases h
              rw [List.length_cons] at hl
              omega
          | false =>
              by_cases hc : c = '\\'
              · subst hc
                obtain ⟨d, n, es, -, -, hb⟩ := (body_escape_eq_ok_iff hm).1 h
                have := ih hb
                omega
              · obtain ⟨-, es, -, hb⟩ := (body_plain_eq_ok_iff hm hc).1 h
                have := ih hb
                omega

theorem body_append_congr {k : Quote} {pending offset total : Nat} {q x y ds : List Char}
    (h : body k pending offset (q ++ x) = .ok (ds, total)) (ht : total ≤ offset + q.length) :
    body k pending offset (q ++ y) = .ok (ds, total) := by
  induction q generalizing pending offset ds with
  | nil =>
      have hb := bounds_of_body_eq_ok h
      have hm : 0 < k.mark.length := by cases k <;> decide
      rw [List.length_nil] at ht
      omega
  | cons c q ih =>
      rw [List.length_cons] at ht
      rw [List.cons_append] at h ⊢
      cases pending with
      | succ pending => exact ih h (by omega)
      | zero =>
          have hm : k.mark.isPrefixOf (c :: (q ++ y)) = k.mark.isPrefixOf (c :: (q ++ x)) := by
            have hl : k.mark.length ≤ (c :: q).length := by
              have := bounds_of_body_eq_ok h
              rw [List.length_cons]
              omega
            rw [← List.cons_append, ← List.cons_append, isPrefixOf_append_congr hl,
              isPrefixOf_append_congr hl]
          cases hp : k.mark.isPrefixOf (c :: (q ++ x)) with
          | true =>
              rw [body_of_mark hp] at h
              rw [body_of_mark (hm.trans hp)]
              exact h
          | false =>
              by_cases hc : c = '\\'
              · subst hc
                obtain ⟨d, n, es, he, rfl, hb⟩ := (body_escape_eq_ok_iff hp).1 h
                have hn : n ≤ q.length := by
                  have := bounds_of_body_eq_ok hb
                  omega
                refine (body_escape_eq_ok_iff (hm.trans hp)).2
                  ⟨d, n, es, escape_append_congr he hn, rfl, ih hb (by omega)⟩
              · obtain ⟨hs, es, rfl, hb⟩ := (body_plain_eq_ok_iff hp hc).1 h
                exact (body_plain_eq_ok_iff (hm.trans hp) hc).2 ⟨hs, es, rfl, ih hb (by omega)⟩

def opening (cs : List Char) : Quote := if ['"', '"'].isPrefixOf cs then .triple else .double

theorem opening_append_congr {q x y : List Char} (hy : Delimits y) (hq : 1 ≤ q.length)
    (ht : opening (q ++ x) = .triple → 2 ≤ q.length) : opening (q ++ y) = opening (q ++ x) := by
  by_cases hl : 2 ≤ q.length
  · have hm : (['"', '"'] : List Char).length ≤ q.length := hl
    simp only [opening, isPrefixOf_append_congr hm]
  · obtain ⟨c, rfl⟩ := List.length_eq_one_iff.1 (by omega : q.length = 1)
    have hx : (['"', '"'] : List Char).isPrefixOf ([c] ++ x) = false := by
      rw [Bool.eq_false_iff]
      intro h
      exact hl (ht (if_pos h))
    -- two marks and no third one: the empty string
    have hyn : (['"', '"'] : List Char).isPrefixOf ([c] ++ y) = false := by
      cases y with
      | nil => simp [List.isPrefixOf]
      | cons d y =>
          have hd : d ≠ '"' := by
            rintro rfl
            have := hy '"' rfl
            revert this
            decide
          simp [List.isPrefixOf, Ne.symm hd]
    rw [opening, opening, hx, hyn]

theorem readString_eq_ok_iff {cs : List Char} {l : Lexeme} :
    readString cs = .ok l ↔
      ∃ text total, l = ⟨some (.string (String.ofList text)), total - 1⟩ ∧
        body (opening cs) 0 (opening cs).mark.length (cs.drop ((opening cs).mark.length - 1)) =
          .ok (text, total) := by
  have hr : readString cs = (do
      let (text, total) ← body (opening cs) 0 (opening cs).mark.length
        (cs.drop ((opening cs).mark.length - 1))
      return ⟨some (.string (String.ofList text)), total - 1⟩) := rfl
  rw [hr]
  rcases body (opening cs) 0 (opening cs).mark.length
    (cs.drop ((opening cs).mark.length - 1)) with e | ⟨text, total⟩
  · constructor
    · intro h
      cases h
    · rintro ⟨text, total, -, h⟩
      cases h
  · constructor
    · intro h
      cases h
      exact ⟨text, total, rfl, rfl⟩
    · rintro ⟨text', total', rfl, h⟩
      cases h
      rfl

theorem readString_append_congr {q x y : List Char} {l : Lexeme} (hy : Delimits y)
    (h : readString (q ++ x) = .ok l) (hl : l.tail ≤ q.length) : readString (q ++ y) = .ok l := by
  obtain ⟨text, total, rfl, hb⟩ := readString_eq_ok_iff.1 h
  have hbounds := bounds_of_body_eq_ok hb
  have hm : 1 ≤ (opening (q ++ x)).mark.length := by
    cases opening (q ++ x) <;> decide
  have hq : (opening (q ++ x)).mark.length - 1 ≤ q.length := by
    simp only at hl
    omega
  have ho : opening (q ++ y) = opening (q ++ x) := by
    refine opening_append_congr hy ?_ ?_
    · simp only at hl
      omega
    · intro ht
      rw [ht] at hq
      exact hq
  refine readString_eq_ok_iff.2 ⟨text, total, rfl, ?_⟩
  rw [List.drop_append_of_le_length hq] at hb
  rw [ho, List.drop_append_of_le_length hq]
  refine body_append_congr hb ?_
  simp only at hl
  rw [List.length_drop]
  omega

theorem readChar_eq_ok_iff {cs : List Char} {l : Lexeme} :
    readChar cs = .ok l ↔
      ∃ c total, l = ⟨some (.char c), total - 1⟩ ∧ body .apostrophe 0 1 cs = .ok ([c], total) := by
  rw [readChar]
  rcases body .apostrophe 0 1 cs with e | ⟨text, total⟩
  · constructor
    · intro h
      cases h
    · rintro ⟨c, total, -, h⟩
      cases h
  · constructor
    · intro h
      rcases text with _ | ⟨c, _ | ⟨d, text⟩⟩ <;> cases h
      exact ⟨c, total, rfl, rfl⟩
    · rintro ⟨c, total', rfl, h⟩
      cases h
      rfl

theorem readChar_append_congr {q x y : List Char} {l : Lexeme}
    (h : readChar (q ++ x) = .ok l) (hl : l.tail ≤ q.length) : readChar (q ++ y) = .ok l := by
  obtain ⟨c, total, rfl, hb⟩ := readChar_eq_ok_iff.1 h
  refine readChar_eq_ok_iff.2 ⟨c, total, rfl, body_append_congr hb ?_⟩
  simp only at hl
  omega

end ElmTypes.Lexeme.Quoted
