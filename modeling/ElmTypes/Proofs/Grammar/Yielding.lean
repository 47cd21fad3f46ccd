import ElmTypes.Proofs.Grammar.Reading

namespace ElmTypes.Reader

variable {α β : Type}

def Yields (r : Reader α) (last : Span) (ts rest : List Token) (a : α) : Prop :=
  ∀ expected, ∃ expected',
    r.run ⟨ts ++ rest, expected, last⟩ = .ok a ⟨rest, expected', lastSpanOf last ts⟩

theorem note_eq (e : Expected) (ts : List Token) (expected : List Expected) (last : Span) :
    ∃ expected', Cursor.note e ⟨ts, expected, last⟩ = ⟨ts, expected', last⟩ := by
  unfold Cursor.note
  split
  · exact ⟨expected, rfl⟩
  · exact ⟨_, rfl⟩

section

variable {r : Reader α} {f : α → Reader β} {last : Span} {ts us rest : List Token} {t : Token}
  {a : α} {b : β} {e : Expected}

theorem Yields.pure (a : α) : Yields (pure a) last [] rest a :=
  fun expected => ⟨expected, rfl⟩

theorem Yields.bind (hr : Yields r last ts (us ++ rest) a)
    (hf : Yields (f a) (lastSpanOf last ts) us rest b) :
    Yields (r >>= f) last (ts ++ us) rest b := by
  intro expected
  obtain ⟨expected', hr⟩ := hr expected
  obtain ⟨expected'', hf⟩ := hf expected'
  refine ⟨expected'', ?_⟩
  rw [EStateM.run_bind, List.append_assoc, hr, lastSpanOf_append]
  exact hf

theorem Yields.bind_pure (hr : Yields r last ts rest a) (hf : f a = Pure.pure b) :
    Yields (r >>= f) last ts rest b := by
  intro expected
  obtain ⟨expected', hr⟩ := hr expected
  refine ⟨expected', ?_⟩
  rw [EStateM.run_bind, hr]
  simp only [hf]
  rfl

theorem Yields.bind_nil (hr : Yields r last ts rest a)
    (hf : Yields (f a) (lastSpanOf last ts) [] rest b) : Yields (r >>= f) last ts rest b := by
  rw [← List.append_nil ts]
  exact Yields.bind hr hf

theorem Yields.cons (hr : Yields r last [t] (us ++ rest) a) (hf : Yields (f a) t.span us rest b) :
    Yields (r >>= f) last (t :: us) rest b :=
  @Yields.bind α β r f last [t] us rest a b hr hf

theorem Yields.then (hr : Yields r last [] (us ++ rest) a) (hf : Yields (f a) last us rest b) :
    Yields (r >>= f) last us rest b :=
  @Yields.bind α β r f last [] us rest a b hr hf

theorem yields_take {find : TokenKind → Option α} (h : find t.kind = some a) :
    Yields (take e find) last [t] rest (a, t.span) := by
  intro expected
  refine ⟨[], ?_⟩
  rw [run_take]
  simp only [List.singleton_append, h]
  rfl

theorem yields_lowercaseName {name : String} (h : t.kind.lowercaseName? = some name) :
    Yields lowercaseName last [t] rest (name, t.span) :=
  yields_take h

theorem yields_capitalisedName {name : String} (h : t.kind.capitalisedName? = some name) :
    Yields capitalisedName last [t] rest (name, t.span) :=
  yields_take h

theorem yields_expect (h : e.accepts t.kind = true) : Yields (expect e) last [t] rest t.span := by
  refine Yields.cons (yields_take (a := ()) ?_) (.pure _)
  rw [if_pos h]

theorem yields_declaredName {name : String} (h : Declares t name) :
    Yields declaredName last [t] rest (name, t.span) := by
  refine Yields.cons (yields_capitalisedName h.1) ?_
  have hd : name.toList.contains '.' = false := by simpa using h.2
  simp only [hd, Bool.false_eq_true, if_false]
  exact .pure _

theorem yields_check {found : Bool} (h : (rest.head?.any fun t => e.accepts t.kind) = found) :
    Yields (check e) last [] rest found := by
  intro expected
  obtain ⟨expected', hn⟩ := note_eq e rest expected last
  refine ⟨expected', ?_⟩
  rw [run_check, List.nil_append, hn, ← h]
  rfl

theorem yields_checkInside {found : Bool} (h : opens e rest = found) :
    Yields (checkInside e) last [] rest found := by
  intro expected
  obtain ⟨expected', hn⟩ := note_eq e rest expected last
  refine ⟨expected', ?_⟩
  rw [run_checkInside, accepts_and_not_atBoundary, List.nil_append, hn, ← h]
  rfl

theorem yields_eat_of_opens (h : opens e (t :: rest) = true) :
    Yields (eat e) last [t] rest true := by
  intro expected
  refine ⟨[], ?_⟩
  rw [run_eat, accepts_and_not_atBoundary, List.singleton_append, h, if_pos rfl,
    Cursor.advance_note _ _ (List.cons_ne_nil _ _)]
  rfl

theorem yields_eat_of_not_opens (h : opens e rest = false) : Yields (eat e) last [] rest false := by
  intro expected
  obtain ⟨expected', hn⟩ := note_eq e rest expected last
  refine ⟨expected', ?_⟩
  rw [run_eat, accepts_and_not_atBoundary, List.nil_append, h, hn]
  rfl

theorem yields_lastSpan : Yields lastSpan last [] rest last := fun expected => ⟨expected, rfl⟩

theorem yields_peek : Yields peek last [] rest rest.head? := fun expected => ⟨expected, rfl⟩

theorem yields_peekSecond : Yields peekSecond last [] rest rest[1]? :=
  fun expected => ⟨expected, rfl⟩

theorem yields_nextSpan : Yields nextSpan last [] rest ((rest.head?.map Token.span).getD .empty) :=
  fun expected => ⟨expected, rfl⟩

theorem yields_declarationEnd (h : ∀ t ∈ rest.head?, t.startsDeclaration = true) :
    Yields declarationEnd last [] rest () := by
  intro expected
  have ha : Cursor.atBoundary ⟨[] ++ rest, expected, last⟩ = true := by
    simpa [Cursor.atBoundary, Option.all_eq_true] using h
  refine ⟨expected, ?_⟩
  rw [declarationEnd, EStateM.run_bind, run_atBoundary, ha]
  rfl

theorem yields_bounded {read : Nat → Reader α}
    (h : Yields (read ((ts ++ rest).length + 1)) last ts rest a) :
    Yields (bounded read) last ts rest a :=
  fun expected => h expected

end

inductive Repeats (more : Reader Bool) (item : Reader α) (rest : List Token) :
    List Token → List α → Prop where
  | nil (hm : ∀ last, Yields more last [] rest false) : Repeats more item rest [] []
  | cons {ms us vs : List Token} {a : α} {as : List α}
      (hm : ∀ last, Yields more last ms (us ++ (vs ++ rest)) true)
      (hi : ∀ last, Yields item last us (vs ++ rest) a) (hne : us ≠ [])
      (h : Repeats more item rest vs as) : Repeats more item rest (ms ++ (us ++ vs)) (a :: as)

namespace Repeats

variable {more : Reader Bool} {item : Reader α} {ts us rest : List Token} {a : α} {as : List α}

theorem peeked (hm : ∀ last, Yields more last [] (us ++ (ts ++ rest)) true)
    (hi : ∀ last, Yields item last us (ts ++ rest) a) (hne : us ≠ [])
    (h : Repeats more item rest ts as) : Repeats more item rest (us ++ ts) (a :: as) :=
  @cons _ _ _ _ [] us ts a as hm hi hne h

theorem length_le (h : Repeats more item rest ts as) : as.length ≤ ts.length := by
  induction h with
  | nil => exact Nat.le_refl _
  | cons _ _ hne _ ih =>
      have hus := List.length_pos_iff.2 hne
      simp only [List.length_append, List.length_cons]
      omega

theorem yields_repeatAt (h : Repeats more item rest ts as) {n : Nat} (hn : as.length ≤ n)
    (last : Span) : Yields (repeatAt more item n) last ts rest as := by
  induction h generalizing n last with
  | nil hm =>
      cases n with
      | zero => exact .pure _
      | succ n => exact (hm last).bind_pure rfl
  | @cons ms us vs a as hm hi _ _ ih =>
      obtain ⟨n, rfl⟩ := Nat.exists_eq_add_of_le' hn
      refine Yields.bind (a := true) ?_ ?_
      · rw [List.append_assoc]
        exact hm last
      · refine Yields.bind (hi _) ?_
        exact (ih (Nat.le_add_left _ _) _).bind_pure rfl

theorem yields (h : Repeats more item rest ts as) (last : Span) :
    Yields (repeated more item) last ts rest as := by
  refine yields_bounded (h.yields_repeatAt ?_ last)
  have hl := h.length_le
  rw [List.length_append]
  omega

end Repeats

end ElmTypes.Reader
