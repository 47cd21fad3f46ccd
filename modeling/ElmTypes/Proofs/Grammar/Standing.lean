import ElmTypes.Proofs.Grammar.Completeness
import ElmTypes.Proofs.Grammar.Rereading
import ElmTypes.Proofs.Source.Parts

namespace ElmTypes

open Reader

def TypeExpr.StandsIn (ts : List Token) (e : TypeExpr) : Prop :=
  ∃ us last, us <:+: ts ∧ Yields typeExpr last us [] e

namespace TypeExpr

variable {e : TypeExpr} {ts us : List Token}

theorem All.standsIn (h : e.All (StandsIn ts)) (hts : ts <:+: us) : e.All (StandsIn us) :=
  h.mono fun _ ⟨vs, last, hvs, hy⟩ => ⟨vs, last, hvs.trans hts, hy⟩

structure Holds (ts : List Token) (e : TypeExpr) : Prop where
  ne_nil : ts ≠ []
  parts : ∀ a ∈ e.parts, a.All (StandsIn ts)

structure Stands (ts : List Token) (e : TypeExpr) : Prop where
  ne_nil : ts ≠ []
  all : e.All (StandsIn ts)

theorem Stands.holds (h : e.Stands ts) : e.Holds ts := ⟨h.ne_nil, h.all.parts⟩

end TypeExpr

namespace Reader

open TypeExpr

variable {α : Type} {n k : Nat} {last : Span} {ts us rest rest' : List Token}

theorem Yields.unique {r : Reader α} {a b : α} (h : Yields r last ts rest a)
    (h' : Yields r last us rest' b) (hts : ts ++ rest = us ++ rest') : a = b ∧ rest = rest' := by
  obtain ⟨expected, hrun⟩ := h []
  obtain ⟨expected', hrun'⟩ := h' []
  rw [hts, hrun'] at hrun
  simp only [EStateM.Result.ok.injEq, Cursor.mk.injEq] at hrun
  exact ⟨hrun.1.symm, hrun.2.1.symm⟩

theorem exists_of_opens_capitalisedName (h : opens .capitalisedName ts = true) :
    ∃ t us name, ts = t :: us ∧ t.kind.capitalisedName? = some name ∧
      t.startsDeclaration = false := by
  cases ts with
  | nil => cases h
  | cons t us =>
      rw [opens_cons, Bool.and_eq_true, Bool.not_eq_true'] at h
      obtain ⟨name, hname⟩ := Option.isSome_iff_exists.1 h.1
      exact ⟨t, us, name, rfl, hname, h.2⟩

theorem yields_application_of_atom {a : TypeExpr}
    (h : Yields (atom (typeExprAt n)) last ts [] a) :
    Yields (application (typeExprAt n)) last ts [] a := by
  cases ho : opens .capitalisedName ts with
  | false =>
      refine .then (a := false) (yields_checkInside ?_) h
      rw [List.append_nil]
      exact ho
  -- only for a name the two readers go different ways
  | true =>
      obtain ⟨t, us, name, rfl, ht, hin⟩ := exists_of_opens_capitalisedName ho
      have hinside : Inside [t] := List.forall_mem_singleton.2 hin
      have hname := yields_atom (accepts_typeExprAt n) (.named ht) hinside
        (Nat.le_add_left 1 n) us last
      obtain ⟨rfl, rfl⟩ := h.unique hname (List.append_nil _)
      exact yields_application (accepts_typeExprAt n) (.ofAtom (.named ht)) hinside
        (Nat.le_add_left 1 n) rfl last

theorem yields_arrow_of_application {a : TypeExpr}
    (h : Yields (application (typeExprAt n)) last ts [] a) :
    Yields (arrow (typeExprAt n)) last ts [] a := by
  have hnone : Yields (eat (.symbol .arrow)) (lastSpanOf last ts) [] [] false :=
    yields_eat_of_not_opens rfl
  exact .bind_nil h (hnone.bind_pure rfl)

theorem Rereads.stands {r : Reader TypeExpr} {s : Nat → Reader TypeExpr}
    (h : Rereads r s 1 Holds)
    (hs : ∀ n last ts a, Yields (s n) last ts [] a → Yields (arrow (typeExprAt n)) last ts [] a) :
    Rereads r s 1 Stands := by
  intro c a d hrun
  obtain ⟨ts, hd, ⟨hne, hparts⟩, hy⟩ := h c a d hrun
  have harrow := hs ts.length c.last ts a (hy _ [] (Nat.lt_succ_self _) (.nil _))
  refine ⟨ts, hd, ⟨hne, .mk ⟨ts, c.last, List.infix_rfl, yields_bounded ?_⟩ hparts⟩, hy⟩
  rw [List.append_nil]
  exact harrow

section

variable {inner : Reader TypeExpr} (hi : Rereads inner typeExprAt 0 Stands)

include hi

theorem rereads_recordField :
    Rereads (recordField inner) (fun n => recordField (typeExprAt n)) 0 fun ts f =>
      2 ≤ ts.length ∧ f.type.All (StandsIn ts) := by
  refine rereads_lowercaseName.bind ?_
  rintro _ ⟨name, s⟩ ⟨t, rfl, -, rfl⟩
  refine rereads_expect.bind ?_
  rintro _ _ ⟨u, rfl, -, rfl⟩
  refine hi.bind fun ts a ha => .pure ⟨by simp, ha.all.standsIn ?_⟩
  simpa using List.infix_append [t, u] ts []

theorem rereads_fields :
    Rereads (separated .comma (recordField inner))
      (fun n => separated .comma (recordField (typeExprAt n))) 0 fun ts fs =>
        2 ≤ ts.length ∧ ∀ a ∈ fs.map RecordField.type, a.All (StandsIn ts) := by
  have hfield : Rereads (recordField inner) (fun n => recordField (typeExprAt n)) 0 fun ts f =>
      ts ≠ [] ∧ 2 ≤ ts.length ∧ f.type.All (StandsIn ts) :=
    (rereads_recordField hi).mono fun ts f hf =>
      ⟨List.ne_nil_of_length_pos (by omega), hf⟩
  refine (rereads_separated (L := fun ts fs => ∀ f ∈ fs, f.type.All (StandsIn ts)) hfield (by simp)
    ?_).mono ?_
  · intro t us ws f fs hf hfs
    refine List.forall_mem_cons.2 ⟨hf.2.standsIn ⟨[t], ws, by simp⟩, fun g hg => ?_⟩
    exact (hfs g hg).standsIn ⟨t :: us, [], by simp⟩
  · rintro _ _ ⟨us, vs, f, fs, rfl, rfl, ⟨hlength, hf⟩, hfs⟩
    refine ⟨?_, List.forall_mem_map.2 (List.forall_mem_cons.2 ⟨?_, fun g hg => ?_⟩)⟩
    · rw [List.length_append]
      omega
    · exact hf.standsIn (List.prefix_append us vs).isInfix
    · exact (hfs g hg).standsIn (List.suffix_append us vs).isInfix

end

theorem Rereads.recordBase? {β : Type} {f : Option String → Reader β}
    {g : Nat → Option String → Reader β} {Q : List Token → β → Prop}
    (hnone : Rereads (f none) (fun n => g n none) k fun us b => 2 ≤ us.length ∧ Q us b)
    (hsome : ∀ base, Rereads (f (some base)) (fun n => g n (some base)) k fun us b =>
      ∀ t u, Q (t :: u :: us) b) :
    Rereads (recordBase? >>= f) (fun n => Reader.recordBase? >>= g n) k Q := by
  have hbase (named : Bool) (second : Option Token) :
      Rereads ((if named && second.any (·.kind == .symbol .bar) then do
          let p ← lowercaseName
          let _ ← expect (.symbol .bar)
          return some p.1
        else return none) >>= f)
        (fun n => (if named && second.any (·.kind == .symbol .bar) then do
          let p ← lowercaseName
          let _ ← expect (.symbol .bar)
          return some p.1
        else return none) >>= g n) k fun us b => 2 ≤ us.length ∧ Q us b := by
    split
    · simp only [bind_assoc, pure_bind]
      refine rereads_lowercaseName.bind ?_
      rintro _ ⟨base, s⟩ ⟨t, rfl, -, rfl⟩
      refine rereads_expect.bind ?_
      rintro _ _ ⟨u, rfl, -, rfl⟩
      refine (hsome base).mono fun us b hb => ⟨by simp, ?_⟩
      exact hb t u
    · simp only [pure_bind]
      exact hnone
  simp only [Reader.recordBase?, bind_assoc]
  refine looks_check.rereads_head fun named => looks_peekSecond.rereads fun ts => ?_
  refine (hbase named ts[1]?).mono ?_
  rintro us b ⟨hlength, hq⟩
  refine ⟨⟨List.ne_nil_of_length_pos (by omega), hq⟩, ?_⟩
  rintro rest rest' rfl -
  rw [List.getElem?_append_left hlength, List.getElem?_append_left hlength]

section

variable {inner : Reader TypeExpr} (hi : Rereads inner typeExprAt 0 Stands)

include hi

theorem rereads_recordType :
    Rereads (recordType inner) (fun n => recordType (typeExprAt n)) 1 Holds := by
  refine rereads_expect.bind_taken ?_
  rintro _ s ⟨t, rfl, -, rfl⟩
  refine ⟨List.cons_ne_nil t [], rereads_eat.bind ?_⟩
  rintro _ _ (⟨rfl, u, rfl, -⟩ | ⟨rfl, rfl⟩)
  · refine rereads_lastSpan.bind ?_
    rintro _ s rfl
    exact .pure ⟨by simp, by simp [parts]⟩
  · have hfields := rereads_fields hi
    refine .recordBase? ?_ fun base => ?_
    · refine hfields.bind ?_
      rintro ts fs ⟨hlength, hfs⟩
      refine rereads_expect.bind ?_
      rintro _ _ ⟨u, rfl, -, rfl⟩
      refine .pure ⟨?_, by simp, fun a ha => ?_⟩
      · rw [List.length_append]
        omega
      · exact (hfs a ha).standsIn ⟨[t], [u], by simp⟩
    · refine hfields.bind ?_
      rintro ts fs ⟨-, hfs⟩
      refine rereads_expect.bind ?_
      rintro _ _ ⟨u, rfl, -, rfl⟩
      refine .pure fun v w => ⟨by simp, fun a ha => ?_⟩
      exact (hfs a ha).standsIn ⟨[t, v, w], [u], by simp⟩

omit hi in
theorem decides_atAtom : Decides atAtom fun ts => ts = [] := by
  refine Looks.decides (v := opensAtom) (fun ts last => yields_atAtom last ts) ?_ ?_
  · intro ts us h
    have ho (e : Expected) : opens e us = opens e ts := by rw [opens, opens, h]
    simp only [opensAtom, ho]
  · intro ts us h hts
    simp only [opensAtom, List.any_eq_false, Bool.not_eq_true] at hts ⊢
    exact fun e he => h.opens e (hts e he)

theorem rereads_elements :
    Rereads (repeated (eat (.symbol .comma)) inner)
      (fun n => repeated (eat (.symbol .comma)) (typeExprAt n)) 0 fun ts as =>
        ∀ a ∈ as, a.All (StandsIn ts) := by
  refine rereads_repeated (R := fun ts a => a.All (StandsIn ts)) decides_eat
    (hi.mono fun ts a ha => ⟨ha.ne_nil, ha.all⟩) (by simp) ?_
  intro us vs ws a as _ ha has
  refine List.forall_mem_cons.2 ⟨ha.standsIn ⟨us, ws, by simp⟩, fun b hb => ?_⟩
  exact (has b hb).standsIn ⟨us ++ vs, [], by simp⟩

theorem rereads_parenthesized :
    Rereads (parenthesized inner) (fun n => parenthesized (typeExprAt n)) 1 Holds := by
  refine rereads_expect.bind_taken ?_
  rintro _ s ⟨t, rfl, -, rfl⟩
  refine ⟨List.cons_ne_nil t [], rereads_eat.bind ?_⟩
  rintro _ _ (⟨rfl, u, rfl, -⟩ | ⟨rfl, rfl⟩)
  · refine rereads_lastSpan.bind ?_
    rintro _ s rfl
    exact .pure ⟨by simp, by simp [parts]⟩
  · refine hi.bind fun ts a ha => .checkInside ?_ ?_
    · refine (rereads_elements hi).bind fun us as has => rereads_expect.bind ?_
      rintro _ _ ⟨u, rfl, -, rfl⟩
      refine .pure ⟨by simp, by simp, List.forall_mem_cons.2 ⟨?_, fun b hb => ?_⟩⟩
      · exact ha.all.standsIn ⟨[t], us ++ [u], by simp⟩
      · exact (has b hb).standsIn ⟨t :: ts, [u], by simp⟩
    · refine rereads_expect.bind ?_
      rintro _ _ ⟨u, rfl, -, rfl⟩
      refine .pure ⟨by simp, fun b hb => ?_⟩
      rw [parts_withSpan] at hb
      exact (ha.all.parts b hb).standsIn ⟨[t], [u], by simp⟩

theorem rereads_atom : Rereads (atom inner) (fun n => atom (typeExprAt n)) 1 Stands := by
  refine Rereads.stands ?_ fun n last ts a hy =>
    yields_arrow_of_application (yields_application_of_atom hy)
  have hne {r : Reader TypeExpr} {s : Nat → Reader TypeExpr} (h : Rereads r s 1 Holds) :
      Rereads r s 1 fun ts a => ts ≠ [] ∧ a.Holds ts :=
    h.mono fun ts a ha => ⟨ha.ne_nil, ha⟩
  refine .checkInside (hne ?_) (.checkInside (hne ?_) (.checkInside (hne ?_)
    (.checkInside (hne ?_) ?_)))
  · refine rereads_lowercaseName.bind ?_
    rintro _ ⟨name, s⟩ ⟨t, rfl, -, rfl⟩
    exact .pure ⟨by simp, by simp [parts]⟩
  · refine rereads_capitalisedName.bind ?_
    rintro _ ⟨name, s⟩ ⟨t, rfl, -, rfl⟩
    exact .pure ⟨by simp, by simp [parts]⟩
  · exact rereads_parenthesized hi
  · exact rereads_recordType hi
  · exact looks_note.rereads fun ts => rereads_unexpected

theorem rereads_typeArguments :
    Rereads (typeArguments inner) (fun n => typeArguments (typeExprAt n)) 1 fun ts as =>
      ∀ a ∈ as, a.All (StandsIn ts) := by
  refine rereads_repeated (R := fun ts a => a.All (StandsIn ts)) decides_atAtom
    ((rereads_atom hi).mono fun ts a ha => ⟨ha.ne_nil, ha.all⟩) (by simp) ?_
  rintro us vs ws a as rfl ha has
  refine List.forall_mem_cons.2 ⟨ha.standsIn ⟨[], ws, by simp⟩, fun b hb => ?_⟩
  exact (has b hb).standsIn ⟨vs, [], by simp⟩

theorem rereads_application :
    Rereads (application inner) (fun n => application (typeExprAt n)) 1 Stands := by
  refine Rereads.stands ?_ fun n last ts a hy => yields_arrow_of_application hy
  refine .checkInside ?_ ((rereads_atom hi).mono fun ts a ha => ha.holds)
  refine rereads_capitalisedName.bind ?_
  rintro _ ⟨name, s⟩ ⟨t, rfl, -, rfl⟩
  refine (rereads_typeArguments hi).bind fun ts as has => .pure ⟨by simp, by simp, fun a ha => ?_⟩
  exact (has a ha).standsIn ⟨[t], [], by simp⟩

theorem rereads_arrow : Rereads (arrow inner) (fun n => arrow (typeExprAt n)) 1 Stands := by
  refine Rereads.stands ?_ fun n last ts a hy => hy
  refine (rereads_application hi).bind_taken fun ts a ha => ⟨ha.ne_nil, rereads_eat.bind ?_⟩
  rintro _ _ (⟨rfl, t, rfl, -⟩ | ⟨rfl, rfl⟩)
  · refine hi.bind fun us b hb => .pure ⟨by simp, ?_⟩
    refine List.forall_mem_cons.2 ⟨?_, List.forall_mem_singleton.2 ?_⟩
    · exact ha.all.standsIn ⟨[], t :: us, by simp⟩
    · exact hb.all.standsIn ⟨ts ++ [t], [], by simp⟩
  · refine .pure ?_
    rw [List.append_nil, List.append_nil]
    exact ha.holds

end

theorem rereads_typeExprAt (n : Nat) : Rereads (typeExprAt n) typeExprAt 0 Stands := by
  induction n with
  | zero => exact rereads_unexpected
  | succ n ih =>
      intro c a d hrun
      obtain ⟨ts, hd, ha, hy⟩ := rereads_arrow ih c a d hrun
      refine ⟨ts, hd, ha, fun m rest hm hno => ?_⟩
      obtain ⟨m, rfl⟩ := Nat.exists_eq_add_one_of_ne_zero (Nat.ne_zero_of_lt hm)
      exact hy m rest hm hno

theorem rereads_typeExpr : Rereads typeExpr typeExprAt 0 Stands :=
  fun c => rereads_typeExprAt (c.ahead.length + 1) c

end Reader

end ElmTypes
