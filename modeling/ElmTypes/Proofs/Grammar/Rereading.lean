import ElmTypes.Proofs.Grammar.Follow
import ElmTypes.Proofs.Grammar.Yielding

namespace ElmTypes.Reader

open Cursor

variable {α β : Type}

/-- A reading that goes on with neither of the tokens ahead ends before these as well. -/
structure NoMore (ts us : List Token) : Prop where
  opens : ∀ e, Reader.opens e ts = false → Reader.opens e us = false
  boundary : (∀ t ∈ ts.head?, t.startsDeclaration = true) →
    ∀ t ∈ us.head?, t.startsDeclaration = true

theorem NoMore.of_head? {ts us : List Token} (h : us.head? = ts.head?) : NoMore ts us := by
  constructor
  · intro e he
    rw [← he, Reader.opens, Reader.opens, h]
  · intro hb
    rw [h]
    exact hb

theorem NoMore.nil (ts : List Token) : NoMore ts [] := ⟨fun _ _ => rfl, fun _ => by simp⟩

theorem head?_append_of_ne_nil {ts : List Token} (h : ts ≠ []) (us vs : List Token) :
    (ts ++ us).head? = (ts ++ vs).head? := by
  obtain ⟨t, ts, rfl⟩ := List.exists_cons_of_ne_nil h
  rfl

theorem NoMore.append {ts us : List Token} (h : NoMore ts us) (vs : List Token) :
    NoMore (vs ++ ts) (vs ++ us) := by
  by_cases hvs : vs = []
  · rw [hvs]
    exact h
  · exact .of_head? (head?_append_of_ne_nil hvs us ts)

theorem NoMore.of_starts {us : List Token} (h : ∀ t ∈ us.head?, t.startsDeclaration = true)
    (ts : List Token) : NoMore ts (ts ++ us) := by
  cases ts with
  | cons t ts => exact .of_head? rfl
  | nil =>
      refine ⟨fun e _ => ?_, fun _ => h⟩
      rw [Reader.opens, List.nil_append, Option.any_eq_false]
      intro t ht
      simp [h t ht]

/-- Where the reader succeeds it takes tokens for which `R` holds together with the result, and so
does each reader of the family with a bound above their number, whatever no more than before
follows. -/
def Rereads (r : Reader α) (s : Nat → Reader α) (k : Nat) (R : List Token → α → Prop) : Prop :=
  ∀ c a d, r.run c = .ok a d → ∃ ts, c.Takes ts d ∧ R ts a ∧
    ∀ n rest, ts.length < n + k → NoMore d.ahead rest → Yields (s n) c.last ts rest a

theorem exists_of_run_bind {r : Reader α} {f : α → Reader β} {c e : Cursor} {b : β}
    (h : (r >>= f).run c = .ok b e) : ∃ a d, r.run c = .ok a d ∧ (f a).run d = .ok b e := by
  rw [EStateM.run_bind] at h
  cases hr : r.run c with
  | error x d =>
      rw [hr] at h
      cases h
  | ok a d =>
      rw [hr] at h
      exact ⟨a, d, rfl, h⟩

section

variable {r : Reader α} {s : Nat → Reader α} {f : α → Reader β} {g : Nat → α → Reader β}
  {k : Nat} {P R : List Token → α → Prop} {Q : List Token → β → Prop} {e : Expected}

theorem Rereads.mono (h : Rereads r s k P) (hR : ∀ ts a, P ts a → R ts a) : Rereads r s k R := by
  intro c a d hrun
  obtain ⟨ts, hd, hp, hy⟩ := h c a d hrun
  exact ⟨ts, hd, hR ts a hp, hy⟩

theorem Rereads.pure {a : α} (h : R [] a) : Rereads (pure a) (fun _ => Pure.pure a) k R := by
  intro c a' d hrun
  cases hrun
  exact ⟨[], .refl c, h, fun _ _ _ _ => .pure a⟩

theorem Rereads.bind (hr : Rereads r s k P)
    (hf : ∀ ts a, P ts a → Rereads (f a) (fun n => g n a) k fun us b => Q (ts ++ us) b) :
    Rereads (r >>= f) (fun n => s n >>= g n) k Q := by
  intro c b e hrun
  obtain ⟨a, d, hra, hfb⟩ := exists_of_run_bind hrun
  obtain ⟨ts, hd, hp, hy⟩ := hr c a d hra
  obtain ⟨us, he, hq, hz⟩ := hf ts a hp d b e hfb
  refine ⟨ts ++ us, hd.trans he, hq, fun n rest hn hrest => ?_⟩
  rw [List.length_append] at hn
  apply Yields.bind
  · apply hy n _ (by omega)
    rw [he.ahead]
    exact hrest.append us
  · rw [← hd.last]
    exact hz n rest (by omega) hrest

theorem Rereads.bind_taken (hr : Rereads r s (k + 1) P)
    (hf : ∀ ts a, P ts a → ts ≠ [] ∧ Rereads (f a) (fun n => g n a) k fun us b => Q (ts ++ us) b) :
    Rereads (r >>= f) (fun n => s n >>= g n) (k + 1) Q := by
  intro c b e hrun
  obtain ⟨a, d, hra, hfb⟩ := exists_of_run_bind hrun
  obtain ⟨ts, hd, hp, hy⟩ := hr c a d hra
  obtain ⟨hne, hfa⟩ := hf ts a hp
  obtain ⟨us, he, hq, hz⟩ := hfa d b e hfb
  have hpos := List.length_pos_iff.2 hne
  refine ⟨ts ++ us, hd.trans he, hq, fun n rest hn hrest => ?_⟩
  rw [List.length_append] at hn
  apply Yields.bind
  · apply hy n _ (by omega)
    rw [he.ahead]
    exact hrest.append us
  · rw [← hd.last]
    -- a token has been taken, so what is read after it may have the smaller bound
    exact hz n rest (by omega) hrest

theorem rereads_unexpected : Rereads (unexpected : Reader α) s k R := nofun

theorem rereads_fail {cause : SyntaxCause} {span : Span} :
    Rereads (fail cause span : Reader α) s k R := nofun

theorem Rereads.never (hr : Rereads r s k fun _ _ => False) :
    Rereads (r >>= f) (fun n => s n >>= g n) k Q :=
  hr.bind fun _ _ h => h.elim

theorem rereads_take {find : TokenKind → Option α} : Rereads (take e find) (fun _ => take e find) k
    fun ts p => ∃ t, ts = [t] ∧ find t.kind = some p.1 ∧ t.span = p.2 := by
  intro c a d hrun
  have hread := reads_take e find c
  rw [hrun] at hread
  obtain ⟨_, hd, t, rfl, ht, hspan⟩ := hread
  refine ⟨[t], hd, ⟨t, rfl, ht, hspan⟩, fun n rest _ _ => ?_⟩
  obtain ⟨a, _⟩ := a
  obtain rfl := hspan
  exact yields_take ht

theorem rereads_expect : Rereads (expect e) (fun _ => expect e) k
    fun ts s => ∃ t, ts = [t] ∧ e.accepts t.kind = true ∧ t.span = s := by
  refine rereads_take.bind ?_
  rintro _ ⟨_, s⟩ ⟨t, rfl, ht, rfl⟩
  refine .pure ⟨t, rfl, ?_, rfl⟩
  simpa using ht

theorem rereads_lowercaseName : Rereads lowercaseName (fun _ => lowercaseName) k
    fun ts p => ∃ t, ts = [t] ∧ t.kind.lowercaseName? = some p.1 ∧ t.span = p.2 :=
  rereads_take

theorem rereads_capitalisedName : Rereads capitalisedName (fun _ => capitalisedName) k
    fun ts p => ∃ t, ts = [t] ∧ t.kind.capitalisedName? = some p.1 ∧ t.span = p.2 :=
  rereads_take

theorem rereads_declaredName : Rereads declaredName (fun _ => declaredName) k
    fun ts p => ∃ t, ts = [t] ∧ t.span = p.2 := by
  refine rereads_capitalisedName.bind ?_
  rintro _ ⟨name, s⟩ ⟨t, rfl, -, rfl⟩
  simp only
  split
  · exact .never rereads_fail
  · exact .pure ⟨t, rfl, rfl⟩

theorem rereads_eat : Rereads (eat e) (fun _ => eat e) k fun ts b =>
    (b = true ∧ ∃ t, ts = [t] ∧ e.accepts t.kind = true) ∨ (b = false ∧ ts = []) := by
  intro c b d hrun
  rw [run_eat, accepts_and_not_atBoundary] at hrun
  cases ho : opens e c.ahead with
  | false =>
      rw [ho] at hrun
      cases hrun
      refine ⟨[], takes_note e c, .inr ⟨rfl, rfl⟩, fun n rest _ hrest => ?_⟩
      apply yields_eat_of_not_opens
      rw [ahead_note] at hrest
      exact hrest.opens e ho
  | true =>
      rw [ho] at hrun
      cases hrun
      cases hc : c.ahead with
      | nil => simp [opens, hc] at ho
      | cons t rest =>
          rw [hc, opens_cons, Bool.and_eq_true] at ho
          refine ⟨[t], ?_, .inl ⟨rfl, t, rfl, ho.1⟩, fun n rest _ _ => ?_⟩
          · exact (takes_note e c).trans (takes_advance (by rw [ahead_note, hc]))
          · apply yields_eat_of_opens
            rw [opens_cons, Bool.and_eq_true]
            exact ho

theorem rereads_lastSpan : Rereads lastSpan (fun _ => lastSpan) k fun ts _ => ts = [] := by
  intro c s d hrun
  cases hrun
  exact ⟨[], .refl c, rfl, fun _ _ _ _ => yields_lastSpan⟩

def Looks (r : Reader α) (v : List Token → α) : Prop :=
  ∀ ts last expected, ∃ expected',
    r.run ⟨ts, expected, last⟩ = .ok (v ts) ⟨ts, expected', last⟩

variable {v : List Token → α}

theorem looks_pure (a : α) : Looks (Pure.pure a) fun _ => a := fun _ _ expected => ⟨expected, rfl⟩

theorem looks_note : Looks (note e) fun _ => () := by
  intro ts last expected
  obtain ⟨expected', hn⟩ := note_eq e ts expected last
  exact ⟨expected', by rw [run_note, hn]⟩

theorem looks_peekSecond : Looks peekSecond fun ts => ts[1]? := fun _ _ expected => ⟨expected, rfl⟩

theorem looks_nextSpan : Looks nextSpan fun ts => (ts.head?.map Token.span).getD .empty :=
  fun _ _ expected => ⟨expected, rfl⟩

theorem looks_check : Looks (check e) fun ts => ts.head?.any fun t => e.accepts t.kind := by
  intro ts last expected
  obtain ⟨expected', hn⟩ := note_eq e ts expected last
  exact ⟨expected', by rw [run_check, hn]; rfl⟩

theorem looks_checkInside : Looks (checkInside e) (opens e) := by
  intro ts last expected
  obtain ⟨expected', hn⟩ := note_eq e ts expected last
  exact ⟨expected', by rw [run_checkInside, accepts_and_not_atBoundary, hn]⟩

theorem looks_atBoundary :
    Looks atBoundary fun ts => ts.head?.all Token.startsDeclaration :=
  fun _ _ expected => ⟨expected, rfl⟩

theorem Looks.then {w : α → List Token → β} (hl : Looks r v) (hf : ∀ a, Looks (f a) (w a)) :
    Looks (r >>= f) fun ts => w (v ts) ts := by
  intro ts last expected
  obtain ⟨expected', hr⟩ := hl ts last expected
  obtain ⟨expected'', hw⟩ := hf (v ts) ts last expected'
  exact ⟨expected'', by rw [EStateM.run_bind, hr]; exact hw⟩

theorem Looks.yields (hl : Looks r v) (last : Span) (rest : List Token) :
    Yields r last [] rest (v rest) :=
  hl rest last

theorem Looks.rereads (hl : Looks r v)
    (hf : ∀ ts, Rereads (f (v ts)) (fun n => g n (v ts)) k fun us b =>
      Q us b ∧ ∀ rest rest', us ++ rest = ts → NoMore rest rest' → v (us ++ rest') = v ts) :
    Rereads (r >>= f) (fun n => r >>= g n) k Q := by
  intro c b d hrun
  obtain ⟨a, c', hra, hfb⟩ := exists_of_run_bind hrun
  obtain ⟨expected, hlook⟩ := hl c.ahead c.last c.expected
  rw [hra] at hlook
  obtain ⟨rfl, rfl⟩ := EStateM.Result.ok.inj hlook
  obtain ⟨us, hd, ⟨hq, hv⟩, hy⟩ := hf c.ahead _ b d hfb
  refine ⟨us, ⟨hd.ahead, hd.last⟩, hq, fun n rest hn hrest => ?_⟩
  refine Yields.then (hl.yields _ _) ?_
  rw [hv d.ahead rest hd.ahead.symm hrest]
  exact hy n rest hn hrest

theorem Looks.rereads_head {w : Option Token → α} (hl : Looks r fun ts => w ts.head?)
    (hf : ∀ a, Rereads (f a) (fun n => g n a) k fun us b => us ≠ [] ∧ Q us b) :
    Rereads (r >>= f) (fun n => r >>= g n) k Q := by
  refine hl.rereads fun ts => (hf _).mono ?_
  rintro us b ⟨hne, hq⟩
  refine ⟨hq, ?_⟩
  rintro rest rest' rfl -
  rw [head?_append_of_ne_nil hne rest' rest]

theorem Rereads.checkInside {f : Bool → Reader β} {g : Nat → Bool → Reader β}
    (ht : Rereads (f true) (fun n => g n true) k fun us b => us ≠ [] ∧ Q us b)
    (hf : Rereads (f false) (fun n => g n false) k Q) :
    Rereads (checkInside e >>= f) (fun n => Reader.checkInside e >>= g n) k Q := by
  refine looks_checkInside.rereads fun ts => ?_
  cases ho : opens e ts with
  | true =>
      refine ht.mono ?_
      rintro us b ⟨hne, hq⟩
      refine ⟨hq, ?_⟩
      rintro rest rest' rfl -
      rw [← ho, opens, opens, head?_append_of_ne_nil hne rest' rest]
  | false =>
      refine hf.mono fun us b hq => ⟨hq, ?_⟩
      rintro rest rest' rfl hrest
      exact (hrest.append us).opens e ho

theorem Rereads.declarationEnd {f : Unit → Reader β} {g : Nat → Unit → Reader β}
    (h : Rereads (f ()) (fun n => g n ()) k Q) :
    Rereads (declarationEnd >>= f) (fun n => Reader.declarationEnd >>= g n) k Q := by
  have hend : Rereads Reader.declarationEnd (fun _ => Reader.declarationEnd) k
      fun ts _ => ts = [] := by
    refine looks_atBoundary.rereads fun ts => ?_
    cases hb : ts.head?.all Token.startsDeclaration with
    | false => exact rereads_unexpected
    | true =>
        refine Rereads.pure ⟨rfl, ?_⟩
        rintro rest rest' rfl hrest
        rw [Option.all_eq_true] at hb ⊢
        exact hrest.boundary hb
  refine hend.bind ?_
  rintro _ ⟨⟩ rfl
  exact h

end

def Decides (more : Reader Bool) (M : List Token → Prop) : Prop :=
  ∀ c b d, more.run c = .ok b d → ∃ ts, c.Takes ts d ∧ (if b then M ts else ts = []) ∧
    ∀ rest, (if b then rest.head? = d.ahead.head? else NoMore d.ahead rest) →
      Yields more c.last ts rest b

section

variable {more : Reader Bool} {item : Reader α} {item' : Nat → Reader α} {k : Nat}
  {M : List Token → Prop} {R : List Token → α → Prop} {L : List Token → List α → Prop}

theorem decides_eat {e : Expected} :
    Decides (eat e) fun ts => ∃ t, ts = [t] ∧ e.accepts t.kind = true := by
  intro c b d hrun
  obtain ⟨ts, hd, hts, hy⟩ := rereads_eat (k := 0) c b d hrun
  have hyields (rest : List Token) (h : NoMore d.ahead rest) : Yields (eat e) c.last ts rest b :=
    hy (ts.length + 1) rest (Nat.lt_succ_self _) h
  rcases hts with ⟨rfl, ht⟩ | ⟨rfl, rfl⟩
  · exact ⟨ts, hd, ht, fun rest h => hyields rest (.of_head? h)⟩
  · exact ⟨[], hd, rfl, hyields⟩

theorem Looks.decides {v : List Token → Bool} (hl : Looks more v)
    (hhead : ∀ ts us, us.head? = ts.head? → v us = v ts)
    (hno : ∀ ts us, NoMore ts us → v ts = false → v us = false) :
    Decides more fun ts => ts = [] := by
  intro c b d hrun
  obtain ⟨expected, hlook⟩ := hl c.ahead c.last c.expected
  rw [hrun] at hlook
  obtain ⟨rfl, rfl⟩ := EStateM.Result.ok.inj hlook
  refine ⟨[], .of_same rfl rfl, by simp, fun rest hrest => ?_⟩
  have hv : v rest = v c.ahead := by
    cases hb : v c.ahead with
    | true =>
        rw [hb] at hrest
        rw [← hb]
        exact hhead _ _ hrest
    | false =>
        rw [hb] at hrest
        exact hno _ _ hrest hb
  rw [← hv]
  exact hl.yields c.last rest

theorem rereads_repeatAt (hm : Decides more M)
    (hi : Rereads item item' k fun ts a => ts ≠ [] ∧ R ts a) (hn : L [] [])
    (hc : ∀ us vs ws a as, M us → R vs a → L ws as → L (us ++ (vs ++ ws)) (a :: as))
    {n : Nat} {c d : Cursor} {as : List α} (hbound : c.ahead.length < n)
    (hrun : (repeatAt more item n).run c = .ok as d) :
    ∃ ts, c.Takes ts d ∧ L ts as ∧ ∀ m rest j, ts.length < m + k → ts.length < j →
      NoMore d.ahead rest → Yields (repeatAt more (item' m) j) c.last ts rest as := by
  induction n generalizing c as with
  | zero => exact absurd hbound (Nat.not_lt_zero _)
  | succ n ih =>
      obtain ⟨b, c', hmore, hrest⟩ := exists_of_run_bind hrun
      obtain ⟨us, hus, hM, hym⟩ := hm c b c' hmore
      cases b with
      | false =>
          cases hrest
          obtain rfl : us = [] := hM
          refine ⟨[], hus, hn, fun m rest j _ hj hno => ?_⟩
          obtain ⟨j, rfl⟩ := Nat.exists_eq_add_one_of_ne_zero (Nat.ne_zero_of_lt hj)
          exact (hym rest hno).bind_pure rfl
      | true =>
          obtain ⟨a, c'', hitem, hrest⟩ := exists_of_run_bind hrest
          obtain ⟨as, d', hrep, hrest⟩ := exists_of_run_bind hrest
          cases hrest
          obtain ⟨vs, hvs, ⟨hne, hR⟩, hyi⟩ := hi c' a c'' hitem
          have hpos := List.length_pos_iff.2 hne
          have hlength : c''.ahead.length < n := by
            rw [hus.ahead, hvs.ahead, List.length_append, List.length_append] at hbound
            omega
          obtain ⟨ws, hws, hL, hyr⟩ := ih hlength hrep
          refine ⟨us ++ (vs ++ ws), hus.trans (hvs.trans hws), hc us vs ws a as hM hR hL, ?_⟩
          intro m rest j hlt hj hno
          obtain ⟨j, rfl⟩ := Nat.exists_eq_add_one_of_ne_zero (Nat.ne_zero_of_lt hj)
          rw [List.length_append, List.length_append] at hlt hj
          have hhead : (vs ++ ws ++ rest).head? = c'.ahead.head? := by
            rw [hvs.ahead, List.append_assoc]
            exact head?_append_of_ne_nil hne _ _
          refine .bind (hym _ hhead) (.bind (a := a) ?_ ?_)
          · rw [← hus.last]
            apply hyi m _ (by omega)
            rw [hws.ahead]
            exact hno.append ws
          · rw [← hus.last, ← hvs.last]
            exact (hyr m rest j (by omega) (by omega) hno).bind_pure rfl

theorem rereads_repeated (hm : Decides more M)
    (hi : Rereads item item' k fun ts a => ts ≠ [] ∧ R ts a) (hn : L [] [])
    (hc : ∀ us vs ws a as, M us → R vs a → L ws as → L (us ++ (vs ++ ws)) (a :: as)) :
    Rereads (repeated more item) (fun n => repeated more (item' n)) k L := by
  intro c as d hrun
  rw [repeated, run_bounded] at hrun
  obtain ⟨ts, hd, hL, hy⟩ := rereads_repeatAt hm hi hn hc (Nat.lt_succ_self _) hrun
  refine ⟨ts, hd, hL, fun n rest hlt hno => yields_bounded (hy n rest _ hlt ?_ hno)⟩
  rw [List.length_append]
  omega

theorem rereads_separated {s : Symbol} (hi : Rereads item item' k fun ts a => ts ≠ [] ∧ R ts a)
    (hn : L [] [])
    (hc : ∀ t us ws a as, R us a → L ws as → L (t :: (us ++ ws)) (a :: as)) :
    Rereads (separated s item) (fun n => separated s (item' n)) k fun ts as =>
      ∃ us vs a as', ts = us ++ vs ∧ as = a :: as' ∧ R us a ∧ L vs as' := by
  refine hi.bind fun us a hR => ?_
  have hrest : Rereads (repeated (eat (.symbol s)) item)
      (fun n => repeated (eat (.symbol s)) (item' n)) k L := by
    refine rereads_repeated decides_eat hi hn ?_
    rintro _ vs ws a as ⟨t, rfl, -⟩ hR hL
    exact hc t vs ws a as hR hL
  refine hrest.bind fun vs as hL => .pure ?_
  exact ⟨us, vs, a, as, by simp, rfl, hR.2, hL⟩

end

end ElmTypes.Reader
