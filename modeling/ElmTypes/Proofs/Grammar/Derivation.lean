import ElmTypes.Grammar.TypeExpr
import ElmTypes.Proofs.Grammar.Reading

namespace ElmTypes

inductive Phrase where
  | type (e : TypeExpr)
  | application (e : TypeExpr)
  | atom (e : TypeExpr)
  | arguments (es : List TypeExpr)
  | elements (es : List TypeExpr)
  | field (f : RecordField TypeExpr)
  | fields (fs : List (RecordField TypeExpr))

open Reader in
inductive Derives : List Token → Phrase → Prop where
  | function {ts us : List Token} {t : Token} {a b : TypeExpr}
      (ha : Derives ts (.application a)) (ht : t.kind = .symbol .arrow)
      (hb : Derives us (.type b)) :
      Derives (ts ++ t :: us) (.type (.function a b (a.span.hull b.span)))
  | ofApplication {ts : List Token} {a : TypeExpr} (ha : Derives ts (.application a)) :
      Derives ts (.type a)
  | applied {t : Token} {ts : List Token} {name : String} {as : List TypeExpr}
      (ht : t.kind.capitalisedName? = some name) (has : Derives ts (.arguments as)) :
      Derives (t :: ts) (.application (.named (.ofWord name t.span) as (hullAll t.span as)))
  | ofAtom {ts : List Token} {a : TypeExpr} (ha : Derives ts (.atom a)) :
      Derives ts (.application a)
  | typeVariable {t : Token} {name : String} (ht : t.kind.lowercaseName? = some name) :
      Derives [t] (.atom (.variable name t.span))
  | named {t : Token} {name : String} (ht : t.kind.capitalisedName? = some name) :
      Derives [t] (.atom (.named (.ofWord name t.span) [] t.span))
  | unit {l r : Token} (hl : l.kind = .opening .round) (hr : r.kind = .closing .round) :
      Derives [l, r] (.atom (.unit (l.span.hull r.span)))
  | parenthesized {l r : Token} {ts : List Token} {a : TypeExpr} (hl : l.kind = .opening .round)
      (ha : Derives ts (.type a)) (hr : r.kind = .closing .round) :
      Derives (l :: (ts ++ [r])) (.atom (a.withSpan (l.span.hull r.span)))
  | tuple {l r : Token} {ts us : List Token} {a b : TypeExpr} {bs : List TypeExpr}
      (hl : l.kind = .opening .round) (ha : Derives ts (.type a))
      (hb : Derives us (.elements (b :: bs))) (hr : r.kind = .closing .round) :
      Derives (l :: (ts ++ (us ++ [r]))) (.atom (.tuple (a :: b :: bs) (l.span.hull r.span)))
  | emptyRecord {l r : Token} (hl : l.kind = .opening .brace) (hr : r.kind = .closing .brace) :
      Derives [l, r] (.atom (.record [] (l.span.hull r.span)))
  | record {l r : Token} {ts us : List Token} {f : RecordField TypeExpr}
      {fs : List (RecordField TypeExpr)} (hl : l.kind = .opening .brace)
      (hf : Derives ts (.field f)) (hfs : Derives us (.fields fs)) (hr : r.kind = .closing .brace) :
      Derives (l :: (ts ++ (us ++ [r]))) (.atom (.record (f :: fs) (l.span.hull r.span)))
  | extensible {l n t r : Token} {ts us : List Token} {base : String} {f : RecordField TypeExpr}
      {fs : List (RecordField TypeExpr)} (hl : l.kind = .opening .brace)
      (hn : n.kind.lowercaseName? = some base) (ht : t.kind = .symbol .bar)
      (hf : Derives ts (.field f)) (hfs : Derives us (.fields fs)) (hr : r.kind = .closing .brace) :
      Derives (l :: n :: t :: (ts ++ (us ++ [r])))
        (.atom (.extensible base (f :: fs) (l.span.hull r.span)))
  | noArguments : Derives [] (.arguments [])
  | argument {ts us : List Token} {a : TypeExpr} {as : List TypeExpr} (ha : Derives ts (.atom a))
      (has : Derives us (.arguments as)) : Derives (ts ++ us) (.arguments (a :: as))
  | noElements : Derives [] (.elements [])
  | element {t : Token} {ts us : List Token} {a : TypeExpr} {as : List TypeExpr}
      (ht : t.kind = .symbol .comma) (ha : Derives ts (.type a)) (has : Derives us (.elements as)) :
      Derives (t :: (ts ++ us)) (.elements (a :: as))
  | field {n t : Token} {ts : List Token} {name : String} {a : TypeExpr}
      (hn : n.kind.lowercaseName? = some name) (ht : t.kind = .symbol .colon)
      (ha : Derives ts (.type a)) :
      Derives (n :: t :: ts) (.field ⟨name, a, n.span.hull a.span⟩)
  | noFields : Derives [] (.fields [])
  | fields {t : Token} {ts us : List Token} {f : RecordField TypeExpr}
      {fs : List (RecordField TypeExpr)} (ht : t.kind = .symbol .comma)
      (hf : Derives ts (.field f)) (hfs : Derives us (.fields fs)) :
      Derives (t :: (ts ++ us)) (.fields (f :: fs))

theorem Token.exists_bracketed {k k' : TokenKind} {ks : List TokenKind} {ts : List Token}
    (h : ts.map Token.kind = k :: (ks ++ [k'])) :
    ∃ l us r, ts = l :: (us ++ [r]) ∧ l.kind = k ∧ us.map Token.kind = ks ∧ r.kind = k' := by
  obtain ⟨l, vs, rfl, hl, hvs⟩ := List.map_eq_cons_iff.1 h
  obtain ⟨us, ws, rfl, hus, hws⟩ := List.map_eq_append_iff.1 hvs
  obtain ⟨r, rfl, hr⟩ := List.map_eq_singleton_iff.1 hws
  exact ⟨l, us, r, rfl, hl, hus, hr⟩

namespace Expected

theorem accepts_symbol_iff {s : Symbol} {k : TokenKind} :
    (symbol s).accepts k = true ↔ k = .symbol s := by
  cases k <;> simp [accepts]

theorem accepts_opening_iff {b : Bracket} {k : TokenKind} :
    (opening b).accepts k = true ↔ k = .opening b := by
  cases k <;> simp [accepts]

theorem accepts_closing_iff {b : Bracket} {k : TokenKind} :
    (closing b).accepts k = true ↔ k = .closing b := by
  cases k <;> simp [accepts]

end Expected

namespace Reader

variable {inner : Reader TypeExpr}

theorem peeks_atAtom : Peeks atAtom := by
  refine (peeks_checkInside _).then fun b => ?_
  cases b with
  | true => exact peeks_pure true
  | false =>
      refine (peeks_checkInside _).then fun b => ?_
      cases b with
      | true => exact peeks_pure true
      | false =>
          refine (peeks_checkInside _).then fun b => ?_
          cases b with
          | true => exact peeks_pure true
          | false => exact peeks_checkInside _

theorem reads_recordField (hi : Reads inner fun ts a => Derives ts (.type a)) :
    Reads (recordField inner) fun ts f => Derives ts (.field f) := by
  refine .of_after fun c => reads_lowercaseName.bind ?_
  rintro _ ⟨name, s⟩ ⟨n, rfl, hn, rfl⟩
  refine (reads_expect _).bind ?_
  rintro _ _ ⟨t, rfl, ht, rfl⟩
  refine hi.bind fun ts a ha => .pure ?_
  exact .field hn (Expected.accepts_symbol_iff.1 ht) ha

theorem reads_separated {item : Reader α} {s : Symbol} {R : List Token → α → Prop}
    {L : List Token → List α → Prop} (hi : Reads item R) (hn : L [] [])
    (hc : ∀ t us ws a as, t.kind = .symbol s → R us a → L ws as → L (t :: (us ++ ws)) (a :: as)) :
    Reads (separated s item) fun ts as =>
      ∃ us vs a as', ts = us ++ vs ∧ as = a :: as' ∧ R us a ∧ L vs as' := by
  refine .of_after fun c => hi.bind fun us a hR => ?_
  have hr : Reads (repeated (eat (.symbol s)) item) L := by
    refine reads_repeated (M := fun ts => ∃ t, ts = [t] ∧ (Expected.symbol s).accepts t.kind = true)
      (reads_eat _) hi hn ?_
    rintro _ vs ws a as ⟨t, rfl, ht⟩ hR hL
    exact hc t vs ws a as (Expected.accepts_symbol_iff.1 ht) hR hL
  refine hr.bind fun vs as hL => .pure ?_
  exact ⟨us, vs, a, as, rfl, rfl, hR, hL⟩

theorem reads_recordBase? :
    Reads recordBase? fun ts base =>
      (base = none ∧ ts = []) ∨
        ∃ n t name, base = some name ∧ ts = [n, t] ∧ n.kind.lowercaseName? = some name ∧
          t.kind = .symbol .bar := by
  refine .of_after fun c => (peeks_check _).bind fun named => peeks_peekSecond.bind fun second => ?_
  cases hb : named && second.any (·.kind == .symbol .bar) with
  | false =>
      simp only [Bool.false_eq_true, if_false]
      exact .pure (.inl ⟨rfl, rfl⟩)
  | true =>
      simp only [if_true]
      refine reads_lowercaseName.bind ?_
      rintro _ ⟨name, s⟩ ⟨n, rfl, hn, rfl⟩
      refine (reads_expect _).bind ?_
      rintro _ _ ⟨t, rfl, ht, rfl⟩
      exact .pure (.inr ⟨n, t, name, rfl, rfl, hn, Expected.accepts_symbol_iff.1 ht⟩)

theorem reads_recordType (hi : Reads inner fun ts a => Derives ts (.type a)) :
    Reads (recordType inner) fun ts a => Derives ts (.atom a) := by
  refine .of_after fun c => (reads_expect _).bind ?_
  rintro _ _ ⟨l, rfl, hl, rfl⟩
  rw [Expected.accepts_opening_iff] at hl
  refine (reads_eat _).bind ?_
  rintro _ _ (⟨rfl, r, rfl, hr⟩ | ⟨rfl, rfl⟩)
  · refine .lastSpan (.pure ?_)
    exact .emptyRecord hl (Expected.accepts_closing_iff.1 hr)
  · have hfields : Reads (separated .comma (recordField inner)) fun ts fs =>
        ∃ us vs f fs', ts = us ++ vs ∧ fs = f :: fs' ∧ Derives us (.field f) ∧
          Derives vs (.fields fs') :=
      reads_separated (reads_recordField hi) .noFields fun t us ws a as ht ha has =>
        .fields ht ha has
    refine reads_recordBase?.bind fun ns base hbase => hfields.bind ?_
    rintro _ _ ⟨us, vs, f, fs, rfl, rfl, hf, hfs⟩
    refine (reads_expect _).bind ?_
    rintro _ _ ⟨r, rfl, hr, rfl⟩
    rw [Expected.accepts_closing_iff] at hr
    rcases hbase with ⟨rfl, rfl⟩ | ⟨n, t, name, rfl, rfl, hn, ht⟩
    · refine .pure ?_
      simpa using Derives.record hl hf hfs hr
    · refine .pure ?_
      simpa using Derives.extensible hl hn ht hf hfs hr

theorem reads_parenthesized (hi : Reads inner fun ts a => Derives ts (.type a)) :
    Reads (parenthesized inner) fun ts a => Derives ts (.atom a) := by
  refine .of_after fun c => (reads_expect _).bind ?_
  rintro _ _ ⟨l, rfl, hl, rfl⟩
  rw [Expected.accepts_opening_iff] at hl
  refine (reads_eat _).bind ?_
  rintro _ _ (⟨rfl, r, rfl, hr⟩ | ⟨rfl, rfl⟩)
  · refine .lastSpan (.pure ?_)
    exact .unit hl (Expected.accepts_closing_iff.1 hr)
  · refine hi.bind fun us a ha => .checkInside ?_
    cases ho : opens (.symbol .comma) (c.ahead.drop ([] ++ [l] ++ [] ++ us).length) with
    | true =>
        have hothers := After.repeated_of_opens (L := fun ts as => Derives ts (.elements as)) ho hi
          .noElements fun t us ws a as ht ha has =>
            .element (Expected.accepts_symbol_iff.1 ht) ha has
        refine hothers.bind ?_
        rintro _ others ⟨vs, rfl, hvs, hne⟩
        refine (reads_expect _).bind ?_
        rintro _ _ ⟨r, rfl, hr, rfl⟩
        rw [Expected.accepts_closing_iff] at hr
        obtain ⟨b, bs, rfl⟩ := List.exists_cons_of_ne_nil hne
        refine .pure ?_
        simpa using Derives.tuple hl ha hvs hr
    | false =>
        refine (reads_expect _).bind ?_
        rintro _ _ ⟨r, rfl, hr, rfl⟩
        refine .pure ?_
        simpa using Derives.parenthesized hl ha (Expected.accepts_closing_iff.1 hr)

theorem reads_atom (hi : Reads inner fun ts a => Derives ts (.type a)) :
    Reads (atom inner) fun ts a => Derives ts (.atom a) := by
  refine .of_after fun c => (peeks_checkInside _).bind fun b => ?_
  cases b with
  | true =>
      refine reads_lowercaseName.bind ?_
      rintro _ ⟨name, s⟩ ⟨t, rfl, ht, rfl⟩
      exact .pure (.typeVariable ht)
  | false =>
  refine (peeks_checkInside _).bind fun b => ?_
  cases b with
  | true =>
      refine reads_capitalisedName.bind ?_
      rintro _ ⟨name, s⟩ ⟨t, rfl, ht, rfl⟩
      exact .pure (.named ht)
  | false =>
  refine (peeks_checkInside _).bind fun b => ?_
  cases b with
  | true => simpa using (reads_parenthesized hi).after c []
  | false =>
  refine (peeks_checkInside _).bind fun b => ?_
  cases b with
  | true => simpa using (reads_recordType hi).after c []
  | false => exact (peeks_note _).bind fun _ => .unexpected

theorem reads_typeArguments (hi : Reads inner fun ts a => Derives ts (.type a)) :
    Reads (typeArguments inner) fun ts as => Derives ts (.arguments as) := by
  refine reads_repeated (M := fun ts => ts = []) peeks_atAtom.reads (reads_atom hi) .noArguments ?_
  rintro _ us vs a as rfl ha has
  simpa using Derives.argument ha has

theorem reads_application (hi : Reads inner fun ts a => Derives ts (.type a)) :
    Reads (application inner) fun ts a => Derives ts (.application a) := by
  refine .of_after fun c => (peeks_checkInside _).bind fun b => ?_
  cases b with
  | true =>
      refine reads_capitalisedName.bind ?_
      rintro _ ⟨name, s⟩ ⟨t, rfl, ht, rfl⟩
      refine (reads_typeArguments hi).bind fun ts as has => .pure ?_
      exact .applied ht has
  | false =>
      refine ((reads_atom hi).after c []).mono ?_
      rintro _ a ⟨ts, rfl, ha⟩
      exact .ofAtom ha

theorem reads_arrow (hi : Reads inner fun ts a => Derives ts (.type a)) :
    Reads (arrow inner) fun ts a => Derives ts (.type a) := by
  refine .of_after fun c => (reads_application hi).bind fun ts a ha => (reads_eat _).bind ?_
  rintro _ _ (⟨rfl, t, rfl, ht⟩ | ⟨rfl, rfl⟩)
  · refine hi.bind fun us b hb => .pure ?_
    simpa using Derives.function ha (Expected.accepts_symbol_iff.1 ht) hb
  · refine .pure ?_
    simpa using Derives.ofApplication ha

theorem reads_typeExprAt (n : Nat) : Reads (typeExprAt n) fun ts a => Derives ts (.type a) := by
  induction n with
  | zero => exact .of_after fun c => .unexpected
  | succ n ih => exact reads_arrow ih

theorem reads_typeExpr : Reads typeExpr fun ts a => Derives ts (.type a) :=
  reads_bounded reads_typeExprAt

end Reader

end ElmTypes
