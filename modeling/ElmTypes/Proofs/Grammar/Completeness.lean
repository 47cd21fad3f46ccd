import ElmTypes.Proofs.Grammar.Follow
import ElmTypes.Proofs.Grammar.Yielding

namespace ElmTypes

open Reader

inductive Listed {α : Type} (s : Symbol) (R : List Token → α → Prop) :
    List Token → List α → Prop where
  | nil : Listed s R [] []
  | cons {t : Token} {us vs : List Token} {a : α} {as : List α} (ht : t.kind = .symbol s)
      (ha : R us a) (has : Listed s R vs as) : Listed s R (t :: (us ++ vs)) (a :: as)

theorem Derives.listed_elements {ts : List Token} {as : List TypeExpr}
    (h : Derives ts (.elements as)) : Listed .comma (fun ts a => Derives ts (.type a)) ts as := by
  induction as generalizing ts with
  | nil =>
      cases h
      exact .nil
  | cons a as ih =>
      cases h with
      | element ht ha has => exact .cons ht ha (ih has)

theorem Derives.listed_fields {ts : List Token} {fs : List (RecordField TypeExpr)}
    (h : Derives ts (.fields fs)) : Listed .comma (fun ts f => Derives ts (.field f)) ts fs := by
  induction fs generalizing ts with
  | nil =>
      cases h
      exact .nil
  | cons f fs ih =>
      cases h with
      | fields ht hf hfs => exact .cons ht hf (ih hfs)

namespace Reader

theorem repeats_of_listed {α : Type} {s : Symbol} {R : List Token → α → Prop} (item : Reader α)
    (Follow : List Token → Prop) {n : Nat} {ts rest : List Token} {as : List α}
    (h : Listed s R ts as) (hin : Inside ts) (hn : ts.length ≤ n)
    (hs : ∀ t ts, t.kind = .symbol s → Follow (t :: ts)) (hf : Follow rest)
    (hend : opens (.symbol s) rest = false)
    (hR : ∀ {us a}, R us a → Inside us → us.length ≤ n →
      us ≠ [] ∧ ∀ {rest}, Follow rest → ∀ last, Yields item last us rest a) :
    Repeats (eat (.symbol s)) item rest ts as := by
  induction h with
  | nil => exact .nil fun last => yields_eat_of_not_opens hend
  | @cons t us vs a as ht ha _ ih =>
      have hus : Inside us := hin.of_subset (by simp)
      have hvs : Inside vs := hin.of_subset (by simp)
      simp only [List.length_cons, List.length_append] at hn
      obtain ⟨hne, hy⟩ := hR ha hus (by omega)
      have ho : opens (.symbol s) (t :: (us ++ (vs ++ rest))) = true := by
        simp [opens_cons, Expected.accepts_symbol_iff.2 ht, hin t List.mem_cons_self]
      -- what an item needs of the tokens after it holds before every symbol
      have hfollow : Follow (vs ++ rest) := by
        cases vs with
        | nil => exact hf
        | cons v vs =>
            rename_i hvs'
            cases hvs' with
            | cons hv => exact hs _ _ hv
      have hmore (last : Span) := @yields_eat_of_opens last (us ++ (vs ++ rest)) t _ ho
      exact @Repeats.cons _ _ _ _ [t] us vs a as hmore (hy hfollow) hne (ih hvs (by omega))

def Accepts (inner : Reader TypeExpr) (n : Nat) : Prop :=
  ∀ {ts e}, Derives ts (.type e) → Inside ts → ts.length ≤ n →
    ∀ {rest}, Ends rest → ∀ last, Yields inner last ts rest e

variable {inner : Reader TypeExpr} {n : Nat}

theorem yields_recordField (hi : Accepts inner n) {ts : List Token} {f : RecordField TypeExpr}
    (h : Derives ts (.field f)) (hin : Inside ts) (hn : ts.length ≤ n) {rest : List Token}
    (hr : Ends rest) (last : Span) : Yields (recordField inner) last ts rest f := by
  cases h with
  | field hm ht ha =>
      simp only [List.length_cons] at hn
      refine .cons (yields_lowercaseName hm) (.cons (yields_expect ?_) ?_)
      · exact Expected.accepts_symbol_iff.2 ht
      · exact (hi ha (hin.of_subset (by simp)) (by omega) hr _).bind_pure rfl

theorem yields_atAtom (last : Span) (rest : List Token) :
    Yields atAtom last [] rest (opensAtom rest) := by
  cases hl : opens .lowercaseName rest with
  | true =>
      refine .bind_nil (yields_checkInside hl) ?_
      simpa [opensAtom, atomOpeners, hl] using Yields.pure true
  | false =>
  refine .bind_nil (yields_checkInside hl) ?_
  cases hu : opens .capitalisedName rest with
  | true =>
      refine .bind_nil (yields_checkInside hu) ?_
      simpa [opensAtom, atomOpeners, hl, hu] using Yields.pure true
  | false =>
  refine .bind_nil (yields_checkInside hu) ?_
  cases hr : opens (.opening .round) rest with
  | true =>
      refine .bind_nil (yields_checkInside hr) ?_
      simpa [opensAtom, atomOpeners, hl, hu, hr] using Yields.pure true
  | false =>
      refine .bind_nil (yields_checkInside hr) ?_
      have ho : opens (.opening .brace) rest = opensAtom rest := by
        simp [opensAtom, atomOpeners, hl, hu, hr]
      exact yields_checkInside ho

section

variable {ts us rest : List Token} {a b : TypeExpr} {f : RecordField TypeExpr}
  {as : List TypeExpr} {fs : List (RecordField TypeExpr)} {last : Span}

theorem yields_fields (hi : Accepts inner n) (hf : Derives ts (.field f))
    (hfs : Derives us (.fields fs)) (hin : Inside (ts ++ us)) (hn : (ts ++ us).length ≤ n)
    {r : Token} (hr : r.kind = .closing .brace) :
    Yields (separated .comma (recordField inner)) last (ts ++ us) (r :: rest) (f :: fs) := by
  rw [List.length_append] at hn
  have hends : Ends (us ++ r :: rest) := by
    cases hfs with
    | noFields => exact .closing hr rest
    | fields ht => exact .symbol ht (by decide) _
  have hclose : opens (.symbol .comma) (r :: rest) = false := by
    simp [opens_cons, hr, Expected.accepts]
  have hrest := repeats_of_listed (recordField inner) Ends hfs.listed_fields
    (hin.of_subset (by simp)) (n := n) (by omega) (fun t ts ht => .symbol ht (by decide) ts)
    (.closing hr rest) hclose fun {vs g} hg hvs hl =>
      ⟨?_, fun hr last => yields_recordField hi hg hvs hl hr last⟩
  · refine .bind (yields_recordField hi hf (hin.of_subset (by simp)) (by omega) hends _) ?_
    exact (hrest.yields _).bind_pure rfl
  · cases hg
    exact List.cons_ne_nil _ _

theorem yields_recordBase?_none (hf : Derives ts (.field f)) :
    Yields recordBase? last [] (ts ++ rest) none := by
  cases hf with
  | field hn ht ha =>
      refine .bind_nil (yields_check rfl) (.bind_nil yields_peekSecond ?_)
      simp [ht, -bind_pure_comp]
      exact Yields.pure none

theorem yields_recordBase?_some {n t : Token} {base : String}
    (hn : n.kind.lowercaseName? = some base) (ht : t.kind = .symbol .bar) :
    Yields recordBase? last [n, t] rest (some base) := by
  have hc : ((n :: t :: rest).head?.any fun t => Expected.lowercaseName.accepts t.kind) = true := by
    simp [Expected.accepts, hn]
  refine .then (yields_check hc) (.then yields_peekSecond ?_)
  have hs : (true && (([n, t] ++ rest)[1]?.any (·.kind == .symbol .bar))) = true := by simp [ht]
  simp only [hs, if_true]
  refine .cons (yields_lowercaseName hn) ((yields_expect ?_).bind_pure rfl)
  exact Expected.accepts_symbol_iff.2 ht

theorem yields_emptyRecord {l r : Token} (hl : l.kind = .opening .brace)
    (hr : r.kind = .closing .brace) (hin : r.startsDeclaration = false) :
    Yields (recordType inner) last [l, r] rest (.record [] (l.span.hull r.span)) := by
  refine .cons (yields_expect (Expected.accepts_opening_iff.2 hl)) ?_
  exact .cons (yields_eat_of_opens (opens_closing hr hin)) (yields_lastSpan.bind_pure rfl)

theorem yields_record (hi : Accepts inner n) {l r : Token} (hl : l.kind = .opening .brace)
    (hf : Derives ts (.field f)) (hfs : Derives us (.fields fs)) (hr : r.kind = .closing .brace)
    (hin : Inside (ts ++ us)) (hn : (ts ++ us).length ≤ n) :
    Yields (recordType inner) last (l :: (ts ++ us ++ [r])) rest
      (.record (f :: fs) (l.span.hull r.span)) := by
  have ho : opens (.closing .brace) (ts ++ us ++ [r] ++ rest) = false := by
    cases hf with
    | field hm =>
        rw [List.append_assoc, List.append_assoc]
        exact Begins.opens_closing ⟨_, _, rfl, .of_lowercase hm⟩ _ _
  refine .cons (yields_expect (Expected.accepts_opening_iff.2 hl)) ?_
  refine .then (yields_eat_of_not_opens ho) (.then (a := none) ?_ ?_)
  · rw [List.append_assoc, List.append_assoc]
    exact yields_recordBase?_none hf
  · refine .bind (yields_fields hi hf hfs hin hn hr) ((yields_expect ?_).bind_pure rfl)
    exact Expected.accepts_closing_iff.2 hr

theorem yields_extensible (hi : Accepts inner n) {l m t r : Token} {base : String}
    (hl : l.kind = .opening .brace) (hm : m.kind.lowercaseName? = some base)
    (ht : t.kind = .symbol .bar) (hf : Derives ts (.field f)) (hfs : Derives us (.fields fs))
    (hr : r.kind = .closing .brace) (hin : Inside (ts ++ us)) (hn : (ts ++ us).length ≤ n) :
    Yields (recordType inner) last (l :: m :: t :: (ts ++ us ++ [r])) rest
      (.extensible base (f :: fs) (l.span.hull r.span)) := by
  refine .cons (yields_expect (Expected.accepts_opening_iff.2 hl)) ?_
  have hbegins : Begins (m :: t :: (ts ++ us ++ [r])) := ⟨_, _, rfl, .of_lowercase hm⟩
  refine .then (yields_eat_of_not_opens (hbegins.opens_closing _ _)) ?_
  change Yields _ _ ([m, t] ++ (ts ++ us ++ [r])) _ _
  refine .bind (yields_recordBase?_some hm ht) ?_
  refine .bind (yields_fields hi hf hfs hin hn hr) ((yields_expect ?_).bind_pure rfl)
  exact Expected.accepts_closing_iff.2 hr

theorem yields_unit {l r : Token} (hl : l.kind = .opening .round)
    (hr : r.kind = .closing .round) (hin : r.startsDeclaration = false) :
    Yields (parenthesized inner) last [l, r] rest (.unit (l.span.hull r.span)) := by
  refine .cons (yields_expect (Expected.accepts_opening_iff.2 hl)) ?_
  exact .cons (yields_eat_of_opens (opens_closing hr hin)) (yields_lastSpan.bind_pure rfl)

theorem yields_grouped (hi : Accepts inner n) {l r : Token} (hl : l.kind = .opening .round)
    (ha : Derives ts (.type a)) (hr : r.kind = .closing .round) (hin : Inside ts)
    (hn : ts.length ≤ n) :
    Yields (parenthesized inner) last (l :: (ts ++ [r])) rest
      (a.withSpan (l.span.hull r.span)) := by
  refine .cons (yields_expect (Expected.accepts_opening_iff.2 hl)) ?_
  refine .then (yields_eat_of_not_opens (by simpa using ha.begins_type.opens_closing _ _)) ?_
  refine .bind (hi ha hin hn (.closing hr rest) _) ?_
  have hcomma : opens (.symbol .comma) ([r] ++ rest) = false := by
    simp [opens_cons, hr, Expected.accepts]
  refine .then (yields_checkInside hcomma) ((yields_expect ?_).bind_pure rfl)
  exact Expected.accepts_closing_iff.2 hr

theorem yields_tuple (hi : Accepts inner n) {l r : Token} (hl : l.kind = .opening .round)
    (ha : Derives ts (.type a)) (has : Derives us (.elements (b :: as)))
    (hr : r.kind = .closing .round) (hin : Inside (ts ++ us)) (hn : (ts ++ us).length ≤ n) :
    Yields (parenthesized inner) last (l :: (ts ++ (us ++ [r]))) rest
      (.tuple (a :: b :: as) (l.span.hull r.span)) := by
  rw [List.length_append] at hn
  have hus : Inside us := hin.of_subset (by simp)
  have hopens : opens (.symbol .comma) (us ++ [r] ++ rest) = true ∧ Ends (us ++ [r] ++ rest) := by
    cases has with
    | element ht =>
        refine ⟨?_, .symbol ht (by decide) _⟩
        simp [opens_cons, Expected.accepts_symbol_iff.2 ht, hus _ List.mem_cons_self]
  have hclose : opens (.symbol .comma) (r :: rest) = false := by
    simp [opens_cons, hr, Expected.accepts]
  have hothers := repeats_of_listed inner Ends has.listed_elements hus
    (n := n) (by omega) (fun t ts ht => .symbol ht (by decide) ts) (.closing hr rest) hclose
    fun hb hvs hl => ⟨hb.begins_type.ne_nil, fun hr last => hi hb hvs hl hr last⟩
  refine .cons (yields_expect (Expected.accepts_opening_iff.2 hl)) ?_
  refine .then (yields_eat_of_not_opens (by simpa using ha.begins_type.opens_closing _ _)) ?_
  refine .bind (hi ha (hin.of_subset (by simp)) (by omega) hopens.2 _) ?_
  refine .then (yields_checkInside hopens.1) ?_
  refine .bind (hothers.yields _) ((yields_expect ?_).bind_pure rfl)
  exact Expected.accepts_closing_iff.2 hr

theorem yields_atom_of_round {l : Token} (hl : l.kind = .opening .round)
    (hin : l.startsDeclaration = false)
    (h : Yields (parenthesized inner) last (l :: ts) rest a) :
    Yields (atom inner) last (l :: ts) rest a := by
  have hlower : opens .lowercaseName (l :: ts ++ rest) = false := by
    simp [opens_cons, hl, Expected.accepts, TokenKind.lowercaseName?]
  have hupper : opens .capitalisedName (l :: ts ++ rest) = false := by
    simp [opens_cons, hl, Expected.accepts, TokenKind.capitalisedName?]
  have hround : opens (.opening .round) (l :: ts ++ rest) = true := by
    simp [opens_cons, hl, Expected.accepts, hin]
  refine .then (yields_checkInside hlower) (.then (yields_checkInside hupper) ?_)
  exact .then (yields_checkInside hround) h

theorem yields_atom_of_brace {l : Token} (hl : l.kind = .opening .brace)
    (hin : l.startsDeclaration = false) (h : Yields (recordType inner) last (l :: ts) rest a) :
    Yields (atom inner) last (l :: ts) rest a := by
  have hlower : opens .lowercaseName (l :: ts ++ rest) = false := by
    simp [opens_cons, hl, Expected.accepts, TokenKind.lowercaseName?]
  have hupper : opens .capitalisedName (l :: ts ++ rest) = false := by
    simp [opens_cons, hl, Expected.accepts, TokenKind.capitalisedName?]
  have hround : opens (.opening .round) (l :: ts ++ rest) = false := by
    simp [opens_cons, hl, Expected.accepts]
  have hbrace : opens (.opening .brace) (l :: ts ++ rest) = true := by
    simp [opens_cons, hl, Expected.accepts, hin]
  refine .then (yields_checkInside hlower) (.then (yields_checkInside hupper) ?_)
  exact .then (yields_checkInside hround) (.then (yields_checkInside hbrace) h)

theorem yields_atom (hi : Accepts inner n) (h : Derives ts (.atom a)) (hin : Inside ts)
    (hn : ts.length ≤ n + 1) (rest : List Token) (last : Span) :
    Yields (atom inner) last ts rest a := by
  cases h with
  | typeVariable ht =>
      refine .then (yields_checkInside (opens_lowercaseName ht (hin _ (by simp)))) ?_
      exact (yields_lowercaseName ht).bind_pure rfl
  | named ht =>
      obtain ⟨hlower, hupper⟩ := opens_capitalisedName ht (hin _ (by simp)) rest
      refine .then (yields_checkInside hlower) (.then (yields_checkInside hupper) ?_)
      exact (yields_capitalisedName ht).bind_pure rfl
  | unit hl hr =>
      exact yields_atom_of_round hl (hin _ (by simp)) (yields_unit hl hr (hin _ (by simp)))
  | parenthesized hl ha hr =>
      simp only [List.length_cons, List.length_append, List.length_nil] at hn
      refine yields_atom_of_round hl (hin _ (by simp)) (yields_grouped hi hl ha hr ?_ (by omega))
      exact hin.of_subset (by simp)
  | tuple hl ha has hr =>
      simp only [List.length_cons, List.length_append, List.length_nil] at hn
      refine yields_atom_of_round hl (hin _ (by simp)) (yields_tuple hi hl ha has hr ?_ ?_)
      · exact fun t ht => hin t (by grind)
      · rw [List.length_append]
        omega
  | emptyRecord hl hr =>
      exact yields_atom_of_brace hl (hin _ (by simp)) (yields_emptyRecord hl hr (hin _ (by simp)))
  | record hl hf hfs hr =>
      simp only [List.length_cons, List.length_append, List.length_nil] at hn
      rw [← List.append_assoc]
      refine yields_atom_of_brace hl (hin _ (by simp)) (yields_record hi hl hf hfs hr ?_ ?_)
      · exact fun t ht => hin t (by grind)
      · rw [List.length_append]
        omega
  | extensible hl hm ht hf hfs hr =>
      simp only [List.length_cons, List.length_append, List.length_nil] at hn
      rw [← List.append_assoc]
      have hbrace := hin _ List.mem_cons_self
      refine yields_atom_of_brace hl hbrace (yields_extensible hi hl hm ht hf hfs hr ?_ ?_)
      · exact fun t ht => hin t (by grind)
      · rw [List.length_append]
        omega

theorem repeats_arguments (hi : Accepts inner n) (h : Derives ts (.arguments as)) (hin : Inside ts)
    (hn : ts.length ≤ n + 1) (hr : opensAtom rest = false) :
    Repeats atAtom (atom inner) rest ts as := by
  induction as generalizing ts with
  | nil =>
      cases h
      exact .nil fun last => hr ▸ yields_atAtom last rest
  | cons a as ih =>
      cases h with
      | @argument us vs _ _ ha has =>
          rw [List.length_append] at hn
          have hus : Inside us := hin.of_subset (by simp)
          have hvs : Inside vs := hin.of_subset (by simp)
          have hat : opensAtom (us ++ (vs ++ rest)) = true := ha.begins_atom.opensAtom hus _
          refine .peeked ?_ ?_ ha.begins_atom.ne_nil (ih has hvs (by omega))
          · exact fun last => hat ▸ yields_atAtom last _
          · exact yields_atom hi ha hus (by omega) _

theorem yields_typeArguments (hi : Accepts inner n) (h : Derives ts (.arguments as))
    (hin : Inside ts) (hn : ts.length ≤ n + 1) (hr : opensAtom rest = false) (last : Span) :
    Yields (typeArguments inner) last ts rest as :=
  (repeats_arguments hi h hin hn hr).yields last

theorem yields_applied (hi : Accepts inner n) {t : Token} {name : String}
    (ht : t.kind.capitalisedName? = some name) (has : Derives ts (.arguments as))
    (hin : Inside (t :: ts)) (hn : ts.length ≤ n + 1) (hr : opensAtom rest = false) (last : Span) :
    Yields (application inner) last (t :: ts) rest
      (.named (.ofWord name t.span) as (hullAll t.span as)) := by
  obtain ⟨-, hupper⟩ := opens_capitalisedName ht (hin _ (by simp)) (ts ++ rest)
  refine .then (yields_checkInside hupper) (.cons (yields_capitalisedName ht) ?_)
  exact (yields_typeArguments hi has (hin.of_subset (by simp)) hn hr _).bind_pure rfl

theorem yields_application (hi : Accepts inner n) (h : Derives ts (.application a))
    (hin : Inside ts) (hn : ts.length ≤ n + 1) (hr : opensAtom rest = false) (last : Span) :
    Yields (application inner) last ts rest a := by
  cases h with
  | applied ht has =>
      rw [List.length_cons] at hn
      exact yields_applied hi ht has hin (by omega) hr last
  | ofAtom ha =>
      have hy := yields_atom hi ha hin hn rest last
      cases ha with
      | named ht => exact yields_applied hi ht .noArguments hin (Nat.zero_le _) hr last
      | typeVariable ht =>
          refine .then (a := false) (yields_checkInside ?_) hy
          simp [opens_cons, Expected.accepts, TokenKind.capitalisedName?_eq_none_of_lowercase ht]
      | unit hl | parenthesized hl | tuple hl | emptyRecord hl | record hl | extensible hl =>
          refine .then (a := false) (yields_checkInside ?_) hy
          simp [opens_cons, Expected.accepts, hl, TokenKind.capitalisedName?]

theorem accepts_arrow (hi : Accepts inner n) : Accepts (arrow inner) (n + 1) := by
  intro ts e h hin hn rest hr last
  cases h with
  | @function ts us t a b ha ht hb =>
      rw [List.length_append, List.length_cons] at hn
      have ho : opens (.symbol .arrow) (t :: (us ++ rest)) = true := by
        simp [opens_cons, Expected.accepts_symbol_iff.2 ht, hin t (by simp)]
      have hatom : opensAtom (t :: us ++ rest) = false := by
        simp [opensAtom, atomOpeners, opens_cons, ht, Expected.accepts, TokenKind.lowercaseName?,
          TokenKind.capitalisedName?]
      refine .bind (yields_application hi ha (hin.of_subset (by simp)) (by omega) hatom _) ?_
      refine .cons (yields_eat_of_opens ho) ?_
      exact (hi hb (hin.of_subset (by simp)) (by omega) hr _).bind_pure rfl
  | ofApplication ha =>
      have hy := yields_application hi ha hin hn hr.atom last
      have hnot : Yields (eat (.symbol .arrow)) (lastSpanOf last ts) [] rest false :=
        yields_eat_of_not_opens hr.arrow
      exact .bind_nil hy (hnot.bind_pure rfl)

theorem accepts_typeExprAt (n : Nat) : Accepts (typeExprAt n) n := by
  induction n with
  | zero =>
      intro ts e h _ hn
      exact absurd (List.length_eq_zero_iff.1 (Nat.le_zero.1 hn)) (h.begins_type.ne_nil)
  | succ n ih => exact accepts_arrow ih

theorem accepts_typeExpr (n : Nat) : Accepts typeExpr n := by
  intro ts e h hin _ rest hr last
  refine yields_bounded (accepts_typeExprAt _ h hin ?_ hr last)
  rw [List.length_append]
  omega

end

end Reader

end ElmTypes
