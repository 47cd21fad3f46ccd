import ElmTypes.Proofs.Grammar.FileParts
import ElmTypes.Proofs.Lexical.Slice
import ElmTypes.Proofs.Source.Parts
import ElmTypes.Proofs.Validation.Nodes

namespace ElmTypes

open Reader

structure Span.Encloses (s : Span) (ps : List Span) : Prop where
  inside : ∀ p ∈ ps, s.start ≤ p.start ∧ p.stop ≤ s.stop
  ordered : ps.Pairwise fun p q => p.stop ≤ q.start

theorem Span.Encloses.mono {s s' : Span} {ps : List Span} (h : s.Encloses ps)
    (hs : s'.Encloses [s]) : s'.Encloses ps := by
  obtain ⟨hstart, hstop⟩ := hs.inside s List.mem_cons_self
  refine ⟨fun p hp => ?_, h.ordered⟩
  obtain ⟨hp, hp'⟩ := h.inside p hp
  exact ⟨Nat.le_trans hstart hp, Nat.le_trans hp' hstop⟩

structure Ordered (ts : List Token) : Prop where
  nonempty : ∀ t ∈ ts, 0 < t.span.length
  pairwise : ts.Pairwise fun t u => t.span.stop ≤ u.span.start

theorem ordered_of_lex {source : String} {tokens : List Token} (h : lex source = .ok tokens) :
    Ordered tokens := by
  obtain ⟨hfits, hpairwise, -⟩ := lex_tiles h
  exact ⟨fun t ht => (hfits t ht).nonempty, hpairwise⟩

theorem Span.hull_self (s : Span) : s.hull s = s := by
  obtain ⟨start, length⟩ := s
  unfold hull
  split
  · rfl
  · simp [stop]

section

variable {ts us vs ws : List Token} {s s' : Span}

theorem Ordered.sublist (h : Ordered ts) (hs : us.Sublist ts) : Ordered us :=
  ⟨fun t ht => h.nonempty t (hs.subset ht), h.pairwise.sublist hs⟩

theorem Ordered.part (h : Ordered ts) (hs : us <:+: ts) : Ordered us := h.sublist hs.sublist

theorem Ordered.left (h : Ordered (ts ++ us)) : Ordered ts :=
  h.sublist (List.sublist_append_left ts us)

theorem Ordered.right (h : Ordered (ts ++ us)) : Ordered us :=
  h.sublist (List.sublist_append_right ts us)

theorem stretches_token (t : Token) : Stretches [t] t.span := ⟨t, t, rfl, rfl, rfl, rfl⟩

namespace Stretches

theorem inside (h : Stretches ts s) (ho : Ordered ts) {t : Token} (ht : t ∈ ts) :
    s.start ≤ t.span.start ∧ t.span.stop ≤ s.stop := by
  obtain ⟨f, l, hf, hl, hstart, hstop⟩ := h
  rw [hstart, hstop]
  constructor
  · obtain ⟨us, rfl⟩ := List.head?_eq_some_iff.1 hf
    rcases List.mem_cons.1 ht with rfl | ht
    · exact Nat.le_refl _
    · have hft := (List.pairwise_cons.1 ho.pairwise).1 t ht
      exact Nat.le_trans (Nat.le_add_right _ _) hft
  · obtain ⟨us, rfl⟩ := List.getLast?_eq_some_iff.1 hl
    rcases List.mem_append.1 ht with ht | ht
    · have htl := (List.pairwise_append.1 ho.pairwise).2.2 t ht l (by simp)
      exact Nat.le_trans htl (Nat.le_add_right _ _)
    · obtain rfl := List.mem_singleton.1 ht
      exact Nat.le_refl _

theorem start_lt_stop (h : Stretches ts s) (ho : Ordered ts) : s.start < s.stop := by
  obtain ⟨t, -, ht, -⟩ := id h
  have hmem := List.mem_of_mem_head? ht
  have hin := h.inside ho hmem
  have hpos := ho.nonempty t hmem
  have hstop : t.span.stop = t.span.start + t.span.length := rfl
  omega

theorem stop_le_start (h : Stretches ts s) (h' : Stretches us s') (ho : Ordered (ts ++ us)) :
    s.stop ≤ s'.start := by
  obtain ⟨-, l, -, hl, -, hstop⟩ := h
  obtain ⟨f, -, hf, -, hstart, -⟩ := h'
  rw [hstart, hstop]
  exact (List.pairwise_append.1 ho.pairwise).2.2 l (List.mem_of_getLast? hl) f
    (List.mem_of_mem_head? hf)

theorem hull (h : Stretches ts s) (h' : Stretches us s') (ho : Ordered (ts ++ (vs ++ us))) :
    Stretches (ts ++ (vs ++ us)) (s.hull s') := by
  have hs := h.start_lt_stop ho.left
  have hs' := h'.start_lt_stop ho.right.right
  have hle : s.stop ≤ s'.start := by
    apply h.stop_le_start h'
    exact ho.sublist ((List.sublist_append_right vs us).append_left ts)
  have hne {s : Span} (hlt : s.start < s.stop) : s.isEmpty = false := by
    unfold Span.stop at hlt
    simp only [Span.isEmpty, beq_eq_false_iff_ne]
    omega
  obtain ⟨f, -, hf, -, hstart, -⟩ := h
  obtain ⟨-, l, -, hl, -, hstop⟩ := h'
  refine ⟨f, l, ?_, ?_, ?_, ?_⟩
  · rw [List.head?_append, hf, Option.some_or]
  · rw [List.getLast?_append, List.getLast?_append, hl, Option.some_or, Option.some_or]
  · rw [Span.start_hull (hne hs) (hne hs'), ← hstart]
    omega
  · rw [Span.stop_hull (hne hs) (hne hs'), ← hstop]
    omega

theorem tokens {l r : Token} (ho : Ordered (l :: (ts ++ [r]))) :
    Stretches (l :: (ts ++ [r])) (l.span.hull r.span) :=
  (stretches_token l).hull (stretches_token r) ho

theorem of_hull (hne : ts ≠ []) (ho : Ordered ts)
    (hs : ∀ t ∈ ts.head?, s = t.span.hull (lastSpanOf t.span ts)) : Stretches ts s := by
  obtain ⟨t, us, rfl⟩ := List.exists_cons_of_ne_nil hne
  rw [hs t rfl]
  rcases List.eq_nil_or_concat us with rfl | ⟨vs, l, rfl⟩
  · exact (Span.hull_self t.span).symm ▸ stretches_token t
  · rw [List.concat_eq_append] at ho ⊢
    rw [← List.cons_append, lastSpanOf_append]
    exact .tokens ho

end Stretches

inductive Pieces : List Token → List Span → Prop where
  | nil {ts : List Token} : Pieces ts []
  | cons {ts us vs : List Token} {s : Span} {ss : List Span} (hs : Stretches us s)
      (h : Pieces vs ss) : Pieces (ts ++ (us ++ vs)) (s :: ss)

namespace Pieces

variable {ss : List Span}

theorem first (hs : Stretches ts s) (h : Pieces us ss) : Pieces (ts ++ us) (s :: ss) :=
  @cons [] ts us s ss hs h

theorem only (hs : Stretches ts s) : Pieces ts [s] := by
  have h := first hs (@nil [])
  rwa [List.append_nil] at h

theorem prepend (h : Pieces ts ss) (us : List Token) : Pieces (us ++ ts) ss := by
  cases h with
  | nil => exact .nil
  | cons hs h =>
      rw [← List.append_assoc]
      exact .cons hs h

theorem append (h : Pieces ts ss) (us : List Token) : Pieces (ts ++ us) ss := by
  induction h with
  | nil => exact .nil
  | cons hs _ ih =>
      rw [List.append_assoc, List.append_assoc]
      exact .cons hs ih

theorem sublist (h : Pieces ts ss) (ho : ts <:+: us) : Pieces us ss := by
  obtain ⟨vs, ws, rfl⟩ := ho
  exact (h.prepend vs).append ws

theorem exists_of_mem (h : Pieces ts ss) {p : Span} (hp : p ∈ ss) :
    ∃ us : List Token, us.Sublist ts ∧ Stretches us p := by
  induction h with
  | nil => cases hp
  | @cons ts us vs s ss hs _ ih =>
      rcases List.mem_cons.1 hp with rfl | hp
      · refine ⟨us, ?_, hs⟩
        exact (List.sublist_append_left us vs).trans (List.sublist_append_right ts _)
      · obtain ⟨ws, hws, hstretch⟩ := ih hp
        refine ⟨ws, hws.trans ?_, hstretch⟩
        exact (List.sublist_append_right us vs).trans (List.sublist_append_right ts _)

theorem pairwise (h : Pieces ts ss) (ho : Ordered ts) :
    ss.Pairwise fun p q => p.stop ≤ q.start := by
  induction h with
  | nil => exact .nil
  | cons hs h ih =>
      refine List.pairwise_cons.2 ⟨fun q hq => ?_, ih ho.right.right⟩
      obtain ⟨ws, hws, hq⟩ := h.exists_of_mem hq
      apply hs.stop_le_start hq
      exact ho.right.sublist (hws.append_left _)

theorem encloses (h : Pieces ts ss) (hs : Stretches ts s) (ho : Ordered ts) : s.Encloses ss := by
  refine ⟨fun p hp => ?_, h.pairwise ho⟩
  obtain ⟨us, hus, f, l, hf, hl, hstart, hstop⟩ := h.exists_of_mem hp
  rw [hstart, hstop]
  constructor
  · exact (hs.inside ho (hus.subset (List.mem_of_mem_head? hf))).1
  · exact (hs.inside ho (hus.subset (List.mem_of_getLast? hl))).2

theorem bracketed {l r : Token} (h : Pieces ts ss) (ho : Ordered (l :: (ts ++ [r]))) :
    Stretches (l :: (ts ++ [r])) (l.span.hull r.span) ∧ (l.span.hull r.span).Encloses ss := by
  have hs := Stretches.tokens ho
  exact ⟨hs, ((h.append [r]).prepend [l]).encloses hs ho⟩

end Pieces

end

theorem TypeName.span_ofWord (w : String) (s : Span) : (TypeName.ofWord w s).span = s := by
  unfold ofWord
  split <;> rfl

namespace TypeExpr

def innerSpans : TypeExpr → List Span
  | .variable .. | .unit _ => []
  | .named n arguments _ => n.span :: arguments.map span
  | .tuple elements _ => elements.map span
  | .record fields _ | .extensible _ fields _ => fields.map RecordField.span
  | .function domain codomain _ => [domain.span, codomain.span]

def fields : TypeExpr → List (RecordField TypeExpr)
  | .record fields _ | .extensible _ fields _ => fields
  | _ => []

structure InOrder (e : TypeExpr) : Prop where
  inner : e.span.Encloses e.innerSpans
  fields : ∀ f ∈ e.fields, f.span.Encloses [f.type.span]

theorem All.inOrder_leaf {e : TypeExpr} (hi : e.innerSpans = []) (hf : e.fields = [])
    (hp : e.parts = []) : e.All InOrder := by
  refine .mk ⟨⟨?_, ?_⟩, ?_⟩ ?_
  · rw [hi]
    exact List.forall_mem_nil _
  · rw [hi]
    exact .nil
  · rw [hf]
    exact List.forall_mem_nil _
  · rw [hp]
    exact List.forall_mem_nil _

theorem All.inOrder_withSpan {e : TypeExpr} (h : e.All InOrder) {s : Span}
    (hs : s.Encloses [e.span]) : (e.withSpan s).All InOrder := by
  refine .mk ⟨?_, ?_⟩ ?_
  · have hinner : (e.withSpan s).innerSpans = e.innerSpans := by cases e <;> rfl
    rw [span_withSpan, hinner]
    exact h.self.inner.mono hs
  · have hfields : (e.withSpan s).fields = e.fields := by cases e <;> rfl
    rw [hfields]
    exact h.self.fields
  · rw [parts_withSpan]
    exact h.parts

end TypeExpr

structure RecordField.InOrder (f : RecordField TypeExpr) : Prop where
  inner : f.span.Encloses [f.type.span]
  type : f.type.All TypeExpr.InOrder

def Phrase.InOrder (ts : List Token) : Phrase → Prop
  | .type e | .application e | .atom e => Stretches ts e.span ∧ e.All TypeExpr.InOrder
  | .arguments es =>
      Pieces ts (es.map TypeExpr.span) ∧ (∀ e ∈ es, e.All TypeExpr.InOrder) ∧
        ∀ us s, Stretches us s → Ordered (us ++ ts) → Stretches (us ++ ts) (hullAll s es)
  | .elements es => Pieces ts (es.map TypeExpr.span) ∧ ∀ e ∈ es, e.All TypeExpr.InOrder
  | .field f => Stretches ts f.span ∧ f.InOrder
  | .fields fs => Pieces ts (fs.map RecordField.span) ∧ ∀ f ∈ fs, f.InOrder

theorem forall_mem_parts_inOrder {fs : List (RecordField TypeExpr)}
    (h : ∀ f ∈ fs, f.InOrder) : ∀ a ∈ fs.map RecordField.type, a.All TypeExpr.InOrder :=
  List.forall_mem_map.2 fun f hf => (h f hf).type

theorem Derives.inOrder {ts : List Token} {p : Phrase} (h : Derives ts p) (ho : Ordered ts) :
    p.InOrder ts := by
  induction h with
  | @function ts us t a b _ _ _ iha ihb =>
      obtain ⟨hsa, ha⟩ := iha ho.left
      obtain ⟨hsb, hb⟩ := ihb (ho.part ⟨ts ++ [t], [], by simp⟩)
      have hs : Stretches (ts ++ t :: us) (a.span.hull b.span) :=
        @Stretches.hull ts us [t] _ _ hsa hsb ho
      refine ⟨hs, .mk ⟨?_, List.forall_mem_nil _⟩ (by simpa [TypeExpr.parts] using ⟨ha, hb⟩)⟩
      exact (Pieces.first hsa ((Pieces.only hsb).prepend [t])).encloses hs ho
  | ofApplication _ ih => exact ih ho
  | @applied t ts name as ht _ ih =>
      obtain ⟨hpieces, has, hhull⟩ := ih (ho.part ⟨[t], [], by simp⟩)
      have hs : Stretches (t :: ts) (hullAll t.span as) := hhull [t] t.span (stretches_token t) ho
      refine ⟨hs, .mk ⟨?_, List.forall_mem_nil _⟩ has⟩
      rw [TypeExpr.innerSpans, TypeName.span_ofWord]
      exact (Pieces.first (stretches_token t) hpieces).encloses hs ho
  | ofAtom _ ih => exact ih ho
  | @typeVariable t name _ =>
      exact ⟨stretches_token t, .inOrder_leaf rfl rfl rfl⟩
  | @named t name _ =>
      refine ⟨stretches_token t, .mk ⟨?_, List.forall_mem_nil _⟩ (List.forall_mem_nil _)⟩
      rw [TypeExpr.innerSpans, TypeName.span_ofWord]
      exact (Pieces.only (stretches_token t)).encloses (stretches_token t) ho
  | @unit l r _ _ => exact ⟨@Stretches.tokens [] l r ho, .inOrder_leaf rfl rfl rfl⟩
  | @parenthesized l r ts a _ _ _ ih =>
      obtain ⟨hsa, ha⟩ := ih (ho.part ⟨[l], [r], by simp⟩)
      obtain ⟨hs, hinner⟩ := (Pieces.only hsa).bracketed ho
      exact ⟨by rwa [TypeExpr.span_withSpan], ha.inOrder_withSpan hinner⟩
  | @tuple l r ts us a b bs _ _ _ _ iha ihb =>
      obtain ⟨hsa, ha⟩ := iha (ho.part ⟨[l], us ++ [r], by simp⟩)
      obtain ⟨hsb, hb⟩ := ihb (ho.part ⟨l :: ts, [r], by simp⟩)
      rw [← List.append_assoc] at ho ⊢
      obtain ⟨hs, hinner⟩ := (Pieces.first hsa hsb).bracketed ho
      exact ⟨hs, .mk ⟨hinner, List.forall_mem_nil _⟩ (List.forall_mem_cons.2 ⟨ha, hb⟩)⟩
  | @emptyRecord l r _ _ => exact ⟨@Stretches.tokens [] l r ho, .inOrder_leaf rfl rfl rfl⟩
  | @record l r ts us f fs _ _ _ _ ihf ihfs =>
      obtain ⟨hsf, hf⟩ := ihf (ho.part ⟨[l], us ++ [r], by simp⟩)
      obtain ⟨hsfs, hfs⟩ := ihfs (ho.part ⟨l :: ts, [r], by simp⟩)
      have hall := (List.forall_mem_cons (p := RecordField.InOrder)).2 ⟨hf, hfs⟩
      rw [← List.append_assoc] at ho ⊢
      obtain ⟨hs, hinner⟩ := (Pieces.first hsf hsfs).bracketed ho
      exact ⟨hs, .mk ⟨hinner, fun g hg => (hall g hg).inner⟩ (forall_mem_parts_inOrder hall)⟩
  | @extensible l n t r ts us base f fs _ _ _ _ _ _ ihf ihfs =>
      obtain ⟨hsf, hf⟩ := ihf (ho.part ⟨[l, n, t], us ++ [r], by simp⟩)
      obtain ⟨hsfs, hfs⟩ := ihfs (ho.part ⟨l :: n :: t :: ts, [r], by simp⟩)
      have hall := (List.forall_mem_cons (p := RecordField.InOrder)).2 ⟨hf, hfs⟩
      rw [← List.append_assoc] at ho ⊢
      obtain ⟨hs, hinner⟩ := ((Pieces.first hsf hsfs).prepend [n, t]).bracketed ho
      exact ⟨hs, .mk ⟨hinner, fun g hg => (hall g hg).inner⟩ (forall_mem_parts_inOrder hall)⟩
  | noArguments =>
      refine ⟨.nil, List.forall_mem_nil _, fun us s hs _ => ?_⟩
      rw [List.append_nil]
      exact hs
  | @argument ts us a as _ _ iha ihas =>
      obtain ⟨hsa, ha⟩ := iha ho.left
      obtain ⟨hsas, has, hhull⟩ := ihas ho.right
      refine ⟨.first hsa hsas, List.forall_mem_cons.2 ⟨ha, has⟩, fun vs s hs hvs => ?_⟩
      -- the hull grows from the left: what is before the other arguments has this one in it
      rw [← List.append_assoc] at hvs ⊢
      exact hhull _ _ (@Stretches.hull vs ts [] _ _ hs hsa hvs.left) hvs
  | noElements => exact ⟨.nil, List.forall_mem_nil _⟩
  | @element t ts us a as _ _ _ iha ihas =>
      obtain ⟨hsa, ha⟩ := iha (ho.part ⟨[t], us, by simp⟩)
      obtain ⟨hsas, has⟩ := ihas (ho.part ⟨t :: ts, [], by simp⟩)
      exact ⟨(Pieces.first hsa hsas).prepend [t], List.forall_mem_cons.2 ⟨ha, has⟩⟩
  | @field n t ts name a _ _ _ ih =>
      obtain ⟨hsa, ha⟩ := ih (ho.part ⟨[n, t], [], by simp⟩)
      have hs := @Stretches.hull [n] ts [t] _ _ (stretches_token n) hsa ho
      exact ⟨hs, ((Pieces.only hsa).prepend [n, t]).encloses hs ho, ha⟩
  | noFields => exact ⟨.nil, List.forall_mem_nil _⟩
  | @fields t ts us f fs _ _ _ ihf ihfs =>
      obtain ⟨hsf, hf⟩ := ihf (ho.part ⟨[t], us, by simp⟩)
      obtain ⟨hsfs, hfs⟩ := ihfs (ho.part ⟨t :: ts, [], by simp⟩)
      exact ⟨(Pieces.first hsf hsfs).prepend [t], List.forall_mem_cons.2 ⟨hf, hfs⟩⟩

theorem Derives.inOrder_part {ts us : List Token} {a : TypeExpr} (h : Derives us (.type a))
    (hus : us <:+: ts) (ho : Ordered ts) :
    Pieces ts [a.span] ∧ ∀ e ∈ [a], e.All TypeExpr.InOrder := by
  obtain ⟨hs, ha⟩ := h.inOrder (ho.part hus)
  exact ⟨(Pieces.only hs).sublist hus, List.forall_mem_singleton.2 ha⟩

structure Variant.InOrder (v : Variant) : Prop where
  inner : v.span.Encloses (v.arguments.map TypeExpr.span)
  arguments : ∀ e ∈ v.arguments, e.All TypeExpr.InOrder

namespace Declared

def innerSpans : Declared → List Span
  | .alias _ _ type | .port _ type => [type.span]
  | .custom _ _ variants => variants.map Variant.span
  | .value _ signature => signature.toList.map TypeExpr.span
  | .fixity .. => []

def variants : Declared → List Variant
  | .custom _ _ variants => variants
  | _ => []

end Declared

structure Declaration.InOrder (d : Declaration) : Prop where
  inner : d.span.Encloses d.declared.innerSpans
  variants : ∀ v ∈ d.declared.variants, v.InOrder
  types : ∀ e ∈ d.declared.types, e.All TypeExpr.InOrder

section

variable {ts : List Token}

theorem DerivesVariant.inOrder {v : Variant} (h : DerivesVariant ts v) (ho : Ordered ts) :
    Stretches ts v.span ∧ v.InOrder := by
  cases h with
  | @mk t ts name as _ has =>
      obtain ⟨hpieces, has, hhull⟩ := has.inOrder (ho.part ⟨[t], [], by simp⟩)
      have hs : Stretches (t :: ts) (hullAll t.span as) := hhull [t] t.span (stretches_token t) ho
      exact ⟨hs, (hpieces.prepend [t]).encloses hs ho, has⟩

theorem DerivesVariants.inOrder {vs : List Variant} (h : DerivesVariants ts vs) (ho : Ordered ts) :
    Pieces ts (vs.map Variant.span) ∧ ∀ v ∈ vs, v.InOrder := by
  induction h with
  | nil => exact ⟨.nil, List.forall_mem_nil _⟩
  | @cons t ts us v vs _ hv _ ih =>
      obtain ⟨hs, hv⟩ := hv.inOrder (ho.part ⟨[t], us, by simp⟩)
      obtain ⟨hss, hvs⟩ := ih (ho.part ⟨t :: ts, [], by simp⟩)
      exact ⟨(Pieces.first hs hss).prepend [t], List.forall_mem_cons.2 ⟨hv, hvs⟩⟩

theorem DerivesDeclared.inOrder {d : Declared} (h : DerivesDeclared ts d) (ho : Ordered ts) :
    Pieces ts d.innerSpans ∧ (∀ v ∈ d.variants, v.InOrder) ∧
      ∀ e ∈ d.types, e.All TypeExpr.InOrder := by
  cases h with
  | @typeAlias k l n e ps ts name parameters a _ _ _ _ _ ha =>
      obtain ⟨hpieces, ha⟩ := ha.inOrder_part ⟨k :: l :: n :: (ps ++ [e]), [], by simp⟩ ho
      exact ⟨hpieces, List.forall_mem_nil _, ha⟩
  | emptyCustom => exact ⟨.nil, List.forall_mem_nil _, List.forall_mem_nil _⟩
  | @custom k n e ps ts us name parameters v vs _ _ _ _ hv hvs =>
      have hts : ts ++ us <:+: k :: n :: (ps ++ e :: (ts ++ us)) :=
        ⟨k :: n :: (ps ++ [e]), [], by simp⟩
      obtain ⟨hs, hv⟩ := hv.inOrder (ho.part hts).left
      obtain ⟨hss, hvs⟩ := hvs.inOrder (ho.part hts).right
      have hall := (List.forall_mem_cons (p := Variant.InOrder)).2 ⟨hv, hvs⟩
      refine ⟨(Pieces.first hs hss).sublist hts, hall, List.forall_mem_flatMap.2 fun w hw => ?_⟩
      exact (hall w hw).arguments
  | @value n ts name signature _ hs =>
      cases signature with
      | none => exact ⟨.nil, List.forall_mem_nil _, List.forall_mem_nil _⟩
      | some a =>
          obtain ⟨us, hus, ha⟩ := hs a rfl
          obtain ⟨hpieces, ha⟩ := ha.inOrder_part (hus.trans ⟨[n], [], by simp⟩) ho
          exact ⟨hpieces, List.forall_mem_nil _, ha⟩
  | @port k n t ts name a _ _ _ ha =>
      obtain ⟨hpieces, ha⟩ := ha.inOrder_part ⟨[k, n, t], [], by simp⟩ ho
      exact ⟨hpieces, List.forall_mem_nil _, ha⟩
  | fixity => exact ⟨.nil, List.forall_mem_nil _, List.forall_mem_nil _⟩

theorem DerivesDeclaration.inOrder {d : Declaration} (h : DerivesDeclaration ts d)
    (ho : Ordered ts) : Stretches ts d.span ∧ d.InOrder := by
  obtain ⟨hpieces, hvariants, htypes⟩ := h.declared.inOrder ho
  have hs : Stretches ts d.span := .of_hull h.declared.ne_nil ho h.span
  exact ⟨hs, hpieces.encloses hs ho, hvariants, htypes⟩

theorem Cursor.ReadsDeclarations.inOrder {c : Cursor} {ds : List Declaration}
    (h : c.ReadsDeclarations ds) (ho : Ordered c.ahead) :
    Pieces c.ahead (ds.map Declaration.span) ∧ ∀ d ∈ ds, d.InOrder := by
  induction h with
  | nil => exact ⟨.nil, List.forall_mem_nil _⟩
  | cons hrun _ ih =>
      obtain ⟨ts, hts, hd⟩ := takes_of_run_declaration hrun
      rw [hts.ahead] at ho ⊢
      obtain ⟨hs, hd⟩ := hd.inOrder ho.left
      obtain ⟨hss, hds⟩ := ih ho.right
      exact ⟨.first hs hss, List.forall_mem_cons.2 ⟨hd, hds⟩⟩

end

theorem SourceFile.pairwise_of_ofTokens_eq_ok {tokens : List Token} {file : SourceFile}
    (ho : Ordered tokens) (h : ofTokens tokens = .ok file) :
    (file.declarations.map Declaration.span).Pairwise (fun p q => p.stop ≤ q.start) ∧
      ∀ d ∈ file.declarations, d.InOrder := by
  obtain ⟨c, hc, hds⟩ := exists_readsDeclarations h
  have hordered := ho.part hc.isInfix
  obtain ⟨hpieces, hin⟩ := hds.inOrder hordered
  exact ⟨hpieces.pairwise hordered, hin⟩

end ElmTypes
