import ElmTypes.Proofs.Comparison.Meaning
import ElmTypes.Proofs.Grammar.Layout
import ElmTypes.Proofs.Report.Placement

namespace ElmTypes

section

variable {ts : List Token} {i j : Nat} {a b : Span}

def BeginsAt (ts : List Token) (i : Nat) (s : Span) : Prop :=
  ∃ t, ts[i]? = some t ∧ s.start = t.span.start

def EndsAt (ts : List Token) (i : Nat) (s : Span) : Prop :=
  ∃ t, ts[i]? = some t ∧ s.stop = t.span.stop

theorem Ordered.rel_of_le (ho : Ordered ts) {R : Token → Token → Prop} (hrefl : ∀ t, R t t)
    (hR : ∀ t u : Token, t.span.stop ≤ u.span.start → R t u) {t u : Token} (hij : i ≤ j)
    (ht : ts[i]? = some t) (hu : ts[j]? = some u) : R t u := by
  rcases Nat.eq_or_lt_of_le hij with rfl | hlt
  · obtain rfl := Option.some.inj (ht.symm.trans hu)
    exact hrefl t
  · obtain ⟨hi, rfl⟩ := List.getElem?_eq_some_iff.1 ht
    obtain ⟨hj, rfl⟩ := List.getElem?_eq_some_iff.1 hu
    exact hR _ _ (List.pairwise_iff_getElem.1 ho.pairwise i j hi hj hlt)

theorem Ordered.start_le (ho : Ordered ts) {t u : Token} (hij : i ≤ j) (ht : ts[i]? = some t)
    (hu : ts[j]? = some u) : t.span.start ≤ u.span.start := by
  apply ho.rel_of_le (R := fun t u => t.span.start ≤ u.span.start) _ _ hij ht hu
  · exact fun t => Nat.le_refl _
  · exact fun t u htu => Nat.le_trans (Nat.le_add_right _ _) htu

theorem Ordered.stop_le (ho : Ordered ts) {t u : Token} (hij : i ≤ j) (ht : ts[i]? = some t)
    (hu : ts[j]? = some u) : t.span.stop ≤ u.span.stop := by
  apply ho.rel_of_le (R := fun t u => t.span.stop ≤ u.span.stop) _ _ hij ht hu
  · exact fun t => Nat.le_refl _
  · exact fun t u htu => Nat.le_trans htu (Nat.le_add_right _ _)

theorem BeginsAt.hull (ho : Ordered ts) (ha : BeginsAt ts i a) (hb : BeginsAt ts j b)
    (hane : a.isEmpty = false) (hbne : b.isEmpty = false) : BeginsAt ts (min i j) (a.hull b) := by
  obtain ⟨t, ht, hat⟩ := ha
  obtain ⟨u, hu, hbu⟩ := hb
  have hstart := Span.start_hull hane hbne
  rcases Nat.le_total i j with hij | hji
  · have htu := ho.start_le hij ht hu
    rw [Nat.min_eq_left hij]
    exact ⟨t, ht, by omega⟩
  · have hut := ho.start_le hji hu ht
    rw [Nat.min_eq_right hji]
    exact ⟨u, hu, by omega⟩

theorem EndsAt.hull (ho : Ordered ts) (ha : EndsAt ts i a) (hb : EndsAt ts j b)
    (hane : a.isEmpty = false) (hbne : b.isEmpty = false) : EndsAt ts (max i j) (a.hull b) := by
  obtain ⟨t, ht, hat⟩ := ha
  obtain ⟨u, hu, hbu⟩ := hb
  have hstop := Span.stop_hull hane hbne
  rcases Nat.le_total i j with hij | hji
  · have htu := ho.stop_le hij ht hu
    rw [Nat.max_eq_right hij]
    exact ⟨u, hu, by omega⟩
  · have hut := ho.stop_le hji hu ht
    rw [Nat.max_eq_left hji]
    exact ⟨t, ht, by omega⟩

end

def SameTokens (ts ts' : List Token) (s s' : Span) : Prop :=
  ∃ i j, BeginsAt ts i s ∧ BeginsAt ts' i s' ∧ EndsAt ts j s ∧ EndsAt ts' j s'

inductive SameExtent (ts ts' : List Token) (s s' : Span) : Prop where
  | empty (h : s.isEmpty = true) (h' : s'.isEmpty = true)
  | tokens (h : s.isEmpty = false) (h' : s'.isEmpty = false) (hs : SameTokens ts ts' s s')

section

variable {ts ts' : List Token}

theorem keepsHulls_sameExtent (ho : Ordered ts) (ho' : Ordered ts') :
    KeepsHulls (SameExtent ts ts') := by
  intro a a' b b' ha hb
  cases hb with
  | empty h h' => rwa [Span.hull_of_isEmpty_right h, Span.hull_of_isEmpty_right h']
  | tokens hbne hbne' hb =>
      cases ha with
      | empty h h' =>
          rw [Span.hull_of_isEmpty_left h hbne, Span.hull_of_isEmpty_left h' hbne']
          exact .tokens hbne hbne' hb
      | tokens hane hane' ha =>
          refine .tokens (Span.isEmpty_hull hane hbne) (Span.isEmpty_hull hane' hbne') ?_
          obtain ⟨i, j, hi, hi', hj, hj'⟩ := ha
          obtain ⟨k, l, hk, hk', hl, hl'⟩ := hb
          exact ⟨min i k, max j l, hi.hull ho hk hane hbne, hi'.hull ho' hk' hane' hbne',
            hj.hull ho hl hane hbne, hj'.hull ho' hl' hane' hbne'⟩

theorem Ordered.isEmpty_eq_false (ho : Ordered ts) {t : Token} (ht : t ∈ ts) :
    t.span.isEmpty = false := by
  have hpos := ho.nonempty t ht
  simp only [Span.isEmpty, beq_eq_false_iff_ne]
  omega

theorem sameExtent_getElem (ho : Ordered ts) (ho' : Ordered ts') {i : Nat} (h : i < ts.length)
    (h' : i < ts'.length) : SameExtent ts ts' ts[i].span ts'[i].span := by
  refine .tokens (ho.isEmpty_eq_false (List.getElem_mem h)) (ho'.isEmpty_eq_false (List.getElem_mem h'))
    ⟨i, i, ?_, ?_, ?_, ?_⟩
  · exact ⟨ts[i], List.getElem?_eq_getElem h, rfl⟩
  · exact ⟨ts'[i], List.getElem?_eq_getElem h', rfl⟩
  · exact ⟨ts[i], List.getElem?_eq_getElem h, rfl⟩
  · exact ⟨ts'[i], List.getElem?_eq_getElem h', rfl⟩

end

theorem Failure.Alike.imp {S T : Span → Span → Prop} {f f' : Failure} (h : f.Alike S f')
    (hST : ∀ s ∈ f.spans, ∀ s', S s s' → T s s') : f.Alike T f' := by
  cases h with
  | @malformed es es' h =>
      refine .malformed ?_
      rw [← List.map_id es, ← List.map_id es']
      refine forall₂_map h fun e he e' hee' => ⟨hee'.cause, ?_⟩
      exact hST _ (List.mem_map_of_mem he) _ hee'.span
  | @invalid ps ps' h =>
      refine .invalid ?_
      rw [← List.map_id ps, ← List.map_id ps']
      refine forall₂_map h fun p hp p' hpp' => ⟨hpp'.cause, ?_⟩
      exact hST _ (List.mem_map_of_mem hp) _ hpp'.span

theorem check_ignores_spacing {s s' : String} {ts ts' : List Token} (hl : lex s = .ok ts)
    (hl' : lex s' = .ok ts')
    (hts : List.Forall₂ (fun t t' => t.kind = t'.kind ∧ (t.column = 0 ↔ t'.column = 0)) ts ts') :
    Agrees (Failure.Alike (SameTokens ts ts')) Eq (check s) (check s') := by
  have ho := ordered_of_lex hl
  have ho' := ordered_of_lex hl'
  have hextent : List.Forall₂ (fun t t' => t'.kind = t.kind ∧
      t'.startsDeclaration = t.startsDeclaration ∧ SameExtent ts ts' t.span t'.span) ts ts' := by
    rw [List.forall₂_iff_get] at hts ⊢
    refine ⟨hts.1, fun i h h' => ?_⟩
    obtain ⟨hkind, hcolumn⟩ := hts.2 i h h'
    refine ⟨hkind.symm, ?_, sameExtent_getElem ho ho' h h'⟩
    rw [Bool.eq_iff_iff, Token.startsDeclaration, Token.startsDeclaration, beq_iff_eq, beq_iff_eq]
    exact hcolumn.symm
  have hcheck := agrees_check (keepsHulls_sameExtent ho ho') (.empty rfl rfl) hl hl' hextent
  have hne (f : Failure) (hf : check s = .error f) : ∀ t ∈ f.spans, t.Within s.length :=
    (Failure.within_of_check_eq_error hf).2
  generalize check s = r, check s' = r' at hcheck hne ⊢
  cases hcheck with
  | ok h => exact .ok h
  | error h =>
      refine .error (h.imp fun t ht t' htt' => ?_)
      cases htt' with
      | empty he _ => exact absurd (hne _ rfl t ht).1 (by simp [he])
      | tokens _ _ htokens => exact htokens

theorem check_ignores_spacing_unit :
    let s := "type T = A ()"
    let s' := "type T -- unit\n  = A ( )"
    let ts : List Token := [⟨.word "type", ⟨0, 4⟩, 0⟩, ⟨.word "T", ⟨5, 1⟩, 5⟩,
      ⟨.symbol .equals, ⟨7, 1⟩, 7⟩, ⟨.word "A", ⟨9, 1⟩, 9⟩, ⟨.opening .round, ⟨11, 1⟩, 11⟩,
      ⟨.closing .round, ⟨12, 1⟩, 12⟩]
    let ts' : List Token := [⟨.word "type", ⟨0, 4⟩, 0⟩, ⟨.word "T", ⟨5, 1⟩, 5⟩,
      ⟨.symbol .equals, ⟨17, 1⟩, 2⟩, ⟨.word "A", ⟨19, 1⟩, 4⟩, ⟨.opening .round, ⟨21, 1⟩, 6⟩,
      ⟨.closing .round, ⟨23, 1⟩, 8⟩]
    lex s = .ok ts ∧ lex s' = .ok ts' ∧
      check s = .error (.invalid [⟨.unsupported .unit, ⟨11, 2⟩⟩]) ∧
      check s' = .error (.invalid [⟨.unsupported .unit, ⟨21, 3⟩⟩]) ∧
      Agrees (Failure.Alike (SameTokens ts ts')) Eq (check s) (check s') := by
  intro s s' ts ts'
  have hl : lex s = .ok ts := by decide
  have hl' : lex s' = .ok ts' := by decide
  have hcheck : check s = .error (.invalid [⟨.unsupported .unit, ⟨11, 2⟩⟩]) := by
    rw [check, SourceFile.parse, hl]
    simp only [ts]
    rfl
  have hcheck' : check s' = .error (.invalid [⟨.unsupported .unit, ⟨21, 3⟩⟩]) := by
    rw [check, SourceFile.parse, hl']
    simp only [ts']
    rfl
  refine ⟨hl, hl', hcheck, hcheck', check_ignores_spacing hl hl' ?_⟩
  simp [ts, ts']

end ElmTypes
