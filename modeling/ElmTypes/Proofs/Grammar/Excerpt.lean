import ElmTypes.Proofs.Comparison.Shifted
import ElmTypes.Proofs.Grammar.Annotations
import ElmTypes.Proofs.Grammar.Layout
import ElmTypes.Proofs.Printing.Annotation

namespace ElmTypes

open Reader

namespace Reader

variable {β : Type} {c : Cursor} {e : Expected} {inner : Reader TypeExpr}

theorem run_bind_checkInside_of_atBoundary {f : Bool → Reader β} (hc : c.atBoundary = true) :
    (checkInside e >>= f).run c = (f false).run (c.note e) := by
  rw [EStateM.run_bind, run_checkInside, hc, Bool.not_true, Bool.and_false]

theorem run_atom_of_atBoundary (hc : c.atBoundary = true) :
    ∃ x d, (atom inner).run c = .error x d := by
  have hnote {c : Cursor} (hc : c.atBoundary = true) (e : Expected) :
      (c.note e).atBoundary = true := by
    rwa [Cursor.atBoundary_note]
  have h1 := hnote hc .lowercaseName
  have h2 := hnote h1 .capitalisedName
  have h3 := hnote h2 (.opening .round)
  simp only [atom, run_bind_checkInside_of_atBoundary hc, run_bind_checkInside_of_atBoundary h1,
    run_bind_checkInside_of_atBoundary h2, run_bind_checkInside_of_atBoundary h3,
    Bool.false_eq_true, if_false]
  exact ⟨_, _, rfl⟩

theorem atBoundary_eq_false_of_run_typeExpr {a : TypeExpr} {d : Cursor}
    (h : typeExpr.run c = .ok a d) : c.atBoundary = false := by
  cases hc : c.atBoundary with
  | false => rfl
  | true =>
      rw [typeExpr, run_bounded, typeExprAt, arrow] at h
      obtain ⟨b, d', happ, -⟩ := exists_of_run_bind h
      rw [application, run_bind_checkInside_of_atBoundary hc] at happ
      have hnote : (c.note .capitalisedName).atBoundary = true := by rwa [Cursor.atBoundary_note]
      obtain ⟨x, d'', herror⟩ := @run_atom_of_atBoundary _ (typeExprAt c.ahead.length) hnote
      simp only [Bool.false_eq_true, if_false, herror] at happ
      cases happ

end Reader

variable {source : String} {tokens : List Token}

theorem Reader.Yields.derives {a : TypeExpr} {us : List Token} {last : Span}
    (h : Yields typeExpr last us [] a) :
    Derives us (.type a) ∧ ∀ t ∈ us.head?, t.startsDeclaration = false := by
  obtain ⟨expected, hrun⟩ := h []
  constructor
  · obtain ⟨ts, hts, ha⟩ := reads_typeExpr.of_run_eq_ok hrun
    have heq : us = ts := by simpa using hts.ahead
    exact heq ▸ ha
  · intro t ht
    have hin := atBoundary_eq_false_of_run_typeExpr hrun
    rw [List.append_nil, Cursor.atBoundary, ht, Option.all_some] at hin
    exact hin

theorem Reader.Yields.run_moved {a : TypeExpr} {us vs : List Token} {last : Span} {n : Nat}
    (h : Yields typeExpr last us [] a) (hne : us ≠ []) (hvs : List.Forall₂ (Token.Moved n) vs us) :
    ∃ b d, typeExpr.run (.start vs) = .ok b d ∧ d.ahead = [] ∧ b.mapSpans (Span.shift n) = a := by
  have hpos : 0 < vs.length := by
    rw [hvs.length_eq]
    exact List.length_pos_iff.2 hne
  -- the tokens of the source are the later ones, so the reading that is sought is the first of two
  let p := Pairing.shifted n [] (by simp) vs.length hpos
  have hlike : List.Forall₂ p.Like vs us := hvs.imp fun v t hm => ⟨hm.kind, hm.starts, hm.span⟩
  have hbeside : p.Beside (.start vs) ⟨us ++ [], [], last⟩ :=
    ⟨.of_forall₂ hlike, fun hlt => absurd hlt (Nat.lt_irrefl _)⟩
  have hbound : (Cursor.start vs).Bound vs.length [] :=
    ⟨Nat.le_refl _, fun _ => List.Subset.refl []⟩
  obtain ⟨expected, hrun⟩ := h []
  have hout := Pairing.relates_typeExpr (p := p) (Nat.le_refl _) _ _ hbeside hbound
  rw [hrun] at hout
  generalize typeExpr.run (.start vs) = r at hout ⊢
  cases hout with
  | ok ha hd _ =>
      refine ⟨_, _, rfl, ?_, ha.eq_mapSpans.symm⟩
      have hlength := hd.ahead.length_eq
      exact List.length_eq_zero_iff.1 hlength.symm
  | overrun ht => cases ht

theorem TypeExpr.StandsIn.run_slice (hl : lex source = .ok tokens) {a : TypeExpr}
    (ha : a.StandsIn tokens) :
    ∃ n ts b d, a.span.start = n + 1 ∧
      lex (" " ++ String.ofList (a.span.slice source.toList)) = .ok ts ∧
      typeExpr.run (.start ts) = .ok b d ∧ d.ahead = [] ∧ b.mapSpans (Span.shift n) = a := by
  obtain ⟨us, last, hus, hy⟩ := ha
  obtain ⟨hderives, hin⟩ := hy.derives
  have hs : Stretches us a.span := (hderives.inOrder ((ordered_of_lex hl).part hus)).1
  obtain ⟨n, ts, hn, hts, hmoved⟩ := lex_slice hl hus hs hin
  have hne : us ≠ [] := by
    rintro rfl
    obtain ⟨t, -, ht, -⟩ := hs
    cases ht
  obtain ⟨b, d, hrun, hd, hb⟩ := hy.run_moved hne hmoved
  exact ⟨n, ts, b, d, hn, hts, hrun, hd, hb⟩

theorem SourceFile.spans_delimit {file : SourceFile} (h : SourceFile.parse source = .ok file) :
    (∀ v ∈ file.visits, ∀ a, v.node = .type a → ∃ n ts b d, a.span.start = n + 1 ∧
      lex (" " ++ String.ofList (a.span.slice source.toList)) = .ok ts ∧
      typeExpr.run (.start ts) = .ok b d ∧ d.ahead = [] ∧ b.mapSpans (Span.shift n) = a) ∧
    (file.declarations.map Declaration.span).Pairwise (fun p q => p.stop ≤ q.start) ∧
    ∀ d ∈ file.declarations, d.InOrder := by
  obtain ⟨tokens, hl, hfile⟩ := SourceFile.parse_eq_ok_iff.1 h
  constructor
  · intro v hv a ha
    obtain ⟨d, hd, e, he, around, hv⟩ := SourceFile.mem_types_of_visits hv ha
    have hall := SourceFile.standsIn_of_mem hfile hd e he
    exact (hall.of_mem_visits hv ha).self.run_slice hl
  · obtain ⟨c, hc, hds⟩ := SourceFile.exists_readsDeclarations hfile
    have hordered : Ordered c.ahead := (ordered_of_lex hl).part hc.isInfix
    obtain ⟨hpieces, hin⟩ := hds.inOrder hordered
    exact ⟨hpieces.pairwise hordered, hin⟩

theorem SourceFile.spans_delimit_record :
    let source := "type alias R a =\n  \x7b f : (Maybe a) -> ()\n\x7d"
    let a : TypeExpr := .function (.named ⟨none, "Maybe", ⟨26, 5⟩⟩ [.variable "a" ⟨32, 1⟩] ⟨25, 9⟩)
      (.unit ⟨38, 2⟩) ⟨25, 15⟩
    let r : TypeExpr := .record [⟨"f", a, ⟨21, 19⟩⟩] ⟨19, 23⟩
    let file : SourceFile := ⟨none, [], [⟨.alias "R" ["a"] r, ⟨0, 42⟩⟩]⟩
    SourceFile.parse source = .ok file ∧
      (∃ ts b d, lex " \x7b f : (Maybe a) -> ()\n\x7d" = .ok ts ∧
        typeExpr.run (.start ts) = .ok b d ∧ d.ahead = [] ∧ b.mapSpans (Span.shift 18) = r) ∧
      ∀ d ∈ file.declarations, d.InOrder := by
  intro source a r file
  have hl : lex source = .ok [⟨.word "type", ⟨0, 4⟩, 0⟩, ⟨.word "alias", ⟨5, 5⟩, 5⟩,
      ⟨.word "R", ⟨11, 1⟩, 11⟩, ⟨.word "a", ⟨13, 1⟩, 13⟩, ⟨.symbol .equals, ⟨15, 1⟩, 15⟩,
      ⟨.opening .brace, ⟨19, 1⟩, 2⟩, ⟨.word "f", ⟨21, 1⟩, 4⟩, ⟨.symbol .colon, ⟨23, 1⟩, 6⟩,
      ⟨.opening .round, ⟨25, 1⟩, 8⟩, ⟨.word "Maybe", ⟨26, 5⟩, 9⟩, ⟨.word "a", ⟨32, 1⟩, 15⟩,
      ⟨.closing .round, ⟨33, 1⟩, 16⟩, ⟨.symbol .arrow, ⟨35, 2⟩, 18⟩, ⟨.opening .round, ⟨38, 1⟩, 21⟩,
      ⟨.closing .round, ⟨39, 1⟩, 22⟩, ⟨.closing .brace, ⟨41, 1⟩, 0⟩] := by
    decide
  have hp : SourceFile.parse source = .ok file := by
    rw [SourceFile.parse, hl]
    rfl
  obtain ⟨hread, -, hin⟩ := SourceFile.spans_delimit hp
  have hr : (⟨.type r, [.declaration ⟨.alias "R" ["a"] r, ⟨0, 42⟩⟩]⟩ : Visit) ∈ file.visits := by
    simp [file, r, SourceFile.visits, Declaration.visits, Declared.types, TypeExpr.visitsAll,
      TypeExpr.visits]
  obtain ⟨n, ts, b, d, hn, hts, hrun, hd, hb⟩ := hread _ hr r rfl
  obtain rfl : 18 = n := Nat.succ.inj hn
  have htext : " " ++ String.ofList (r.span.slice source.toList) =
      " \x7b f : (Maybe a) -> ()\n\x7d" := by
    decide
  rw [htext] at hts
  exact ⟨hp, ⟨ts, b, d, hts, hrun, hd, hb⟩, hin⟩

end ElmTypes
