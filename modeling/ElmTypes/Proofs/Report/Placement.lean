import ElmTypes.Proofs.Grammar.Extent
import ElmTypes.Proofs.Grammar.File
import ElmTypes.Proofs.Lexical.Errors
import ElmTypes.Proofs.Lexical.Tiling
import ElmTypes.Proofs.Validation.Reporting
import ElmTypes.Report.Diagnostic

namespace ElmTypes

def Node.span : Node → Span
  | .declaration d => d.span
  | .type e => e.span

theorem Node.span_of_problem? {n : Node} {p : Problem} (h : n.problem? = some p) :
    p.span = n.span := by
  cases n with
  | declaration d =>
      rcases d with ⟨_ | ⟨_, _, _ | _⟩ | _ | _ | _, s⟩ <;> simp_all [problem?, span] <;>
        simp [← h]
  | type e =>
      cases e with
      | named name arguments s =>
          simp only [problem?] at h
          split at h
          · split at h
            · cases h
            · cases h
              rfl
          · cases h
      | _ =>
          cases h
          try rfl

structure Declaration.Within (n : Nat) (d : Declaration) : Prop where
  span : d.span.Within n
  types : ∀ e ∈ d.declared.types, e.All fun e => e.span.Within n

theorem DerivesDeclaration.within {n : Nat} {ts : List Token} {d : Declaration}
    (h : DerivesDeclaration ts d) (hts : ∀ t ∈ ts, t.span.Within n) : d.Within n := by
  refine ⟨h.covers.within hts, fun e he => ?_⟩
  have hw := (h.declared.written (List.Subset.refl ts)).types e he
  exact hw.mono fun e he => he.span.within hts

theorem Declaration.Within.mapNames {n : Nat} (f : TypeName → TypeName) {d : Declaration}
    (h : d.Within n) : (d.mapNames f).Within n := by
  refine ⟨h.span, ?_⟩
  rw [Declaration.mapNames, Declared.types_mapNames]
  refine List.forall_mem_map.2 fun e he => (h.types e he).mapNames f fun e he => ?_
  rw [TypeExpr.span_mapNames]
  exact he

theorem TypeExpr.span_of_mem_visits {P : Span → Prop} {e : TypeExpr} (h : e.All fun e => P e.span)
    (around : List Node) : ∀ v ∈ e.visits around, P v.node.span := by
  induction h generalizing around with
  | mk hs _ ih =>
      rw [visits_eq_cons]
      refine List.forall_mem_cons.2 ⟨hs, ?_⟩
      rw [List.forall_mem_flatMap]
      exact fun a ha => ih a ha _

theorem Declaration.Within.visits {n : Nat} {d : Declaration} (h : d.Within n) :
    ∀ v ∈ d.visits, v.node.span.Within n := by
  refine List.forall_mem_cons.2 ⟨h.span, ?_⟩
  rw [TypeExpr.visitsAll_eq_flatMap, List.forall_mem_flatMap]
  exact fun e he => TypeExpr.span_of_mem_visits (h.types e he) _

theorem span_within_of_lex {source : String} {tokens : List Token} (h : lex source = .ok tokens) :
    ∀ t ∈ tokens, t.span.Within source.length := by
  intro t ht
  have hfits := (lex_tiles h).1 t ht
  have hinside := hfits.inside
  rw [String.length_toList] at hinside
  exact Span.within_iff.2 ⟨hfits.nonempty, hinside⟩

namespace SourceFile

theorem within_of_parse_eq_ok {source : String} {file : SourceFile} (h : parse source = .ok file) :
    ∀ d ∈ file.declarations, d.Within source.length := by
  unfold parse at h
  split at h
  · rename_i tokens hl
    intro d hd
    obtain ⟨ts, hts, hderives⟩ := ((sound_ofTokens tokens).1 file h).declarations d hd
    exact hderives.within fun t ht => span_within_of_lex hl t (hts.mem ht)
  · cases h

theorem within_of_parse_eq_error {source : String} {es : List SyntaxError}
    (h : parse source = .error es) : es ≠ [] ∧ ∀ e ∈ es, e.span.Within source.length := by
  unfold parse at h
  split at h
  · rename_i tokens hl
    obtain ⟨hne, hes⟩ := (sound_ofTokens tokens).2 es h
    refine ⟨hne, fun e he => ?_⟩
    obtain ⟨t, ht, hspan⟩ := (hes e he).span
    rw [← hspan]
    exact span_within_of_lex hl t ht
  · rename_i e hl
    cases h
    exact ⟨by simp, List.forall_mem_singleton.2 (within_of_lex hl)⟩

end SourceFile

namespace TypeDecl

theorem exists_visit_of_ofFile_eq_error {file : SourceFile} {ps : List Problem} {p : Problem}
    (h : ofFile file = .error ps) (hp : p ∈ ps) :
    ∃ d ∈ file.declarations, ∃ v ∈ d.visits, v.node.problem? = some p := by
  have hps : ps = file.visits.filterMap Visit.report? := by
    rw [← problems_ofFile, h]
    rfl
  rw [hps, List.mem_filterMap] at hp
  obtain ⟨v, hv, hvp⟩ := hp
  obtain ⟨d, hd, hvd⟩ := List.mem_flatMap.1 hv
  refine ⟨d, hd, v, hvd, ?_⟩
  unfold Visit.report? at hvp
  split at hvp
  · exact hvp
  · cases hvp

theorem within_of_ofFile_eq_error {n : Nat} {file : SourceFile} {ps : List Problem}
    (hfile : ∀ d ∈ file.declarations, d.Within n) (h : ofFile file.resolve = .error ps) :
    ps ≠ [] ∧ ∀ p ∈ ps, p.span.Within n := by
  refine ⟨fun hne => Validated.accumulate_ne_error_nil _ (hne ▸ h), fun p hp => ?_⟩
  obtain ⟨d, hd, v, hv, hproblem⟩ := exists_visit_of_ofFile_eq_error h hp
  rw [Node.span_of_problem? hproblem]
  obtain ⟨d, hd', rfl⟩ := List.mem_map.1 hd
  exact ((hfile d hd').mapNames _).visits v hv

end TypeDecl

namespace Failure

def spans : Failure → List Span
  | .malformed errors => errors.map SyntaxError.span
  | .invalid problems => problems.map Problem.span

theorem within_of_check_eq_error {source : String} {f : Failure} (h : check source = .error f) :
    f.spans ≠ [] ∧ ∀ s ∈ f.spans, s.Within source.length := by
  unfold check at h
  split at h
  · rename_i es hparse
    obtain rfl := Except.error.inj h
    obtain ⟨hne, hes⟩ := SourceFile.within_of_parse_eq_error hparse
    exact ⟨by simpa [spans] using hne, List.forall_mem_map.2 hes⟩
  · rename_i file hparse
    split at h
    · rename_i ps hps
      obtain rfl := Except.error.inj h
      obtain ⟨hne, hps⟩ :=
        TypeDecl.within_of_ofFile_eq_error (SourceFile.within_of_parse_eq_ok hparse) hps
      exact ⟨by simpa [spans] using hne, List.forall_mem_map.2 hps⟩
    · cases h

end Failure

namespace Diagnostic

theorem labels_foldl_addFooter (footers : List Footer) (d : Diagnostic) :
    (footers.foldl addFooter d).labels = d.labels := by
  induction footers generalizing d with
  | nil => rfl
  | cons footer footers ih => exact ih _

theorem labels_ofSyntaxError {source : String} {e : SyntaxError} (h : e.span.isEmpty = false) :
    (ofSyntaxError source e).labels = [⟨e.span, ""⟩] := by
  simp [ofSyntaxError, labels_foldl_addFooter, h, addLabel, ofTitle]

end Diagnostic

theorem Failure.labels_diagnostics (source : String) {f : Failure}
    (h : ∀ s ∈ f.spans, s.isEmpty = false) :
    (f.diagnostics source).map (fun d => d.labels.map Label.span) = f.spans.map fun s => [s] := by
  cases f with
  | malformed errors =>
      simp only [diagnostics, spans, List.map_map]
      refine List.map_congr_left fun e he => ?_
      simp [Diagnostic.labels_ofSyntaxError (h e.span (List.mem_map_of_mem he))]
  | invalid problems =>
      simp only [diagnostics, spans, List.map_map]
      rfl

theorem check_points_into_source {source : String} {f : Failure} (h : check source = .error f) :
    0 < f.count ∧ (∀ s ∈ f.spans, 0 < s.length ∧ s.stop ≤ source.length) ∧
      (f.diagnostics source).map (fun d => d.labels.map Label.span) = (f.spans.map fun s => [s]) ∧
      ∀ d ∈ f.diagnostics source, d.misplaced? source = none := by
  obtain ⟨hne, hw⟩ := Failure.within_of_check_eq_error h
  have hlabels := Failure.labels_diagnostics source fun s hs => (hw s hs).1
  refine ⟨?_, fun s hs => Span.within_iff.1 (hw s hs), hlabels, fun d hd => ?_⟩
  · have hcount : f.count = f.spans.length := by cases f <;> simp [Failure.count, Failure.spans]
    rw [hcount]
    exact List.length_pos_of_ne_nil hne
  · have hd' : d.labels.map Label.span ∈ f.spans.map fun s => [s] :=
      hlabels ▸ List.mem_map_of_mem hd
    obtain ⟨s, hs, hds⟩ := List.mem_map.1 hd'
    refine Option.map_eq_none_iff.2 (List.find?_eq_none.2 fun l hl => ?_)
    have hls : l.span = s := by
      have hmem : l.span ∈ [s] := hds ▸ List.mem_map_of_mem hl
      exact List.mem_singleton.1 hmem
    have hstop := (hw s hs).2
    rw [← hls] at hstop
    simpa using hstop

theorem check_points_into_source_unclosed :
    let f : Failure := .malformed [⟨.lexical (.unfinished .string), ⟨11, 2⟩⟩]
    check "type A =\n  \"b" = .error f ∧ 0 < f.count ∧
      ∀ d ∈ f.diagnostics "type A =\n  \"b", d.misplaced? "type A =\n  \"b" = none := by
  have hl : lex "type A =\n  \"b" = .error ⟨.unfinished .string, ⟨11, 2⟩⟩ := by decide
  have h : check "type A =\n  \"b" =
      .error (.malformed [⟨.lexical (.unfinished .string), ⟨11, 2⟩⟩]) := by
    rw [check, SourceFile.parse, hl]
    rfl
  exact ⟨h, (check_points_into_source h).1, (check_points_into_source h).2.2.2⟩

end ElmTypes
