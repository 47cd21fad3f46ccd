import ElmTypes.Proofs.Comparison.Meaning
import ElmTypes.Proofs.Grammar.Layout
import ElmTypes.Proofs.Lexical.LineEndings

namespace ElmTypes

section

variable {text : List Char}

theorem keepsHulls_inCrlf : KeepsHulls (Span.InCrlf text) := by
  intro a a' b b' ha hb
  cases hbe : b.isEmpty with
  | true => rwa [Span.hull_of_isEmpty_right hbe, Span.hull_of_isEmpty_right (hb.isEmpty.trans hbe)]
  | false =>
      have hbe' := hb.isEmpty.trans hbe
      cases hae : a.isEmpty with
      | true =>
          rwa [Span.hull_of_isEmpty_left hae hbe,
            Span.hull_of_isEmpty_left (ha.isEmpty.trans hae) hbe']
      | false =>
          have hae' := ha.isEmpty.trans hae
          constructor
          · rw [Span.isEmpty_hull hae hbe, Span.isEmpty_hull hae' hbe']
          · rw [Span.start_hull hae hbe, Span.start_hull hae' hbe', ha.start, hb.start,
              (crlfOffset_mono text).map_min]
          · rw [Span.stop_hull hae hbe, Span.stop_hull hae' hbe', ha.stop, hb.stop,
              (crlfOffset_mono text).map_max]

theorem inCrlf_empty : Span.InCrlf text .empty .empty := ⟨rfl, rfl, rfl⟩

theorem Span.InCrlf.position {s s' : Span} (h : s.InCrlf text s') :
    s'.position (crlf text) = s.position text := by
  have htake : (crlf text).take s'.start = crlf (text.take s.start) := by
    rw [← List.take_append_drop s.start text, crlf_append, h.start, crlfOffset,
      List.take_append_drop, List.take_left]
  rw [position_eq_after_take, position_eq_after_take, htake, Position.after_crlf]

theorem Failure.Alike.lines_crlf {f f' : Failure} (h : f.Alike (Span.InCrlf text) f') :
    f'.lines (crlf text) = f.lines text := by
  have hline {s s' : Span} (hs : s.InCrlf text s') (message : String) (notes : List String) :
      line (crlf text) s' message notes = line text s message notes := by
    rw [line, line, hs.position]
  cases h with
  | malformed hes =>
      apply Eq.symm (eq_of_forall₂_map _ hes)
      intro e e' he
      rw [SyntaxError.message, SyntaxError.message, SyntaxError.notes, SyntaxError.notes, he.cause,
        hline he.span]
  | invalid hps =>
      apply Eq.symm (eq_of_forall₂_map _ hps)
      intro p p' hp
      rw [hp.cause, hline hp.span]

end

def crlfSource (source : String) : String := String.ofList (crlf source.toList)

theorem lex_crlfSource {source : String} {tokens : List Token} (h : lex source = .ok tokens)
    (hs : ∀ t ∈ tokens, ∀ text, t.kind = .string text → '\n' ∉ t.span.slice source.toList) :
    ∃ tokens', lex (crlfSource source) = .ok tokens' ∧
      List.Forall₂ (Token.InCrlf source.toList) tokens tokens' := by
  have ht : Tiles [] source.toList tokens := tiles_of_lexFrom h
  rw [lex, crlfSource, String.toList_ofList]
  exact ht.crlf hs

theorem check_crlfSource {source : String} {tokens : List Token} (h : lex source = .ok tokens)
    (hs : ∀ t ∈ tokens, ∀ text, t.kind = .string text → '\n' ∉ t.span.slice source.toList) :
    (check (crlfSource source)).mapError (·.report (crlfSource source)) =
      (check source).mapError (·.report source) := by
  obtain ⟨tokens', h', htokens⟩ := lex_crlfSource h hs
  have hcheck := agrees_check keepsHulls_inCrlf inCrlf_empty h h' <| htokens.imp fun t t' ht => by
    refine ⟨ht.kind, ?_, ht.span⟩
    rw [Token.startsDeclaration, Token.startsDeclaration, ht.column]
  generalize check source = r, check (crlfSource source) = r' at hcheck ⊢
  cases hcheck with
  | ok htypes => exact congrArg Except.ok htypes.symm
  | error hf =>
      have hlines := hf.lines_crlf
      simp only [Except.mapError, Failure.report, crlfSource, String.toList_ofList, hlines]

theorem check_crlfSource_unit :
    let source := "type T -- unit\n  = A ()"
    let tokens : List Token := [⟨.word "type", ⟨0, 4⟩, 0⟩, ⟨.word "T", ⟨5, 1⟩, 5⟩,
      ⟨.symbol .equals, ⟨17, 1⟩, 2⟩, ⟨.word "A", ⟨19, 1⟩, 4⟩, ⟨.opening .round, ⟨21, 1⟩, 6⟩,
      ⟨.closing .round, ⟨22, 1⟩, 7⟩]
    lex source = .ok tokens ∧ crlfSource source = "type T -- unit\r\n  = A ()" ∧
      check source = .error (.invalid [⟨.unsupported .unit, ⟨21, 2⟩⟩]) ∧
      (check (crlfSource source)).mapError (·.report (crlfSource source)) =
        (check source).mapError (·.report source) := by
  intro source tokens
  have h : lex source = .ok tokens := by decide
  have hcheck : check source = .error (.invalid [⟨.unsupported .unit, ⟨21, 2⟩⟩]) := by
    rw [check, SourceFile.parse, h]
    simp only [tokens]
    rfl
  have hs : ∀ t ∈ tokens, ∀ text, t.kind = .string text → '\n' ∉ t.span.slice source.toList := by
    simp [tokens]
  exact ⟨h, by decide, hcheck, check_crlfSource h hs⟩

end ElmTypes
