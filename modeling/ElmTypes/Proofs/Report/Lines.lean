import ElmTypes.Proofs.Lexical.Wording
import ElmTypes.Proofs.Report.Placement

namespace ElmTypes

theorem TokenKind.text_of_lowercaseName? {k : TokenKind} {w : String}
    (h : k.lowercaseName? = some w) : k.text = w := by
  rw [(lowercaseName?_eq_some_iff.1 h).1, text]

theorem TokenKind.text_of_capitalisedName? {k : TokenKind} {w : String}
    (h : k.capitalisedName? = some w) : k.text = w := by
  rw [(capitalisedName?_eq_some_iff.1 h).1, text]

theorem TokenKind.text_of_operator? {k : TokenKind} {w : String} (h : k.operator? = some w) :
    k.text = w := by
  cases k with
  | operator w' => exact Option.some.inj h
  | symbol s => exact Option.some.inj h
  | _ => cases h

theorem Expected.oneLine_text (e : Expected) : OneLine e.text := by
  cases e with
  | keyword k => cases k <;> decide
  | opening b => cases b <;> decide
  | closing b => cases b <;> decide
  | symbol s => cases s <;> decide
  | _ => decide

theorem OneLine.quoted {before s : String} (hb : OneLine before) (hs : OneLine s) :
    OneLine (before ++ s ++ "`") :=
  (hb.append hs).append (by decide)

namespace SyntaxCause

theorem oneLine_expectedNotes (es : List Expected) : ∀ n ∈ expectedNotes es, OneLine n := by
  cases es with
  | nil => simp [expectedNotes]
  | cons e es =>
      refine List.forall_mem_singleton.2 (OneLine.append (by decide) ?_)
      exact .intercalate (by decide) (List.forall_mem_map.2 fun e _ => e.oneLine_text)

variable {ts : List Token} {cause : SyntaxCause}

theorem About.oneLine_message (h : cause.About ts) (hts : ∀ t ∈ ts, OneLine t.kind.text) :
    OneLine cause.message := by
  cases h with
  | unexpectedToken ht es => exact .quoted (by decide) (hts _ ht)
  | unexpectedEnd es => exact (by decide : OneLine "unexpected end of file")
  | qualifiedName ht hn =>
      exact .quoted (by decide) (TokenKind.text_of_capitalisedName? hn ▸ hts _ ht)
  | indented ht => exact .quoted (by decide) (hts _ ht)
  | danglingSignature ht hn hf =>
      have hname := TokenKind.text_of_lowercaseName? hn ▸ hts _ ht
      exact (OneLine.append (by decide) hname).append (by decide)
  | missingBody ht hn =>
      have hname := TokenKind.text_of_lowercaseName? hn ▸ hts _ ht
      exact (OneLine.append (by decide) hname).append (by decide)

theorem About.oneLine_notes (h : cause.About ts) (hts : ∀ t ∈ ts, OneLine t.kind.text) :
    ∀ n ∈ cause.notes, OneLine n := by
  cases h with
  | unexpectedToken ht es => exact oneLine_expectedNotes es
  | unexpectedEnd es => exact oneLine_expectedNotes es
  | qualifiedName ht hn => exact List.forall_mem_singleton.2 (by decide)
  | indented ht => exact List.forall_mem_singleton.2 (by decide)
  | @danglingSignature t name found ht hn hf =>
      cases found with
      | none => exact List.forall_mem_singleton.2 (by decide)
      | some k =>
          obtain ⟨t, ht, rfl⟩ := hf k rfl
          exact List.forall_mem_singleton.2 ((OneLine.append (by decide) (hts t ht)).append (by decide))
  | missingBody ht hn => simp [notes]

end SyntaxCause

namespace Failure

def place (text : List Char) (span : Span) : String :=
  toString (span.position text).line ++ ":" ++ toString (span.position text).column ++ ": "

theorem oneLine_place (text : List Char) (span : Span) : OneLine (place text span) :=
  (((OneLine.nat _).append (by decide)).append (.nat _)).append (by decide)

theorem line_eq (text : List Char) (span : Span) (message : String) (notes : List String) :
    line text span message notes = place text span ++ (message ++
      if notes.isEmpty then "" else " (" ++ "; ".intercalate notes ++ ")") := by
  rw [← String.append_assoc]
  rfl

theorem oneLine_line (text : List Char) (span : Span) {message : String} {notes : List String}
    (hm : OneLine message) (hn : ∀ n ∈ notes, OneLine n) :
    OneLine (line text span message notes) := by
  rw [line_eq]
  refine (oneLine_place text span).append (hm.append ?_)
  split
  · decide
  · exact (OneLine.append (by decide) (.intercalate (by decide) hn)).append (by decide)

theorem forall₂_place_lines (text : List Char) (f : Failure) :
    List.Forall₂ (fun s l => (place text s).toList <+: l) f.spans
      ((f.lines text).map String.toList) := by
  have hline (s : Span) (message : String) (notes : List String) :
      (place text s).toList <+: (line text s message notes).toList := by
    rw [line_eq, String.toList_append]
    exact List.prefix_append _ _
  cases f with
  | malformed errors =>
      rw [spans, lines, List.map_map, List.forall₂_map_left_iff, List.forall₂_map_right_iff]
      exact List.forall₂_same.2 fun e _ => hline _ _ _
  | invalid problems =>
      rw [spans, lines, List.map_map, List.forall₂_map_left_iff, List.forall₂_map_right_iff]
      exact List.forall₂_same.2 fun p _ => hline _ _ _

theorem length_lines (text : List Char) (f : Failure) : (f.lines text).length = f.count := by
  cases f <;> simp [lines, count]

end Failure

theorem Declared.name_mapNames (f : TypeName → TypeName) (d : Declared) :
    (d.mapNames f).name = d.name := by
  cases d <;> rfl

theorem Declared.oneLine_description (d : Declared) : OneLine d.description := by
  cases d with
  | «alias» name parameters type => exact (by decide : OneLine "type alias")
  | custom name parameters variants => exact (by decide : OneLine "custom type")
  | value name signature => exact (by decide : OneLine "function declaration")
  | port name type => exact (by decide : OneLine "port declaration")
  | fixity a n operator function => exact (by decide : OneLine "infix declaration")

theorem Declares.oneLine {t : Token} {name : String} (h : Reader.Declares t name)
    (ht : OneLine t.kind.text) : OneLine name :=
  TokenKind.text_of_capitalisedName? h.1 ▸ ht

theorem DerivesDeclared.oneLine_name {ts : List Token} {d : Declared} (h : DerivesDeclared ts d)
    (hts : ∀ t ∈ ts, OneLine t.kind.text) : OneLine d.name := by
  cases h with
  | typeAlias _ _ hn _ _ _ => exact Declares.oneLine hn (hts _ (by simp))
  | emptyCustom _ hn _ => exact Declares.oneLine hn (hts _ (by simp))
  | custom _ hn _ _ _ _ => exact Declares.oneLine hn (hts _ (by simp))
  | value hn _ => exact TokenKind.text_of_lowercaseName? hn ▸ hts _ (by simp)
  | port _ hn _ _ => exact TokenKind.text_of_lowercaseName? hn ▸ hts _ (by simp)
  | fixity _ ho hop =>
      have hoperator := TokenKind.text_of_operator? hop ▸ hts _ (List.mem_cons_of_mem _ ho)
      exact (OneLine.append (by decide) hoperator).append (by decide)

theorem TypeExpr.exists_type_of_mem_visits {e : TypeExpr} {around : List Node} {v : Visit}
    (h : v ∈ e.visits around) : ∃ a, v.node = .type a := by
  induction e using parts_induction generalizing around with
  | step e ih =>
      rw [visits_eq_cons, List.mem_cons, List.mem_flatMap] at h
      rcases h with rfl | ⟨a, ha, hv⟩
      · exact ⟨e, rfl⟩
      · exact ih a ha hv

namespace Node

theorem oneLine_of_problem?_type {e : TypeExpr} {p : Problem}
    (h : (Node.type e).problem? = some p) : OneLine p.cause.message := by
  cases e with
  | named n arguments s =>
      simp only [problem?] at h
      split at h
      · rename_i c _
        split at h
        · cases h
        · cases h
          have hname : OneLine c.name := by cases c <;> decide
          have hnoun : OneLine "type argument" := by decide
          have hcount := OneLine.counted c.arity hnoun
          exact ((((OneLine.append (by decide) hname).append (by decide)).append hcount).append
            (by decide)).append (.nat _)
      · cases h
  | unit s =>
      cases h
      exact (by decide : OneLine (ProblemCause.unsupported .unit).message)
  | extensible base fields s =>
      cases h
      exact (by decide : OneLine (ProblemCause.unsupported .extensible).message)
  | function domain codomain s =>
      cases h
      exact (by decide : OneLine (ProblemCause.unsupported .function).message)
  | _ => cases h

theorem oneLine_of_problem?_declaration {d : Declaration} {p : Problem}
    (hn : OneLine d.declared.name) (h : (Node.declaration d).problem? = some p) :
    OneLine p.cause.message := by
  obtain ⟨declared, span⟩ := d
  have hunsupported : OneLine (ProblemCause.unsupported
      (.declaration declared.description declared.name)).message := by
    have hkind := declared.oneLine_description
    exact OneLine.append (by decide) (((hkind.append (by decide)).append hn).append (by decide))
  rcases declared with _ | ⟨name, parameters, _ | _⟩ | _ | _ | _ <;> cases h
  · exact (OneLine.append (by decide) hn).append (by decide)
  all_goals exact hunsupported

end Node

section

variable {source : String} {f : Failure}

theorem SourceFile.oneLine_of_parse_eq_error {es : List SyntaxError}
    (h : parse source = .error es) (hl : ∀ e, lex source = .error e → e.cause ≠ .lineFeedEscape) :
    ∀ e ∈ es, OneLine e.message ∧ ∀ n ∈ e.notes, OneLine n := by
  unfold parse at h
  split at h
  · rename_i tokens htokens
    intro e he
    have hcause := (((sound_ofTokens tokens).2 es h).2 e he).cause
    have hts : ∀ t ∈ tokens, OneLine t.kind.text := fun t => oneLine_text_of_lex htokens
    exact ⟨hcause.oneLine_message hts, hcause.oneLine_notes hts⟩
  · rename_i e he
    obtain rfl := Except.error.inj h
    intro e' he'
    obtain rfl := List.mem_singleton.1 he'
    exact ⟨oneLine_of_lex he (hl e he), e.cause.oneLine_notes⟩

theorem SourceFile.oneLine_of_parse_eq_ok {file : SourceFile} (h : parse source = .ok file) :
    ∀ d ∈ file.declarations, OneLine d.declared.name := by
  obtain ⟨tokens, htokens, hfile⟩ := parse_eq_ok_iff.1 h
  intro d hd
  obtain ⟨ts, hts, hderives⟩ := ((sound_ofTokens tokens).1 file hfile).declarations d hd
  exact hderives.declared.oneLine_name fun t ht => oneLine_text_of_lex htokens (hts.mem ht)

theorem TypeDecl.oneLine_of_ofFile_eq_error {file : SourceFile} {ps : List Problem}
    (hn : ∀ d ∈ file.declarations, OneLine d.declared.name) (h : ofFile file = .error ps) :
    ∀ p ∈ ps, OneLine p.cause.message := by
  intro p hp
  obtain ⟨d, hd, v, hv, hproblem⟩ := exists_visit_of_ofFile_eq_error h hp
  rcases List.mem_cons.1 hv with rfl | hv
  · exact Node.oneLine_of_problem?_declaration (hn d hd) hproblem
  · rw [TypeExpr.visitsAll_eq_flatMap] at hv
    obtain ⟨e, -, hv⟩ := List.mem_flatMap.1 hv
    obtain ⟨a, ha⟩ := TypeExpr.exists_type_of_mem_visits hv
    rw [ha] at hproblem
    exact Node.oneLine_of_problem?_type hproblem

namespace Failure

theorem oneLine_of_check_eq_error (h : check source = .error f)
    (hl : ∀ e, lex source = .error e → e.cause ≠ .lineFeedEscape) (text : List Char) :
    ∀ l ∈ f.lines text, OneLine l := by
  unfold check at h
  split at h
  · rename_i es hparse
    cases h
    rw [lines, List.forall_mem_map]
    intro e he
    obtain ⟨hm, hn⟩ := SourceFile.oneLine_of_parse_eq_error hparse hl e he
    exact oneLine_line text e.span hm hn
  · rename_i file hparse
    split at h
    · rename_i ps hps
      cases h
      rw [lines, List.forall_mem_map]
      intro p hp
      have hnames : ∀ d ∈ file.resolve.declarations, OneLine d.declared.name := by
        intro d hd
        obtain ⟨d, hd', rfl⟩ := List.mem_map.1 hd
        rw [Declaration.mapNames, Declared.name_mapNames]
        exact SourceFile.oneLine_of_parse_eq_ok hparse d hd'
      have hm := TypeDecl.oneLine_of_ofFile_eq_error hnames hps p hp
      exact oneLine_line text p.span hm (by simp)
    · cases h

theorem splitOn_report (h : check source = .error f)
    (hl : ∀ e, lex source = .error e → e.cause ≠ .lineFeedEscape) :
    (f.report source).toList.splitOn '\n' = (f.lines source.toList).map String.toList := by
  apply splitOn_intercalate_lines
  · obtain ⟨hne, -⟩ := within_of_check_eq_error h
    rw [← List.length_pos_iff, length_lines]
    have hcount : f.count = f.spans.length := by cases f <;> simp [count, spans]
    rw [hcount]
    exact List.length_pos_of_ne_nil hne
  · exact oneLine_of_check_eq_error h hl _

theorem append_eq_intercalate (before s separator after : String) :
    before ++ (s ++ separator ++ after ++ "") = separator.intercalate [before ++ s, after] := by
  rw [String.intercalate_cons_cons, String.intercalate_singleton, String.append_empty]
  simp only [String.append_assoc]

theorem line_lineFeedEscape (text : List Char) (span : Span) :
    line text span LexicalCause.lineFeedEscape.message [] =
      "\n".intercalate [place text span ++ "invalid escape `\\", "`"] := by
  have hmessage : LexicalCause.lineFeedEscape.message = "invalid escape `\\" ++ "\n" ++ "`" :=
    LexicalCause.message_invalidEscape "\n"
  rw [line_eq, List.isEmpty_nil, if_pos rfl, hmessage, append_eq_intercalate]

theorem report_of_lineFeedEscape {e : LexicalError} (hl : lex source = .error e)
    (he : e.cause = .lineFeedEscape) (h : check source = .error f) :
    f.count = 1 ∧ ((f.report source).toList.splitOn '\n').length = 2 := by
  obtain ⟨cause, span⟩ := e
  obtain rfl : cause = .lineFeedEscape := he
  obtain rfl : f = .malformed [⟨.lexical .lineFeedEscape, span⟩] := by
    rw [check, SourceFile.parse, hl] at h
    exact (Except.error.inj h).symm
  have hreport : (malformed [⟨.lexical .lineFeedEscape, span⟩]).report source =
      line source.toList span LexicalCause.lineFeedEscape.message [] := rfl
  have hlines : ∀ l ∈ [place source.toList span ++ "invalid escape `\\", "`"], OneLine l := by
    rw [List.forall_mem_cons, List.forall_mem_singleton]
    exact ⟨(oneLine_place _ _).append (by decide), by decide⟩
  refine ⟨rfl, ?_⟩
  rw [hreport, line_lineFeedEscape, splitOn_intercalate_lines (List.cons_ne_nil _ _) hlines]
  rfl

end Failure

theorem check_reports_line_by_line (h : check source = .error f) :
    (((f.report source).toList.splitOn '\n').length = f.count ↔
      ∀ e, lex source = .error e → e.cause ≠ .lineFeedEscape) ∧
    ((∀ e, lex source = .error e → e.cause ≠ .lineFeedEscape) →
      List.Forall₂ (fun s l => (Failure.place source.toList s).toList <+: l) f.spans
        ((f.report source).toList.splitOn '\n')) := by
  constructor
  · constructor
    · intro hlength e he hcause
      obtain ⟨hcount, htwo⟩ := Failure.report_of_lineFeedEscape he hcause h
      omega
    · intro hl
      rw [Failure.splitOn_report h hl, List.length_map, Failure.length_lines]
  · intro hl
    rw [Failure.splitOn_report h hl]
    exact Failure.forall₂_place_lines source.toList f

end

theorem check_reports_line_by_line_two_errors :
    ∃ f, check "type = Int\nport P" = .error f ∧ f.count = 2 ∧
      ((f.report "type = Int\nport P").toList.splitOn '\n').length = f.count := by
  have hl : lex "type = Int\nport P" = .ok
      [⟨.word "type", ⟨0, 4⟩, 0⟩, ⟨.symbol .equals, ⟨5, 1⟩, 5⟩, ⟨.word "Int", ⟨7, 3⟩, 7⟩,
        ⟨.word "port", ⟨11, 4⟩, 0⟩, ⟨.word "P", ⟨16, 1⟩, 5⟩] := by
    decide
  have h : check "type = Int\nport P" = .error (.malformed
      [⟨.unexpectedToken (.symbol .equals) [.keyword .alias, .capitalisedName], ⟨5, 1⟩⟩,
        ⟨.unexpectedToken (.word "P") [.lowercaseName], ⟨16, 1⟩⟩]) := by
    rw [check, SourceFile.parse, hl]
    rfl
  refine ⟨_, h, rfl, (check_reports_line_by_line h).1.2 ?_⟩
  rw [hl]
  simp

theorem check_reports_escape_in_two_lines :
    ∃ f, check "x = \"\\\n\"" = .error f ∧ f.count = 1 ∧
      ((f.report "x = \"\\\n\"").toList.splitOn '\n').length = 2 := by
  have hl : lex "x = \"\\\n\"" = .error ⟨.lineFeedEscape, ⟨5, 2⟩⟩ := by decide
  have h : check "x = \"\\\n\"" = .error (.malformed [⟨.lexical .lineFeedEscape, ⟨5, 2⟩⟩]) := by
    rw [check, SourceFile.parse, hl]
    rfl
  exact ⟨_, h, Failure.report_of_lineFeedEscape hl rfl h⟩

end ElmTypes
