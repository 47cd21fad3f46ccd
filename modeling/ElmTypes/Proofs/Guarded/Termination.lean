import ElmTypes.Proofs.Grammar.Recursion
import ElmTypes.Proofs.Guarded.Files

namespace ElmTypes

namespace Guarded

variable {before ahead cs : List Char} {c : Char} {e : LexicalError} {l : Lexeme}

def Tape.at (text : List Char) (i : Nat) : Tape :=
  ⟨text, i, i - (text.take i).foldl columnAfter 0⟩

theorem foldl_columnAfter_le (cs : List Char) (column : Nat) :
    cs.foldl columnAfter column ≤ column + cs.length := by
  induction cs generalizing column with
  | nil => exact Nat.le_refl _
  | cons c cs ih =>
      have hnext : columnAfter column c ≤ column + 1 := by
        unfold columnAfter
        split <;> omega
      have := ih (columnAfter column c)
      rw [List.foldl_cons, List.length_cons]
      omega

theorem Tape.stands_at (before ahead : List Char) :
    (Tape.at (before ++ ahead) before.length).Stands before ahead := by
  have hle := foldl_columnAfter_le before 0
  refine ⟨rfl, rfl, ?_⟩
  simp only [Tape.at, List.take_left]
  omega

theorem Tape.Stands.eq_at {t : Tape} (h : t.Stands before ahead) :
    t = .at (before ++ ahead) before.length := by
  obtain ⟨text, position, lineStart⟩ := t
  obtain ⟨htext, hposition, hline⟩ := h
  simp only at htext hposition hline
  subst htext hposition
  rw [Tape.at, List.take_left, ← hline]
  simp

namespace Scanner

open Lexeme

theorem run_piece_of_scan_eq_ok (before : List Char) (h : scan c cs = .ok l) :
    before.length + 1 + l.tail ≤ (before ++ c :: cs).length ∧
      ∃ p, (piece c).run (.at (before ++ c :: cs) before.length) =
        .ok p (.at (before ++ c :: cs) (before.length + 1 + l.tail)) := by
  obtain ⟨w, rest, rfl, hl⟩ : ∃ w rest, cs = w ++ rest ∧ l.tail = w.length := by
    have hle := tail_le_of_scan_eq_ok h
    exact ⟨cs.take l.tail, cs.drop l.tail, (List.take_append_drop _ _).symm, by simp [hle]⟩
  obtain ⟨t, hrun, ht⟩ := scans_piece h hl _ (Tape.stands_at before (c :: w ++ rest))
  have hlength : (before ++ c :: w).length = before.length + 1 + l.tail := by
    rw [List.length_append, List.length_cons, hl]
    omega
  rw [ht.eq_at, List.append_assoc, hlength] at hrun
  refine ⟨?_, _, hrun⟩
  rw [← hlength, ← List.cons_append, ← List.append_assoc]
  exact (List.prefix_append _ rest).length_le

theorem run_piece_of_scan_eq_error (before : List Char) (h : scan c cs = .error e) :
    ∃ t, (piece c).run (.at (before ++ c :: cs) before.length) =
      .error (.error (e.shift before.length)) t :=
  fails_piece h _ (Tape.stands_at before (c :: cs))

end Scanner

end Guarded

namespace Cursor

open Guarded.Parser

variable {tokens : List Token} {i n : Nat} {c d : Cursor}

structure At (tokens : List Token) (i : Nat) (c : Cursor) : Prop where
  le : i ≤ tokens.length
  ahead : c.ahead = tokens.drop i

namespace At

theorem suffix (h : c.At tokens i) : c.ahead <:+ tokens := h.ahead ▸ List.drop_suffix i tokens

theorem length_ahead (h : c.At tokens i) : c.ahead.length = tokens.length - i := by
  rw [h.ahead, List.length_drop]

theorem exists_le (h : c.At tokens i) (hd : d.ahead <:+ c.ahead) : ∃ j, d.At tokens j ∧ i ≤ j := by
  have hle := hd.length_le
  have hi := h.le
  rw [h.length_ahead] at hle
  refine ⟨tokens.length - d.ahead.length, ⟨Nat.sub_le _ _, ?_⟩, by omega⟩
  exact List.suffix_iff_eq_drop.1 (hd.trans h.suffix)

theorem exists_lt (h : c.At tokens i) (hd : d.ahead <:+ c.ahead)
    (hlt : d.ahead.length < c.ahead.length) : ∃ j, d.At tokens j ∧ i < j := by
  obtain ⟨j, hj, hij⟩ := h.exists_le hd
  refine ⟨j, hj, Nat.lt_of_le_of_ne hij ?_⟩
  rintro rfl
  rw [h.ahead, hj.ahead] at hlt
  exact Nat.lt_irrefl _ hlt

end At

theorem At.cursor_place (h : c.At tokens i) : (place tokens c).cursor = i := by
  have hle := h.le
  simp only [place, h.length_ahead]
  omega

theorem At.readHeader (h : c.At tokens i) :
    Guarded.Parser.Recovers tokens c headerOutcome c.readHeader ∧
      ∃ j, c.readHeader.2.At tokens j ∧ i ≤ j := by
  have hread := recovers_headerOutcome h.suffix
  exact ⟨hread, h.exists_le hread.2⟩

theorem At.readImport (h : c.At tokens i) (hi : c.accepts (.keyword .import) = true) :
    Guarded.Parser.Recovers tokens (c.note (.keyword .import)) (recovering importLine)
        ((c.note (.keyword .import)).read Reader.importLine) ∧
      ∃ j, ((c.note (.keyword .import)).read Reader.importLine).2.At tokens j ∧ i < j := by
  have hnote : (c.note (.keyword .import)).At tokens i := ⟨h.le, (ahead_note _ c).trans h.ahead⟩
  have hread := (mirrors_importLine.agrees hnote.suffix).recovering hnote.suffix
  refine ⟨hread, hnote.exists_lt hread.2 (length_lt_of_read_importLine ?_)⟩
  rwa [accepts_note]

theorem At.readDeclaration (h : c.At tokens i) (hc : c.ahead ≠ []) :
    Guarded.Parser.Recovers tokens c declarationOutcome c.readDeclaration ∧
      ∃ j, c.readDeclaration.2.At tokens j ∧ i < j := by
  have hread := recovers_declarationOutcome h.suffix
  exact ⟨hread, h.exists_lt hread.2 (length_lt_of_readDeclaration hc)⟩

theorem readImports_congr {m : Nat} (hn : c.ahead.length < n) (hm : c.ahead.length < m) :
    c.readImports n = c.readImports m := by
  induction n generalizing c m with
  | zero => exact absurd hn (Nat.not_lt_zero _)
  | succ n ih =>
      obtain ⟨m, rfl⟩ := Nat.exists_eq_add_one_of_ne_zero (Nat.ne_zero_of_lt hm)
      rw [readImports, readImports]
      split
      · rename_i hi
        have hlt := length_lt_of_read_importLine hi
        rw [ahead_note] at hlt
        have hrest : readImports n ((c.note (.keyword .import)).read Reader.importLine).2 =
            readImports m ((c.note (.keyword .import)).read Reader.importLine).2 :=
          ih (by omega) (by omega)
        simp only [hrest]
      · rfl

theorem readDeclarations_congr {m : Nat} (hn : c.ahead.length < n) (hm : c.ahead.length < m) :
    c.readDeclarations n = c.readDeclarations m := by
  induction n generalizing c m with
  | zero => exact absurd hn (Nat.not_lt_zero _)
  | succ n ih =>
      obtain ⟨m, rfl⟩ := Nat.exists_eq_add_one_of_ne_zero (Nat.ne_zero_of_lt hm)
      rw [readDeclarations, readDeclarations]
      split
      · rfl
      · rename_i hc
        have hlt := length_lt_of_readDeclaration (mt List.isEmpty_iff.2 hc)
        have hrest : readDeclarations n c.readDeclaration.2 =
            readDeclarations m c.readDeclaration.2 := ih (by omega) (by omega)
        simp only [hrest]

end Cursor

theorem TypeLevel.at_reader {tokens : List Token} {i : Nat} {c : Cursor} (l : TypeLevel)
    (h : c.At tokens i) :
    match l.reader.run c with
    | .ok _ d | .error _ d => ∃ j, d.At tokens j ∧ i ≤ j := by
  have hleaves : Reader.Leaves c.ahead c l.reader := by
    have hc := List.suffix_refl c.ahead
    cases l with
    | type => exact Reader.reads_typeExpr.leaves hc
    | application => exact (Reader.reads_application Reader.reads_typeExpr).leaves hc
    | atom => exact (Reader.reads_atom Reader.reads_typeExpr).leaves hc
    | parenthesized => exact (Reader.reads_parenthesized Reader.reads_typeExpr).leaves hc
    | record => exact (Reader.reads_recordType Reader.reads_typeExpr).leaves hc
  unfold Reader.Leaves at hleaves
  cases hrun : l.reader.run c with
  | ok a d =>
      rw [hrun] at hleaves
      exact h.exists_le hleaves
  | error e d =>
      rw [hrun] at hleaves
      exact h.exists_le hleaves

open Guarded.Parser

theorem frontend_consumes_input :
    (∀ (before cs : List Char) (c : Char),
      match Lexeme.scan c cs with
      | .ok l => before.length + 1 + l.tail ≤ (before ++ c :: cs).length ∧
          ∃ p, (Guarded.Scanner.piece c).run (.at (before ++ c :: cs) before.length) =
            .ok p (.at (before ++ c :: cs) (before.length + 1 + l.tail))
      | .error e => ∃ t, (Guarded.Scanner.piece c).run (.at (before ++ c :: cs) before.length) =
          .error (.error (e.shift before.length)) t) ∧
    (∀ (tokens : List Token) (i : Nat) (c : Cursor), c.At tokens i →
      (place tokens c).cursor = i ∧
      (Guarded.Parser.Recovers tokens c headerOutcome c.readHeader ∧
        ∃ j, c.readHeader.2.At tokens j ∧ i ≤ j) ∧
      (c.accepts (.keyword .import) = true →
        Guarded.Parser.Recovers tokens (c.note (.keyword .import)) (recovering importLine)
            ((c.note (.keyword .import)).read Reader.importLine) ∧
          ∃ j, ((c.note (.keyword .import)).read Reader.importLine).2.At tokens j ∧ i < j) ∧
      (c.ahead ≠ [] → Guarded.Parser.Recovers tokens c declarationOutcome c.readDeclaration ∧
        ∃ j, c.readDeclaration.2.At tokens j ∧ i < j) ∧
      (∀ l : TypeLevel, match l.reader.run c with
        | .ok _ d | .error _ d => ∃ j, d.At tokens j ∧ i ≤ j) ∧
      ∀ m n, tokens.length < m + i → tokens.length < n + i →
        c.readImports m = c.readImports n ∧ c.readDeclarations m = c.readDeclarations n ∧
        (Reader.typeExprAt m).run c = (Reader.typeExprAt n).run c) ∧
    ((∀ l : TypeLevel, l.body TypeLevel.reader = l.reader ∧
        ∀ (call : TypeLevel → Reader TypeExpr) (c : Cursor),
          (∀ m d, TypeLevel.Descends m d l c → (call m).run d = m.reader.run d) →
          (l.body call).run c = l.reader.run c) ∧
      (WellFounded fun p q : TypeLevel × Cursor => p.1.Descends p.2 q.1 q.2) ∧
      ∀ call : TypeLevel → Reader TypeExpr,
        (∀ l, call l = l.body call) → call = TypeLevel.reader) ∧
    (∀ source, Guarded.lex source = ((lex source).map (List.map .ofToken)).mapError .error) ∧
    ∀ tokens : List Token, ∃ m, file.run ⟨tokens.map .ofToken, 0, [], .empty⟩ =
      .ok (SourceFile.ofTokens tokens) m ∧ m.cursor ≤ tokens.length := by
  refine ⟨fun before cs c => ?_, fun tokens i c h => ?_, ⟨fun l => ?_, ?_, fun call => ?_⟩,
    Guarded.lex_eq, fun tokens => ?_⟩
  · cases hs : Lexeme.scan c cs with
    | ok l => exact Guarded.Scanner.run_piece_of_scan_eq_ok before hs
    | error e => exact Guarded.Scanner.run_piece_of_scan_eq_error before hs
  · refine ⟨h.cursor_place, h.readHeader, h.readImport, h.readDeclaration, fun l => l.at_reader h,
      fun m n hm hn => ?_⟩
    have hle := h.le
    have hahead := h.length_ahead
    have hm' : c.ahead.length < m := by omega
    have hn' : c.ahead.length < n := by omega
    refine ⟨Cursor.readImports_congr hm' hn', Cursor.readDeclarations_congr hm' hn', ?_⟩
    rw [TypeLevel.run_typeExprAt hm', TypeLevel.run_typeExprAt hn']
  · exact ⟨l.body_reader, fun call c => TypeLevel.run_body_eq_run_reader⟩
  · exact TypeLevel.wellFounded_descends
  · exact TypeLevel.eq_reader
  · obtain ⟨d, hrun⟩ := run_file tokens
    exact ⟨_, hrun, Nat.sub_le _ _⟩

theorem frontend_consumes_input_imports :
    let tokens : List Token := [⟨.word "import", ⟨0, 6⟩, 0⟩, ⟨.word "import", ⟨7, 6⟩, 0⟩]
    (∃ j, (((Cursor.start tokens).note (.keyword .import)).read Reader.importLine).2.At tokens j ∧
      0 < j) ∧
    (∃ j, (Cursor.start tokens).readDeclaration.2.At tokens j ∧ 0 < j) ∧
    (Cursor.start tokens).readDeclarations 3 = (Cursor.start tokens).readDeclarations 20 ∧
    ∃ p, (Guarded.Scanner.piece '(').run (.at ['a', '('] 1) = .ok p (.at ['a', '('] 2) := by
  intro tokens
  have hstart : (Cursor.start tokens).At tokens 0 := ⟨Nat.zero_le _, rfl⟩
  obtain ⟨-, -, himports, hdeclarations, -, hbounds⟩ :=
    frontend_consumes_input.2.1 tokens 0 (.start tokens) hstart
  refine ⟨(himports (by decide)).2, (hdeclarations (List.cons_ne_nil _ _)).2, ?_, ?_⟩
  · exact (hbounds 3 20 (by decide) (by decide)).2.1
  · exact (frontend_consumes_input.1 ['a'] [] '(').2

end ElmTypes
