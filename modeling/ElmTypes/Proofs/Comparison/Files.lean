import ElmTypes.Check
import ElmTypes.Proofs.Comparison.Shifted
import ElmTypes.Proofs.Grammar.Opening
import ElmTypes.Proofs.Lexical.Joining

namespace ElmTypes

open Reader

theorem Pairing.readsDeclarations {p : Pairing} {c c' : Cursor} {ds : List Declaration}
    (h : c.ReadsDeclarations ds) (hb : p.Beside c c') (hk : c.ahead.length ≤ p.fresh) :
    ∃ (ds' : List Declaration) (d : Cursor), List.Forall₂ (Declaration.Alike p.same) ds ds' ∧
      d.ahead = p.rest ∧ ∀ es, d.ReadsDeclarations es → c'.ReadsDeclarations (ds' ++ es) := by
  induction h generalizing c' with
  | nil hc => exact ⟨[], c', .nil, hb.nil hc, fun es hes => hes⟩
  | @cons c d a ds hrun _ ih =>
      have hlength := Cursor.length_lt_of_run_declaration hrun
      have hopen : c.Open c.ahead.length :=
        ⟨List.ne_nil_of_length_pos (Nat.zero_lt_of_lt hlength), Nat.le_refl _⟩
      have hout := Pairing.relates_declaration hk c c' hb hopen
      rw [hrun] at hout
      generalize hrun' : declaration.run c' = r at hout
      cases hout with
      | ok ha hd _ =>
          obtain ⟨ds', d', hds, hrest, hreads⟩ := ih hd (Nat.le_trans (Nat.le_of_lt hlength) hk)
          exact ⟨_ :: ds', d', .cons ha hds, hrest, fun es hes => .cons hrun' (hreads es hes)⟩

section

variable {n : Nat} {c c' : Cursor} {ts us : List Token} {ds : List Declaration}

theorem Cursor.ReadsDeclarations.shifted (h : c.ReadsDeclarations ds)
    (hus : ∀ t ∈ us.head?, t.startsDeclaration = true)
    (hc' : c'.ahead = c.ahead.map (Token.shift n) ++ us) :
    ∃ d : Cursor, d.ahead = us ∧ ∀ es, d.ReadsDeclarations es →
      c'.ReadsDeclarations (ds.map (Declaration.mapSpans (Span.shift n)) ++ es) := by
  by_cases hc : c.ahead = []
  · cases h with
    | nil =>
        rw [hc] at hc'
        exact ⟨c', hc', fun es hes => hes⟩
    | cons hrun _ =>
        have hlength := length_lt_of_run_declaration hrun
        rw [hc] at hlength
        exact absurd hlength (Nat.not_lt_zero _)
  · let p := Pairing.shifted n us hus c.ahead.length (List.length_pos_iff.2 hc)
    have hlike : List.Forall₂ p.Like c.ahead (c.ahead.map (Token.shift n)) := by
      rw [List.forall₂_map_right_iff, List.forall₂_same]
      exact fun t _ => ⟨rfl, rfl, rfl⟩
    have hbeside : p.Beside c c' := by
      refine ⟨?_, fun hlt => absurd hlt (Nat.lt_irrefl _)⟩
      rw [hc']
      exact .of_forall₂ hlike
    obtain ⟨ds', d, hds, hd, hreads⟩ := Pairing.readsDeclarations h hbeside (Nat.le_refl _)
    have hmap := eq_map_of_forall₂ hds fun _ _ _ ha => ha.eq_mapSpans
    exact ⟨d, hd, fun es hes => hmap ▸ hreads es hes⟩

theorem starts_of_readsDeclarations (h : c.ReadsDeclarations ds) :
    ∀ t ∈ c.ahead.head?, t.startsDeclaration = true := by
  cases h with
  | nil hc => simp [hc]
  | cons hrun _ =>
      obtain ⟨ts, hts, hd⟩ := Cursor.takes_of_run_declaration hrun
      rw [hts.ahead, List.head?_append_of_ne_nil _ hd.declared.ne_nil]
      exact hd.starts

theorem begins_shift (w : Keyword) : begins w (ts.map (Token.shift n)) = begins w ts := by
  cases ts <;> rfl

theorem headerKindOf_shift : headerKindOf (ts.map (Token.shift n)) = headerKindOf ts := by
  simp only [headerKindOf, headerKindSecond, ← List.map_tail, begins_shift]

theorem SourceFile.ofTokens_append_shift {f₁ f₂ : SourceFile} (h₁ : ofTokens ts = .ok f₁)
    (h₂ : ofTokens us = .ok f₂) (hheader : f₂.header = none) (himports : f₂.imports = []) :
    ofTokens (ts ++ us.map (Token.shift n)) = .ok ⟨f₁.header, f₁.imports,
      f₁.declarations ++ f₂.declarations.map (Declaration.mapSpans (Span.shift n))⟩ := by
  obtain ⟨c, d, hc, hi, hds⟩ := ofTokens_eq_ok_iff.1 h₁
  obtain ⟨c₂, d₂, hc₂, hi₂, hds₂⟩ := ofTokens_eq_ok_iff.1 h₂
  rw [hheader] at hc₂
  rw [himports] at hi₂
  obtain ⟨hkind, hahead⟩ := Cursor.headerKindOf_eq_none hc₂
  cases hi₂ with
  | nil himport =>
  have hbegins : begins .import us = false := by rwa [← hahead]
  have hstarts := starts_of_readsDeclarations hds₂
  rw [Cursor.ahead_note, hahead] at hstarts
  have hus : ∀ t ∈ (us.map (Token.shift n)).head?, t.startsDeclaration = true := by
    rw [List.head?_map]
    intro t ht
    obtain ⟨u, hu, rfl⟩ := Option.map_eq_some_iff.1 ht
    exact hstarts u hu
  obtain ⟨c', hc', hextends⟩ := Cursor.readHeader_append hus (headerKindOf_shift.trans hkind) hc
  obtain ⟨d', hi', hd'⟩ := hi.extends hus ((begins_shift _).trans hbegins) hextends
  -- the declarations of the first file are where they were
  have hplace : d'.ahead = d.ahead.map (Token.shift 0) ++ us.map (Token.shift n) := by
    rw [Token.shift_zero, List.map_id, hd'.ahead]
  obtain ⟨e, he, hreads⟩ := hds.shifted hus hplace
  rw [Span.shift_zero, map_eq_self Declaration.mapSpans_id] at hreads
  have hplace₂ : e.ahead = (c₂.note (.keyword .import)).ahead.map (Token.shift n) ++ [] := by
    rw [he, Cursor.ahead_note, hahead, List.append_nil]
  obtain ⟨e', he', hreads₂⟩ := hds₂.shifted (by simp) hplace₂
  have hall := hreads _ (hreads₂ [] (.nil he'))
  rw [List.append_nil] at hall
  exact ofTokens_eq_ok_iff.2 ⟨c', d', hc', hi', hall⟩

end

theorem SourceFile.parse_lines {s₁ s₂ : String} {f₁ f₂ : SourceFile} (h₁ : parse s₁ = .ok f₁)
    (h₂ : parse s₂ = .ok f₂) (hheader : f₂.header = none) (himports : f₂.imports = []) :
    parse (s₁ ++ "\n" ++ s₂) = .ok ⟨f₁.header, f₁.imports,
      f₁.declarations ++
        f₂.declarations.map (Declaration.mapSpans (Span.shift (s₁.length + 1)))⟩ := by
  obtain ⟨ts, hts, hf₁⟩ := parse_eq_ok_iff.1 h₁
  obtain ⟨us, hus, hf₂⟩ := parse_eq_ok_iff.1 h₂
  have hlex : lex (s₁ ++ "\n" ++ s₂) = .ok (ts ++ us.map (Token.shift (s₁.length + 1))) := by
    rw [lex_append_lineFeed hts, hus]
    rfl
  exact parse_eq_ok_iff.2 ⟨_, hlex, ofTokens_append_shift hf₁ hf₂ hheader himports⟩

theorem SourceFile.parse_lines_custom :
    let s₁ := "module M exposing (..)\nimport A as B\ntype T a"
    let s₂ := "y : T Int\ny = 2"
    let header : Header := ⟨.normal, "M", .all, ⟨0, 22⟩⟩
    let imports : List Import := [⟨"A", some "B", none, ⟨23, 13⟩⟩]
    let custom : Declaration := ⟨.custom "T" ["a"] [], ⟨37, 8⟩⟩
    let value (n : Nat) : Declaration := ⟨.value "y" (some (.named ⟨none, "T", ⟨n + 4, 1⟩⟩
      [.named ⟨none, "Int", ⟨n + 6, 3⟩⟩ [] ⟨n + 6, 3⟩] ⟨n + 4, 5⟩)), ⟨n, 15⟩⟩
    parse s₁ = .ok ⟨some header, imports, [custom]⟩ ∧ parse s₂ = .ok ⟨none, [], [value 0]⟩ ∧
      parse (s₁ ++ "\n" ++ s₂) = .ok ⟨some header, imports, [custom, value 46]⟩ := by
  intro s₁ s₂ header imports custom value
  have hl₁ : lex s₁ = .ok [⟨.word "module", ⟨0, 6⟩, 0⟩, ⟨.word "M", ⟨7, 1⟩, 7⟩,
      ⟨.word "exposing", ⟨9, 8⟩, 9⟩, ⟨.opening .round, ⟨18, 1⟩, 18⟩, ⟨.symbol .dots, ⟨19, 2⟩, 19⟩,
      ⟨.closing .round, ⟨21, 1⟩, 21⟩, ⟨.word "import", ⟨23, 6⟩, 0⟩, ⟨.word "A", ⟨30, 1⟩, 7⟩,
      ⟨.word "as", ⟨32, 2⟩, 9⟩, ⟨.word "B", ⟨35, 1⟩, 12⟩, ⟨.word "type", ⟨37, 4⟩, 0⟩,
      ⟨.word "T", ⟨42, 1⟩, 5⟩, ⟨.word "a", ⟨44, 1⟩, 7⟩] := by
    decide
  have hl₂ : lex s₂ = .ok [⟨.word "y", ⟨0, 1⟩, 0⟩, ⟨.symbol .colon, ⟨2, 1⟩, 2⟩,
      ⟨.word "T", ⟨4, 1⟩, 4⟩, ⟨.word "Int", ⟨6, 3⟩, 6⟩, ⟨.word "y", ⟨10, 1⟩, 0⟩,
      ⟨.symbol .equals, ⟨12, 1⟩, 2⟩, ⟨.integer 2, ⟨14, 1⟩, 4⟩] := by
    decide
  have h₁ : parse s₁ = .ok ⟨some header, imports, [custom]⟩ := by
    rw [parse, hl₁]
    rfl
  have h₂ : parse s₂ = .ok ⟨none, [], [value 0]⟩ := by
    rw [parse, hl₂]
    rfl
  have hlength : s₁.length = 45 := by decide
  have h := parse_lines h₁ h₂ rfl rfl
  rw [hlength] at h
  exact ⟨h₁, h₂, h⟩

end ElmTypes
