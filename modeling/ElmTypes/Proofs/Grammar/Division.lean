import ElmTypes.Proofs.Grammar.Layout
import ElmTypes.Proofs.Grammar.Opening

namespace ElmTypes

open Reader

section

variable {α : Type} {R : List Token → α → Prop} {ts us vs : List Token}

/-- The first tokens are those of consecutive blocks, one for each part, and the others are left. -/
def Divides (R : List Token → α → Prop) (ts : List Token) (parts : List α) (left : List Token) :
    Prop :=
  ∃ blocks : List (List Token), ts = blocks.flatten ++ left ∧ List.Forall₂ R blocks parts

theorem Divides.nil : Divides R ts [] ts := ⟨[], rfl, .nil⟩

theorem Divides.cons {a : α} {as : List α} (ha : R ts a) (has : Divides R us as vs) :
    Divides R (ts ++ us) (a :: as) vs := by
  obtain ⟨blocks, hblocks, has⟩ := has
  refine ⟨ts :: blocks, ?_, .cons ha has⟩
  rw [List.flatten_cons, List.append_assoc, ← hblocks]

end

namespace Cursor

variable {c d : Cursor}

theorem divides_of_readHeader {ts : List Token} {header : Option Header} (ho : Ordered ts)
    (h : (start ts).readHeader = (.ok header, d)) :
    Divides (fun us h => Stretches us h.span) ts header.toList d.ahead := by
  cases header with
  | none =>
      rw [(headerKindOf_eq_none h).2]
      exact .nil
  | some header =>
      obtain ⟨expected, hstart⟩ := readHeader_start ts
      rw [h] at hstart
      split at hstart
      · rename_i kind _
        have hread := ((reads_header kind).map some).of_run_eq_ok (read_eq_ok_iff.1 hstart.symm)
        obtain ⟨us, hus, _, ⟨⟩, hheader⟩ := hread
        have hahead : ts = us ++ d.ahead := hus.ahead
        rw [hahead] at ho ⊢
        exact .cons (.of_hull hheader.ne_nil ho.left hheader.span) .nil
      · cases hstart

theorem ReadsImports.divides {is : List Import} (h : c.ReadsImports is d) (ho : Ordered c.ahead) :
    Divides (fun ts i => Stretches ts i.span) c.ahead is d.ahead := by
  induction h with
  | nil =>
      rw [ahead_note]
      exact .nil
  | @cons c _ _ _ _ _ hrun _ ih =>
      obtain ⟨ts, hts, hi⟩ := reads_importLine.of_run_eq_ok hrun
      have hahead : c.ahead = _ := (ahead_note _ c).symm.trans hts.ahead
      rw [hahead] at ho ⊢
      exact .cons (.of_hull hi.ne_nil ho.left hi.span) (ih ho.right)

theorem ReadsDeclarations.divides {ds : List Declaration} (h : c.ReadsDeclarations ds)
    (ho : Ordered c.ahead) :
    Divides (fun ts d => Stretches ts d.span ∧ ∀ t ∈ ts.head?, t.column = 0) c.ahead ds [] := by
  induction h with
  | nil hc =>
      rw [hc]
      exact .nil
  | cons hrun _ ih =>
      obtain ⟨ts, hts, hd⟩ := takes_of_run_declaration hrun
      rw [hts.ahead] at ho ⊢
      refine .cons ⟨(hd.inOrder ho.left).1, fun t ht => ?_⟩ (ih ho.right)
      exact eq_of_beq (hd.starts t ht)

end Cursor

theorem SourceFile.tokens_divide {source : String} {tokens : List Token} {file : SourceFile}
    (hl : lex source = .ok tokens) (hf : SourceFile.ofTokens tokens = .ok file) :
    ∃ header imports declarations : List (List Token),
      tokens = (header ++ imports ++ declarations).flatten ∧
      List.Forall₂ (fun ts h => Stretches ts h.span) header file.header.toList ∧
      List.Forall₂ (fun ts i => Stretches ts i.span) imports file.imports ∧
      List.Forall₂ (fun ts d => Stretches ts d.span ∧ ∀ t ∈ ts.head?, t.column = 0)
        declarations file.declarations := by
  have ho := ordered_of_lex hl
  obtain ⟨c, d, hheader, himports, hds⟩ := SourceFile.ofTokens_eq_ok_iff.1 hf
  obtain ⟨header, hc, hheader⟩ := Cursor.divides_of_readHeader ho hheader
  rw [hc] at ho
  obtain ⟨imports, hd, himports⟩ := himports.divides ho.right
  rw [hd] at ho
  obtain ⟨declarations, hdeclarations, hds⟩ := hds.divides ho.right.right
  refine ⟨header, imports, declarations, ?_, hheader, himports, hds⟩
  rw [hc, hd, hdeclarations, List.append_nil, List.flatten_append, List.flatten_append,
    List.append_assoc]

theorem SourceFile.tokens_divide_effect_module :
    let source := "effect module A where \x7b\x7d exposing (..)\nimport B\nf x = x"
    let opening : List Token := [⟨.word "effect", ⟨0, 6⟩, 0⟩, ⟨.word "module", ⟨7, 6⟩, 7⟩,
      ⟨.word "A", ⟨14, 1⟩, 14⟩, ⟨.word "where", ⟨16, 5⟩, 16⟩, ⟨.opening .brace, ⟨22, 1⟩, 22⟩,
      ⟨.closing .brace, ⟨23, 1⟩, 23⟩, ⟨.word "exposing", ⟨25, 8⟩, 25⟩, ⟨.opening .round, ⟨34, 1⟩, 34⟩,
      ⟨.symbol .dots, ⟨35, 2⟩, 35⟩, ⟨.closing .round, ⟨37, 1⟩, 37⟩]
    let import' : List Token := [⟨.word "import", ⟨39, 6⟩, 0⟩, ⟨.word "B", ⟨46, 1⟩, 7⟩]
    let value : List Token := [⟨.word "f", ⟨48, 1⟩, 0⟩, ⟨.word "x", ⟨50, 1⟩, 2⟩,
      ⟨.symbol .equals, ⟨52, 1⟩, 4⟩, ⟨.word "x", ⟨54, 1⟩, 6⟩]
    let tokens := opening ++ import' ++ value
    let file : SourceFile := ⟨some ⟨.effect, "A", .all, ⟨0, 38⟩⟩, [⟨"B", none, none, ⟨39, 8⟩⟩],
      [⟨.value "f" none, ⟨48, 7⟩⟩]⟩
    lex source = .ok tokens ∧ SourceFile.ofTokens tokens = .ok file ∧
      ∃ header imports declarations : List (List Token),
        tokens = (header ++ imports ++ declarations).flatten ∧
        List.Forall₂ (fun ts h => Stretches ts h.span) header file.header.toList ∧
        List.Forall₂ (fun ts i => Stretches ts i.span) imports file.imports ∧
        List.Forall₂ (fun ts d => Stretches ts d.span ∧ ∀ t ∈ ts.head?, t.column = 0)
          declarations file.declarations := by
  intro source opening import' value tokens file
  have hl : lex source = .ok tokens := by decide
  have hf : SourceFile.ofTokens tokens = .ok file := by
    simp only [tokens, opening, import', value, file, List.cons_append, List.nil_append]
    rfl
  exact ⟨hl, hf, SourceFile.tokens_divide hl hf⟩

end ElmTypes
