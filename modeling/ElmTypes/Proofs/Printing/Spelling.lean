import ElmTypes.Proofs.Lexical.Spelling
import ElmTypes.Proofs.Source.Parts

namespace ElmTypes.TypeExpr

def WellNamed : TypeExpr → Prop
  | .variable name _ => IsLowerName name
  | .named n _ _ => IsUpperName n.text ∧ ∀ s, TypeName.ofWord n.text s = { n with span := s }
  | .tuple elements _ => 2 ≤ elements.length
  | .record fields _ => ∀ f ∈ fields, IsLowerName f.name
  | .extensible base fields _ =>
      IsLowerName base ∧ fields ≠ [] ∧ ∀ f ∈ fields, IsLowerName f.name
  | .unit _ | .function .. => True

def bracket (needed : Bool) (ks : List TokenKind) : List TokenKind :=
  if needed then .opening .round :: (ks ++ [.closing .round]) else ks

mutual

def kinds : TypeExpr → List TokenKind
  | .variable name _ => [.word name]
  | .named n arguments _ => .word n.text :: (argumentKinds arguments).flatten
  | .unit _ => [.opening .round, .closing .round]
  | .tuple elements _ =>
      .opening .round
        :: ([TokenKind.symbol .comma].intercalate (elementKinds elements) ++ [.closing .round])
  | .record fields _ =>
      .opening .brace
        :: ([TokenKind.symbol .comma].intercalate (fieldKinds fields) ++ [.closing .brace])
  | .extensible base fields _ =>
      .opening .brace :: .word base :: .symbol .bar
        :: ([TokenKind.symbol .comma].intercalate (fieldKinds fields) ++ [.closing .brace])
  | .function domain codomain _ =>
      bracket domain.isFunction domain.kinds ++ .symbol .arrow :: codomain.kinds

def argumentKinds : List TypeExpr → List (List TokenKind)
  | [] => []
  | a :: as => bracket a.isCompound a.kinds :: argumentKinds as

def elementKinds : List TypeExpr → List (List TokenKind)
  | [] => []
  | a :: as => a.kinds :: elementKinds as

def fieldKinds : List (RecordField TypeExpr) → List (List TokenKind)
  | [] => []
  | ⟨name, a, _⟩ :: fields => (.word name :: .symbol .colon :: a.kinds) :: fieldKinds fields

end

theorem spells_parenthesize {s : String} {ks : List TokenKind} (needed : Bool)
    (h : Spells s.toList ks) : Spells (parenthesize needed s).toList (bracket needed ks) := by
  cases needed with
  | false => exact h
  | true =>
      have hc : Spells [')'] [.closing .round] := .closeRound .nil
      have hs := (h.append hc (Lexeme.delimits_cons (by decide) _)).openRound
      simpa [parenthesize, bracket] using hs

theorem spells_argumentTexts {as : List TypeExpr} (h : ∀ a ∈ as, Spells a.text.toList a.kinds) :
    List.Forall₂ Spells ((argumentTexts as).map String.toList) (argumentKinds as) := by
  induction as with
  | nil => exact .nil
  | cons a as ih =>
      obtain ⟨ha, has⟩ := List.forall_mem_cons.1 h
      exact .cons (spells_parenthesize _ ha) (ih has)

theorem spells_elementTexts {as : List TypeExpr} (h : ∀ a ∈ as, Spells a.text.toList a.kinds) :
    List.Forall₂ Spells ((elementTexts as).map String.toList) (elementKinds as) := by
  induction as with
  | nil => exact .nil
  | cons a as ih =>
      obtain ⟨ha, has⟩ := List.forall_mem_cons.1 h
      exact .cons ha (ih has)

theorem spells_fieldTexts {fs : List (RecordField TypeExpr)} (hn : ∀ f ∈ fs, IsLowerName f.name)
    (h : ∀ f ∈ fs, Spells f.type.text.toList f.type.kinds) :
    List.Forall₂ Spells ((fieldTexts fs).map String.toList) (fieldKinds fs) := by
  induction fs with
  | nil => exact .nil
  | cons f fs ih =>
      obtain ⟨hnf, hnfs⟩ := List.forall_mem_cons.1 hn
      obtain ⟨hf, hfs⟩ := List.forall_mem_cons.1 h
      refine .cons ?_ (ih hnfs hfs)
      have hcolon := hf.colon.blank
      have hs := (Spells.word hnf.isWord).append hcolon (Lexeme.delimits_cons (by decide) _)
      simpa using hs

theorem spells_applied {name : String} {ss : List String} {kss : List (List TokenKind)}
    (hn : IsWord name) (h : List.Forall₂ Spells (ss.map String.toList) kss) :
    Spells (" ".intercalate (name :: ss)).toList (.word name :: kss.flatten) := by
  have hs := Spells.blanks (.cons (Spells.word hn) h)
  simpa [String.toList_intercalate] using hs

theorem spells_braces {cs : List Char} {ks : List TokenKind} (h : Spells cs ks) :
    Spells ('{' :: ' ' :: (cs ++ [' ', '}'])) (.opening .brace :: (ks ++ [.closing .brace])) := by
  have hc : Spells [' ', '}'] [.closing .brace] := (Spells.closeBrace .nil).blank
  exact (h.append hc (Lexeme.delimits_cons (by decide) _)).blank.openBrace (by decide)

theorem spells_text {e : TypeExpr} (h : e.All WellNamed) : Spells e.text.toList e.kinds := by
  induction h with
  | @mk e hp _ ih =>
      cases e with
      | «variable» name s => exact .word hp.isWord
      | named n arguments s => exact spells_applied hp.1.isWord (spells_argumentTexts ih)
      | unit s => simpa [text, kinds] using (Spells.closeRound .nil).openRound
      | tuple elements s =>
          have hc : Spells [' ', ')'] [.closing .round] := (Spells.closeRound .nil).blank
          have he := @spells_elementTexts elements ih
          have hs := (Spells.commas he).append hc (Lexeme.delimits_cons (by decide) _)
          simpa [text, kinds, String.toList_intercalate] using hs.blank.openRound
      | record fields s =>
          cases fields with
          | nil =>
              have hs := (Spells.closeBrace .nil).openBrace (by decide)
              simpa [text, kinds, fieldKinds] using hs
          | cons f fs =>
              have hf := spells_fieldTexts hp fun g hg => ih g.type (List.mem_map_of_mem hg)
              simpa [text, kinds, String.toList_intercalate] using spells_braces (Spells.commas hf)
      | extensible base fields s =>
          have hf := spells_fieldTexts hp.2.2 fun g hg => ih g.type (List.mem_map_of_mem hg)
          have hbar := (Spells.commas hf).bar.blank
          have hs := (Spells.word hp.1.isWord).append hbar (Lexeme.delimits_cons (by decide) _)
          simpa [text, kinds, String.toList_intercalate] using spells_braces hs
      | function domain codomain s =>
          have hd := spells_parenthesize domain.isFunction (ih domain (by simp [parts]))
          have ha := (ih codomain (by simp [parts])).arrow.blank
          have hs := hd.append ha (Lexeme.delimits_cons (by decide) _)
          simpa [text, kinds] using hs

end ElmTypes.TypeExpr
