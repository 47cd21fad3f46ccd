import Mathlib.Data.List.Chain
import ElmTypes.Check
import ElmTypes.Proofs.Comparison.Declaration
import ElmTypes.Proofs.Grammar.Follow
import ElmTypes.Proofs.Lexical.Joining

namespace ElmTypes

structure Block where
  text : String
  first : Token
  others : List Token
  lexed : lex text = .ok (first :: others)
  starts : first.startsDeclaration = true
  inside : Inside others
  headless : Headless (first :: others)

/-- How an error of a text is reported where the text begins `n` characters later and is followed by
this token. -/
inductive SyntaxError.Carried (n : Nat) (next : Option Token) : SyntaxError → SyntaxError → Prop
  | moved {e e' : SyntaxError} (hm : e'.message = e.message) (hs : e'.span = e.span.shift n) :
      Carried n next e e'
  | stopped {t : Token} {es : List Expected} {s : Span} (ht : next = some t) :
      Carried n next ⟨.unexpectedEnd es, s⟩ ⟨.unexpectedToken t.kind es, t.span⟩

namespace Block

def tokens (b : Block) : List Token := b.first :: b.others

/-- Whether a reading that fails in the first text goes on in the second. -/
def RunsOn (b b' : Block) : Prop :=
  ∃ e, SourceFile.parse b.text = .error [e] ∧ e.cause.isContinuedBy b'.first.kind = true

def join (bs : List Block) : String := "\n".intercalate (bs.map Block.text)

def placed : Nat → List Block → List Token
  | _, [] => []
  | n, b :: bs => b.tokens.map (Token.shift n) ++ placed (n + (b.text.length + 1)) bs

/-- One error for each text that is no file of its own, in order. -/
inductive ReportedAs : Nat → List Block → List SyntaxError → Prop
  | nil {n : Nat} : ReportedAs n [] []
  | parsed {n : Nat} {b : Block} {bs : List Block} {es : List SyntaxError} {file : SourceFile}
      (hb : SourceFile.parse b.text = .ok file) (hbs : ReportedAs (n + (b.text.length + 1)) bs es) :
      ReportedAs n (b :: bs) es
  | failed {n : Nat} {b : Block} {bs : List Block} {e e' : SyntaxError} {es : List SyntaxError}
      (hb : SourceFile.parse b.text = .error [e])
      (he : e.Carried n (placed (n + (b.text.length + 1)) bs).head? e')
      (hbs : ReportedAs (n + (b.text.length + 1)) bs es) : ReportedAs n (b :: bs) (e' :: es)

variable {b : Block} {bs : List Block} {n : Nat}

theorem placed_shift (m n : Nat) (bs : List Block) :
    (placed n bs).map (Token.shift m) = placed (m + n) bs := by
  induction bs generalizing n with
  | nil => rfl
  | cons b bs ih =>
      have hshift : Token.shift m ∘ Token.shift n = Token.shift (m + n) :=
        funext fun t => Token.shift_shift n m t
      rw [placed, placed, List.map_append, List.map_map, hshift, ih, Nat.add_assoc]

theorem join_cons_cons (b b' : Block) (bs : List Block) :
    join (b :: b' :: bs) = b.text ++ "\n" ++ join (b' :: bs) := by
  simp [join, String.intercalate_cons_cons]

theorem lex_join (bs : List Block) : lex (join bs) = .ok (placed 0 bs) := by
  induction bs with
  | nil => rfl
  | cons b bs ih =>
      have hshift : b.tokens.map (Token.shift 0) = b.tokens := by
        rw [Token.shift_zero, List.map_id]
      cases bs with
      | nil =>
          have hjoin : join [b] = b.text := by simp [join]
          rw [hjoin, b.lexed, placed, placed, hshift, List.append_nil]
          rfl
      | cons b' bs =>
          rw [join_cons_cons, lex_append_lineFeed b.lexed, ih, shiftTokens, placed_shift]
          rw [placed.eq_def 0 (b :: b' :: bs)]
          simp only [hshift, Nat.zero_add, Nat.add_zero]
          rfl

theorem head?_placed : (placed n bs).head? = bs.head?.map fun b => b.first.shift n := by
  cases bs with
  | nil => rfl
  | cons b bs => rfl

theorem starts_placed : ∀ t ∈ (placed n bs).head?, t.startsDeclaration = true := by
  rw [head?_placed]
  intro t ht
  obtain ⟨b, -, rfl⟩ := Option.map_eq_some_iff.1 ht
  exact b.starts

theorem headless_placed : Headless (placed n bs) := by
  have hhead (m : Nat) (bs : List Block) :
      ∀ t ∈ (placed m bs).head?, t.kind.keyword? ∉ [some .module, some .effect, some .import] := by
    rw [head?_placed]
    intro t ht
    obtain ⟨b, -, rfl⟩ := Option.map_eq_some_iff.1 ht
    exact b.headless.keyword b.first rfl
  constructor
  · exact hhead n bs
  · intro t ht hport u hu
    cases bs with
    | nil => cases ht
    | cons b bs =>
        obtain rfl := Option.some.inj ht
        have hb := b.headless.port b.first rfl hport
        rw [placed, tokens] at hu
        cases hothers : b.others with
        | nil =>
            rw [hothers] at hu
            have hnext := hhead _ bs u (by simpa [List.head?_eq_getElem?] using hu)
            intro hmodule
            exact hnext (by simp [hmodule])
        | cons v vs =>
            rw [hothers] at hu hb
            obtain rfl := Option.some.inj hu
            exact hb v rfl

def pairing (b : Block) (n : Nat) (bs : List Block) : Pairing where
  same s s' := s' = s.shift n
  keepsHulls := by
    rintro a _ b _ rfl rfl
    exact Span.hull_shift n a b
  rest := placed (n + (b.text.length + 1)) bs
  starts := starts_placed
  fresh := b.tokens.length
  fresh_pos := Nat.zero_lt_succ _

theorem ahead_placed : (b.pairing n bs).Ahead b.tokens (placed n (b :: bs)) := by
  rw [placed]
  induction b.tokens with
  | nil => exact .done
  | cons t ts ih => exact .cons ⟨rfl, rfl, rfl⟩ ih

variable {c d c' d' : Cursor}

theorem open_of_ahead (hc : c.ahead = b.tokens) : c.Open b.tokens.length := by
  constructor
  · rw [hc]
    exact List.cons_ne_nil _ _
  · rw [hc]

theorem ahead_eq_nil (hs : d.ahead <:+ b.tokens) (hl : d.ahead.length < b.tokens.length)
    (hd : d.atBoundary = true) : d.ahead = [] := by
  cases ha : d.ahead with
  | nil => rfl
  | cons t ts =>
      rw [ha] at hs hl
      rcases List.suffix_cons_iff.1 hs with heq | hs
      · rw [heq] at hl
        exact absurd hl (Nat.lt_irrefl _)
      -- past the first token of the text none begins a declaration
      · have hin : t.startsDeclaration = false := b.inside t (hs.subset List.mem_cons_self)
        simp [Cursor.atBoundary, ha, hin] at hd

def passed (c d : Cursor) : Cursor := if d.ahead.length = c.ahead.length then d.advance else d

theorem ahead_passed (hc : c.ahead ≠ []) (hd : d.ahead <:+ c.ahead) :
    (passed c d).ahead <:+ c.ahead ∧ (passed c d).ahead.length < c.ahead.length := by
  unfold passed
  split
  · rename_i hl
    rw [Cursor.ahead_advance, List.length_tail, hl]
    exact ⟨(List.tail_suffix _).trans hd, Nat.sub_one_lt (mt List.length_eq_zero_iff.1 hc)⟩
  · rename_i hl
    exact ⟨hd, Nat.lt_of_le_of_ne hd.length_le hl⟩

theorem ahead_resumed (hc : c.ahead = b.tokens) (hd : d.ahead <:+ c.ahead) :
    (passed c d).nextDeclaration.ahead = [] := by
  obtain ⟨hs, hl⟩ := ahead_passed (open_of_ahead hc).1 hd
  have hnext := Cursor.nextDeclaration_suffix (passed c d)
  rw [hc] at hs hl
  refine ahead_eq_nil (hnext.trans hs) ?_ (Cursor.atBoundary_nextDeclaration _)
  exact Nat.lt_of_le_of_lt hnext.length_le hl

theorem ahead_readDeclaration (hc : c.ahead = b.tokens) : c.readDeclaration.2.ahead = [] := by
  have hopen := open_of_ahead hc
  rw [Cursor.readDeclaration]
  cases hrun : Reader.declaration.run c with
  | ok a d =>
      obtain ⟨ts, hd, -⟩ := Reader.reads_declaration.of_run_eq_ok hrun
      have hended := Pairing.ended_of_declaration hopen hrun
      exact ahead_eq_nil ⟨ts, by rw [← hd.ahead, hc]⟩ hended.length hended.boundary
  | error e d => exact ahead_resumed hc (Reader.reads_declaration.of_run_eq_error hrun hopen.1).2

theorem parse_text (b : Block) :
    ∃ c : Cursor, c.ahead = b.tokens ∧
      SourceFile.parse b.text = c.readDeclaration.1.map fun d => ⟨none, [], [d]⟩ := by
  obtain ⟨c, hc, hfile⟩ := SourceFile.ofTokens_of_headless b.headless
  refine ⟨c, hc, ?_⟩
  have hne : c.ahead.isEmpty = false := by
    rw [hc]
    rfl
  have hdone : c.readDeclaration.2.ahead.isEmpty = true := by
    rw [ahead_readDeclaration hc]
    rfl
  have hread : c.readDeclarations ((b.first :: b.others).length + 1) = [c.readDeclaration.1] := by
    simp [Cursor.readDeclarations, hne, hdone]
  rw [SourceFile.parse, b.lexed]
  simp only
  rw [hfile, hread, Cursor.readDeclaration]
  cases Reader.declaration.run c with
  | ok a d => rfl
  | error e d => rfl

theorem beside_passed {p : Pairing} (hc : p.Beside c c') (hd : p.Beside d d') (hne : c.ahead ≠ []) :
    p.Beside (passed c d) (passed c' d') := by
  unfold passed
  simp only [hd.ahead.length_eq, hc.ahead.length_eq, Nat.add_right_cancel_iff]
  split
  · rename_i hl
    refine hd.advance fun hn => hne ?_
    rwa [hn, List.length_nil, eq_comm, List.length_eq_zero_iff] at hl
  · exact hd

theorem carried_of_blames {ts : List Token} {e e' : SyntaxError}
    (h : (b.pairing n bs).Blames ts e e') :
    e.Carried n (placed (n + (b.text.length + 1)) bs).head? e' := by
  cases h with
  | same _ hm hs => exact .moved hm.symm hs
  | cutOff _ ht h =>
      cases h with
      | missing => exact .stopped ht
      | definition hs => exact .moved rfl hs

theorem readDeclaration_placed (hc' : c'.ahead = placed n (b :: bs))
    (hruns : ∀ b' ∈ bs.head?, ¬ b.RunsOn b') :
    c'.readDeclaration.2.ahead = placed (n + (b.text.length + 1)) bs ∧
      ∀ es, ReportedAs (n + (b.text.length + 1)) bs es →
        ReportedAs n (b :: bs) (c'.readDeclaration.1.problems ++ es) := by
  obtain ⟨c, hc, hparse⟩ := b.parse_text
  have hopen := open_of_ahead hc
  have hdone := ahead_readDeclaration hc
  have hbeside : (b.pairing n bs).Beside c c' := by
    constructor
    · rw [hc, hc']
      exact ahead_placed
    · intro hlt
      rw [hc] at hlt
      exact absurd hlt (Nat.lt_irrefl _)
  have hout := Pairing.relates_declaration (Nat.le_refl _) c c' hbeside hopen
  rw [Cursor.readDeclaration] at hparse hdone ⊢
  generalize Reader.declaration.run c = r, Reader.declaration.run c' = r' at hparse hdone hout ⊢
  cases hout with
  | ok _ hd _ => exact ⟨hd.nil hdone, fun es hes => .parsed hparse hes⟩
  | error he hd =>
      constructor
      · exact ((beside_passed hbeside hd hopen.1).advanceWhile
          Pairing.respects_nextDeclaration).nil hdone
      · exact fun es hes => .failed hparse (carried_of_blames he) hes
  | overrun ht he =>
      obtain ⟨b', hb', rfl⟩ := Option.map_eq_some_iff.1 (head?_placed ▸ ht)
      exact absurd ⟨_, hparse, he⟩ (hruns b' hb')

theorem readDeclarations_placed {m : Nat} (hc' : c'.ahead = placed n bs) (hm : bs.length < m)
    (h : bs.IsChain fun b b' => ¬ b.RunsOn b') :
    ReportedAs n bs ((c'.readDeclarations m).flatMap Validated.problems) := by
  induction bs generalizing n m c' with
  | nil =>
      cases m with
      | zero => exact .nil
      | succ m =>
          have hempty : c'.ahead.isEmpty = true := by
            rw [hc']
            rfl
          rw [Cursor.readDeclarations, if_pos hempty]
          exact .nil
  | cons b bs ih =>
      obtain ⟨m, rfl⟩ := Nat.exists_eq_add_one_of_ne_zero (Nat.ne_zero_of_lt hm)
      have hne : ¬ c'.ahead.isEmpty = true := by
        rw [hc']
        exact Bool.false_ne_true
      obtain ⟨hnext, hreported⟩ := readDeclaration_placed hc' (List.isChain_cons.1 h).1
      rw [Cursor.readDeclarations, if_neg hne]
      exact hreported _ (ih hnext (Nat.lt_of_succ_lt_succ hm) (List.isChain_cons.1 h).2)

theorem length_le_length_placed : bs.length ≤ (placed n bs).length := by
  induction bs generalizing n with
  | nil => exact Nat.le_refl _
  | cons b bs ih =>
      have hbs := @ih (n + (b.text.length + 1))
      simp only [placed, tokens, List.length_cons, List.length_append, List.length_map]
      omega

theorem parse_join (bs : List Block) :
    SourceFile.parse (join bs) = SourceFile.ofTokens (placed 0 bs) := by
  rw [SourceFile.parse, lex_join]

theorem reportedAs_problems (h : bs.IsChain fun b b' => ¬ b.RunsOn b') :
    ReportedAs 0 bs (SourceFile.parse (join bs)).problems := by
  obtain ⟨c, hc, hfile⟩ := SourceFile.ofTokens_of_headless (@headless_placed bs 0)
  rw [parse_join, hfile, Validated.problems_map, Validated.problems_accumulate]
  exact readDeclarations_placed hc (Nat.lt_succ_of_le length_le_length_placed) h

theorem ReportedAs.eq_nil_iff {es : List SyntaxError} (h : ReportedAs n bs es) :
    es = [] ↔ ∀ b ∈ bs, ∃ file, SourceFile.parse b.text = .ok file := by
  induction h with
  | nil => simp
  | parsed hb _ ih => rw [ih, List.forall_mem_cons, and_iff_right ⟨_, hb⟩]
  | failed hb _ _ _ => simp [hb]

theorem exists_of_lex {text : String} {t : Token} {ts : List Token}
    (hl : lex text = .ok (t :: ts)) (ht : t.startsDeclaration = true)
    (hts : ∀ u ∈ ts, u.startsDeclaration = false)
    (hk : t.kind.keyword? ∉ [some .module, some .effect, some .import, some .port]) :
    ∃ b : Block, b.text = text ∧ b.first = t := by
  refine ⟨⟨text, t, ts, hl, ht, hts, .of_keyword ?_⟩, rfl, rfl⟩
  rintro _ ⟨⟩
  exact hk

theorem errors_of_join (h : bs.IsChain fun b b' => ¬ b.RunsOn b') :
    ((∃ file, SourceFile.parse (join bs) = .ok file) ↔
      ∀ b ∈ bs, ∃ file, SourceFile.parse b.text = .ok file) ∧
    ∀ es, SourceFile.parse (join bs) = .error es → ReportedAs 0 bs es := by
  have hreported := reportedAs_problems h
  have hne : SourceFile.parse (join bs) ≠ .error [] := by
    intro hnil
    rw [parse_join] at hnil
    exact ((SourceFile.sound_ofTokens _).2 [] hnil).1 rfl
  constructor
  · rw [← Validated.problems_eq_nil_iff hne]
    exact hreported.eq_nil_iff
  · intro es hes
    rw [hes] at hreported
    exact hreported

theorem errors_of_join_three :
    ∃ b b' b'' : Block, b.text = "type A =" ∧ b'.text = "x = 1" ∧ b''.text = "type = B" ∧
      [b, b', b''].IsChain (fun b b' => ¬ b.RunsOn b') ∧
      ∃ es, SourceFile.parse (join [b, b', b'']) = .error es ∧ ReportedAs 0 [b, b', b''] es := by
  have hl : lex "type A =" = .ok [⟨.word "type", ⟨0, 4⟩, 0⟩, ⟨.word "A", ⟨5, 1⟩, 5⟩,
      ⟨.symbol .equals, ⟨7, 1⟩, 7⟩] := by
    decide
  have hl' : lex "x = 1" = .ok [⟨.word "x", ⟨0, 1⟩, 0⟩, ⟨.symbol .equals, ⟨2, 1⟩, 2⟩,
      ⟨.integer 1, ⟨4, 1⟩, 4⟩] := by
    decide
  have hl'' : lex "type = B" = .ok [⟨.word "type", ⟨0, 4⟩, 0⟩, ⟨.symbol .equals, ⟨5, 1⟩, 5⟩,
      ⟨.word "B", ⟨7, 1⟩, 7⟩] := by
    decide
  obtain ⟨b, hb, -⟩ := exists_of_lex hl rfl (by decide) (by decide)
  obtain ⟨b', hb', hfirst⟩ := exists_of_lex hl' rfl (by decide) (by decide)
  obtain ⟨b'', hb'', -⟩ := exists_of_lex hl'' rfl (by decide) (by decide)
  have hparse : SourceFile.parse b.text =
      .error [⟨.unexpectedEnd [.capitalisedName], ⟨7, 1⟩⟩] := by
    rw [hb, SourceFile.parse, hl]
    rfl
  have hparse' : ∃ file, SourceFile.parse b'.text = .ok file := by
    rw [hb', SourceFile.parse, hl']
    exact ⟨_, rfl⟩
  have hchain : [b, b', b''].IsChain fun b b' => ¬ b.RunsOn b' := by
    refine .cons_cons ?_ (.cons_cons ?_ (.singleton _))
    · rintro ⟨e, he, hk⟩
      rw [hparse] at he
      cases he
      rw [hfirst] at hk
      exact absurd hk (by decide)
    · rintro ⟨e, he, -⟩
      obtain ⟨file, hfile⟩ := hparse'
      rw [hfile] at he
      cases he
  obtain ⟨hok, herrors⟩ := errors_of_join hchain
  refine ⟨b, b', b'', hb, hb', hb'', hchain, ?_⟩
  cases hjoin : SourceFile.parse (join [b, b', b'']) with
  | error es => exact ⟨es, rfl, herrors es hjoin⟩
  | ok file =>
      obtain ⟨file, hfile⟩ := hok.1 ⟨file, hjoin⟩ b (by simp)
      rw [hparse] at hfile
      cases hfile

theorem join_hides_errors :
    ∃ b b' : Block, b.text = "type alias" ∧ b'.text = "Foo = Int" ∧
      (∃ e, SourceFile.parse b.text = .error [e]) ∧ (∃ e, SourceFile.parse b'.text = .error [e]) ∧
      ∃ file, SourceFile.parse (join [b, b']) = .ok file := by
  have hl : lex "type alias" = .ok [⟨.word "type", ⟨0, 4⟩, 0⟩, ⟨.word "alias", ⟨5, 5⟩, 5⟩] := by
    decide
  have hl' : lex "Foo = Int" = .ok [⟨.word "Foo", ⟨0, 3⟩, 0⟩, ⟨.symbol .equals, ⟨4, 1⟩, 4⟩,
      ⟨.word "Int", ⟨6, 3⟩, 6⟩] := by
    decide
  have hjoin : lex "type alias\nFoo = Int" = .ok [⟨.word "type", ⟨0, 4⟩, 0⟩,
      ⟨.word "alias", ⟨5, 5⟩, 5⟩, ⟨.word "Foo", ⟨11, 3⟩, 0⟩, ⟨.symbol .equals, ⟨15, 1⟩, 4⟩,
      ⟨.word "Int", ⟨17, 3⟩, 6⟩] := by
    decide
  obtain ⟨b, hb, -⟩ := exists_of_lex hl rfl (by decide) (by decide)
  obtain ⟨b', hb', -⟩ := exists_of_lex hl' rfl (by decide) (by decide)
  refine ⟨b, b', hb, hb', ?_, ?_, ?_⟩
  · rw [hb, SourceFile.parse, hl]
    exact ⟨_, rfl⟩
  · rw [hb', SourceFile.parse, hl']
    exact ⟨_, rfl⟩
  -- what the first text lacks the second begins with
  · have htext : join [b, b'] = "type alias\nFoo = Int" := by
      rw [join, List.map_cons, List.map_cons, hb, hb']
      rfl
    rw [htext, SourceFile.parse, hjoin]
    exact ⟨_, rfl⟩

end Block

end ElmTypes
