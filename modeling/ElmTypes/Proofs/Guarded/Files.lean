import ElmTypes.Check
import ElmTypes.Proofs.Grammar.Progress
import ElmTypes.Proofs.Guarded.Parsing

namespace ElmTypes.Guarded

namespace Parser

variable {α : Type} {tokens : List Token} {c d : Cursor} {n : Nat}

theorem mirrors_exposedName : Mirrors n exposedName Reader.exposedName := by
  apply (mirrors_check _).bind
  intro b
  cases b with
  | true =>
      apply mirrors_lowercaseName.bind
      intro _
      exact .pure _
  | false =>
  apply (mirrors_check _).bind
  intro b
  cases b with
  | true =>
      apply mirrors_declaredName.bind
      rintro ⟨name, span⟩
      apply (mirrors_eat _).bind
      intro b
      cases b with
      | true => exact (mirrors_expect _).bind fun _ => (mirrors_expect _).bind fun _ => .pure _
      | false => exact .pure _
  | false =>
  apply (mirrors_check _).bind
  intro b
  cases b with
  | true =>
      apply mirrors_parenthesizedOperator.bind
      intro operator
      exact .pure _
  | false => exact mirrors_unexpected

theorem mirrors_exposing : Mirrors n exposing Reader.exposing := by
  apply (mirrors_expect _).bind
  intro _
  apply (mirrors_expect _).bind
  intro _
  apply (mirrors_eat _).bind
  intro b
  cases b with
  | true =>
      apply (mirrors_expect _).bind
      intro _
      exact .pure _
  | false =>
      apply (mirrors_separated mirrors_exposedName Reader.reads_exposedName).bind
      intro names
      apply (mirrors_expect _).bind
      intro _
      exact .pure _

theorem mirrors_closeGroup (b : Bracket) (n depth : Nat) :
    Mirrors n (closeGroup b n depth) (Reader.closeGroup b n depth) := by
  induction n generalizing depth with
  | zero => exact fun _ _ _ h => absurd h (Nat.not_lt_zero _)
  | succ n ih =>
      cases depth with
      | zero => exact .pure ()
      | succ depth =>
          intro tokens c hc hn
          rw [closeGroup, if_neg (Nat.succ_ne_zero depth), Reader.closeGroup]
          apply Agrees.peek_right
          cases hhead : c.ahead.head? with
          | none =>
              apply Agrees.advance hc
              rw [hhead]
              exact agrees_unexpected ((suffix_advance c).trans hc)
          | some t =>
              obtain ⟨ts, hts⟩ := List.head?_eq_some_iff.1 hhead
              have hlt : c.advance.ahead.length < n := by
                rw [hts, List.length_cons] at hn
                rw [Cursor.ahead_advance, hts, List.tail_cons]
                omega
              have hrest (depth : Nat) : Agrees tokens c.advance (closeGroup b n depth)
                  (Reader.closeGroup b n depth) :=
                ih depth tokens _ ((suffix_advance c).trans hc) hlt
              have hkind (k : TokenKind) : (some t.kind == some k) = (t.kind == k) := rfl
              apply Agrees.advance hc
              simp only [hhead, Option.map_some, Piece.ofToken, hkind]
              cases t.kind == .opening b with
              | true => exact hrest (depth + 2)
              | false =>
                  cases t.kind == .closing b with
                  | true =>
                      simp only [Bool.false_eq_true, if_false, if_true,
                        minus_eq (Nat.le_add_left 1 depth), Nat.add_sub_cancel, pure_bind]
                      exact hrest depth
                  | false => exact hrest (depth + 1)

theorem mirrors_skipGroup (b : Bracket) : Mirrors n (skipGroup b) (Reader.skipGroup b) := by
  apply (mirrors_expect _).bind
  intro _
  exact mirrors_bounded fun n => mirrors_closeGroup b n 1

theorem mirrors_hasHeader :
    Mirrors n hasHeader (do let kind ← Reader.headerKind?; return kind.isSome) := by
  have hsecond (kind : ModuleKind) : Mirrors n (nthIs 1 (.keyword .module)) (do
      let second ← Reader.peekSecond
      let found ← (if second.any (fun t => (Expected.keyword .module).accepts t.kind) then
        pure (some kind) else pure none : Reader (Option ModuleKind))
      return found.isSome) := by
    apply Mirrors.peekSecond
    intro t
    cases t with
    | none => exact .pure false
    | some t =>
        have haccepts : accepts (.keyword .module) (.ofToken t) =
            pure ((Expected.keyword .module).accepts t.kind) := rfl
        simp only [Option.map_some, Option.any_some, haccepts]
        by_cases h : (Expected.keyword .module).accepts t.kind = true
        · rw [if_pos h, h]
          exact .pure true
        · rw [if_neg h, Bool.eq_false_iff.2 h]
          exact .pure false
  rw [Reader.headerKind?, bind_assoc]
  apply (mirrors_check _).bind
  intro b
  cases b with
  | true => exact .pure true
  | false =>
  simp only [Bool.false_eq_true, if_false, bind_assoc]
  apply (mirrors_check _).bind
  intro b
  cases b with
  | true =>
      simp only [if_true, bind_assoc]
      exact hsecond .effect
  | false =>
  simp only [Bool.false_eq_true, if_false, bind_assoc]
  apply (mirrors_check _).bind
  intro b
  cases b with
  | true =>
      simp only [if_true, bind_assoc]
      exact hsecond .port
  | false => exact .pure false

section

variable {kind : ModuleKind} {t : Token} {us : List Token}

theorem accepts_keyword_eq_beq {v : Keyword} (hts : c.ahead = t :: us)
    (hkeyword : t.kind.keyword? = some v) (w : Keyword) : c.accepts (.keyword w) = (v == w) := by
  simp only [Cursor.accepts, hts, List.head?_cons, Option.any_some, Expected.accepts, hkeyword]
  rfl

theorem mirrors_moduleWord (kind : ModuleKind) : Mirrors n (do
    unless ← eat (.keyword .module) do unexpected
    return kind) (do
    let _ ← (do unless ← Reader.eat (.keyword .module) do Reader.unexpected : Reader Unit)
    return kind) := by
  rw [bind_assoc]
  apply (mirrors_eat _).bind
  intro b
  cases b with
  | true => exact .pure kind
  | false => exact mirrors_unexpected.bind fun _ => .pure kind

theorem agrees_headerWords_normal (hc : c.ahead <:+ tokens) (hts : c.ahead = t :: us)
    (hkeyword : t.kind.keyword? = some .module) :
    Agrees tokens c headerWords (do Reader.headerWords .normal; return .normal) := by
  have hmodule : (Expected.keyword .module).accepts t.kind = true :=
    Expected.accepts_keyword_iff.2 hkeyword
  have hwords : (do Reader.headerWords .normal; return ModuleKind.normal : Reader _).run c =
      .ok .normal ⟨us, [], t.span⟩ := by
    rw [Reader.headerWords, EStateM.run_bind, EStateM.run_bind, Reader.run_expect hts hmodule]
    rfl
  have hport : c.accepts (.keyword .port) = false := accepts_keyword_eq_beq hts hkeyword _
  have heffect : (c.note (.keyword .port)).accepts (.keyword .effect) = false := by
    rw [Cursor.accepts_note]
    exact accepts_keyword_eq_beq hts hkeyword _
  have hnote : (c.note (.keyword .port)).ahead <:+ tokens := by rwa [Cursor.ahead_note]
  have hnote' : ((c.note (.keyword .port)).note (.keyword .effect)).ahead <:+ tokens := by
    rwa [Cursor.ahead_note]
  have hexpect := (mirrors_expect (.keyword .module)).agrees hnote'
  rw [Agrees, Reader.run_expect (by simpa using hts) hmodule] at hexpect
  refine agrees_of_run_eq_ok hwords ?_ (hts ▸ List.suffix_cons t us)
  rw [headerWords, EStateM.run_bind, run_check hc, hport]
  simp only [Bool.false_eq_true, if_false]
  rw [EStateM.run_bind, run_check hnote, heffect]
  simp only [Bool.false_eq_true, if_false]
  rw [EStateM.run_bind, hexpect.1]
  rfl

theorem agrees_headerWords_port (hc : c.ahead <:+ tokens) (hts : c.ahead = t :: us)
    (hkeyword : t.kind.keyword? = some .port) :
    Agrees tokens c headerWords (do Reader.headerWords .port; return .port) := by
  have hne : c.ahead ≠ [] := by simp [hts]
  have hport : c.accepts (.keyword .port) = true := accepts_keyword_eq_beq hts hkeyword _
  have hnote : (c.note (.keyword .port)).ahead <:+ tokens := by rwa [Cursor.ahead_note]
  have hmodule := (mirrors_moduleWord .port).agrees ((suffix_advance c).trans hc)
  refine hmodule.of_run_eq rfl ?_ (suffix_advance c)
  rw [headerWords, EStateM.run_bind, run_check hc, hport]
  simp only [if_true]
  rw [EStateM.run_bind, run_bump hnote, Cursor.advance_note _ _ hne]

theorem agrees_headerWords_effect (hc : c.ahead <:+ tokens) (hts : c.ahead = t :: us)
    (hkeyword : t.kind.keyword? = some .effect) :
    Agrees tokens c headerWords (do Reader.headerWords .effect; return .effect) := by
  have hne : c.ahead ≠ [] := by simp [hts]
  have hport : c.accepts (.keyword .port) = false := accepts_keyword_eq_beq hts hkeyword _
  have heffect : (c.note (.keyword .port)).accepts (.keyword .effect) = true := by
    rw [Cursor.accepts_note]
    exact accepts_keyword_eq_beq hts hkeyword _
  have hnote : (c.note (.keyword .port)).ahead <:+ tokens := by rwa [Cursor.ahead_note]
  have hnote' : ((c.note (.keyword .port)).note (.keyword .effect)).ahead <:+ tokens := by
    rwa [Cursor.ahead_note]
  have hmodule := (mirrors_moduleWord .effect).agrees ((suffix_advance c).trans hc)
  refine hmodule.of_run_eq rfl ?_ (suffix_advance c)
  rw [headerWords, EStateM.run_bind, run_check hc, hport]
  simp only [Bool.false_eq_true, if_false]
  rw [EStateM.run_bind, run_check hnote, heffect]
  simp only [if_true]
  rw [EStateM.run_bind, run_bump hnote', Cursor.advance_note, Cursor.advance_note _ _ hne]
  rwa [Cursor.ahead_note]

theorem agrees_headerWords (hc : c.ahead <:+ tokens)
    (h : Reader.headerKindOf c.ahead = some kind) :
    Agrees tokens c headerWords (do Reader.headerWords kind; return kind) := by
  obtain ⟨t, us, hts, hkeyword⟩ := Reader.keyword?_of_headerKindOf h
  cases kind with
  | normal => exact agrees_headerWords_normal hc hts hkeyword
  | port => exact agrees_headerWords_port hc hts hkeyword
  | effect => exact agrees_headerWords_effect hc hts hkeyword

end

theorem agrees_headerWords_bind {kind : ModuleKind} {f : ModuleKind → Parser α}
    {g : Unit → Reader α} (hc : c.ahead <:+ tokens)
    (h : Reader.headerKindOf c.ahead = some kind)
    (hf : ∀ d, d.ahead <:+ c.ahead → Agrees tokens d (f kind) (g ())) :
    Agrees tokens c (headerWords >>= f) (Reader.headerWords kind >>= g) := by
  have hbind : Agrees tokens c (headerWords >>= f)
      ((do Reader.headerWords kind; return kind) >>= fun _ => g ()) := by
    refine (agrees_headerWords hc h).bind fun k d hrun hd => ?_
    rw [EStateM.run_bind] at hrun
    cases hwords : (Reader.headerWords kind).run c with
    | ok u e =>
        rw [hwords] at hrun
        cases hrun
        exact hf d hd
    | error x e =>
        rw [hwords] at hrun
        cases hrun
  rwa [bind_assoc] at hbind

theorem agrees_header {kind : ModuleKind} (hc : c.ahead <:+ tokens)
    (h : Reader.headerKindOf c.ahead = some kind) :
    Agrees tokens c header (Reader.header kind) := by
  refine (mirrors_nextSpan.agrees hc).bind fun start d hstart _ => ?_
  rw [Reader.run_nextSpan] at hstart
  cases hstart
  refine agrees_headerWords_bind hc h fun d hd => Mirrors.agrees ?_ (hd.trans hc)
  apply mirrors_capitalisedName.bind
  rintro ⟨name, span⟩
  have hexposing (n : Nat) (start : Span) : Mirrors n (do
      let exposed ← exposing
      let span ← grow start (← lastSpan)
      return (⟨kind, name, exposed, span⟩ : Header)) (do
      let exposed ← Reader.exposing
      return ⟨kind, name, exposed, start.hull (← Reader.lastSpan)⟩) := by
    apply mirrors_exposing.bind
    intro exposed
    apply mirrors_lastSpan.bind
    intro stop
    exact .grow (.pure _)
  cases kind with
  | effect =>
      apply (mirrors_eat _).bind
      intro b
      cases b with
      | true => exact (mirrors_skipGroup _).bind fun _ => hexposing _ _
      | false => exact hexposing _ _
  | normal => exact hexposing _ _
  | port => exact hexposing _ _

def importRest (start : Span) : Reader Import := do
  let (module, _) ← Reader.capitalisedName
  let shortName ←
    if ← Reader.eat (.keyword .as) then some <$> Prod.fst <$> Reader.declaredName else pure none
  let exposed ←
    if ← Reader.checkInside (.keyword .exposing) then some <$> Reader.exposing else pure none
  let span := start.hull (← Reader.lastSpan)
  Reader.declarationEnd
  return ⟨module, shortName, exposed, span⟩

theorem mirrors_importRest (start : Span) : Mirrors n (do
    let (module, _) ← capitalisedName
    let shortName ← if ← eat (.keyword .as) then some <$> Prod.fst <$> declaredName else pure none
    let exposed ← if ← checkInside (.keyword .exposing) then some <$> exposing else pure none
    let span ← grow start (← lastSpan)
    declarationEnd
    return ⟨module, shortName, exposed, span⟩) (importRest start) := by
  apply mirrors_capitalisedName.bind
  rintro ⟨module, span⟩
  have hend (shortName : Option String) (exposed : Option Exposing) : Mirrors n (do
      let span ← grow start (← lastSpan)
      declarationEnd
      return (⟨module, shortName, exposed, span⟩ : Import)) (do
      let span := start.hull (← Reader.lastSpan)
      Reader.declarationEnd
      return ⟨module, shortName, exposed, span⟩) := by
    apply mirrors_lastSpan.bind
    intro stop
    apply Mirrors.grow
    apply mirrors_declarationEnd.bind
    intro _
    exact .pure _
  have hexposing (shortName : Option String) : Mirrors n (do
      let exposed ← if ← checkInside (.keyword .exposing) then some <$> exposing else pure none
      let span ← grow start (← lastSpan)
      declarationEnd
      return (⟨module, shortName, exposed, span⟩ : Import)) (do
      let exposed ←
        if ← Reader.checkInside (.keyword .exposing) then some <$> Reader.exposing else pure none
      let span := start.hull (← Reader.lastSpan)
      Reader.declarationEnd
      return ⟨module, shortName, exposed, span⟩) := by
    apply (mirrors_checkInside _).bind
    intro b
    cases b with
    | true => exact (mirrors_exposing.map some).bind fun exposed => hend shortName exposed
    | false => exact hend shortName none
  apply (mirrors_eat _).bind
  intro b
  cases b with
  | true => exact ((mirrors_declaredName.map Prod.fst).map some).bind hexposing
  | false => exact hexposing none

theorem mirrors_importLine : Mirrors n importLine Reader.importLine :=
  (mirrors_expect _).bind mirrors_importRest

theorem suffix_nextDeclaration (c : Cursor) : c.nextDeclaration.ahead <:+ c.ahead :=
  suffix_advanceWhile _ c

theorem run_skipToDeclaration (hc : c.ahead <:+ tokens) :
    skipToDeclaration.run (place tokens c) = .ok () (place tokens c.nextDeclaration) := by
  have h := mirrors_skipToDeclaration.agrees hc
  rw [Agrees, Reader.run_advanceWhile] at h
  exact h.1

def Recovers (tokens : List Token) (c : Cursor) (x : Parser α) (r : α × Cursor) : Prop :=
  x.run (place tokens c) = .ok r.1 (place tokens r.2) ∧ r.2.ahead <:+ c.ahead

theorem Agrees.run_attempt {x : Parser α} {r : Reader α} (h : Agrees tokens c x r) :
    (attempt x).run (place tokens c) =
      match r.run c with
      | .ok a d => .ok (.ok a) (place tokens d)
      | .error e d => .ok (.error e) (place tokens d) := by
  rw [Agrees] at h
  cases hr : r.run c with
  | ok a d =>
      rw [hr] at h
      rw [EStateM.run, attempt, h.1]
  | error e d =>
      rw [hr] at h
      rw [EStateM.run, attempt, h.1]

theorem Agrees.recovering {x : Parser α} {r : Reader α} (hc : c.ahead <:+ tokens)
    (h : Agrees tokens c x r) : Recovers tokens c (recovering x) (c.read r) := by
  have hattempt := h.run_attempt
  rw [Agrees] at h
  rw [Recovers, Parser.recovering, EStateM.run_bind, hattempt, Cursor.read]
  cases hr : r.run c with
  | ok a d =>
      rw [hr] at h
      exact ⟨rfl, h.2⟩
  | error e d =>
      rw [hr] at h
      refine ⟨?_, (suffix_nextDeclaration d).trans h.2⟩
      simp only
      rw [EStateM.run_bind, run_skipToDeclaration (h.2.trans hc)]
      rfl

theorem recovers_headerOutcome (hc : c.ahead <:+ tokens) :
    Recovers tokens c headerOutcome c.readHeader := by
  obtain ⟨expected, hkind⟩ := Reader.looks_headerKind? c.ahead c.last c.expected
  generalize hd : (⟨c.ahead, expected, c.last⟩ : Cursor) = d at hkind
  have hahead : d.ahead = c.ahead := by rw [← hd]
  have hheader : hasHeader.run (place tokens c) =
      .ok (Reader.headerKindOf c.ahead).isSome (place tokens d) := by
    have h := mirrors_hasHeader.agrees hc
    rw [Agrees, EStateM.run_bind, hkind] at h
    exact h.1
  rw [Recovers, headerOutcome, EStateM.run_bind, hheader, Cursor.readHeader, hkind]
  cases hk : Reader.headerKindOf c.ahead with
  | none => exact ⟨rfl, hahead ▸ List.suffix_refl _⟩
  | some kind =>
      rw [← hahead] at hc hk ⊢
      have hsome : Agrees tokens d (some <$> header) (some <$> Reader.header kind) := by
        rw [map_eq_pure_bind, map_eq_pure_bind]
        exact (agrees_header hc hk).bind fun _ _ _ _ => .pure _
      exact hsome.recovering hc

theorem recovers_imports {m : Nat} (hc : c.ahead <:+ tokens) (hn : c.ahead.length < n)
    (hm : c.ahead.length < m) : Recovers tokens c (imports n) (c.readImports m) := by
  -- each import takes a token, so neither bound is reached
  induction n generalizing c m with
  | zero => exact absurd hn (Nat.not_lt_zero _)
  | succ n ih =>
      obtain ⟨m, rfl⟩ := Nat.exists_eq_add_one_of_ne_zero (Nat.ne_zero_of_lt hm)
      have hnote : (c.note (.keyword .import)).ahead <:+ tokens := (suffix_note _ c).trans hc
      simp only [Recovers, imports, Cursor.readImports, EStateM.run_bind, run_check hc,
        Cursor.accepts_note]
      cases ha : c.accepts (.keyword .import) with
      | false => exact ⟨rfl, suffix_note _ c⟩
      | true =>
          have hitem := (mirrors_importLine.agrees hnote).recovering hnote
          have hnext : (c.note (.keyword .import)).accepts (.keyword .import) = true := by
            rwa [Cursor.accepts_note]
          have hlt := Cursor.length_lt_of_read_importLine hnext
          rw [Cursor.ahead_note] at hlt
          have hrest : Recovers tokens _ (imports n) (Cursor.readImports m _) :=
            ih (hitem.2.trans hnote) (by omega) (by omega)
          simp only [if_true, EStateM.run_bind, hitem.1, hrest.1]
          exact ⟨rfl, (hrest.2.trans hitem.2).trans (suffix_note _ c)⟩

theorem recovers_declarationOutcome (hc : c.ahead <:+ tokens) :
    Recovers tokens c declarationOutcome c.readDeclaration := by
  have h := mirrors_declaration.agrees hc
  have hattempt := h.run_attempt
  rw [Agrees] at h
  rw [Recovers, declarationOutcome, EStateM.run_bind, EStateM.run_get]
  simp only
  rw [EStateM.run_bind, hattempt, Cursor.readDeclaration]
  cases hr : Reader.declaration.run c with
  | ok d e =>
      rw [hr] at h
      exact ⟨rfl, h.2⟩
  | error x d =>
      rw [hr] at h
      have hd := h.2.trans hc
      have hcursor : (place tokens d).cursor = (place tokens c).cursor ↔
          d.ahead.length = c.ahead.length := by
        have hle := hc.length_le
        have hle' := h.2.length_le
        simp only [place]
        omega
      simp only [EStateM.run_bind, EStateM.run_get, hcursor]
      split
      · have hadvance := (suffix_advance d).trans hd
        refine ⟨?_, (suffix_nextDeclaration _).trans ((suffix_advance d).trans h.2)⟩
        rw [EStateM.run_bind, run_bump hd]
        simp only
        rw [EStateM.run_bind, run_skipToDeclaration hadvance]
        rfl
      · refine ⟨?_, (suffix_nextDeclaration d).trans h.2⟩
        rw [EStateM.run_bind, run_skipToDeclaration hd]
        rfl

theorem run_declarations {m : Nat} (hc : c.ahead <:+ tokens) (hn : c.ahead.length < n)
    (hm : c.ahead.length < m) :
    ∃ d, (declarations n).run (place tokens c) = .ok (c.readDeclarations m) (place tokens d) := by
  induction n generalizing c m with
  | zero => exact absurd hn (Nat.not_lt_zero _)
  | succ n ih =>
      obtain ⟨m, rfl⟩ := Nat.exists_eq_add_one_of_ne_zero (Nat.ne_zero_of_lt hm)
      simp only [declarations, Cursor.readDeclarations, EStateM.run_bind, run_peekAt hc]
      cases ha : c.ahead with
      | nil => exact ⟨c, rfl⟩
      | cons t ts =>
          have hne : c.ahead ≠ [] := by
            rw [ha]
            exact List.cons_ne_nil t ts
          have hitem := recovers_declarationOutcome hc
          have hlt := Cursor.length_lt_of_readDeclaration hne
          obtain ⟨d, hrest⟩ : ∃ d, (declarations n).run (place tokens c.readDeclaration.2) =
              .ok (c.readDeclaration.2.readDeclarations m) (place tokens d) :=
            ih (hitem.2.trans hc) (by omega) (by omega)
          refine ⟨d, ?_⟩
          simp only [List.getElem?_cons_zero, Option.map_some, Option.isSome_some, if_true,
            EStateM.run_bind, hitem.1, hrest]
          rfl

theorem run_file (tokens : List Token) :
    ∃ d, file.run ⟨tokens.map .ofToken, 0, [], .empty⟩ =
      .ok (SourceFile.ofTokens tokens) (place tokens d) := by
  have hstart : (⟨tokens.map .ofToken, 0, [], .empty⟩ : Place) = place tokens (.start tokens) := by
    simp [place, Cursor.start]
  obtain ⟨hheader, hc⟩ : Recovers tokens (.start tokens) headerOutcome _ :=
    recovers_headerOutcome (List.suffix_refl tokens)
  change _ <:+ tokens at hc
  obtain ⟨himports, hd⟩ := recovers_imports hc (Nat.lt_add_one _)
    (Nat.lt_add_one_of_le hc.length_le)
  replace hd := hd.trans hc
  obtain ⟨e, hdeclarations⟩ := run_declarations hd (Nat.lt_add_one _)
    (Nat.lt_add_one_of_le hd.length_le)
  refine ⟨e, ?_⟩
  rw [hstart, file, EStateM.run_bind, hheader]
  simp only
  rw [EStateM.run_bind, run_bounded imports hc, himports]
  simp only
  rw [EStateM.run_bind, run_bounded declarations hd, hdeclarations]
  rfl

end Parser

def parse (pieces : List Piece) : Except (Stop SyntaxError) (Validated SyntaxError SourceFile) :=
  match Parser.file.run ⟨pieces, 0, [], .empty⟩ with
  | .ok r _ => .ok r
  | .error e _ => .error e

theorem parse_eq (tokens : List Token) :
    parse (tokens.map .ofToken) = .ok (SourceFile.ofTokens tokens) := by
  obtain ⟨d, hrun⟩ := Parser.run_file tokens
  rw [parse, hrun]

example : parse [⟨none, .empty, 0⟩] = .error (.fault .blank) := rfl

/-- Checking a source with every step guarded that might have no result. What is done to a file once
it is parsed takes no such step. -/
def check (source : String) : Except Fault (Except Failure (List TypeDecl)) :=
  match lex source with
  | .error (.fault f) => .error f
  | .error (.error e) => .ok (.error (.malformed [.ofLexical e]))
  | .ok pieces =>
      match parse pieces with
      | .error (.fault f) => .error f
      | .error (.error e) => .ok (.error (.malformed [e]))
      | .ok (.error errors) => .ok (.error (.malformed errors))
      | .ok (.ok file) =>
          match TypeDecl.ofFile file.resolve with
          | .error problems => .ok (.error (.invalid problems))
          | .ok types => .ok (.ok types)

theorem check_eq_ok (source : String) : check source = .ok (ElmTypes.check source) := by
  rw [check, lex_eq, ElmTypes.check, SourceFile.parse]
  cases ElmTypes.lex source with
  | error e => rfl
  | ok tokens =>
      simp only [Except.map, Except.mapError, parse_eq]
      cases SourceFile.ofTokens tokens with
      | error errors => rfl
      | ok file =>
          simp only
          cases TypeDecl.ofFile file.resolve with
          | error problems => rfl
          | ok types => rfl

end ElmTypes.Guarded
