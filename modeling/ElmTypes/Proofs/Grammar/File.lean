import ElmTypes.Grammar.File
import ElmTypes.Proofs.Grammar.Declaration
import ElmTypes.Proofs.Validation.Accumulation

namespace ElmTypes

structure SyntaxError.ArisesIn (tokens : List Token) (e : SyntaxError) : Prop where
  span : ∃ t ∈ tokens, t.span = e.span
  cause : e.cause.About tokens

theorem SyntaxError.ArisesIn.of_subset {ts us : List Token} {e : SyntaxError}
    (h : e.ArisesIn ts) (hs : ts ⊆ us) : e.ArisesIn us := by
  obtain ⟨t, ht, hspan⟩ := h.span
  exact ⟨⟨t, hs ht, hspan⟩, h.cause.of_subset hs⟩

namespace Reader

theorem reads_exposedName : Reads exposedName fun _ _ => True := by
  refine .of_after fun c => (peeks_check _).bind fun b => ?_
  cases b with
  | true => exact reads_lowercaseName.bind fun _ _ _ => .pure trivial
  | false =>
  refine (peeks_check _).bind fun b => ?_
  cases b with
  | true =>
      refine reads_declaredName.bind fun _ _ _ => (reads_eat _).bind fun _ b _ => ?_
      cases b with
      | true =>
          exact (reads_expect _).bind fun _ _ _ => (reads_expect _).bind fun _ _ _ => .pure trivial
      | false => exact .pure trivial
  | false =>
  refine (peeks_check _).bind fun b => ?_
  cases b with
  | true => exact reads_parenthesizedOperator.bind fun _ _ _ => .pure trivial
  | false => exact .unexpected

theorem reads_exposing : Reads exposing fun _ _ => True := by
  refine .of_after fun c => (reads_expect _).bind fun _ _ _ => (reads_expect _).bind fun _ _ _ => ?_
  refine (reads_eat _).bind fun _ b _ => ?_
  cases b with
  | true => exact (reads_expect _).bind fun _ _ _ => .pure trivial
  | false =>
      have hnames : Reads (separated .comma exposedName) fun _ _ => True :=
        (reads_separated reads_exposedName (L := fun _ _ => True) trivial (by simp)).mono (by simp)
      exact hnames.bind fun _ _ _ => (reads_expect _).bind fun _ _ _ => .pure trivial

theorem reads_closeGroup (b : Bracket) (n depth : Nat) :
    Reads (closeGroup b n depth) fun _ _ => True := by
  induction n generalizing depth with
  | zero =>
      cases depth with
      | zero => exact .of_after fun c => .unexpected
      | succ depth => exact .of_after fun c => .unexpected
  | succ n ih =>
      cases depth with
      | zero => exact .of_after fun c => .pure trivial
      | succ depth =>
          refine .of_after fun c => .peek ?_
          split
          · exact reads_advance.bind fun _ _ _ => .unexpected
          · refine reads_advance.bind fun ts _ _ => ?_
            exact ((ih _).after c _).mono (by simp)

theorem reads_skipGroup (b : Bracket) : Reads (skipGroup b) fun _ _ => True :=
  .of_after fun c => (reads_expect _).bind fun _ _ _ =>
    ((reads_bounded fun n => reads_closeGroup b n 1).after c _).mono (by simp)

theorem reads_headerWords (kind : ModuleKind) : Reads (headerWords kind) fun _ _ => True := by
  have hmodule : Reads (do
      advance
      unless ← eat (.keyword .module) do unexpected) fun _ _ => True := by
    refine .of_after fun c => reads_advance.bind fun _ _ _ => (reads_eat _).bind fun _ b _ => ?_
    cases b with
    | true => exact .pure trivial
    | false => exact .unexpected
  cases kind with
  | normal => exact .of_after fun c => (reads_expect _).bind fun _ _ _ => .pure trivial
  | port => exact hmodule
  | effect => exact hmodule

def IsModule (ts : List Token) (name : String) : Prop :=
  ∃ t ∈ ts, t.kind.capitalisedName? = some name

theorem IsModule.of_subset {ts us : List Token} {name : String} (h : IsModule ts name)
    (hs : ts ⊆ us) : IsModule us name := by
  obtain ⟨t, ht, hn⟩ := h
  exact ⟨t, hs ht, hn⟩

structure Introduces (ts : List Token) (name : String) (span : Span) : Prop where
  module : IsModule ts name
  span : ∀ t ∈ ts.head?, span = t.span.hull (lastSpanOf t.span ts)

namespace Introduces

variable {ts : List Token} {name : String} {s : Span}

theorem ne_nil (h : Introduces ts name s) : ts ≠ [] := by
  obtain ⟨t, ht, -⟩ := h.module
  exact List.ne_nil_of_mem ht

theorem cons {t : Token} (h : IsModule (t :: ts) name) (s : Span) :
    Introduces (t :: ts) name (t.span.hull (lastSpanOf s (t :: ts))) := by
  refine ⟨h, ?_⟩
  rintro _ ⟨⟩
  simp [lastSpanOf, List.getLast?_cons]

theorem of_ahead {c : Cursor} (h : IsModule ts name) (hp : ts <+: c.ahead) :
    Introduces ts name
      (((c.ahead.head?.map Token.span).getD .empty).hull (lastSpanOf c.last ts)) := by
  obtain ⟨t, ht, -⟩ := id h
  obtain ⟨u, us, rfl⟩ := List.exists_cons_of_ne_nil (List.ne_nil_of_mem ht)
  obtain ⟨rest, hrest⟩ := hp
  rw [← hrest]
  exact .cons h c.last

end Introduces

theorem reads_header (kind : ModuleKind) :
    Reads (header kind) fun ts h => Introduces ts h.name h.span := by
  refine .of_after fun c => .nextSpan ((reads_headerWords kind).bind fun ts _ _ => ?_)
  refine reads_capitalisedName.bind ?_
  rintro _ ⟨name, s⟩ ⟨t, rfl, ht, rfl⟩
  have hrest {us : List Token} (hus : t ∈ us) : After c us (do
      let exposed ← exposing
      return (⟨kind, name, exposed,
        ((c.ahead.head?.map Token.span).getD .empty).hull (← lastSpan)⟩ : Header)) fun ts h =>
        Introduces ts h.name h.span := by
    refine (reads_exposing.after c us).isPrefix.bind ?_
    rintro _ exposed ⟨hp, vs, rfl, -⟩
    exact .lastSpan (.pure (.of_ahead ⟨t, List.mem_append_left vs hus, ht⟩ hp))
  simp only
  split
  · refine (reads_eat _).bind fun _ b _ => ?_
    cases b with
    | true => exact (reads_skipGroup _).bind fun _ _ _ => hrest (by simp)
    | false => exact hrest (by simp)
  · exact hrest (by simp)

theorem reads_importLine : Reads importLine fun ts i => Introduces ts i.module i.span := by
  refine .of_after fun c => (reads_expect _).bind ?_
  rintro _ _ ⟨k, rfl, -, rfl⟩
  refine reads_capitalisedName.bind ?_
  rintro _ ⟨name, s⟩ ⟨t, rfl, ht, rfl⟩
  have hend {us : List Token} {shortName : Option String} {exposed : Option Exposing}
      (hus : t ∈ us) : After c (k :: us) (do
        let span := k.span.hull (← lastSpan)
        declarationEnd
        return (⟨name, shortName, exposed, span⟩ : Import)) fun ts i =>
          Introduces ts i.module i.span :=
    .lastSpan (.declarationEnd (.pure (.cons ⟨t, List.mem_cons_of_mem k hus, ht⟩ c.last)))
  have hexposing {us : List Token} {shortName : Option String} (hus : t ∈ us) :
      After c (k :: us) (do
        let exposed ← if ← checkInside (.keyword .exposing) then some <$> exposing else pure none
        let span := k.span.hull (← lastSpan)
        declarationEnd
        return (⟨name, shortName, exposed, span⟩ : Import)) fun ts i =>
          Introduces ts i.module i.span := by
    refine (peeks_checkInside _).bind fun b => ?_
    cases b with
    | true =>
        refine (reads_exposing.map some).bind fun vs _ _ => hend ?_
        exact List.mem_append_left vs hus
    | false => exact hend hus
  refine (reads_eat _).bind fun us b _ => ?_
  cases b with
  | true =>
      refine ((reads_declaredName.map Prod.fst).map some).bind fun vs _ _ => hexposing ?_
      exact List.mem_append_left vs (by simp)
  | false => exact hexposing (by simp)

variable {α : Type} {r : Reader α} {R : List Token → α → Prop} {c d : Cursor}

theorem Reads.of_run_eq_ok {a : α} (h : Reads r R) (hr : r.run c = .ok a d) :
    ∃ ts, c.Takes ts d ∧ R ts a := by
  simpa [hr] using h c

theorem Reads.of_run_eq_error {x : SyntaxError} (h : Reads r R) (hr : r.run c = .error x d)
    (hc : c.ahead ≠ []) : x.ArisesIn c.ahead ∧ d.ahead <:+ c.ahead := by
  obtain ⟨ts, hd, hb⟩ : ∃ ts, c.Takes ts d ∧ c.Blames ts d x := by simpa [hr] using h c
  have hseen : Cursor.seen ts d ⊆ c.ahead := by
    intro t ht
    rw [hd.ahead]
    rcases List.mem_append.1 ht with ht | ht
    · exact List.mem_append_left _ ht
    · exact List.mem_append_right _ (List.mem_of_mem_head? (by simpa using ht))
  refine ⟨⟨?_, hb.cause.of_subset hseen⟩, ⟨ts, hd.ahead.symm⟩⟩
  rcases hb.place with ⟨t, ht, hspan⟩ | ⟨hn, -⟩
  · exact ⟨t, hseen ht, hspan⟩
  · exact absurd hn hc

theorem ahead_ne_nil_of_headerKind? {kind : ModuleKind}
    (h : headerKind?.run c = .ok (some kind) d) :
    c.ahead ≠ [] := by
  intro hc
  have ha (e : Expected) : c.accepts e = false := by simp [Cursor.accepts, hc]
  simp [headerKind?, ha, Cursor.accepts_note, -bind_pure_comp] at h

theorem peeks_headerKind? : Peeks headerKind? := by
  have hopens (kind : ModuleKind) : Peeks (do
      if (← peekSecond).any (fun t => (Expected.keyword .module).accepts t.kind) then
        return some kind
      else
        return none) := by
    refine peeks_peekSecond.then fun second => ?_
    split
    · exact peeks_pure _
    · exact peeks_pure _
  refine (peeks_check _).then fun b => ?_
  cases b with
  | true => exact peeks_pure _
  | false =>
  refine (peeks_check _).then fun b => ?_
  cases b with
  | true => simpa using hopens .effect
  | false =>
  refine (peeks_check _).then fun b => ?_
  cases b with
  | true => simpa using hopens .port
  | false => exact peeks_pure _

end Reader

namespace Cursor

variable {α : Type}

def Sound (tokens : List Token) (R : List Token → α → Prop) : Outcome α → Prop
  | .ok a => ∃ ts, ts <:+: tokens ∧ R ts a
  | .error es => es ≠ [] ∧ ∀ e ∈ es, e.ArisesIn tokens

theorem nextDeclaration_suffix (c : Cursor) : c.nextDeclaration.ahead <:+ c.ahead := by
  rw [nextDeclaration, ahead_advanceWhile]
  exact List.dropWhile_suffix _

theorem atBoundary_nextDeclaration (c : Cursor) : c.nextDeclaration.atBoundary = true := by
  rw [atBoundary, nextDeclaration, ahead_advanceWhile, Option.all_eq_true]
  intro t ht
  have hn := List.head?_dropWhile_not (fun t : Token => !t.startsDeclaration) c.ahead
  simpa [ht] using hn

section

variable {tokens : List Token} {item : Reader α} {R : List Token → α → Prop} {c : Cursor}

theorem sound_read (hi : item.Reads R) (hc : c.ahead <:+ tokens) (hne : c.ahead ≠ []) :
    Sound tokens R (c.read item).1 ∧ (c.read item).2.ahead <:+ tokens := by
  unfold read
  cases hr : item.run c with
  | ok a d =>
      obtain ⟨ts, hd, hR⟩ := hi.of_run_eq_ok hr
      refine ⟨⟨ts, ?_, hR⟩, ?_⟩
      · exact (List.prefix_append ts d.ahead).isInfix.trans (hd.ahead ▸ hc.isInfix)
      · exact (List.suffix_append ts d.ahead).trans (hd.ahead ▸ hc)
  | error e d =>
      obtain ⟨hx, hd⟩ := hi.of_run_eq_error hr hne
      refine ⟨⟨by simp, ?_⟩, (nextDeclaration_suffix d).trans (hd.trans hc)⟩
      exact List.forall_mem_singleton.2 (hx.of_subset hc.subset)

theorem sound_readDeclaration (hc : c.ahead <:+ tokens) (hne : c.ahead ≠ []) :
    Sound tokens DerivesDeclaration c.readDeclaration.1 ∧
      c.readDeclaration.2.ahead <:+ tokens := by
  unfold readDeclaration
  cases hr : Reader.declaration.run c with
  | ok a d =>
      obtain ⟨ts, hd, hR⟩ := Reader.reads_declaration.of_run_eq_ok hr
      refine ⟨⟨ts, ?_, hR⟩, ?_⟩
      · exact (List.prefix_append ts d.ahead).isInfix.trans (hd.ahead ▸ hc.isInfix)
      · exact (List.suffix_append ts d.ahead).trans (hd.ahead ▸ hc)
  | error e d =>
      obtain ⟨hx, hd⟩ := Reader.reads_declaration.of_run_eq_error hr hne
      refine ⟨⟨by simp, List.forall_mem_singleton.2 (hx.of_subset hc.subset)⟩, ?_⟩
      refine (nextDeclaration_suffix _).trans (List.IsSuffix.trans ?_ (hd.trans hc))
      split
      · rw [ahead_advance]
        exact List.tail_suffix _
      · exact List.suffix_refl _

theorem sound_readHeader (hc : c.ahead <:+ tokens) :
    Sound tokens (fun ts header => ∀ h ∈ header, Reader.IsModule ts h.name) c.readHeader.1 ∧
      c.readHeader.2.ahead <:+ tokens := by
  unfold readHeader
  obtain ⟨kind?, d, hr, hd⟩ := Reader.peeks_headerKind? c
  have hahead : c.ahead = d.ahead := by simpa using hd.ahead
  rw [hr]
  cases kind? with
  | none => exact ⟨⟨[], List.nil_infix, by simp⟩, hahead ▸ hc⟩
  | some kind =>
      have hne := Reader.ahead_ne_nil_of_headerKind? hr
      have hheader : (some <$> Reader.header kind).Reads fun ts header =>
          ∀ h ∈ header, Reader.IsModule ts h.name := by
        refine ((Reader.reads_header kind).map some).mono ?_
        rintro ts _ ⟨h, rfl, hheader⟩ _ ⟨⟩
        exact hheader.module
      exact sound_read hheader (hahead ▸ hc) (hahead ▸ hne)

theorem sound_readImports (n : Nat) (hc : c.ahead <:+ tokens) :
    (∀ r ∈ (c.readImports n).1, Sound tokens (fun ts i => Reader.IsModule ts i.module) r) ∧
      (c.readImports n).2.ahead <:+ tokens := by
  induction n generalizing c with
  | zero => exact ⟨by simp [readImports], hc⟩
  | succ n ih =>
      simp only [readImports]
      split
      · rename_i ha
        have hne : (c.note (.keyword .import)).ahead ≠ [] := by
          intro hn
          rw [ahead_note] at hn
          simp [accepts, hn] at ha
        obtain ⟨hs, hd⟩ := sound_read (Reader.reads_importLine.mono fun _ _ h => h.module)
          (by simpa using hc) hne
        obtain ⟨hss, hds⟩ := ih hd
        exact ⟨List.forall_mem_cons.2 ⟨hs, hss⟩, hds⟩
      · exact ⟨by simp, by simpa using hc⟩

theorem sound_readDeclarations (n : Nat) (hc : c.ahead <:+ tokens) :
    ∀ r ∈ c.readDeclarations n, Sound tokens DerivesDeclaration r := by
  induction n generalizing c with
  | zero => simp [readDeclarations]
  | succ n ih =>
      simp only [readDeclarations]
      split
      · simp
      · rename_i hne
        obtain ⟨hs, hd⟩ := sound_readDeclaration hc (by simpa using hne)
        exact List.forall_mem_cons.2 ⟨hs, ih hd⟩

theorem sound_accumulate {rs : List (Outcome α)} (h : ∀ r ∈ rs, Sound tokens R r) :
    (∀ as, Validated.accumulate rs = .ok as → ∀ a ∈ as, ∃ ts, ts <:+: tokens ∧ R ts a) ∧
      ∀ e ∈ (Validated.accumulate rs).problems, e.ArisesIn tokens := by
  refine ⟨fun as has a ha => ?_, fun e he => ?_⟩
  · exact h _ (Validated.mem_of_accumulate_eq_ok has ha)
  · rw [Validated.problems_accumulate, List.mem_flatMap] at he
    obtain ⟨r, hr, her⟩ := he
    cases r with
    | ok a => cases her
    | error es => exact (h _ hr).2 e her

end

end Cursor

structure SourceFile.Sound (tokens : List Token) (file : SourceFile) : Prop where
  header : ∀ h ∈ file.header, Reader.IsModule tokens h.name
  imports : ∀ i ∈ file.imports, Reader.IsModule tokens i.module
  declarations : ∀ d ∈ file.declarations, ∃ ts, ts <:+: tokens ∧ DerivesDeclaration ts d

theorem SourceFile.sound_ofTokens (tokens : List Token) :
    (∀ file, SourceFile.ofTokens tokens = .ok file → file.Sound tokens) ∧
    ∀ es, SourceFile.ofTokens tokens = .error es → es ≠ [] ∧ ∀ e ∈ es, e.ArisesIn tokens := by
  unfold SourceFile.ofTokens
  obtain ⟨hheader, hc⟩ := Cursor.sound_readHeader (c := .start tokens) (List.suffix_refl tokens)
  generalize Cursor.readHeader (.start tokens) = p at hheader hc ⊢
  obtain ⟨header, c⟩ := p
  simp only
  obtain ⟨himports, hd⟩ := Cursor.sound_readImports (tokens.length + 1) hc
  generalize c.readImports (tokens.length + 1) = q at himports hd ⊢
  obtain ⟨imports, d⟩ := q
  have hdeclarations := Cursor.sound_readDeclarations (tokens.length + 1) hd
  generalize d.readDeclarations (tokens.length + 1) = declarations at hdeclarations ⊢
  obtain ⟨hiok, hi⟩ := Cursor.sound_accumulate himports
  obtain ⟨hok, hp⟩ := Cursor.sound_accumulate hdeclarations
  have hin := Validated.accumulate_ne_error_nil imports
  have hdn := Validated.accumulate_ne_error_nil declarations
  generalize Validated.accumulate imports = imports at hiok hi hin ⊢
  generalize Validated.accumulate declarations = declarations at hok hp hdn ⊢
  have hhn : header ≠ .error [] := by
    rintro rfl
    exact hheader.1 rfl
  have hh : ∀ e ∈ header.problems, e.ArisesIn tokens := by
    cases header with
    | ok header => simp [Validated.problems]
    | error es => exact hheader.2
  refine ⟨fun file h => ?_, fun es h => ?_⟩
  · split at h
    · obtain rfl := Except.ok.inj h
      refine ⟨fun m hm => ?_, fun i hi => ?_, hok _ rfl⟩
      · obtain ⟨ts, hts, hmodule⟩ := hheader
        exact (hmodule m hm).of_subset hts.subset
      · obtain ⟨ts, hts, hmodule⟩ := hiok _ rfl i hi
        exact hmodule.of_subset hts.subset
    · cases h
  · split at h
    · cases h
    · rename_i hall
      obtain rfl := Except.error.inj h
      refine ⟨fun hnil => ?_, fun e he => ?_⟩
      · simp only [List.append_eq_nil_iff, Validated.problems_eq_nil_iff hhn,
          Validated.problems_eq_nil_iff hin, Validated.problems_eq_nil_iff hdn] at hnil
        obtain ⟨⟨⟨a, ha⟩, ⟨b, hb⟩⟩, ⟨d, hd⟩⟩ := hnil
        exact hall a b d ha hb hd
      · rw [List.mem_append, List.mem_append] at he
        rcases he with (he | he) | he
        · exact hh e he
        · exact hi e he
        · exact hp e he

structure Headless (ts : List Token) : Prop where
  keyword : ∀ t ∈ ts.head?, t.kind.keyword? ∉ [some .module, some .effect, some .import]
  port : ∀ t ∈ ts.head?, t.kind.keyword? = some .port →
    ∀ u ∈ ts[1]?, u.kind.keyword? ≠ some .module

theorem Headless.of_keyword {ts : List Token}
    (h : ∀ t ∈ ts.head?,
      t.kind.keyword? ∉ [some .module, some .effect, some .import, some .port]) : Headless ts := by
  constructor
  · intro t ht hk
    refine h t ht ?_
    simp only [List.mem_cons, List.not_mem_nil, or_false] at hk ⊢
    tauto
  · intro t ht hport
    exact absurd (by simp [hport]) (h t ht)

namespace Cursor

variable {c : Cursor}

theorem accepts_keyword_eq_false {k : Keyword} (h : ∀ t ∈ c.ahead.head?, t.kind.keyword? ≠ some k) :
    c.accepts (.keyword k) = false := by
  rw [accepts, Option.any_eq_false]
  intro t ht
  simp [Expected.accepts, h t ht]

theorem readHeader_eq_none (h : Headless c.ahead) :
    ∃ d, c.readHeader = (.ok none, d) ∧ d.ahead = c.ahead := by
  have hmodule : c.accepts (.keyword .module) = false :=
    accepts_keyword_eq_false fun t ht hk => h.keyword t ht (by simp [hk])
  have heffect : c.accepts (.keyword .effect) = false :=
    accepts_keyword_eq_false fun t ht hk => h.keyword t ht (by simp [hk])
  have hrun : EStateM.run Reader.headerKind? c = .ok none
      (((c.note (.keyword .module)).note (.keyword .effect)).note (.keyword .port)) := by
    cases hp : c.accepts (.keyword .port) with
    | false => simp [Reader.headerKind?, accepts_note, hmodule, heffect, hp, -bind_pure_comp]
    | true =>
        obtain ⟨t, ht, hport⟩ := (Option.any_eq_true _ _).1 hp
        have hsecond : (c.ahead[1]?.any fun u => (Expected.keyword .module).accepts u.kind) = false := by
          rw [Option.any_eq_false]
          intro u hu
          simpa [Expected.accepts] using h.port t ht (by simpa [Expected.accepts] using hport) u hu
        simp [Reader.headerKind?, accepts_note, hmodule, heffect, hp, hsecond, -bind_pure_comp]
  refine ⟨((c.note (.keyword .module)).note (.keyword .effect)).note (.keyword .port), ?_, by simp⟩
  rw [readHeader, hrun]

theorem readImports_eq_nil (h : Headless c.ahead) (n : Nat) :
    ∃ d, c.readImports n = ([], d) ∧ d.ahead = c.ahead := by
  cases n with
  | zero => exact ⟨c, rfl, rfl⟩
  | succ n =>
      have himport : (c.note (.keyword .import)).accepts (.keyword .import) = false := by
        rw [accepts_note]
        exact accepts_keyword_eq_false fun t ht hk => h.keyword t ht (by simp [hk])
      refine ⟨c.note (.keyword .import), ?_, by simp⟩
      simp [readImports, himport]

end Cursor

theorem SourceFile.ofTokens_of_headless {tokens : List Token} (h : Headless tokens) :
    ∃ c : Cursor, c.ahead = tokens ∧ SourceFile.ofTokens tokens =
      (Validated.accumulate (c.readDeclarations (tokens.length + 1))).map (⟨none, [], ·⟩) := by
  obtain ⟨c, hheader, hc⟩ := Cursor.readHeader_eq_none (c := .start tokens) h
  have hahead : c.ahead = tokens := hc
  obtain ⟨d, himports, hd⟩ := Cursor.readImports_eq_nil (hahead ▸ h) (tokens.length + 1)
  refine ⟨d, hd.trans hahead, ?_⟩
  simp only [SourceFile.ofTokens, hheader, himports]
  cases Validated.accumulate (d.readDeclarations (tokens.length + 1)) with
  | ok ds => rfl
  | error es => rfl

end ElmTypes
