import ElmTypes.Proofs.Expectation.Opening
import ElmTypes.Proofs.Grammar.ErrorOrder

namespace ElmTypes

/-- An attempt to read a part of a file: the tokens ahead where it began and where it stopped, and
the error for which it stopped. -/
structure Attempt where
  start : List Token
  stop : List Token
  error? : Option SyntaxError

namespace Cursor

def attempt {α : Type} (item : Reader α) (c : Cursor) : Attempt :=
  match item.run c with
  | .ok _ d => ⟨c.ahead, d.ahead, none⟩
  | .error e d => ⟨c.ahead, d.ahead, some e⟩

def headerAttempts (c : Cursor) : List Attempt :=
  match Reader.headerKind?.run c with
  | .ok (some kind) d => [d.attempt (Reader.header kind)]
  | .ok none _ => []
  | .error e d => [⟨c.ahead, d.ahead, some e⟩]

def declarationAttempts : (bound : Nat) → Cursor → List Attempt
  | 0, _ => []
  | bound + 1, c =>
      if c.ahead.isEmpty then []
      else c.attempt Reader.declaration :: declarationAttempts bound c.readDeclaration.2

def partAttempts (declarations : Nat) : (bound : Nat) → Cursor → List Attempt
  | 0, c => c.declarationAttempts declarations
  | bound + 1, c =>
      let c := c.note (.keyword .import)
      if c.accepts (.keyword .import) then
        c.attempt Reader.importLine :: partAttempts declarations bound (c.read Reader.importLine).2
      else c.declarationAttempts declarations

end Cursor

def SourceFile.attempts (tokens : List Token) : List Attempt :=
  let c := Cursor.start tokens
  let bound := tokens.length + 1
  c.headerAttempts ++ c.readHeader.2.partAttempts bound bound

namespace Attempt

structure Sound (tokens : List Token) (a : Attempt) : Prop where
  start : a.start <:+ tokens
  stop : a.stop <:+ a.start
  points {e : SyntaxError} (h : a.error? = some e) {found : TokenKind}
    (he : e.cause.unexpected? = some found) :
    ∃ t ts, a.stop = t :: ts ∧ t.kind = found ∧ t.span = e.span

variable {ts us : List Token} {a : Attempt}

theorem Sound.mono (h : Sound us a) (hs : us <:+ ts) : Sound ts a :=
  ⟨h.start.trans hs, h.stop, h.points⟩

theorem filterMap_error?_cons (a : Attempt) (as : List Attempt) :
    (a :: as).filterMap error? = a.error?.toList ++ as.filterMap error? := by
  cases h : a.error? <;> simp [h]

end Attempt

namespace Cursor

open Reader

variable {α β : Type} {c : Cursor} {ts : List Token} {item : Reader α} {recover : Cursor → Cursor}

def resume (item : Reader α) (recover : Cursor → Cursor) (c : Cursor) : Cursor :=
  match item.run c with
  | .ok _ d => d
  | .error _ d => recover d

def recoverFrom (c d : Cursor) : Cursor :=
  (if d.ahead.length = c.ahead.length then d.advance else d).nextDeclaration

theorem read_eq_resume (item : Reader α) (c : Cursor) :
    (c.read item).2 = c.resume item nextDeclaration := by
  unfold read resume
  cases item.run c <;> rfl

theorem readDeclaration_eq_resume (c : Cursor) :
    c.readDeclaration.2 = c.resume declaration c.recoverFrom := by
  unfold readDeclaration resume
  cases declaration.run c <;> rfl

theorem recoverFrom_suffix (c d : Cursor) : (c.recoverFrom d).ahead <:+ d.ahead := by
  refine (nextDeclaration_suffix _).trans ?_
  split
  · rw [ahead_advance]
    exact List.tail_suffix _
  · exact List.suffix_rfl

theorem start_attempt (item : Reader α) (c : Cursor) : (c.attempt item).start = c.ahead := by
  unfold attempt
  cases item.run c <;> rfl

theorem stop_attempt_suffix (h : Leaves ts c item) : (c.attempt item).stop <:+ ts := by
  unfold Leaves at h
  unfold attempt
  cases hrun : item.run c with
  | ok a d =>
      rw [hrun] at h
      exact h
  | error e d =>
      rw [hrun] at h
      exact h

theorem resume_suffix (hr : ∀ d, (recover d).ahead <:+ d.ahead) (h : Leaves ts c item) :
    (c.resume item recover).ahead <:+ ts := by
  unfold Leaves at h
  unfold resume
  cases hrun : item.run c with
  | ok a d =>
      rw [hrun] at h
      exact h
  | error e d =>
      rw [hrun] at h
      exact (hr d).trans h

theorem read_suffix (h : Leaves ts c item) : (c.read item).2.ahead <:+ ts := by
  rw [read_eq_resume]
  exact resume_suffix nextDeclaration_suffix h

theorem sound_attempt (h : Stops item) (c : Cursor) : (c.attempt item).Sound c.ahead := by
  refine ⟨(start_attempt item c) ▸ List.suffix_rfl, ?_, fun {e} he found hf => ?_⟩
  · rw [start_attempt]
    exact stop_attempt_suffix (h.leaves c)
  · unfold attempt at he ⊢
    cases hrun : item.run c with
    | ok a d =>
        rw [hrun] at he
        cases he
    | error e d =>
        rw [hrun] at he
        cases he
        exact h.points hrun hf

section

instance : Inhabited Exchange := ⟨⟨⟨.word "", .empty, 1⟩, .word "", [], rfl⟩⟩

theorem stops_header (kind : ModuleKind) : Stops (header kind) :=
  (Exchange.tracks_header (x := default) kind).toStops

theorem stops_importLine : Stops importLine :=
  (Exchange.beginsWith_importLine (x := default)).tracks.toStops

theorem stops_declaration : Stops declaration := Exchange.stops_declaration default

end

theorem readDeclaration_suffix (c : Cursor) : c.readDeclaration.2.ahead <:+ c.ahead := by
  rw [readDeclaration_eq_resume]
  exact resume_suffix (recoverFrom_suffix c) (stops_declaration.leaves c)

theorem sound_declarationAttempts (n : Nat) (c : Cursor) :
    ∀ a ∈ c.declarationAttempts n, a.Sound c.ahead := by
  induction n generalizing c with
  | zero => exact List.forall_mem_nil _
  | succ n ih =>
      rw [declarationAttempts]
      split
      · exact List.forall_mem_nil _
      · refine List.forall_mem_cons.2 ⟨sound_attempt stops_declaration c, fun a ha => ?_⟩
        exact (ih _ a ha).mono (readDeclaration_suffix c)

theorem sound_partAttempts (m n : Nat) (c : Cursor) :
    ∀ a ∈ c.partAttempts m n, a.Sound c.ahead := by
  induction n generalizing c with
  | zero => exact sound_declarationAttempts m c
  | succ n ih =>
      rw [partAttempts, ← ahead_note (.keyword .import) c]
      split
      · refine List.forall_mem_cons.2 ⟨sound_attempt stops_importLine _, fun a ha => ?_⟩
        exact (ih _ a ha).mono (read_suffix (stops_importLine.leaves _))
      · exact sound_declarationAttempts m _

theorem problems_read (c : Cursor) (item : Reader α) :
    (c.read item).1.problems = (c.attempt item).error?.toList := by
  unfold attempt read
  cases item.run c <;> rfl

theorem problems_readDeclaration (c : Cursor) :
    c.readDeclaration.1.problems = (c.attempt declaration).error?.toList := by
  unfold attempt readDeclaration
  cases declaration.run c <;> rfl

theorem read_map (f : α → β) (item : Reader α) (c : Cursor) :
    (c.read (f <$> item)).1.problems = (c.read item).1.problems ∧
      (c.read (f <$> item)).2 = (c.read item).2 := by
  unfold read
  rw [map_eq_pure_bind, EStateM.run_bind]
  cases item.run c <;> exact ⟨rfl, rfl⟩

theorem problems_declarationAttempts (n : Nat) (c : Cursor) :
    (c.declarationAttempts n).filterMap Attempt.error? =
      (c.readDeclarations n).flatMap Validated.problems := by
  induction n generalizing c with
  | zero => rfl
  | succ n ih =>
      rw [declarationAttempts, readDeclarations]
      split
      · rfl
      · rw [Attempt.filterMap_error?_cons, ih, ← problems_readDeclaration]
        rfl

theorem problems_partAttempts (m n : Nat) (c : Cursor) :
    (c.partAttempts m n).filterMap Attempt.error? =
      (c.readImports n).1.flatMap Validated.problems ++
        ((c.readImports n).2.readDeclarations m).flatMap Validated.problems := by
  induction n generalizing c with
  | zero => exact problems_declarationAttempts m c
  | succ n ih =>
      simp only [partAttempts, readImports]
      split
      · rw [Attempt.filterMap_error?_cons, ih, ← problems_read, List.flatMap_cons,
          List.append_assoc]
      · exact problems_declarationAttempts m _

theorem headerAttempts_start (ts : List Token) : ∃ c : Cursor,
    c.ahead = ts ∧ c.last = .empty ∧
    match headerKindOf ts with
    | some kind =>
        (start ts).headerAttempts = [c.attempt (header kind)] ∧
          (start ts).readHeader.1.problems = (c.attempt (header kind)).error?.toList ∧
          (start ts).readHeader.2 = (c.read (header kind)).2
    | none => (start ts).headerAttempts = [] ∧ (start ts).readHeader = (.ok none, c) := by
  obtain ⟨expected, hlook⟩ := looks_headerKind? ts .empty []
  refine ⟨⟨ts, expected, .empty⟩, rfl, rfl, ?_⟩
  rw [headerAttempts, readHeader, start, hlook]
  cases headerKindOf ts with
  | none => exact ⟨rfl, rfl⟩
  | some kind =>
      obtain ⟨hproblems, hnext⟩ := read_map some (header kind) ⟨ts, expected, .empty⟩
      exact ⟨rfl, hproblems.trans (problems_read _ _), hnext⟩

end Cursor

namespace SourceFile

open Cursor Reader

theorem problems_ofTokens_eq (tokens : List Token) :
    let header := (Cursor.start tokens).readHeader
    let imports := header.2.readImports (tokens.length + 1)
    (ofTokens tokens).problems =
      header.1.problems ++ (imports.1.flatMap Validated.problems ++
        (imports.2.readDeclarations (tokens.length + 1)).flatMap Validated.problems) := by
  intro header imports
  cases h : ofTokens tokens with
  | error es => exact problems_ofTokens h
  | ok file =>
      rw [← Validated.problems_accumulate, ← Validated.problems_accumulate]
      simp only [ofTokens] at h
      split at h
      · rename_i hheader himports hdeclarations
        rw [himports, hdeclarations, show header.1 = _ from hheader]
        rfl
      · cases h

theorem problems_attempts (tokens : List Token) :
    (attempts tokens).filterMap Attempt.error? = (ofTokens tokens).problems := by
  obtain ⟨c, -, -, hstart⟩ := headerAttempts_start tokens
  rw [problems_ofTokens_eq, attempts, List.filterMap_append, problems_partAttempts]
  cases hk : headerKindOf tokens with
  | none =>
      rw [hk] at hstart
      obtain ⟨hattempts, hheader⟩ := hstart
      rw [hattempts, hheader]
      rfl
  | some kind =>
      rw [hk] at hstart
      obtain ⟨hattempts, hproblems, -⟩ := hstart
      rw [hattempts, hproblems, Attempt.filterMap_error?_cons, List.filterMap_nil, List.append_nil]

theorem attempts_eq (tokens : List Token) : ∃ c : Cursor, c.ahead = tokens ∧ c.last = .empty ∧
    attempts tokens =
      match headerKindOf tokens with
      | some kind =>
          c.attempt (Reader.header kind) ::
            (c.read (Reader.header kind)).2.partAttempts (tokens.length + 1) (tokens.length + 1)
      | none => c.partAttempts (tokens.length + 1) (tokens.length + 1) := by
  obtain ⟨c, hc, hlast, hstart⟩ := headerAttempts_start tokens
  refine ⟨c, hc, hlast, ?_⟩
  rw [attempts]
  cases hk : headerKindOf tokens with
  | none =>
      rw [hk] at hstart
      obtain ⟨hattempts, hheader⟩ := hstart
      rw [hattempts, hheader]
      rfl
  | some kind =>
      rw [hk] at hstart
      obtain ⟨hattempts, -, hnext⟩ := hstart
      rw [hattempts, hnext]
      rfl

theorem sound_attempts (tokens : List Token) : ∀ a ∈ attempts tokens, a.Sound tokens := by
  obtain ⟨c, hc, -, hattempts⟩ := attempts_eq tokens
  rw [hattempts]
  split
  · rename_i kind _
    rw [← hc]
    refine List.forall_mem_cons.2 ⟨sound_attempt (stops_header kind) c, fun a ha => ?_⟩
    exact (sound_partAttempts _ _ _ a ha).mono (read_suffix ((stops_header kind).leaves c))
  · rw [← hc]
    exact sound_partAttempts _ _ c

end SourceFile

end ElmTypes
