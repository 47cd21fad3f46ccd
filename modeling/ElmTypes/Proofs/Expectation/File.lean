import ElmTypes.Proofs.Expectation.Attempts

namespace ElmTypes

namespace Exchange

open Reader Cursor

section

variable {x : Exchange} {α : Type} {a a' : Attempt} {as as' : List Attempt}
  {c c' d d' : Cursor} {t : Token} {ts us : List Token} {r : Reader α} {g g' : Cursor → Cursor}

def Blamed (x : Exchange) (a : Attempt) : Prop :=
  a.stop = x.old :: x.rest ∧ ∃ e, a.error? = some e ∧ ¬ x.Misses e.cause

def Taken (x : Exchange) (a : Attempt) : Prop :=
  x.new :: x.rest <:+ a.start ∧ a.stop <:+ x.rest

def Refused (x : Exchange) (a : Attempt) : Prop :=
  a.error? ≠ none ∧ a.stop = x.new :: x.rest

/-- Whenever the old token is blamed in the first reading, the second takes the new one. -/
def Answers (x : Exchange) (as as' : List Attempt) : Prop :=
  (∃ a ∈ as, x.Blamed a) → (∃ a' ∈ as', x.Taken a') ∧ ∀ a' ∈ as', ¬ x.Refused a'

inductive Step (x : Exchange) (a a' : Attempt) (d d' : Cursor) : Prop where
  | pastOld (h : ¬ x.Blamed a) (hd : d.ahead <:+ x.old :: x.rest)
  | pastNew (h : x.Taken a') (hd : d'.ahead <:+ x.rest)
  | beside {ts : List Token} (h : ¬ x.Blamed a) (h' : ¬ x.Refused a') (hd : x.Beside ts d d')

theorem ne_of_suffix (h : us <:+ ts) : us ≠ t :: ts := by
  rintro rfl
  exact absurd h.length_le (Nat.not_succ_le_self _)

theorem not_blamed_of_suffix (h : a.stop <:+ x.rest) : ¬ x.Blamed a :=
  fun hb => ne_of_suffix h hb.1

theorem not_refused_of_suffix (h : a.stop <:+ x.rest) : ¬ x.Refused a :=
  fun hr => ne_of_suffix h hr.2

theorem not_refused_of_sound (h : ∀ a ∈ as, a.Sound ts) (hs : ts <:+ x.rest) :
    ∀ a ∈ as, ¬ x.Refused a :=
  fun a ha => not_refused_of_suffix (((h a ha).stop.trans (h a ha).start).trans hs)

theorem answers_of_not_blamed (h : ∀ a ∈ as, ¬ x.Blamed a) : x.Answers as as' :=
  fun ⟨a, ha, hb⟩ => absurd hb (h a ha)

theorem answers_of_taken (h : x.Taken a') (hs : ∀ b ∈ as', ¬ x.Refused b) :
    x.Answers as (a' :: as') :=
  fun _ => ⟨⟨a', List.mem_cons_self, h⟩, List.forall_mem_cons.2 ⟨not_refused_of_suffix h.2, hs⟩⟩

theorem Step.answers_cons (h : x.Step a a' d d')
    (hold : d.ahead <:+ x.old :: x.rest → ∀ b ∈ as, ¬ x.Blamed b)
    (hnew : d'.ahead <:+ x.rest → ∀ b ∈ as', ¬ x.Refused b)
    (hboth : ∀ ts, x.Beside ts d d' → x.Answers as as') : x.Answers (a :: as) (a' :: as') := by
  cases h with
  | pastOld h hd => exact answers_of_not_blamed (List.forall_mem_cons.2 ⟨h, hold hd⟩)
  | pastNew h hd => exact answers_of_taken h (hnew hd)
  | beside h h' hd =>
      rintro ⟨b, hb, hblamed⟩
      have htail : ∃ b ∈ as, x.Blamed b := by
        rcases List.mem_cons.1 hb with rfl | hb
        · exact absurd hblamed h
        · exact ⟨b, hb, hblamed⟩
      obtain ⟨⟨b', hb', htaken⟩, hrest⟩ := hboth _ hd htail
      exact ⟨⟨b', List.mem_cons_of_mem _ hb', htaken⟩, List.forall_mem_cons.2 ⟨h', hrest⟩⟩

structure Recovers (x : Exchange) (g g' : Cursor → Cursor) : Prop where
  old (d : Cursor) : (g d).ahead <:+ d.ahead
  new (d : Cursor) : (g' d).ahead <:+ d.ahead
  beside {ts : List Token} {d d' : Cursor} (h : x.Beside ts d d') :
    (g d).ahead <:+ x.old :: x.rest ∨ ∃ us, x.Beside us (g d) (g' d')

theorem Beside.suffix (h : x.Beside [] c c') : c.ahead <:+ x.old :: x.rest := by
  rw [h.old]
  exact List.suffix_rfl

theorem Beside.nextDeclaration (h : x.Beside ts c c') :
    c.nextDeclaration.ahead <:+ x.old :: x.rest ∨
      ∃ us, x.Beside us c.nextDeclaration c'.nextDeclaration := by
  induction ts generalizing c c' with
  | nil => exact .inl ((nextDeclaration_suffix c).trans h.suffix)
  | cons t ts ih =>
      obtain ⟨hhead, hhead'⟩ := h.head?_cons
      cases ht : t.startsDeclaration with
      | true =>
          refine .inr ⟨t :: ts, ?_⟩
          rw [Cursor.nextDeclaration, Cursor.nextDeclaration,
            advanceWhile_eq_self (by rw [hhead, Option.any_some, ht]; rfl),
            advanceWhile_eq_self (by rw [hhead', Option.any_some, ht]; rfl)]
          exact h
      | false =>
          have hnot : (!t.startsDeclaration) = true := by rw [ht]; rfl
          have hnext := advanceWhile_advance (p := fun t => !t.startsDeclaration) hhead hnot
          have hnext' := advanceWhile_advance (p := fun t => !t.startsDeclaration) hhead' hnot
          rw [Cursor.nextDeclaration, Cursor.nextDeclaration, ← hnext, ← hnext']
          exact ih h.advance

theorem recovers_nextDeclaration : x.Recovers nextDeclaration nextDeclaration :=
  ⟨nextDeclaration_suffix, nextDeclaration_suffix, Beside.nextDeclaration⟩

theorem Beside.recovers (h : x.Beside ts c c') : x.Recovers c.recoverFrom c'.recoverFrom := by
  refine ⟨recoverFrom_suffix c, recoverFrom_suffix c', fun {us d d'} hd => ?_⟩
  have hlength : (d'.ahead.length = c'.ahead.length) = (d.ahead.length = c.ahead.length) := by
    rw [h.length_eq, hd.length_eq]
  cases us with
  | nil => exact .inl ((recoverFrom_suffix c d).trans hd.suffix)
  | cons u us =>
      simp only [recoverFrom, hlength]
      split
      · exact hd.advance.nextDeclaration
      · exact hd.nextDeclaration

theorem Outcome.step (h : x.Outcome r c c') (hc : x.Beside ts c c') (hg : x.Recovers g g') :
    x.Step (c.attempt r) (c'.attempt r) (c.resume r g) (c'.resume r g') := by
  cases h with
  | takesOld h =>
      refine .pastOld (not_blamed_of_suffix (stop_attempt_suffix h)) ?_
      exact (resume_suffix hg.old h).trans (List.suffix_cons _ _)
  | takesNew h =>
      refine .pastNew ⟨?_, stop_attempt_suffix h⟩ (resume_suffix hg.new h)
      rw [start_attempt, hc.new]
      exact List.suffix_append _ _
  | @ok us b d d' h h' hd =>
      have hblamed : ¬ x.Blamed (c.attempt r) := by
        rintro ⟨-, e, he, -⟩
        simp [attempt, h] at he
      have hrefused : ¬ x.Refused (c'.attempt r) := by
        rintro ⟨he, -⟩
        simp [attempt, h'] at he
      have hnext : x.Beside us (c.resume r g) (c'.resume r g') := by
        rw [resume, resume, h, h']
        exact hd
      exact .beside hblamed hrefused hnext
  | @error us e e' d d' h h' hd he =>
      have hblamed : ¬ x.Blamed (c.attempt r) := by
        rintro ⟨hstop, f, hf, hm⟩
        simp only [attempt, h, Option.some.injEq] at hstop hf
        subst hf
        have hus : us = [] := by
          rw [hd.old] at hstop
          exact List.append_left_eq_self.1 hstop
        exact hm (he hus)
      have hnext : c.resume r g = g d := by rw [resume, h]
      have hnext' : c'.resume r g' = g' d' := by rw [resume, h']
      -- both may complain about the exchanged token, which is passed over then
      cases us with
      | nil =>
          refine .pastOld hblamed ?_
          rw [hnext]
          exact (hg.old d).trans hd.suffix
      | cons u us =>
          have hrefused : ¬ x.Refused (c'.attempt r) := by
            rintro ⟨-, hstop⟩
            simp only [attempt, h', hd.new] at hstop
            exact absurd (List.append_left_eq_self.1 hstop) (List.cons_ne_nil u us)
          rw [hnext, hnext']
          rcases hg.beside hd with hpast | ⟨vs, hbeside⟩
          · exact .pastOld hblamed hpast
          · exact .beside hblamed hrefused hbeside

theorem not_blamed_declarationAttempts (n : Nat) (hc : c.ahead <:+ x.old :: x.rest) :
    ∀ a ∈ c.declarationAttempts n, ¬ x.Blamed a := by
  induction n generalizing c with
  | zero => exact List.forall_mem_nil _
  | succ n ih =>
      rw [declarationAttempts]
      split
      · exact List.forall_mem_nil _
      · refine List.forall_mem_cons.2 ⟨?_, ih ((readDeclaration_suffix c).trans hc)⟩
        rcases List.suffix_cons_iff.1 hc with hc | hc
        -- no declaration begins with the exchanged token, which is indented
        · rintro ⟨-, e, he, hm⟩
          simp only [attempt, run_declaration_indented hc x.indented, Option.some.injEq] at he
          subst he
          exact hm (x.misses_indented x.old.kind)
        · have hstop := stop_attempt_suffix (Cursor.stops_declaration.leaves c)
          exact not_blamed_of_suffix (hstop.trans hc)

theorem not_blamed_partAttempts (m n : Nat) (hc : c.ahead <:+ x.old :: x.rest) :
    ∀ a ∈ c.partAttempts m n, ¬ x.Blamed a := by
  induction n generalizing c with
  | zero => exact not_blamed_declarationAttempts m hc
  | succ n ih =>
      rw [← ahead_note (.keyword .import) c] at hc
      rw [partAttempts]
      split
      · rename_i haccepts
        have hleaves : Leaves x.rest (c.note (.keyword .import)) importLine := by
          rcases List.suffix_cons_iff.1 hc with hc | hc
          · refine leaves_importLine hc ?_
            rwa [accepts, hc, List.head?_cons, Option.any_some] at haccepts
          · exact leaves_of_suffix (stops_importLine.leaves _) hc
        refine List.forall_mem_cons.2 ⟨not_blamed_of_suffix (stop_attempt_suffix hleaves), ih ?_⟩
        exact (read_suffix hleaves).trans (List.suffix_cons _ _)
      · exact not_blamed_declarationAttempts m hc

theorem answers_declarationAttempts (n : Nat) (h : x.Beside ts c c') :
    x.Answers (c.declarationAttempts n) (c'.declarationAttempts n) := by
  induction n generalizing ts c c' with
  | zero => exact answers_of_not_blamed (List.forall_mem_nil _)
  | succ n ih =>
      cases ts with
      | nil => exact answers_of_not_blamed (not_blamed_declarationAttempts (n + 1) h.suffix)
      | cons t ts =>
          have hstep := (x.follows_declaration.outcome h).step h h.recovers
          rw [← readDeclaration_eq_resume, ← readDeclaration_eq_resume] at hstep
          rw [declarationAttempts, declarationAttempts, if_neg (by simp [h.old]),
            if_neg (by simp [h.new])]
          refine hstep.answers_cons (not_blamed_declarationAttempts n) ?_ fun us hd => ih hd
          exact not_refused_of_sound (sound_declarationAttempts n _)

theorem answers_partAttempts (m n : Nat) (h : x.Beside ts c c') :
    x.Answers (c.partAttempts m n) (c'.partAttempts m n) := by
  induction n generalizing ts c c' with
  | zero => exact answers_declarationAttempts m h
  | succ n ih =>
      cases ts with
      | nil => exact answers_of_not_blamed (not_blamed_partAttempts m (n + 1) h.suffix)
      | cons t ts =>
          have hnote := h.note_cons (.keyword .import)
          obtain ⟨hold, hnew⟩ := hnote.accepts_cons (.keyword .import)
          simp only [partAttempts, hold, hnew]
          split
          · have hstep := (x.beginsWith_importLine.tracks.outcome hnote).step hnote
              recovers_nextDeclaration
            rw [← read_eq_resume, ← read_eq_resume] at hstep
            refine hstep.answers_cons (not_blamed_partAttempts m n) ?_ fun us hd => ih hd
            exact not_refused_of_sound (sound_partAttempts m n _)
          · exact answers_declarationAttempts m hnote

theorem headerKindOf_ne (h : headerKindOf (t :: ts ++ x.new :: x.rest) ≠
    headerKindOf (t :: ts ++ x.old :: x.rest)) :
    ts = [] ∧ (Expected.keyword .module).accepts t.kind = false := by
  cases ts with
  | cons u ts => exact absurd rfl h
  | nil =>
      -- the second word is looked at only if the first does not tell
      refine ⟨rfl, Bool.eq_false_iff.2 fun hm => h ?_⟩
      simp [headerKindOf, begins, hm]

theorem leaves_header_of_second {u : Token} {kind : ModuleKind} (x : Exchange)
    (hc : c.ahead = t :: u :: ts) (hu : u.startsDeclaration = false)
    (hm : (Expected.keyword .module).accepts t.kind = false)
    (hk : headerKindOf (t :: u :: ts) = some kind) : Leaves ts c (header kind) := by
  have hmodule : (Expected.keyword .module).accepts u.kind = true := by
    by_contra hmodule
    simp [headerKindOf, headerKindSecond, begins, hm, hmodule] at hk
  refine x.leaves_header_second hc hu hmodule ?_
  rintro rfl
  obtain ⟨v, vs, hv, hword⟩ := keyword?_of_headerKindOf hk
  obtain ⟨rfl, -⟩ := List.cons.inj hv
  have hfirst : (Expected.keyword .module).accepts t.kind = true :=
    Expected.accepts_keyword_iff.2 hword
  rw [hfirst] at hm
  cases hm

theorem not_blamed_attempts_cons {kind : ModuleKind} (m n : Nat)
    (h : Leaves x.rest c (header kind)) :
    ∀ a ∈ c.attempt (header kind) :: (c.read (header kind)).2.partAttempts m n, ¬ x.Blamed a := by
  refine List.forall_mem_cons.2 ⟨not_blamed_of_suffix (stop_attempt_suffix h), ?_⟩
  exact not_blamed_partAttempts m n ((read_suffix h).trans (List.suffix_cons _ _))

theorem not_blamed_attempts (x : Exchange) :
    ∀ a ∈ SourceFile.attempts (x.old :: x.rest), ¬ x.Blamed a := by
  obtain ⟨c, hc, -, hattempts⟩ := SourceFile.attempts_eq (x.old :: x.rest)
  rw [hattempts]
  split
  · rename_i kind hk
    obtain ⟨t, ts, hts, hword⟩ := keyword?_of_headerKindOf hk
    obtain ⟨rfl, rfl⟩ := List.cons.inj hts
    exact not_blamed_attempts_cons _ _ (leaves_header hc hword)
  · exact not_blamed_partAttempts _ _ (hc ▸ List.suffix_rfl)

theorem answers_attempts (x : Exchange) (ts : List Token) :
    x.Answers (SourceFile.attempts (ts ++ x.old :: x.rest))
      (SourceFile.attempts (ts ++ x.new :: x.rest)) := by
  cases ts with
  | nil => exact answers_of_not_blamed x.not_blamed_attempts
  | cons t ts =>
      obtain ⟨c, hc, hlast, hold⟩ := SourceFile.attempts_eq (t :: ts ++ x.old :: x.rest)
      obtain ⟨c', hc', hlast', hnew⟩ := SourceFile.attempts_eq (t :: ts ++ x.new :: x.rest)
      have hlength : (t :: ts ++ x.new :: x.rest).length = (t :: ts ++ x.old :: x.rest).length := by
        simp
      have hbeside : x.Beside (t :: ts) c c' :=
        ⟨hc, hc', hlast'.trans hlast.symm, fun hts => absurd hts (List.cons_ne_nil t ts)⟩
      rw [hlength] at hnew
      rw [hold, hnew]
      by_cases hkind : headerKindOf (t :: ts ++ x.new :: x.rest) =
          headerKindOf (t :: ts ++ x.old :: x.rest)
      · rw [hkind]
        split
        · rename_i kind _
          have hstep := ((tracks_header kind).outcome hbeside).step hbeside recovers_nextDeclaration
          rw [← read_eq_resume, ← read_eq_resume] at hstep
          refine hstep.answers_cons (not_blamed_partAttempts _ _) ?_
            fun us hd => answers_partAttempts _ _ hd
          exact not_refused_of_sound (sound_partAttempts _ _ _)
        · exact answers_partAttempts _ _ hbeside
      · -- the exchanged token is the second word of a header in one of the two readings only
        obtain ⟨rfl, hm⟩ := headerKindOf_ne hkind
        cases hk : headerKindOf ([t] ++ x.old :: x.rest) with
        | some kind =>
            have hleaves := x.leaves_header_of_second hc x.indented hm hk
            exact answers_of_not_blamed (not_blamed_attempts_cons _ _ hleaves)
        | none =>
            cases hk' : headerKindOf ([t] ++ x.new :: x.rest) with
            | none => exact absurd (hk'.trans hk.symm) hkind
            | some kind =>
                have hleaves := x.leaves_header_of_second hc' x.new_startsDeclaration hm hk'
                refine answers_of_taken ⟨?_, stop_attempt_suffix hleaves⟩ ?_
                · rw [start_attempt, hc']
                  exact List.suffix_append _ _
                · exact not_refused_of_sound (sound_partAttempts _ _ _) (read_suffix hleaves)

end

end Exchange

namespace SourceFile

theorem expected_tokens_are_taken (tokens : List Token) :
    (attempts tokens).filterMap Attempt.error? = (ofTokens tokens).problems ∧
      ∀ a ∈ attempts tokens, ∀ e, a.error? = some e → ∀ found, e.cause.unexpected? = some found →
        ∃ before t after, tokens = before ++ t :: after ∧ a.stop = t :: after ∧
          t.kind = found ∧ t.span = e.span ∧
          ∀ es, e.cause = .unexpectedToken found es → t.column ≠ 0 →
            ∀ item ∈ es, ∀ kind, item.accepts kind = true →
              let t' := { t with kind := kind }
              (∃ b ∈ attempts (before ++ t' :: after), t' :: after <:+ b.start ∧ b.stop <:+ after) ∧
                ∀ b ∈ attempts (before ++ t' :: after), b.error? ≠ none → b.stop ≠ t' :: after := by
  refine ⟨problems_attempts tokens, fun a ha e he found hfound => ?_⟩
  have hsound := sound_attempts tokens a ha
  obtain ⟨t, after, hstop, hkind, hspan⟩ := hsound.points he hfound
  obtain ⟨before, rfl⟩ : ∃ before, tokens = before ++ t :: after := by
    obtain ⟨before, hbefore⟩ := hsound.stop.trans hsound.start
    exact ⟨before, by rw [← hbefore, hstop]⟩
  refine ⟨before, t, after, rfl, hstop, hkind, hspan, fun es hes ht item hitem kind hk => ?_⟩
  let x : Exchange := ⟨t, kind, after, beq_eq_false_iff_ne.2 ht⟩
  have hblamed : x.Blamed a := by
    refine ⟨hstop, e, he, fun hm => ?_⟩
    rw [hm found es hes item hitem] at hk
    cases hk
  obtain ⟨htaken, hrefused⟩ := x.answers_attempts before ⟨a, ha, hblamed⟩
  exact ⟨htaken, fun b hb hne hb' => hrefused b hb ⟨hne, hb'⟩⟩

theorem expected_tokens_are_taken_number :
    let before : List Token := [⟨.word "type", ⟨0, 4⟩, 0⟩, ⟨.word "alias", ⟨5, 5⟩, 5⟩,
      ⟨.word "A", ⟨11, 1⟩, 11⟩, ⟨.symbol .equals, ⟨13, 1⟩, 13⟩]
    let t : Token := ⟨.integer 1, ⟨15, 1⟩, 15⟩
    let t' : Token := ⟨.word "Int", ⟨15, 1⟩, 15⟩
    let e : SyntaxError := ⟨.unexpectedToken (.integer 1)
      [.capitalisedName, .lowercaseName, .opening .round, .opening .brace, .typeExpr], ⟨15, 1⟩⟩
    SourceFile.attempts (before ++ [t]) = [⟨before ++ [t], [t], some e⟩] ∧
      (∃ b ∈ attempts (before ++ [t']), [t'] <:+ b.start ∧ b.stop <:+ []) ∧
      ∀ b ∈ attempts (before ++ [t']), b.error? ≠ none → b.stop ≠ [t'] := by
  intro before t t' e
  have hattempts : attempts (before ++ [t]) = [⟨before ++ [t], [t], some e⟩] := by
    simp only [before, t, e]
    rfl
  refine ⟨hattempts, ?_⟩
  obtain ⟨before', u, after, htokens, hstop, -, -, h⟩ :=
    (expected_tokens_are_taken (before ++ [t])).2 _ (hattempts ▸ List.mem_singleton_self _) e rfl
      (.integer 1) rfl
  obtain ⟨rfl, rfl⟩ := List.cons.inj hstop
  obtain rfl := List.append_cancel_right htokens
  exact h _ rfl (by decide) .capitalisedName List.mem_cons_self (.word "Int") (by decide)

end SourceFile

end ElmTypes
