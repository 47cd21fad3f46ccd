import ElmTypes.Proofs.Comparison.Opening
import ElmTypes.Proofs.Validation.Accumulation

namespace ElmTypes

inductive Agrees {ε α : Type} (E : ε → ε → Prop) (V : α → α → Prop) :
    Except ε α → Except ε α → Prop where
  | ok {a a' : α} (h : V a a') : Agrees E V (.ok a) (.ok a')
  | error {e e' : ε} (h : E e e') : Agrees E V (.error e) (.error e')

namespace Agrees

variable {ε α β : Type} {E : ε → ε → Prop} {V : α → α → Prop} {W : β → β → Prop}

theorem map {r r' : Except ε α} {f f' : α → β} (h : Agrees E V r r')
    (hf : ∀ a a', V a a' → W (f a) (f' a')) : Agrees E W (r.map f) (r'.map f') := by
  cases h with
  | ok hv => exact .ok (hf _ _ hv)
  | error he => exact .error he

theorem problems {r r' : Validated ε α} (h : Agrees (List.Forall₂ E) V r r') :
    List.Forall₂ E r.problems r'.problems := by
  cases h with
  | ok _ => exact .nil
  | error he => exact he

theorem cons {r r' : Validated ε α} {rs rs' : Validated ε (List α)}
    (h : Agrees (List.Forall₂ E) V r r') (hs : Agrees (List.Forall₂ E) (List.Forall₂ V) rs rs') :
    Agrees (List.Forall₂ E) (List.Forall₂ V) (Validated.cons r rs) (Validated.cons r' rs') := by
  cases h with
  | ok hv =>
      cases hs with
      | ok hvs => exact .ok (.cons hv hvs)
      | error hes => exact .error hes
  | error he =>
      cases he with
      | nil => exact hs
      | cons he hes => exact .error (.cons he (List.rel_append hes hs.problems))

theorem accumulate {rs rs' : List (Validated ε α)}
    (h : List.Forall₂ (Agrees (List.Forall₂ E) V) rs rs') :
    Agrees (List.Forall₂ E) (List.Forall₂ V) (Validated.accumulate rs)
      (Validated.accumulate rs') := by
  induction h with
  | nil => exact .ok .nil
  | cons h _ ih => exact h.cons ih

end Agrees

structure SyntaxError.Alike (S : Span → Span → Prop) (e e' : SyntaxError) : Prop where
  cause : e.cause = e'.cause
  span : S e.span e'.span

namespace Pairing

open Reader Cursor

structure Abreast (p : Pairing) (c c' : Cursor) : Prop where
  beside : p.Beside c c'
  level : p.Level c

inductive Settles (p : Pairing) {α : Type} (V : α → α → Prop) :
    EStateM.Result SyntaxError Cursor α → EStateM.Result SyntaxError Cursor α → Prop where
  | ok {a a' : α} {d d' : Cursor} (hv : V a a') (hd : p.Abreast d d') :
      Settles p V (.ok a d) (.ok a' d')
  | error {e e' : SyntaxError} {d d' : Cursor} (he : e.Alike p.same e') (hd : p.Abreast d d') :
      Settles p V (.error e d) (.error e' d')

section

variable {p : Pairing} {α : Type} {r : Reader α} {R : List Token → α → Prop} {V : α → α → Prop}
  {c c' d : Cursor}

theorem length_le_of_run_error {x : SyntaxError} (hr : Reads r R) (h : r.run c = .error x d) :
    d.ahead.length ≤ c.ahead.length := by
  obtain ⟨ts, hts, -⟩ : ∃ ts, c.Takes ts d ∧ c.Blames ts d x := by simpa [h] using hr c
  rw [hts.ahead, List.length_append]
  exact Nat.le_add_left _ _

theorem Even.settles (hp : p.Even) {Q : α → Cursor → Prop} (hr : Reads r R)
    (hq : ∀ a d, Q a d → p.Level d) (hc : p.Level c)
    (h : p.Outcome V Q (r.run c) (r.run c')) : p.Settles V (r.run c) (r.run c') := by
  generalize hx : r.run c = x at h
  generalize r.run c' = x' at h
  cases h with
  | ok hv hd hq' => exact .ok hv ⟨hd, hq _ _ hq'⟩
  | overrun ht _ =>
      rw [hp.rest] at ht
      cases ht
  | @error _ _ d _ he hd =>
      have hlevel : p.Level d := Nat.lt_of_le_of_lt (length_le_of_run_error hr hx) hc
      cases he with
      | same hcause _ hs => exact .error ⟨hcause hlevel, hs⟩ ⟨hd, hlevel⟩
      | cutOff _ ht _ =>
          rw [hp.rest] at ht
          cases ht

theorem Parallel.settles (h : p.Parallel r V) (hp : p.Even) (hr : Reads r R)
    (hc : p.Abreast c c') : p.Settles V (r.run c) (r.run c') :=
  hp.settles hr (fun _ _ hd => hd) hc.level (h c c' hc.beside hc.level)

theorem Abreast.note (h : p.Abreast c c') (e : Expected) : p.Abreast (c.note e) (c'.note e) :=
  ⟨h.beside.note e, h.level.note e⟩

theorem Abreast.nextDeclaration (h : p.Abreast c c') :
    p.Abreast c.nextDeclaration c'.nextDeclaration := by
  refine ⟨h.beside.advanceWhile respects_nextDeclaration, ?_⟩
  exact Nat.lt_of_le_of_lt (nextDeclaration_suffix c).length_le h.level

def Resumes (p : Pairing) (V : α → α → Prop) (x x' : Cursor.Outcome α × Cursor) : Prop :=
  Agrees (List.Forall₂ (SyntaxError.Alike p.same)) V x.1 x'.1 ∧ p.Abreast x.2 x'.2

theorem Parallel.read (h : p.Parallel r V) (hp : p.Even) (hr : Reads r R) (hc : p.Abreast c c') :
    p.Resumes V (c.read r) (c'.read r) := by
  have hrun := h.settles hp hr hc
  unfold Cursor.read
  generalize r.run c = x, r.run c' = x' at hrun
  cases hrun with
  | ok hv hd => exact ⟨.ok hv, hd⟩
  | error he hd => exact ⟨.error (.cons he .nil), hd.nextDeclaration⟩

end

namespace Even

variable {p : Pairing} (hp : p.Even) {c c' : Cursor}

include hp

theorem readHeader (h : p.Abreast c c') :
    p.Resumes (Option.Rel (Header.Alike p.same)) c.readHeader c'.readHeader := by
  have hkind := hp.parallel_headerKind? c c' h.beside h.level
  obtain ⟨kind?, d, hrun, -⟩ := peeks_headerKind? c
  unfold Cursor.readHeader
  rw [hrun] at hkind ⊢
  generalize headerKind?.run c' = x' at hkind
  cases hkind with
  | ok hv hd hl =>
      obtain rfl := hv
      cases kind? with
      | none => exact ⟨.ok .none, hd, hl⟩
      | some kind =>
          have hheader : p.Parallel (some <$> header kind) (Option.Rel (Header.Alike p.same)) := by
            rw [map_eq_pure_bind]
            refine (hp.parallel_header kind).bind fun a a' ha => ?_
            exact .pure (.some ha) fun _ hc => hc
          exact hheader.read hp ((reads_header kind).map some) ⟨hd, hl⟩

theorem readImports (n : Nat) (h : p.Abreast c c') :
    List.Forall₂ (Agrees (List.Forall₂ (SyntaxError.Alike p.same)) (Import.Alike p.same))
        (c.readImports n).1 (c'.readImports n).1 ∧
      p.Abreast (c.readImports n).2 (c'.readImports n).2 := by
  induction n generalizing c c' with
  | zero => exact ⟨.nil, h⟩
  | succ n ih =>
      have hnote := h.note (.keyword .import)
      simp only [Cursor.readImports, hp.accepts hnote.beside]
      split
      · obtain ⟨hi, hd⟩ := hp.parallel_importLine.read hp reads_importLine hnote
        obtain ⟨his, hds⟩ := ih hd
        exact ⟨.cons hi his, hds⟩
      · exact ⟨.nil, hnote⟩

theorem readDeclaration (h : p.Abreast c c') (hc : c.ahead ≠ []) :
    p.Resumes (Declaration.Alike p.same) c.readDeclaration c'.readDeclaration := by
  have hopen : c.Open p.fresh := ⟨hc, Nat.le_of_lt h.level⟩
  have hrun := hp.settles reads_declaration (fun _ _ hd => hd.length) h.level
    (relates_declaration (Nat.le_refl _) c c' h.beside hopen)
  have hlength := hp.length_eq h.beside
  unfold Cursor.readDeclaration
  generalize declaration.run c = x, declaration.run c' = x' at hrun
  cases hrun with
  | ok hv hd => exact ⟨.ok hv, hd⟩
  | error he hd =>
      refine ⟨.error (.cons he .nil), Abreast.nextDeclaration ?_⟩
      rw [hlength, hp.length_eq hd.beside]
      split
      · exact ⟨hp.beside_advance hd.beside, hd.level.advance⟩
      · exact hd

theorem readDeclarations (n : Nat) (h : p.Abreast c c') :
    List.Forall₂ (Agrees (List.Forall₂ (SyntaxError.Alike p.same)) (Declaration.Alike p.same))
      (c.readDeclarations n) (c'.readDeclarations n) := by
  induction n generalizing c c' with
  | zero => exact .nil
  | succ n ih =>
      simp only [Cursor.readDeclarations]
      by_cases hc : c.ahead = []
      · rw [hc, hp.nil h.beside hc]
        exact .nil
      · have hc' : c'.ahead ≠ [] := by
          rw [← List.length_pos_iff, hp.length_eq h.beside]
          exact List.length_pos_iff.2 hc
        rw [if_neg (by simpa using hc), if_neg (by simpa using hc')]
        obtain ⟨hd, hnext⟩ := hp.readDeclaration h hc
        exact .cons hd (ih hnext)

theorem ofTokens {ts ts' : List Token} (hlength : ts'.length = ts.length)
    (h : p.Abreast (.start ts) (.start ts')) :
    Agrees (List.Forall₂ (SyntaxError.Alike p.same)) (SourceFile.Alike p.same)
      (SourceFile.ofTokens ts) (SourceFile.ofTokens ts') := by
  have hreadHeader := hp.readHeader h
  unfold SourceFile.ofTokens
  rw [hlength]
  generalize (Cursor.start ts).readHeader = x, (Cursor.start ts').readHeader = x' at hreadHeader
  obtain ⟨header, c⟩ := x
  obtain ⟨header', c'⟩ := x'
  obtain ⟨hheader, hc⟩ : Agrees (List.Forall₂ (SyntaxError.Alike p.same))
      (Option.Rel (Header.Alike p.same)) header header' ∧ p.Abreast c c' := hreadHeader
  obtain ⟨hi, hd⟩ := hp.readImports (ts.length + 1) hc
  have himports := Agrees.accumulate hi
  have hds := Agrees.accumulate (hp.readDeclarations (ts.length + 1) hd)
  have hproblems := List.rel_append (List.rel_append hheader.problems himports.problems) hds.problems
  simp only
  generalize Validated.accumulate (c.readImports _).1 = imports,
    Validated.accumulate (c'.readImports _).1 = imports' at himports hproblems ⊢
  generalize Validated.accumulate ((c.readImports _).2.readDeclarations _) = ds,
    Validated.accumulate ((c'.readImports _).2.readDeclarations _) = ds' at hds hproblems ⊢
  cases hheader with
  | error _ => exact .error hproblems
  | ok hheader =>
  cases himports with
  | error _ => exact .error hproblems
  | ok himports =>
  cases hds with
  | error _ => exact .error hproblems
  | ok hds => exact .ok ⟨hheader, himports, hds⟩

end Even

end Pairing

end ElmTypes
