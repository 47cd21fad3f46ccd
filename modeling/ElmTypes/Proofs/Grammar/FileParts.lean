import ElmTypes.Proofs.Grammar.File

namespace ElmTypes

open Reader

namespace Cursor

inductive ReadsDeclarations : Cursor → List Declaration → Prop where
  | nil {c : Cursor} (h : c.ahead = []) : ReadsDeclarations c []
  | cons {c c' : Cursor} {d : Declaration} {ds : List Declaration}
      (hd : declaration.run c = .ok d c') (h : ReadsDeclarations c' ds) :
      ReadsDeclarations c (d :: ds)

inductive ReadsImports : Cursor → List Import → Cursor → Prop where
  | nil {c : Cursor} (h : c.accepts (.keyword .import) = false) :
      ReadsImports c [] (c.note (.keyword .import))
  | cons {c c' d : Cursor} {i : Import} {is : List Import}
      (ha : c.accepts (.keyword .import) = true)
      (hi : importLine.run (c.note (.keyword .import)) = .ok i c') (h : ReadsImports c' is d) :
      ReadsImports c (i :: is) d

variable {c c' d : Cursor} {n : Nat}

theorem takes_of_run_declaration {a : Declaration} (h : declaration.run c = .ok a c') :
    ∃ ts, c.Takes ts c' ∧ DerivesDeclaration ts a :=
  reads_declaration.of_run_eq_ok h

theorem length_lt_of_run_declaration {a : Declaration} (h : declaration.run c = .ok a c') :
    c'.ahead.length < c.ahead.length := by
  obtain ⟨ts, hts, ha⟩ := takes_of_run_declaration h
  have hpos := List.length_pos_iff.2 ha.declared.ne_nil
  rw [hts.ahead, List.length_append]
  omega

theorem length_lt_of_run_importLine {i : Import} (h : importLine.run c = .ok i c') :
    c'.ahead.length < c.ahead.length := by
  obtain ⟨ts, hts, hi⟩ := reads_importLine.of_run_eq_ok h
  have hpos := List.length_pos_iff.2 hi.ne_nil
  rw [hts.ahead, List.length_append]
  omega

theorem isEmpty_eq_false_of_length_lt (h : c'.ahead.length < c.ahead.length) :
    ¬ c.ahead.isEmpty = true := by
  intro hc
  rw [List.isEmpty_iff.1 hc] at h
  exact Nat.not_lt_zero _ h

theorem readDeclarations_eq_ok_iff {ds : List Declaration} (hn : c.ahead.length < n) :
    Validated.accumulate (c.readDeclarations n) = .ok ds ↔ c.ReadsDeclarations ds := by
  constructor
  · intro h
    induction n generalizing c ds with
    | zero => exact absurd hn (Nat.not_lt_zero _)
    | succ n ih =>
        rw [readDeclarations] at h
        split at h
        · rename_i hc
          obtain rfl := Except.ok.inj h
          exact .nil (List.isEmpty_iff.1 hc)
        · rw [readDeclaration] at h
          cases hrun : declaration.run c with
          | ok a c' =>
              rw [hrun] at h
              obtain ⟨ds, rfl, hds⟩ := Validated.accumulate_ok_cons_eq_ok_iff.1 h
              have hlength := length_lt_of_run_declaration hrun
              exact .cons hrun (ih (by omega) hds)
          | error e c' =>
              rw [hrun] at h
              cases h
  · intro h
    induction h generalizing n with
    | @nil c hc =>
        cases n with
        | zero => exact absurd hn (Nat.not_lt_zero _)
        | succ n =>
            rw [readDeclarations, hc]
            rfl
    | @cons c c' a ds hrun _ ih =>
        obtain ⟨n, rfl⟩ := Nat.exists_eq_add_one_of_ne_zero (Nat.ne_zero_of_lt hn)
        have hlength := length_lt_of_run_declaration hrun
        rw [readDeclarations, if_neg (isEmpty_eq_false_of_length_lt hlength), readDeclaration, hrun]
        exact Validated.accumulate_ok_cons_eq_ok_iff.2 ⟨ds, rfl, ih (by omega)⟩

theorem readImports_eq_ok_iff {is : List Import} (hn : c.ahead.length < n) :
    (Validated.accumulate (c.readImports n).1 = .ok is ∧ (c.readImports n).2 = d) ↔
      c.ReadsImports is d := by
  constructor
  · rintro ⟨h, rfl⟩
    induction n generalizing c is with
    | zero => exact absurd hn (Nat.not_lt_zero _)
    | succ n ih =>
        simp only [readImports, accepts_note] at h ⊢
        cases ha : c.accepts (.keyword .import) with
        | false =>
            rw [ha] at h
            obtain rfl := Except.ok.inj h
            exact .nil ha
        | true =>
            rw [ha] at h
            simp only [if_true, read] at h ⊢
            cases hrun : importLine.run (c.note (.keyword .import)) with
            | ok i c' =>
                rw [hrun] at h
                obtain ⟨is, rfl, his⟩ := Validated.accumulate_ok_cons_eq_ok_iff.1 h
                have hlength := length_lt_of_run_importLine hrun
                rw [ahead_note] at hlength
                exact .cons ha hrun (ih (by omega) his)
            | error e c' =>
                rw [hrun] at h
                cases h
  · intro h
    induction h generalizing n with
    | @nil c ha =>
        obtain ⟨n, rfl⟩ := Nat.exists_eq_add_one_of_ne_zero (Nat.ne_zero_of_lt hn)
        simp [readImports, accepts_note, ha]
    | @cons c c' d i is ha hrun _ ih =>
        obtain ⟨n, rfl⟩ := Nat.exists_eq_add_one_of_ne_zero (Nat.ne_zero_of_lt hn)
        have hlength := length_lt_of_run_importLine hrun
        rw [ahead_note] at hlength
        obtain ⟨his, hd⟩ := @ih n (by omega)
        simp only [readImports, accepts_note, ha, if_true, read, hrun]
        exact ⟨Validated.accumulate_ok_cons_eq_ok_iff.2 ⟨is, rfl, his⟩, hd⟩

theorem ReadsDeclarations.exists_run_of_mem {ds : List Declaration} (h : c.ReadsDeclarations ds)
    {a : Declaration} (ha : a ∈ ds) :
    ∃ c' d, c'.ahead <:+ c.ahead ∧ declaration.run c' = .ok a d := by
  induction h with
  | nil => cases ha
  | @cons c d a' ds hrun _ ih =>
      rcases List.mem_cons.1 ha with rfl | ha
      · exact ⟨c, d, List.suffix_rfl, hrun⟩
      · obtain ⟨c', d', hc', hrun'⟩ := ih ha
        obtain ⟨ts, hts, -⟩ := takes_of_run_declaration hrun
        exact ⟨c', d', hc'.trans ⟨ts, hts.ahead.symm⟩, hrun'⟩

end Cursor

theorem SourceFile.ofTokens_eq_ok_iff {tokens : List Token} {file : SourceFile} :
    SourceFile.ofTokens tokens = .ok file ↔
      ∃ c d, (Cursor.start tokens).readHeader = (.ok file.header, c) ∧
        c.ReadsImports file.imports d ∧ d.ReadsDeclarations file.declarations := by
  have hc := (Cursor.sound_readHeader (c := .start tokens) (List.suffix_refl tokens)).2
  unfold SourceFile.ofTokens
  generalize (Cursor.start tokens).readHeader = header at hc ⊢
  obtain ⟨header, c⟩ := header
  have hd := (Cursor.sound_readImports (tokens.length + 1) hc).2
  have hcn : c.ahead.length < tokens.length + 1 := Nat.lt_succ_of_le hc.length_le
  have hdn := Nat.lt_succ_of_le hd.length_le
  simp only
  constructor
  · intro h
    split at h
    · rename_i hi hds
      obtain rfl := Except.ok.inj h
      exact ⟨c, _, rfl, (Cursor.readImports_eq_ok_iff hcn).1 ⟨hi, rfl⟩,
        (Cursor.readDeclarations_eq_ok_iff hdn).1 hds⟩
    · cases h
  · rintro ⟨c', d, hheader, himports, hds⟩
    obtain ⟨rfl, rfl⟩ := Prod.mk.inj hheader
    obtain ⟨hi, rfl⟩ := (Cursor.readImports_eq_ok_iff hcn).2 himports
    simp only [hi, (Cursor.readDeclarations_eq_ok_iff hdn).2 hds]

theorem SourceFile.exists_readsDeclarations {tokens : List Token} {file : SourceFile}
    (h : SourceFile.ofTokens tokens = .ok file) :
    ∃ c : Cursor, c.ahead <:+ tokens ∧ c.ReadsDeclarations file.declarations := by
  obtain ⟨c, d, hheader, himports, hds⟩ := SourceFile.ofTokens_eq_ok_iff.1 h
  have hc := (Cursor.sound_readHeader (c := .start tokens) (List.suffix_refl tokens)).2
  rw [hheader] at hc
  have hd := (Cursor.sound_readImports (tokens.length + 1) hc).2
  rw [((Cursor.readImports_eq_ok_iff (Nat.lt_succ_of_le hc.length_le)).2 himports).2] at hd
  exact ⟨d, hd, hds⟩

end ElmTypes
