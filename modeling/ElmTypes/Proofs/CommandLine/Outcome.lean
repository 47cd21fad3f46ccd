import ElmTypes.CommandLine.Run
import ElmTypes.Proofs.CommandLine.Arguments

namespace ElmTypes.CommandLine

def HasText (files : Files) (file source : String) : Prop :=
  ∃ bytes, files file = .ok bytes ∧ String.fromUTF8? bytes = some source

inductive IsRefused (files : Files) (file : String) : Prop where
  | unreadable (h : ∀ source, ¬ HasText files file source)
  | failed {source : String} {f : Failure} (h : HasText files file source)
      (hf : check source = .error f)

def rejection (unknown : List String) : List Notice :=
  [.error ("unknown argument" ++ plural unknown.length ++ ": " ++ ", ".intercalate unknown), .usage]

variable {compiler : String} {files : Files} {o : Options}

theorem text_eq_ok_iff {file source : String} :
    files.text file = .ok source ↔ HasText files file source := by
  rw [Files.text, HasText]
  cases files file with
  | error fault => simp
  | ok bytes =>
      simp only [Except.ok.injEq, exists_eq_left']
      cases String.fromUTF8? bytes with
      | none => simp
      | some text => simp

theorem runCheck_cases (o : Options) (file source : String) :
    (∃ f, check source = .error f ∧ (runCheck o file source).exit = 2 ∧
        (runCheck o file source).output = []) ∨
      ∃ types, check source = .ok types ∧ (runCheck o file source).exit = 0 := by
  cases h : check source with
  | error f => exact .inl ⟨f, rfl, by simp [runCheck, h], by simp [runCheck, h]⟩
  | ok types => exact .inr ⟨types, rfl, by simp [runCheck, h]⟩

theorem not_isRefused {file source : String} {types : List TypeDecl}
    (htext : files.text file = .ok source) (hok : check source = .ok types) :
    ¬ IsRefused files file := by
  intro h
  cases h with
  | unreadable h => exact h source (text_eq_ok_iff.1 htext)
  | failed h hf =>
      rw [← text_eq_ok_iff, htext] at h
      cases h
      rw [hok] at hf
      cases hf

theorem runFile_cases (files : Files) (o : Options) :
    (o.file = none ∧ (runFile files o).exit = 1) ∨
      (∃ file, o.file = some file ∧ IsRefused files file ∧ (runFile files o).exit = 2 ∧
        (runFile files o).output = []) ∨
      ∃ file, o.file = some file ∧ ¬ IsRefused files file ∧ (runFile files o).exit = 0 := by
  cases hfile : o.file with
  | none => exact .inl ⟨rfl, by simp [runFile, hfile]⟩
  | some file =>
      refine .inr ?_
      cases htext : files.text file with
      | error fault =>
          have hrefused : IsRefused files file := by
            refine .unreadable fun source h => ?_
            rw [← text_eq_ok_iff, htext] at h
            cases h
          exact .inl ⟨file, rfl, hrefused, by simp [runFile, hfile, htext],
            by simp [runFile, hfile, htext]⟩
      | ok source =>
          have hrun : runFile files o = runCheck o file source := by simp [runFile, hfile, htext]
          rw [hrun]
          rcases runCheck_cases o file source with ⟨f, hf, hexit, houtput⟩ | ⟨types, hok, hexit⟩
          · exact .inl ⟨file, rfl, .failed (text_eq_ok_iff.1 htext) hf, hexit, houtput⟩
          · exact .inr ⟨file, rfl, not_isRefused htext hok, hexit⟩

def endsEarly (arguments : List String) : Bool :=
  asksFor helpForms arguments || asksFor versionForms arguments

theorem run_of_unknown {arguments : List String} (h : unknownOptions arguments ≠ []) :
    run compiler files arguments = ⟨1, [], rejection (unknownOptions arguments)⟩ := by
  obtain ⟨a, unknown, hcons⟩ := List.exists_cons_of_ne_nil h
  have ho : Options.ofArguments arguments = .error (unknownOptions arguments) := by
    rw [ofArguments_eq, hcons]
  rw [run, ho]
  rfl

theorem run_of_known {arguments : List String} (h : unknownOptions arguments = []) :
    run compiler files arguments = runOptions compiler files (requested arguments) := by
  rw [run, ofArguments_eq, h]

theorem run_of_endsEarly {arguments : List String} (h : unknownOptions arguments = [])
    (he : endsEarly arguments = true) : (run compiler files arguments).exit = 0 := by
  rw [run_of_known h, runOptions]
  split
  · rfl
  · rename_i hhelp
    have hversion : (requested arguments).version = true := by
      have hhelp' : asksFor helpForms arguments = false := Bool.eq_false_iff.2 hhelp
      rwa [endsEarly, hhelp', Bool.false_or] at he
    rw [if_pos hversion]

theorem run_of_not_endsEarly {arguments : List String} (h : unknownOptions arguments = [])
    (he : endsEarly arguments = false) :
    (run compiler files arguments).exit = (runFile files (requested arguments)).exit ∧
      (run compiler files arguments).output =
        (if asksFor verboseForms arguments then
          [commandName ++ " " ++ commandVersion, "Compiled with " ++ compiler] else []) ++
          (runFile files (requested arguments)).output := by
  obtain ⟨hhelp, hversion⟩ : (requested arguments).help = false ∧
      (requested arguments).version = false := Bool.or_eq_false_iff.1 he
  rw [run_of_known h, runOptions, hhelp, hversion]
  refine ⟨rfl, ?_⟩
  simp only [identification, hversion, Bool.false_eq_true, if_false, Bool.false_or]
  change _ ++ _ = (if (requested arguments).verbose then _ else _) ++ _
  cases (requested arguments).verbose <;> rfl

theorem exit_iff (compiler : String) (files : Files) (arguments : List String) :
    ((run compiler files arguments).exit = 1 ↔
      unknownOptions arguments ≠ [] ∨
        endsEarly arguments = false ∧ arguments.filter isFree = []) ∧
    ((run compiler files arguments).exit = 2 ↔
      unknownOptions arguments = [] ∧ endsEarly arguments = false ∧
        ∃ file, (arguments.filter isFree).head? = some file ∧ IsRefused files file) ∧
    ((run compiler files arguments).exit = 2 →
      (run compiler files arguments).output =
        if asksFor verboseForms arguments then
          [commandName ++ " " ++ commandVersion, "Compiled with " ++ compiler] else []) ∧
    ((run compiler files arguments).exit = 0 ∨ (run compiler files arguments).exit = 1 ∨
      (run compiler files arguments).exit = 2) := by
  by_cases hunknown : unknownOptions arguments = []
  · cases he : endsEarly arguments with
    | true => simp [run_of_endsEarly hunknown he, hunknown]
    | false =>
        obtain ⟨hexit, houtput⟩ := @run_of_not_endsEarly compiler files arguments hunknown he
        have hfile : (requested arguments).file = (arguments.filter isFree).head? := rfl
        have hne {file : String} (h : (arguments.filter isFree).head? = some file) :
            arguments.filter isFree ≠ [] := by
          intro hnil
          rw [hnil] at h
          cases h
        rw [hexit, houtput]
        rcases runFile_cases files (requested arguments) with
          ⟨hnone, hone⟩ | ⟨file, hsome, hrefused, htwo, hnil⟩ | ⟨file, hsome, hnot, hzero⟩
        · rw [hfile] at hnone
          simp [hone, hunknown, List.head?_eq_none_iff.1 hnone]
        · rw [hfile] at hsome
          simp [htwo, hnil, hunknown, hsome, hrefused, hne hsome]
        · rw [hfile] at hsome
          simp [hzero, hunknown, hsome, hnot, hne hsome]
  · simp [run_of_unknown hunknown, hunknown]

theorem run_perm (compiler : String) (files : Files) {arguments arguments' : List String}
    (h : arguments'.Perm arguments)
    (hfree : arguments'.filter isFree = arguments.filter isFree) :
    run compiler files arguments' = run compiler files arguments ∨
      (unknownOptions arguments').Perm (unknownOptions arguments) ∧
        run compiler files arguments = ⟨1, [], rejection (unknownOptions arguments)⟩ ∧
        run compiler files arguments' = ⟨1, [], rejection (unknownOptions arguments')⟩ := by
  rcases ofArguments_perm h hfree with hsame | ⟨herror, herror'⟩
  · rw [run, run, hsame]
    exact .inl rfl
  · rw [run, run, herror, herror']
    exact .inr ⟨unknownOptions_perm h, rfl, rfl⟩

theorem run_outcome (compiler : String) (files : Files) (arguments : List String) :
    ((run compiler files arguments).exit = 1 ↔
      (∃ a ∈ leftOver arguments, IsDashed a) ∨
        endsEarly arguments = false ∧ arguments.filter isFree = []) ∧
    ((run compiler files arguments).exit = 2 ↔
      (∀ a ∈ leftOver arguments, ¬ IsDashed a) ∧ endsEarly arguments = false ∧
        ∃ file, (arguments.filter isFree).head? = some file ∧ IsRefused files file) ∧
    ((run compiler files arguments).exit = 2 →
      (run compiler files arguments).output =
        if asksFor verboseForms arguments then
          [commandName ++ " " ++ commandVersion, "Compiled with " ++ compiler] else []) ∧
    ((run compiler files arguments).exit ≠ 1 → (run compiler files arguments).exit ≠ 2 →
      (run compiler files arguments).exit = 0) ∧
    ∀ arguments' : List String, arguments'.Perm arguments →
      arguments'.filter isFree = arguments.filter isFree →
      (run compiler files arguments').exit = (run compiler files arguments).exit ∧
      (run compiler files arguments').output = (run compiler files arguments).output ∧
      ((run compiler files arguments').notices = (run compiler files arguments).notices ∨
        (unknownOptions arguments').Perm (unknownOptions arguments) ∧
          (run compiler files arguments).notices = rejection (unknownOptions arguments) ∧
          (run compiler files arguments').notices = rejection (unknownOptions arguments')) := by
  obtain ⟨hone, htwo, houtput, hexit⟩ := exit_iff compiler files arguments
  rw [unknownOptions_ne_nil_iff] at hone
  rw [unknownOptions_eq_nil_iff] at htwo
  refine ⟨hone, htwo, houtput, fun h1 h2 => ?_, fun arguments' hperm hfree => ?_⟩
  · rcases hexit with h0 | h | h
    · exact h0
    · exact absurd h h1
    · exact absurd h h2
  · rcases run_perm compiler files hperm hfree with hsame | ⟨hunknown, hrun, hrun'⟩
    · rw [hsame]
      exact ⟨rfl, rfl, .inl rfl⟩
    · rw [hrun, hrun']
      exact ⟨rfl, rfl, .inr ⟨hunknown, rfl, rfl⟩⟩

theorem run_outcome_files :
    let files : Files := fun name =>
      if name = "Good.elm" then .ok "type alias A = Int\n".toUTF8
      else if name = "Bad.elm" then .ok "type alias A =\n".toUTF8
      else if name = "Bytes.elm" then .ok ⟨#[0xff]⟩
      else .error .missing
    (run "ghc" files ["Good.elm", "-v", "--no-color"]).exit = 0 ∧
    (run "ghc" files ["--no-color", "Good.elm", "-v"]).output =
      ["elmshape 0.1.0", "Compiled with ghc", "type alias A = Int"] ∧
    ((run "ghc" files ["-v", "Bad.elm"]).exit = 2 ∧
      (run "ghc" files ["-v", "Bad.elm"]).output = ["elmshape 0.1.0", "Compiled with ghc"]) ∧
    (run "ghc" files ["Bytes.elm", "Good.elm"]).exit = 2 ∧
    (run "ghc" files ["-", "Good.elm"]).exit = 2 ∧
    (run "ghc" files ["-d"]).exit = 1 ∧
    (run "ghc" files ["-h", "Good.elm", "--what", "-h"]).exit = 1 ∧
    (run "ghc" files ["-h", "-h", "--what", "Good.elm"]).exit =
      (run "ghc" files ["-h", "Good.elm", "--what", "-h"]).exit ∧
    unknownOptions ["-h", "Good.elm", "--what", "-h"] = ["--what", "-h"] ∧
    unknownOptions ["-h", "-h", "--what", "Good.elm"] = ["-h", "--what"] := by
  intro files
  have hbad : IsRefused files "Bad.elm" := by
    have htext : HasText files "Bad.elm" "type alias A =\n" := ⟨_, rfl, by decide +kernel⟩
    have hfails : (check "type alias A =\n").isOk = false := by decide +kernel
    cases h : check "type alias A =\n" with
    | ok types =>
        rw [h] at hfails
        cases hfails
    | error f => exact .failed htext h
  have hbytes : IsRefused files "Bytes.elm" := by
    refine .unreadable ?_
    rintro source ⟨_, ⟨⟩, htext⟩
    have hnone : String.fromUTF8? ⟨#[0xff]⟩ = none := by decide +kernel
    cases hnone.symm.trans htext
  have hmissing : IsRefused files "-" := by
    refine .unreadable ?_
    rintro source ⟨_, ⟨⟩, -⟩
  have htwo : (run "ghc" files ["-v", "Bad.elm"]).exit = 2 :=
    (run_outcome "ghc" files _).2.1.2 ⟨by decide, by decide, "Bad.elm", by decide, hbad⟩
  refine ⟨?_, ?_, ⟨htwo, ?_⟩, ?_, ?_, ?_, ?_, ?_, by decide, by decide⟩
  · exact (run_outcome "ghc" files _).2.2.2.1 (by decide +kernel) (by decide +kernel)
  · refine ((run_outcome "ghc" files ["Good.elm", "-v", "--no-color"]).2.2.2.2 _ (by decide)
      (by decide)).2.1.trans ?_
    decide +kernel
  · exact ((run_outcome "ghc" files _).2.2.1 htwo).trans (by decide)
  · exact (run_outcome "ghc" files _).2.1.2 ⟨by decide, by decide, "Bytes.elm", by decide, hbytes⟩
  · exact (run_outcome "ghc" files _).2.1.2 ⟨by decide, by decide, "-", by decide, hmissing⟩
  · exact (run_outcome "ghc" files _).1.2 (.inr ⟨by decide, by decide⟩)
  · exact (run_outcome "ghc" files _).1.2 (.inl (by decide))
  · exact ((run_outcome "ghc" files _).2.2.2.2 ["-h", "-h", "--what", "Good.elm"] (by decide)
      (by decide)).1

end ElmTypes.CommandLine
