import ElmTypes.Proofs.CommandLine.Outcome
import ElmTypes.Proofs.CommandLine.Session

namespace ElmTypes.CommandLine

open Session

variable {form a : String} {forms arguments before after : List String}

theorem without_erase (h : a ∉ forms) :
    without forms (arguments.erase a) = (without forms arguments).erase a := by
  induction forms with
  | nil => rfl
  | cons form forms ih =>
      rw [List.mem_cons, not_or] at h
      simp only [without, List.mem_erase_of_ne (Ne.symm h.1)]
      split
      · exact List.erase_comm a form
      · exact ih h.2

theorem without_eq_erase (hform : form ∈ forms) (hmem : form ∈ arguments)
    (h : ∀ a ∈ forms, a ∈ arguments → a = form) :
    without forms arguments = arguments.erase form := by
  induction forms with
  | nil => cases hform
  | cons a forms ih =>
      obtain ⟨ha, hforms⟩ := List.forall_mem_cons.1 h
      rw [without]
      split
      · rename_i hin
        rw [ha hin]
      · rename_i hnotin
        refine ih ((List.mem_cons.1 hform).resolve_left ?_) hforms
        rintro rfl
        exact hnotin hmem

theorem not_mem_of_asksFor_eq_false (h : asksFor forms arguments = false) :
    ∀ form ∈ forms, form ∉ arguments := by
  simpa [asksFor] using h

theorem without_eq_self (h : asksFor forms arguments = false) :
    without forms arguments = arguments := by
  have htake := takeOption_of_not_mem (not_mem_of_asksFor_eq_false h)
  rw [takeOption_eq] at htake
  exact congrArg Prod.snd htake

theorem without_of_asksFor_erase (hform : form ∈ forms) (hmem : form ∈ arguments)
    (h : asksFor forms (arguments.erase form) = false) :
    without forms (arguments.erase form) = without forms arguments := by
  rw [without_eq_self h]
  refine (without_eq_erase hform hmem fun a ha hin => ?_).symm
  by_cases hne : a = form
  · exact hne
  · have hnotin := not_mem_of_asksFor_eq_false h a ha
    exact absurd ((List.mem_erase_of_ne hne).2 hin) hnotin

theorem not_mem_of_mem_verboseForms :
    ∀ form ∈ verboseForms, ∀ forms ∈ [debugForms, helpForms, colourForms, versionForms],
      form ∉ forms := by
  decide

theorem leftOver_erase (hform : form ∈ verboseForms) (hmem : form ∈ arguments)
    (h : asksFor verboseForms (arguments.erase form) = false) :
    leftOver (arguments.erase form) = leftOver arguments := by
  have hother := not_mem_of_mem_verboseForms form hform
  simp only [List.forall_mem_cons] at hother
  obtain ⟨hdebug, hhelp, hcolour, -⟩ := hother
  have hbefore : without colourForms (without helpForms (without debugForms
      (arguments.erase form))) =
      (without colourForms (without helpForms (without debugForms arguments))).erase form := by
    rw [without_erase hdebug, without_erase hhelp, without_erase hcolour]
  have hused : without verboseForms (without colourForms (without helpForms (without debugForms
      (arguments.erase form)))) =
      without verboseForms (without colourForms (without helpForms
        (without debugForms arguments))) := by
    rw [hbefore]
    apply without_of_asksFor_erase hform
    · rwa [mem_without_iff hcolour, mem_without_iff hhelp, mem_without_iff hdebug]
    · rw [← hbefore]
      simp (disch := decide) only [asksFor_without]
      exact h
  exact congrArg (without versionForms) hused

theorem erase_of_asksFor (hform : form ∈ verboseForms)
    (h : asksFor verboseForms (before ++ after) = false) :
    (before ++ form :: after).erase form = before ++ after := by
  have hnotin := not_mem_of_asksFor_eq_false h form hform
  rw [List.mem_append, not_or] at hnotin
  rw [List.erase_append_right _ hnotin.1, List.erase_cons_head]

theorem unknownOptions_verbose (hform : form ∈ verboseForms)
    (h : asksFor verboseForms (before ++ after) = false) :
    unknownOptions (before ++ form :: after) = unknownOptions (before ++ after) := by
  have herase := erase_of_asksFor hform h
  rw [← herase] at h
  have hleft := leftOver_erase hform (by simp) h
  rw [unknownOptions, ← hleft, herase, unknownOptions]

theorem asksFor_insert (h : form ∉ forms) :
    asksFor forms (before ++ form :: after) = asksFor forms (before ++ after) := by
  rw [Bool.eq_iff_iff]
  simp only [asksFor, List.any_eq_true, List.contains_iff_mem, List.mem_append, List.mem_cons]
  refine exists_congr fun a => and_congr_right fun ha => ?_
  have hne : a ≠ form := by
    rintro rfl
    exact h ha
  rw [or_iff_right hne]

def Options.withVerbose (o : Options) : Options := { o with verbose := true }

theorem requested_verbose (hform : form ∈ verboseForms) :
    requested (before ++ form :: after) = (requested (before ++ after)).withVerbose := by
  have hother := not_mem_of_mem_verboseForms form hform
  simp only [List.forall_mem_cons] at hother
  obtain ⟨hdebug, hhelp, hcolour, hversion, -⟩ := hother
  have hverbose : asksFor verboseForms (before ++ form :: after) = true :=
    List.any_eq_true.2 ⟨form, hform, by simp⟩
  have hfree : isFree form = false := by
    have hdashed := isDashed_of_mem_knownOptions verboseForms (by decide) form hform
    rw [isFree, decide_eq_true hdashed]
    rfl
  simp only [requested, Options.withVerbose, asksFor_insert hdebug, asksFor_insert hhelp,
    asksFor_insert hcolour, asksFor_insert hversion, hverbose, List.filter_append,
    List.filter_cons_of_neg (Bool.eq_false_iff.1 hfree)]

theorem ofArguments_verbose (hform : form ∈ verboseForms)
    (h : asksFor verboseForms (before ++ after) = false) :
    Options.ofArguments (before ++ form :: after) =
      (Options.ofArguments (before ++ after)).map Options.withVerbose := by
  rw [ofArguments_eq, ofArguments_eq, unknownOptions_verbose hform h, requested_verbose hform]
  split <;> rfl

theorem verbose_of_ofArguments {o : Options} (h : Options.ofArguments arguments = .ok o) :
    o.verbose = asksFor verboseForms arguments := by
  rw [ofArguments_eq] at h
  split at h
  · cases h
    rfl
  · cases h

theorem filter_notices_left (r : Except Nat Unit) (ws : List Write) :
    (left true r ws).notices.filter (fun n => !n.isVerbose) = (left false r ws).notices := by
  simp only [left, List.filter_filter, Bool.true_or, Bool.and_true, Bool.false_or]

theorem serviceOf_withVerbose (files : Files) (o : Options) :
    serviceOf files o.withVerbose = serviceOf files o := rfl

theorem endOfService_withVerbose (files : Files) (o : Options) :
    endOfService files o.withVerbose = endOfService files o := rfl

theorem introduction_help (compiler : String) {o : Options} (h : o.help = true) :
    introduction compiler o = [] := by
  rw [introduction, if_pos h]

theorem introduction_quiet (compiler : String) {o : Options} (h : o.help = false)
    (ho : o.verbose = false) :
    introduction compiler o = if o.version then [commandName ++ " " ++ commandVersion] else [] := by
  rw [introduction, h, identification, ho, Bool.or_false]
  exact List.append_nil _

theorem introduction_verbose (compiler : String) {o : Options} (h : o.help = false)
    (ho : o.verbose = true) :
    introduction compiler o =
      [commandName ++ " " ++ commandVersion, "Compiled with " ++ compiler] := by
  rw [introduction, h, identification, ho, Bool.or_true]
  rfl

theorem introduction_withVerbose (compiler : String) {o : Options} (ho : o.verbose = false)
    (rest : List String) :
    if o.help then introduction compiler o.withVerbose ++ rest = introduction compiler o ++ rest
    else ∃ rest',
      introduction compiler o ++ rest =
        (if o.version then [commandName ++ " " ++ commandVersion] else []) ++ rest' ∧
      introduction compiler o.withVerbose ++ rest =
        [commandName ++ " " ++ commandVersion, "Compiled with " ++ compiler] ++ rest' := by
  split
  · rename_i h
    have hverbose : o.withVerbose.help = true := h
    rw [introduction_help compiler h, introduction_help compiler hverbose]
  · rename_i h
    have hquiet : o.help = false := Bool.eq_false_iff.2 h
    have hverbose : o.withVerbose.help = false := hquiet
    refine ⟨rest, ?_, ?_⟩
    · rw [introduction_quiet compiler hquiet ho]
    · rw [introduction_verbose compiler hverbose rfl]

theorem run_eq_left {o : Options} (compiler : String) (files : Files)
    (h : Options.ofArguments arguments = .ok o) :
    run compiler files arguments =
      (left o.verbose (endOfService files o) (serviceOf files o)).precededBy
        (introduction compiler o) := by
  rw [← outcome_perform, perform, h, ← left_lines]
  exact (says_obey compiler files o).outcome

theorem run_of_ofArguments_eq_error (compiler : String) (files : Files) {unknown : List String}
    (h : Options.ofArguments arguments = .error unknown) :
    run compiler files arguments = ⟨1, [], rejection unknown⟩ := by
  rw [run, h]
  rfl

theorem run_verbose (compiler : String) (files : Files) (hform : form ∈ verboseForms)
    (hquiet : asksFor verboseForms (before ++ after) = false) :
    let quiet := run compiler files (before ++ after)
    let verbose := run compiler files (before ++ form :: after)
    verbose.exit = quiet.exit ∧
      (match Options.ofArguments (before ++ after) with
        | .ok o =>
            if o.help then verbose.output = quiet.output
            else ∃ rest,
              quiet.output = (if o.version then [commandName ++ " " ++ commandVersion] else []) ++
                rest ∧
              verbose.output =
                [commandName ++ " " ++ commandVersion, "Compiled with " ++ compiler] ++ rest
        | .error _ => verbose.output = quiet.output) ∧
      verbose.notices.filter (fun n => !n.isVerbose) = quiet.notices := by
  have hboth := ofArguments_verbose hform hquiet
  cases h : Options.ofArguments (before ++ after) with
  | error unknown =>
      rw [h] at hboth
      rw [run_of_ofArguments_eq_error compiler files h,
        run_of_ofArguments_eq_error compiler files hboth]
      exact ⟨rfl, rfl, rfl⟩
  | ok o =>
      rw [h] at hboth
      have ho : o.verbose = false := (verbose_of_ofArguments h).trans hquiet
      have hrun := run_eq_left compiler files h
      have hrun' := run_eq_left compiler files hboth
      rw [serviceOf_withVerbose, endOfService_withVerbose] at hrun'
      rw [ho] at hrun
      rw [hrun, hrun']
      have houtput := introduction_withVerbose compiler ho
        (left false (endOfService files o) (serviceOf files o)).output
      have hnotices := filter_notices_left (endOfService files o) (serviceOf files o)
      exact ⟨rfl, houtput, hnotices⟩

theorem run_verbose_collision :
    let files : Files := fun _ => .ok "type List = A\n".toUTF8
    let quiet := run "ghc" files ["A.elm", "--no-color"]
    let verbose := run "ghc" files ["A.elm", "-v", "--no-color"]
    quiet.notices = [.ofEvent (.collision .list)] ∧ verbose.notices.length = 8 ∧
      verbose.notices.filter (fun n => !n.isVerbose) = quiet.notices ∧
      verbose.exit = quiet.exit ∧
      ∃ rest, quiet.output = rest ∧
        verbose.output = ["elmshape 0.1.0", "Compiled with ghc"] ++ rest := by
  intro files quiet verbose
  have hoptions : Options.ofArguments (["A.elm"] ++ ["--no-color"]) =
      .ok ⟨false, false, true, false, false, some "A.elm"⟩ := rfl
  obtain ⟨hexit, houtput, hnotices⟩ :=
    @run_verbose "-v" ["A.elm"] ["--no-color"] "ghc" files (by decide) (by decide)
  rw [hoptions] at houtput
  exact ⟨by decide +kernel, by decide +kernel, hnotices, hexit, houtput⟩

end ElmTypes.CommandLine
