import ElmTypes.CommandLine.Options

namespace ElmTypes.CommandLine

def IsDashed (argument : String) : Prop := argument.toList.head? = some '-' ∧ argument ≠ "-"

instance : DecidablePred IsDashed := fun _ => inferInstanceAs (Decidable (_ ∧ _))

def isFree (argument : String) : Bool := !decide (IsDashed argument)

def debugForms : List String := ["-d", "--debug"]

def helpForms : List String := ["-h", "--help"]

def colourForms : List String := ["--no-color"]

def verboseForms : List String := ["-v", "--verbose"]

def versionForms : List String := ["-V", "--version"]

def knownOptions : List (List String) :=
  [debugForms, helpForms, colourForms, verboseForms, versionForms]

def asksFor (forms arguments : List String) : Bool := forms.any fun form => arguments.contains form

/-- The arguments without one occurrence of the option, in the first of its forms that is there. -/
def without : (forms arguments : List String) → List String
  | [], arguments => arguments
  | form :: forms, arguments =>
      if form ∈ arguments then arguments.erase form else without forms arguments

def leftOver (arguments : List String) : List String :=
  knownOptions.foldl (fun rest forms => without forms rest) arguments

def unknownOptions (arguments : List String) : List String :=
  (leftOver arguments).filter fun a => decide (IsDashed a)

def requested (arguments : List String) : Options where
  debug := asksFor debugForms arguments
  help := asksFor helpForms arguments
  noColour := asksFor colourForms arguments
  verbose := asksFor verboseForms arguments
  version := asksFor versionForms arguments
  file := (arguments.filter isFree).head?

theorem looksLikeOption_eq (argument : String) :
    looksLikeOption argument = decide (IsDashed argument) := by
  rw [Bool.eq_iff_iff, decide_eq_true_iff, looksLikeOption, Bool.and_eq_true_iff, beq_iff_eq,
    bne_iff_ne, IsDashed]

theorem unknownOptions_eq_nil_iff {arguments : List String} :
    unknownOptions arguments = [] ↔ ∀ a ∈ leftOver arguments, ¬ IsDashed a := by
  simp [unknownOptions]

theorem unknownOptions_ne_nil_iff {arguments : List String} :
    unknownOptions arguments ≠ [] ↔ ∃ a ∈ leftOver arguments, IsDashed a := by
  simp [unknownOptions]

theorem takeOption_eq (forms arguments : List String) :
    takeOption forms arguments = (asksFor forms arguments, without forms arguments) := by
  induction forms with
  | nil => rfl
  | cons form forms ih =>
      by_cases h : form ∈ arguments
      · simp [takeOption, asksFor, without, h]
      · have hfind : ((form :: forms).find? fun form => arguments.contains form) =
            forms.find? fun form => arguments.contains form := by
          rw [List.find?_cons_of_neg]
          simpa using h
        rw [takeOption, hfind, ← takeOption, ih]
        simp [asksFor, without, h]

section

variable {forms others arguments arguments' : List String} {a : String}

theorem mem_without_iff (h : a ∉ forms) : a ∈ without forms arguments ↔ a ∈ arguments := by
  induction forms with
  | nil => exact Iff.rfl
  | cons form forms ih =>
      rw [List.mem_cons, not_or] at h
      rw [without]
      split
      · exact List.mem_erase_of_ne h.1
      · exact ih h.2

theorem asksFor_without (h : ∀ form ∈ forms, form ∉ others) :
    asksFor forms (without others arguments) = asksFor forms arguments := by
  rw [Bool.eq_iff_iff]
  simp only [asksFor, List.any_eq_true, List.contains_iff_mem]
  exact exists_congr fun form => and_congr_right fun hf => mem_without_iff (h form hf)

theorem filter_isFree_erase (h : IsDashed a) :
    (arguments.erase a).filter isFree = arguments.filter isFree := by
  induction arguments with
  | nil => rfl
  | cons b arguments ih =>
      by_cases hb : b = a
      · subst hb
        rw [List.erase_cons_head, List.filter_cons_of_neg (by simp [isFree, h])]
      · rw [List.erase_cons_tail (by simpa using hb), List.filter_cons, List.filter_cons, ih]

theorem filter_isFree_without (h : ∀ form ∈ forms, IsDashed form) :
    (without forms arguments).filter isFree = arguments.filter isFree := by
  induction forms with
  | nil => rfl
  | cons form forms ih =>
      obtain ⟨hform, hforms⟩ := List.forall_mem_cons.1 h
      rw [without]
      split
      · exact filter_isFree_erase hform
      · exact ih hforms

theorem isDashed_of_mem_knownOptions : ∀ forms ∈ knownOptions, ∀ form ∈ forms, IsDashed form := by
  decide

theorem filter_isFree_foldl_without {options : List (List String)}
    (h : ∀ forms ∈ options, ∀ form ∈ forms, IsDashed form) :
    (options.foldl (fun rest forms => without forms rest) arguments).filter isFree =
      arguments.filter isFree := by
  induction options generalizing arguments with
  | nil => rfl
  | cons forms options ih =>
      obtain ⟨hforms, hoptions⟩ := List.forall_mem_cons.1 h
      rw [List.foldl_cons, ih hoptions, filter_isFree_without hforms]

theorem leftOver_of_unknownOptions_eq_nil (h : unknownOptions arguments = []) :
    leftOver arguments = arguments.filter isFree := by
  have hfree : (leftOver arguments).filter isFree = leftOver arguments := by
    rw [List.filter_eq_self]
    intro a ha
    have hnot := unknownOptions_eq_nil_iff.1 h a ha
    simpa [isFree] using hnot
  rw [← hfree]
  exact filter_isFree_foldl_without isDashed_of_mem_knownOptions

theorem ofArguments_eq (arguments : List String) :
    Options.ofArguments arguments =
      match unknownOptions arguments with
      | [] => .ok (requested arguments)
      | unknown => .error unknown := by
  have hinTurn : Options.ofArguments arguments =
      match unknownOptions arguments with
      | [] => .ok
          { debug := asksFor debugForms arguments
            help := asksFor helpForms (without debugForms arguments)
            noColour := asksFor colourForms (without helpForms (without debugForms arguments))
            verbose := asksFor verboseForms
              (without colourForms (without helpForms (without debugForms arguments)))
            version := asksFor versionForms (without verboseForms
              (without colourForms (without helpForms (without debugForms arguments))))
            file := (leftOver arguments).head? }
      | unknown => .error unknown := by
    have hlooks : looksLikeOption = fun a => decide (IsDashed a) := funext looksLikeOption_eq
    simp only [Options.ofArguments, takeOption_eq, hlooks]
    rfl
  -- the options have no form in common, so it does not matter which is taken first
  rw [hinTurn]
  split
  · rename_i hnil
    rw [leftOver_of_unknownOptions_eq_nil hnil, requested]
    simp (disch := decide) only [asksFor_without]
  · rfl

theorem asksFor_perm (h : arguments'.Perm arguments) :
    asksFor forms arguments' = asksFor forms arguments := by
  rw [Bool.eq_iff_iff]
  simp only [asksFor, List.any_eq_true, List.contains_iff_mem, h.mem_iff]

theorem without_perm (h : arguments'.Perm arguments) :
    (without forms arguments').Perm (without forms arguments) := by
  induction forms with
  | nil => exact h
  | cons form forms ih =>
      simp only [without, h.mem_iff]
      split
      · exact h.erase form
      · exact ih

theorem foldl_without_perm (options : List (List String)) (h : arguments'.Perm arguments) :
    (options.foldl (fun rest forms => without forms rest) arguments').Perm
      (options.foldl (fun rest forms => without forms rest) arguments) := by
  induction options generalizing arguments arguments' with
  | nil => exact h
  | cons forms options ih => exact ih (without_perm h)

theorem unknownOptions_perm (h : arguments'.Perm arguments) :
    (unknownOptions arguments').Perm (unknownOptions arguments) :=
  (foldl_without_perm knownOptions h).filter _

theorem ofArguments_perm (h : arguments'.Perm arguments)
    (hfree : arguments'.filter isFree = arguments.filter isFree) :
    Options.ofArguments arguments' = Options.ofArguments arguments ∨
      Options.ofArguments arguments = .error (unknownOptions arguments) ∧
        Options.ofArguments arguments' = .error (unknownOptions arguments') := by
  have hunknown := unknownOptions_perm h
  rw [ofArguments_eq arguments, ofArguments_eq arguments']
  cases hnil : unknownOptions arguments with
  | nil =>
      rw [hnil, List.perm_nil] at hunknown
      simp only [hunknown, requested, asksFor_perm h, hfree, true_or]
  | cons a unknown =>
      obtain ⟨a', unknown', hcons⟩ : ∃ a' unknown', unknownOptions arguments' = a' :: unknown' := by
        refine List.exists_cons_of_ne_nil fun hnil' => ?_
        rw [hnil', hnil, List.nil_perm] at hunknown
        cases hunknown
      rw [hcons]
      exact .inr ⟨rfl, rfl⟩

end

end ElmTypes.CommandLine
