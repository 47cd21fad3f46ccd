import ElmTypes.CommandLine.Run

namespace ElmTypes.CommandLine

inductive Write where
  | line (text : String)
  | notice (n : Notice)
deriving DecidableEq

namespace Write

def line? : Write → Option String
  | line text => some text
  | notice _ => none

def notice? : Write → Option Notice
  | line _ => none
  | notice n => some n

def isShown (verbose : Bool) : Write → Bool
  | line _ => true
  | notice n => verbose || !n.isVerbose

end Write

structure Console where
  verbose : Bool
  writes : List Write

abbrev Session := EStateM Nat Console

namespace Session

def write (w : Write) : Session Unit := modify fun c => { c with writes := c.writes ++ [w] }

def print (text : String) : Session Unit := write (.line text)

def say (n : Notice) : Session Unit := write (.notice n)

def trace (text : String) : Session Unit := do
  if (← get).verbose then say (.log .trace text)

def setVerbose (verbose : Bool) : Session Unit := modify fun c => { c with verbose }

def readSource (source : String) : Session (Validated SyntaxError SourceFile) := do
  trace (Event.lexing source.length).text
  match lex source with
  | .error e => return .error [.ofLexical e]
  | .ok tokens =>
      trace (Event.parsing tokens.length).text
      match SourceFile.ofTokens tokens with
      | .error errors => return .error errors
      | .ok file =>
          trace (Event.resolving file.moduleName).text
          return .ok file.resolve

def warnOfCollision (d : Declared) : Session Unit :=
  match d.typeName?.bind Container.named? with
  | some container => say (.log .warning (Event.collision container).text)
  | none => return

def classify (d : Declaration) : Session (Validated Problem TypeDecl) := do
  trace (Event.classifying d.declared.description).text
  warnOfCollision d.declared
  return TypeDecl.ofDeclaration d

def validate (f : SourceFile) : Session (Validated Problem (List TypeDecl)) := do
  let types := Validated.accumulate (← f.declarations.mapM classify)
  trace (Event.ofTypes types).text
  return types

def check (source : String) : Session (Except Failure (List TypeDecl)) := do
  match ← readSource source with
  | .error errors => return .error (.malformed errors)
  | .ok file =>
      let types ← validate file
      return types.mapError .invalid

def announce (o : Options) (file : String) : Session Unit :=
  if o.verbose then say (.log .info ("checking " ++ file ++ "...")) else return

def report (o : Options) (file source : String) (f : Failure) : Session Unit := do
  (f.diagnostics source).forM fun d =>
    say (.diagnostic (d.render source (some file) (!o.noColour)))
  say (.error (summary file f))

def checkSource (o : Options) (file source : String) : Session Unit := do
  announce o file
  match ← check source with
  | .ok types =>
      trace ("found " ++ toString types.length ++ " type declarations")
      (typeLines o.debug types).forM print
  | .error f =>
      report o file source f
      throw 2

def checkFile (files : Files) (o : Options) : Session Unit := do
  match o.file with
  | none =>
      say (.error "no source file provided")
      say .usage
      throw 1
  | some file =>
      match files.text file with
      | .error fault =>
          say (.error ("couldn't read " ++ file ++ ": " ++ fault.text))
          throw 2
      | .ok source => checkSource o file source

def identify (compiler : String) (o : Options) : Session Unit := do
  if o.version || o.verbose then
    print (commandName ++ " " ++ commandVersion)
    if o.verbose then print ("Compiled with " ++ compiler)

def obey (compiler : String) (files : Files) (o : Options) : Session Unit := do
  if o.help then print usage
  else
    identify compiler o
    if o.version then return else checkFile files o

def perform (compiler : String) (files : Files) (arguments : List String) : Session Unit := do
  match Options.ofArguments arguments with
  | .ok o =>
      setVerbose o.verbose
      obey compiler files o
  | .error unknown =>
      say (.error ("unknown argument" ++ plural unknown.length ++ ": " ++ ", ".intercalate unknown))
      say .usage
      throw 1

end Session

def Outcome.precededBy (o : Outcome) (lines : List String) : Outcome :=
  { o with output := lines ++ o.output }

def Console.outcome (exit : Nat) (c : Console) : Outcome :=
  ⟨exit, c.writes.filterMap Write.line?, c.writes.filterMap Write.notice?⟩

def Session.outcome (m : Session Unit) : Outcome :=
  match m ⟨false, []⟩ with
  | .ok _ c => c.outcome 0
  | .error exit c => c.outcome exit

namespace Session

def ended {α : Type} : Except Nat α → Console → EStateM.Result Nat Console α
  | .ok a, c => .ok a c
  | .error exit, c => .error exit c

/-- With this setting the session ends so, after those of the writes that are made at all. -/
def Says {α : Type} (verbose : Bool) (m : Session α) (r : Except Nat α) (ws : List Write) : Prop :=
  ∀ before, m ⟨verbose, before⟩ = ended r ⟨verbose, before ++ ws.filter (Write.isShown verbose)⟩

variable {α β : Type} {v : Bool} {m : Session α} {f : α → Session β} {a : α} {r : Except Nat β}
  {ws ws' : List Write}

theorem says_pure (a : α) : Says v (pure a) (.ok a) [] := by
  intro before
  rw [List.filter_nil, List.append_nil]
  rfl

theorem says_throw (exit : Nat) : Says v (throw exit : Session α) (.error exit) [] := by
  intro before
  rw [List.filter_nil, List.append_nil]
  rfl

theorem Says.bind (h : Says v m (.ok a) ws) (h' : Says v (f a) r ws') :
    Says v (m >>= f) r (ws ++ ws') := by
  intro before
  have hm := h before
  have hf := h' (before ++ ws.filter (Write.isShown v))
  rw [List.append_assoc, ← List.filter_append] at hf
  rw [← hf]
  change EStateM.bind m f _ = _
  simp only [EStateM.bind, hm, ended]

theorem Says.then {m : Session Unit} {m' : Session β} (h : Says v m (.ok ()) ws)
    (h' : Says v m' r ws') : Says v (m >>= fun _ => m') r (ws ++ ws') := h.bind h'

theorem Says.map (h : Says v m (.ok a) ws) (g : α → β) :
    Says v (m >>= fun a => pure (g a)) (.ok (g a)) ws := by
  have hg : Says v (m >>= fun a => pure (g a)) (.ok (g a)) (ws ++ []) := h.bind (says_pure (g a))
  rwa [List.append_nil] at hg

theorem says_write {w : Write} (h : w.isShown v = true) : Says v (write w) (.ok ()) [w] := by
  intro before
  rw [List.filter_cons_of_pos h]
  rfl

theorem says_print (text : String) : Says v (print text) (.ok ()) [.line text] := says_write rfl

theorem says_say {n : Notice} (h : n.isVerbose = false) : Says v (say n) (.ok ()) [.notice n] := by
  apply says_write
  rw [Write.isShown, h]
  exact Bool.or_true v

theorem says_trace (text : String) :
    Says v (trace text) (.ok ()) [.notice (.log .trace text)] := by
  cases v with
  | true => exact says_write rfl
  | false =>
      intro before
      rw [List.filter_cons_of_neg Bool.false_ne_true, List.filter_nil, List.append_nil]
      rfl

theorem says_forM {m : α → Session Unit} {g : α → List Write}
    (h : ∀ a, Says v (m a) (.ok ()) (g a)) (as : List α) :
    Says v (as.forM m) (.ok ()) (as.flatMap g) := by
  induction as with
  | nil => exact says_pure ()
  | cons a as ih => exact (h a).bind ih

theorem says_mapM {value : α → β} {g : α → List Write}
    (h : ∀ a, Says v (f a) (.ok (value a)) (g a)) (as : List α) :
    Says v (as.mapM f) (.ok (as.map value)) (as.flatMap g) := by
  induction as with
  | nil => exact says_pure []
  | cons a as ih =>
      rw [List.mapM_cons, List.flatMap_cons, ← List.append_nil (as.flatMap g)]
      exact (h a).bind (ih.bind (says_pure _))

def course (events : List Event) : List Write := events.map fun e => .notice (.ofEvent e)

theorem says_event {e : Event} (h : e.level = .trace) :
    Says v (trace e.text) (.ok ()) (course [e]) := by
  rw [course, List.map_singleton, Notice.ofEvent, h]
  exact says_trace e.text

theorem level_ofTypes (types : Validated Problem (List TypeDecl)) :
    (Event.ofTypes types).level = .trace := by
  cases types <;> rfl

theorem says_warnOfCollision (d : Declared) :
    Says v (warnOfCollision d) (.ok ())
      (course ((d.typeName?.bind Container.named?).toList.map .collision)) := by
  rw [warnOfCollision]
  cases d.typeName?.bind Container.named? with
  | none => exact says_pure ()
  | some container => exact says_say rfl

theorem says_classify (d : Declaration) :
    Says v (classify d) (.ok (TypeDecl.ofDeclaration d)) (course (Event.ofDeclaration d)) :=
  (says_trace _).then ((says_warnOfCollision d.declared).map _)

theorem course_flatMap {events : α → List Event} (as : List α) :
    as.flatMap (fun a => course (events a)) = course (as.flatMap events) :=
  List.map_flatMap.symm

theorem says_validate (f : SourceFile) :
    Says v (validate f) (.ok (TypeDecl.ofFile f))
      (course (f.declarations.flatMap Event.ofDeclaration ++ [.ofTypes (TypeDecl.ofFile f)])) := by
  have hclassify := says_mapM (v := v) says_classify f.declarations
  rw [course_flatMap] at hclassify
  rw [course, List.map_append]
  exact hclassify.bind ((says_event (level_ofTypes (TypeDecl.ofFile f))).map _)

theorem ofDeclaration_mapNames (g : TypeName → TypeName) (d : Declaration) :
    Event.ofDeclaration (d.mapNames g) = Event.ofDeclaration d := by
  obtain ⟨declared, span⟩ := d
  cases declared <;> rfl

theorem flatMap_ofDeclaration_resolve (f : SourceFile) :
    f.resolve.declarations.flatMap Event.ofDeclaration =
      f.declarations.flatMap Event.ofDeclaration := by
  rw [SourceFile.resolve, List.flatMap_map]
  simp only [ofDeclaration_mapNames]

theorem says_check (source : String) :
    Says v (check source) (.ok (ElmTypes.check source)) (course (journal source)) := by
  rw [journal, check, readSource, ElmTypes.check, SourceFile.parse]
  cases lex source with
  | error e => exact ((says_trace _).map _).bind (says_pure _)
  | ok tokens =>
      simp only
      cases SourceFile.ofTokens tokens with
      | error errors => exact ((says_trace _).then ((says_trace _).map _)).bind (says_pure _)
      | ok file =>
          have hread := (says_trace (v := v) (Event.lexing source.length).text).then
            ((says_trace (Event.parsing tokens.length).text).then
              ((says_trace (Event.resolving file.moduleName).text).map
                fun _ => (.ok file.resolve : Validated SyntaxError SourceFile)))
          have hvalidate := (says_validate (v := v) file.resolve).map
            (Except.mapError Failure.invalid)
          rw [flatMap_ofDeclaration_resolve] at hvalidate
          simp only
          cases htypes : TypeDecl.ofFile file.resolve with
          | error problems =>
              rw [htypes] at hvalidate
              exact hread.bind hvalidate
          | ok types =>
              rw [htypes] at hvalidate
              exact hread.bind hvalidate

def writesOf (o : Outcome) : List Write := o.notices.map .notice ++ o.output.map .line

def endOf (o : Outcome) : Except Nat Unit := if o.exit = 0 then .ok () else .error o.exit

def diagnosticWrites (o : Options) (file source : String) (f : Failure) : List Write :=
  (f.diagnostics source).map fun d =>
    .notice (.diagnostic (d.render source (some file) (!o.noColour)))

theorem says_report (o : Options) (file source : String) (f : Failure) :
    Says v (report o file source f) (.ok ())
      (diagnosticWrites o file source f ++ [.notice (.error (summary file f))]) := by
  rw [diagnosticWrites, List.map_eq_flatMap]
  exact (says_forM (fun d => says_say rfl) _).then (says_say rfl)

theorem says_announce (o : Options) (file : String) :
    Says o.verbose (announce o file) (.ok ())
      [.notice (.log .info ("checking " ++ file ++ "..."))] := by
  intro before
  rw [announce]
  cases o.verbose with
  | true => rfl
  | false =>
      rw [List.filter_cons_of_neg Bool.false_ne_true, List.filter_nil, List.append_nil]
      rfl

theorem says_typeLines (debug : Bool) (types : List TypeDecl) :
    Says v ((typeLines debug types).forM print) (.ok ()) ((typeLines debug types).map .line) := by
  rw [List.map_eq_flatMap]
  exact says_forM says_print _

theorem says_checkSource (o : Options) (file source : String) :
    Says o.verbose (checkSource o file source) (endOf (runCheck o file source))
      (writesOf (runCheck o file source)) := by
  have hcheck := says_check (v := o.verbose) source
  cases h : ElmTypes.check source with
  | ok types =>
      have hwrites : writesOf (runCheck o file source) =
          .notice (.log .info ("checking " ++ file ++ "...")) :: (course (journal source) ++
            .notice (.log .trace ("found " ++ toString types.length ++ " type declarations")) ::
              (typeLines o.debug types).map .line) := by
        simp [writesOf, runCheck, h, course]
      have hend : endOf (runCheck o file source) = .ok () := by
        simp [endOf, runCheck, h]
      rw [h] at hcheck
      rw [hwrites, hend, checkSource]
      exact (says_announce o file).then
        (hcheck.bind ((says_trace _).then (says_typeLines o.debug types)))
  | error f =>
      have hwrites : writesOf (runCheck o file source) =
          .notice (.log .info ("checking " ++ file ++ "...")) :: (course (journal source) ++
            (diagnosticWrites o file source f ++ [.notice (.error (summary file f))] ++ [])) := by
        simp [writesOf, runCheck, h, course, diagnosticWrites, Function.comp_def]
      have hend : endOf (runCheck o file source) = .error 2 := by
        simp [endOf, runCheck, h]
      rw [h] at hcheck
      rw [hwrites, hend, checkSource]
      exact (says_announce o file).then
        (hcheck.bind ((says_report o file source f).then (says_throw 2)))

theorem says_checkFile (files : Files) (o : Options) :
    Says o.verbose (checkFile files o) (endOf (runFile files o)) (writesOf (runFile files o)) := by
  rw [checkFile, runFile]
  cases o.file with
  | none => exact (says_say rfl).then ((says_say rfl).then (says_throw 1))
  | some file =>
      simp only
      cases files.text file with
      | error fault => exact (says_say rfl).then (says_throw 2)
      | ok source => exact says_checkSource o file source

theorem says_identify (compiler : String) (o : Options) :
    Says v (identify compiler o) (.ok ()) ((identification compiler o).map .line) := by
  rw [identify, identification]
  cases o.verbose with
  | true =>
      rw [Bool.or_true]
      exact (says_print _).then (says_print _)
  | false =>
      cases o.version with
      | true => exact (says_print _).then (says_pure ())
      | false => exact says_pure ()

def introduction (compiler : String) (o : Options) : List String :=
  if o.help then [] else identification compiler o

def serviceOf (files : Files) (o : Options) : List Write :=
  if o.help then [.line usage] else if o.version then [] else writesOf (runFile files o)

def endOfService (files : Files) (o : Options) : Except Nat Unit :=
  if o.help || o.version then .ok () else endOf (runFile files o)

theorem says_obey (compiler : String) (files : Files) (o : Options) :
    Says o.verbose (obey compiler files o) (endOfService files o)
      ((introduction compiler o).map .line ++ serviceOf files o) := by
  rw [obey, endOfService, introduction, serviceOf]
  cases o.help with
  | true => exact says_print usage
  | false =>
      have hidentify := says_identify (v := o.verbose) compiler o
      cases o.version with
      | true => exact hidentify.then (says_pure ())
      | false => exact hidentify.then (says_checkFile files o)

theorem filterMap_line?_filter_isShown (ws : List Write) :
    (ws.filter (Write.isShown v)).filterMap Write.line? = ws.filterMap Write.line? := by
  rw [List.filterMap_filter]
  congr 1
  funext w
  cases w with
  | line text => rfl
  | notice n => exact ite_self none

theorem filterMap_notice?_filter_isShown (ws : List Write) :
    (ws.filter (Write.isShown v)).filterMap Write.notice? =
      (ws.filterMap Write.notice?).filter fun n => v || !n.isVerbose := by
  rw [List.filterMap_filter, List.filter_filterMap]
  congr 1
  funext w
  cases w with
  | line text => rfl
  | notice n => rfl

def exitCode : Except Nat Unit → Nat
  | .ok _ => 0
  | .error exit => exit

def left (verbose : Bool) (r : Except Nat Unit) (ws : List Write) : Outcome where
  exit := exitCode r
  output := ws.filterMap Write.line?
  notices := (ws.filterMap Write.notice?).filter fun n => verbose || !n.isVerbose

theorem Says.outcome {m : Session Unit} {r : Except Nat Unit} (h : Says v m r ws) :
    (do setVerbose v; m : Session Unit).outcome = left v r ws := by
  have hm : (do setVerbose v; m : Session Unit) ⟨false, []⟩ =
      ended r ⟨v, ws.filter (Write.isShown v)⟩ := h []
  rw [Session.outcome, hm, left, ← filterMap_line?_filter_isShown (v := v),
    ← filterMap_notice?_filter_isShown]
  cases r with
  | ok _ => rfl
  | error exit => rfl

theorem exitCode_endOf (o : Outcome) : exitCode (endOf o) = o.exit := by
  rw [endOf]
  split
  · rename_i h
    exact h.symm
  · rfl

theorem filterMap_line?_line (texts : List String) :
    (texts.map Write.line).filterMap Write.line? = texts := by
  rw [List.filterMap_map]
  exact List.filterMap_some

theorem filterMap_notice?_line (texts : List String) :
    (texts.map Write.line).filterMap Write.notice? = [] := by
  rw [List.filterMap_map]
  exact List.filterMap_eq_nil_iff.2 fun _ _ => rfl

theorem filterMap_line?_writesOf (o : Outcome) :
    (writesOf o).filterMap Write.line? = o.output := by
  have hnotices : (o.notices.map Write.notice).filterMap Write.line? = [] := by
    rw [List.filterMap_map]
    exact List.filterMap_eq_nil_iff.2 fun _ _ => rfl
  rw [writesOf, List.filterMap_append, hnotices, filterMap_line?_line, List.nil_append]

theorem filterMap_notice?_writesOf (o : Outcome) :
    (writesOf o).filterMap Write.notice? = o.notices := by
  have hnotices : (o.notices.map Write.notice).filterMap Write.notice? = o.notices := by
    rw [List.filterMap_map]
    exact List.filterMap_some
  rw [writesOf, List.filterMap_append, hnotices, filterMap_notice?_line, List.append_nil]

theorem left_lines (r : Except Nat Unit) (texts : List String) :
    left v r (texts.map .line ++ ws) = (left v r ws).precededBy texts := by
  simp only [left, Outcome.precededBy, List.filterMap_append, filterMap_line?_line,
    filterMap_notice?_line, List.nil_append]

theorem left_writesOf (o : Outcome) :
    left v (endOf o) (writesOf o) =
      { o with notices := o.notices.filter fun n => v || !n.isVerbose } := by
  rw [left, exitCode_endOf, filterMap_line?_writesOf, filterMap_notice?_writesOf]

theorem outcome_obey (compiler : String) (files : Files) (o : Options) :
    (do setVerbose o.verbose; obey compiler files o : Session Unit).outcome =
      runOptions compiler files o := by
  rw [(says_obey compiler files o).outcome, left_lines, runOptions, introduction,
    serviceOf, endOfService]
  cases o.help with
  | true => rfl
  | false =>
      cases o.version with
      | true => exact congrArg (Outcome.mk 0 · []) (List.append_nil _)
      | false =>
          simp only [Bool.or_self, Bool.false_eq_true, if_false, left_writesOf]
          rfl

theorem outcome_perform (compiler : String) (files : Files) (arguments : List String) :
    (perform compiler files arguments).outcome = run compiler files arguments := by
  rw [perform, run]
  cases Options.ofArguments arguments with
  | error unknown => rfl
  | ok o => exact outcome_obey compiler files o

end Session

end ElmTypes.CommandLine
