import ElmTypes.Check

namespace ElmTypes

structure Label where
  span : Span
  text : String
deriving DecidableEq

inductive Footer where
  | help (text : String)
  | note (text : String)
deriving DecidableEq

structure Diagnostic where
  title : String
  labels : List Label
  footers : List Footer
deriving DecidableEq

namespace Diagnostic

def ofTitle (title : String) : Diagnostic := ⟨title, [], []⟩

def addLabel (d : Diagnostic) (span : Span) (text : String) : Diagnostic :=
  { d with labels := d.labels ++ [⟨span, text⟩] }

def addEndLabel (d : Diagnostic) (source : String) : Diagnostic :=
  match source.length with
  | 0 => d
  | n + 1 => d.addLabel ⟨n, 1⟩ ""

def addFooter (d : Diagnostic) (footer : Footer) : Diagnostic :=
  { d with footers := d.footers ++ [footer] }

/-- The complaint about a label that ends past the source and cannot be shown. -/
def misplaced? (d : Diagnostic) (source : String) : Option String :=
  (d.labels.find? fun l => source.length < l.span.stop).map fun l =>
    "SourceAnnotation range `(" ++ toString l.span.start ++ ", " ++ toString l.span.stop
      ++ ")` is bigger than source length `" ++ toString source.length ++ "`"

def ofSyntaxError (source : String) (e : SyntaxError) : Diagnostic :=
  let d := ofTitle e.message
  let d := if e.span.isEmpty then d.addEndLabel source else d.addLabel e.span ""
  (e.notes.map Footer.note).foldl addFooter d

def ofProblem (p : Problem) : Diagnostic :=
  ⟨p.cause.message, [⟨p.span, p.cause.label⟩], [.help p.cause.help]⟩

end Diagnostic

def Failure.diagnostics (f : Failure) (source : String) : List Diagnostic :=
  match f with
  | .malformed errors => errors.map (Diagnostic.ofSyntaxError source)
  | .invalid problems => problems.map Diagnostic.ofProblem

end ElmTypes
