import ElmTypes.Report.Snippet
import ElmTypes.Report.Style

namespace ElmTypes.Report

def blanks (n : Nat) : String := String.ofList (List.replicate n ' ')

structure Frame where
  colour : Bool
  numberWidth : Nat
  marksWidth : Nat

namespace Frame

def ofRows (colour : Bool) (rows : List Row) : Frame :=
  let numbers := rows.filterMap fun r => r.line?.map SourceLine.number
  { colour
    numberWidth := (numbers.max?.map fun n => (toString n).length).getD 0
    marksWidth := ((rows.map fun r => r.marks.length).max?).getD 0 }

def marks (f : Frame) (marks : List Char) : String :=
  blanks (f.marksWidth - marks.length)
    ++ String.join (marks.map fun m => paint f.colour .error m.toString)

def margin (f : Frame) (number : Option Nat) : String :=
  let digits := (number.map toString).getD ""
  paint f.colour .lineNumber (blanks (f.numberWidth - digits.length) ++ digits ++ " |")

def gutter (f : Frame) (marks : List Char) : String :=
  if f.marksWidth = 0 then "" else " " ++ f.marks marks

def underline (f : Frame) (u : Underline) : String :=
  let line := List.replicate (u.low + 1) u.fill ++ List.replicate (u.high - u.low) '^'
  paint f.colour .error (String.ofList line)
    ++ (if u.text.isEmpty then "" else " " ++ paint f.colour .error u.text)

def row (f : Frame) (r : Row) : String :=
  match r.content with
  | .fold => "..." ++ (if f.marksWidth = 0 then "" else blanks f.numberWidth ++ f.marks r.marks)
  | .blank => f.margin none
  | .source l => f.margin (some l.number) ++ f.gutter r.marks ++ " " ++ String.ofList l.text
  | .underline u => f.margin none ++ f.gutter r.marks ++ f.underline u

def heading (f : Frame) : Footer → String
  | .help _ => paint f.colour .help "help"
  | .note _ => paint f.colour .bold "note"

def footer (f : Frame) (footer : Footer) : List String :=
  let text := match footer with
    | .help text | .note text => text
  match (textLines text.toList).map fun l => String.ofList l.text with
  | [] => []
  | line :: lines =>
      (blanks f.numberWidth ++ " " ++ paint f.colour .lineNumber "=" ++ " " ++ f.heading footer
        ++ (if line.isEmpty then "" else ": " ++ line))
      :: lines.map fun line => blanks (f.numberWidth + 9) ++ line

end Frame

/-- The name of the source with the line and column of the first label, the column counted in
characters; the beginning of the source if that label lies in no line that is shown. -/
def place (origin : String) (labels : List Label) (rows : List Row) : String :=
  match labels with
  | [] => origin
  | l :: _ =>
      match (rows.filterMap Row.line?).find? fun line => line.holds l.span.start with
      | some line =>
          origin ++ ":" ++ toString line.number ++ ":"
            ++ toString (l.span.start - line.start + 1)
      | none => origin ++ ":1:1"

end ElmTypes.Report

namespace ElmTypes

open Report in
def Diagnostic.render (source : String) (origin : Option String) (colour : Bool)
    (d : Diagnostic) : String :=
  let rows := snippet source d.labels
  let frame := Frame.ofRows colour rows
  let title :=
    paint colour .error "error"
      ++ (if d.title.isEmpty then "" else ": " ++ paint colour .bold d.title)
  let header := origin.toList.map fun origin =>
    blanks frame.numberWidth ++ paint colour .lineNumber "-->" ++ " " ++ place origin d.labels rows
  let body := (Row.plain .blank :: rows ++ [Row.plain .blank]).map frame.row
  "\n".intercalate (title :: header ++ body ++ d.footers.flatMap frame.footer)

end ElmTypes
