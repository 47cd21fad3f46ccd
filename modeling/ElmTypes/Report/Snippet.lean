import ElmTypes.Report.Diagnostic
import ElmTypes.Text.Lines
import ElmTypes.Unicode.Width

namespace ElmTypes.Report

structure SourceLine where
  number : Nat
  start : Nat
  text : List Char

namespace SourceLine

def stop (l : SourceLine) : Nat := l.start + l.text.length

def holds (l : SourceLine) (offset : Nat) : Bool := l.start ≤ offset && offset ≤ l.stop

/-- The columns of a terminal from the beginning of the line to an offset; the place of the line
ending takes one. -/
def columns (l : SourceLine) (offset : Nat) : Nat :=
  ((l.text.map Unicode.width ++ [1]).take (offset - l.start)).foldl Nat.add 0

def place (number start : Nat) : List TextLine → List SourceLine
  | [] => []
  | l :: ls => ⟨number, start, l.text⟩ :: place (number + 1) (start + l.text.length + l.ending) ls

def ofSource (source : String) : List SourceLine := place 1 0 (textLines source.toList)

end SourceLine

structure Underline where
  low : Nat
  high : Nat
  fill : Char
  text : String

inductive Content where
  | source (line : SourceLine)
  | underline (underline : Underline)
  | fold
  | blank

structure Row where
  content : Content
  marks : List Char

namespace Row

def plain (content : Content) : Row := ⟨content, []⟩

def line? (r : Row) : Option SourceLine :=
  match r.content with
  | .source l => some l
  | _ => none

def addMark (r : Row) (mark : Char) : Row := { r with marks := r.marks ++ [mark] }

end Row

structure Block where
  above : List Row
  last : Row

namespace Block

def ofLine (l : SourceLine) : Block := ⟨[], .plain (.source l)⟩

def rows (b : Block) : List Row := b.above ++ [b.last]

def mark (b : Block) (mark : Char) : Block := { b with last := b.last.addMark mark }

def add (b : Block) (row : Row) : Block := ⟨b.rows, row⟩

def bend (low : Nat) (text : String) : Content := .underline ⟨low, low + 1, '_', text⟩

def draw (line : SourceLine) (b : Block) (l : Label) : Block × Option Label :=
  let s := l.span.start
  let e := l.span.stop
  let a := line.start
  let z := line.stop
  if z < s then (b, some l)
  -- also the place of a line ending, which belongs to the line before it
  else if (a ≤ s && e ≤ z) || (s == z && e - s ≤ 1) then
    (b.add (.plain (.underline ⟨line.columns s, line.columns e, ' ', l.text⟩)), none)
  else if a ≤ s && z < e then
    if s = a then (b.mark '/', some l) else (b.add (.plain (bend (line.columns s) "")), some l)
  else if s < a && z < e then (b.mark '|', some l)
  else if s < a && a ≤ e then
    ((b.mark '|').add ⟨bend (line.columns e - 1) l.text, ['|']⟩, none)
  else (b, some l)

def drawAll (line : SourceLine) (b : Block) : List Label → Block × List Label
  | [] => (b, [])
  | l :: ls =>
      let (b, pending) := b.draw line l
      let (b, others) := b.drawAll line ls
      (b, pending.toList ++ others)

end Block

def annotate : List SourceLine → List Label → List Row
  | [], _ => []
  | line :: lines, labels =>
      let (b, pending) := (Block.ofLine line).drawAll line labels
      b.rows ++ annotate lines pending

def shorten (lines : List Row) (marks : List Char) : List Row :=
  -- of more than two lines only the last is kept, and of more than eight the first four and the
  -- last two; the fold for the others carries the marks of the underline that follows
  if lines.length ≤ 2 then lines
  else if lines.length ≤ 8 then ⟨.fold, marks⟩ :: lines.drop (lines.length - 1)
  else lines.take 4 ++ ⟨.fold, marks⟩ :: lines.drop (lines.length - 2)

/-- The rows that are kept. The lines in `run`, the nearest first, stand before them. Lines after
the last underline are not kept. -/
def keep (run : List Row) : List Row → List Row
  | [] => []
  | r :: rs =>
      if r.line?.isSome then keep (r :: run) rs
      else shorten run.reverse r.marks ++ r :: keep [] rs

def snippet (source : String) (labels : List Label) : List Row :=
  keep [] (annotate (SourceLine.ofSource source) labels)

end ElmTypes.Report
