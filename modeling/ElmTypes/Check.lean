import ElmTypes.DataType.OfSource
import ElmTypes.Grammar.File
import ElmTypes.Position
import ElmTypes.Scope
import ElmTypes.Token.Lex

namespace ElmTypes

def SourceFile.parse (source : String) : Validated SyntaxError SourceFile :=
  match lex source with
  | .ok tokens => SourceFile.ofTokens tokens
  | .error e => .error [.ofLexical e]

theorem SourceFile.parse_eq_ok_iff {source : String} {file : SourceFile} :
    SourceFile.parse source = .ok file ↔
      ∃ tokens, lex source = .ok tokens ∧ SourceFile.ofTokens tokens = .ok file := by
  unfold SourceFile.parse
  cases lex source with
  | error e => simp
  | ok tokens => simp

inductive Failure where
  | malformed (errors : List SyntaxError)
  | invalid (problems : List Problem)

def check (source : String) : Except Failure (List TypeDecl) :=
  match SourceFile.parse source with
  | .error errors => .error (.malformed errors)
  | .ok file =>
      match TypeDecl.ofFile file.resolve with
      | .error problems => .error (.invalid problems)
      | .ok types => .ok types

namespace Failure

def message : Failure → String
  | .malformed _ => "the source could not be parsed"
  | .invalid _ => "the declarations could not be validated"

def count : Failure → Nat
  | .malformed errors => errors.length
  | .invalid problems => problems.length

def isEmpty (f : Failure) : Bool := f.count == 0

def line (text : List Char) (span : Span) (message : String) (notes : List String) : String :=
  let p := span.position text
  toString p.line ++ ":" ++ toString p.column ++ ": " ++ message
    ++ (if notes.isEmpty then "" else " (" ++ "; ".intercalate notes ++ ")")

def lines (text : List Char) : Failure → List String
  | .malformed errors => errors.map fun e => line text e.span e.message e.notes
  | .invalid problems => problems.map fun p => line text p.span p.cause.message []

def report (f : Failure) (source : String) : String := "\n".intercalate (f.lines source.toList)

end Failure

end ElmTypes
