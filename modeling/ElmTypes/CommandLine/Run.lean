import ElmTypes.CommandLine.Options
import ElmTypes.DataType.Outline
import ElmTypes.Event
import ElmTypes.Report.Render

namespace ElmTypes.CommandLine

inductive ReadFault where
  | missing
  | directory
  | notText
  | other (text : String)
deriving DecidableEq

def ReadFault.text : ReadFault → String
  | .missing => "No such file or directory (os error 2)"
  | .directory => "Is a directory (os error 21)"
  | .notText => "stream did not contain valid UTF-8"
  | .other text => text

abbrev Files := String → Except ReadFault ByteArray

def Files.text (files : Files) (name : String) : Except ReadFault String :=
  match files name with
  | .error fault => .error fault
  | .ok bytes =>
      match String.fromUTF8? bytes with
      | some text => .ok text
      | none => .error .notText

inductive Notice where
  | log (level : Level) (text : String)
  | diagnostic (text : String)
  | usage
deriving DecidableEq

def commandName : String := "elmshape"

def commandVersion : String := "0.1.0"

def usage : String :=
  "Usage: " ++ commandName ++ " [options] file\n"
    ++ "Options:\n"
    ++ "   -d, --debug - print the type model in its raw form\n"
    ++ "   -h, --help - view help\n"
    ++ "   --no-color - don't colour diagnostics\n"
    ++ "   -v, --verbose - enable verbose output\n"
    ++ "   -V, --version - show version\n"

namespace Notice

def text : Notice → String
  | .log level text => "[" ++ level.text ++ "] " ++ text ++ "\n"
  | .diagnostic text => text ++ "\n"
  | .usage => CommandLine.usage ++ "\n"

def error (text : String) : Notice := .log .error text

def ofEvent (e : Event) : Notice := .log e.level e.text

def isVerbose : Notice → Bool
  | .log .trace _ | .log .info _ => true
  | _ => false

end Notice

structure Outcome where
  exit : Nat
  output : List String
  notices : List Notice
deriving DecidableEq

namespace Outcome

def outputText (o : Outcome) : String := String.join (o.output.map (· ++ "\n"))

def noticeText (o : Outcome) : String := String.join (o.notices.map Notice.text)

end Outcome

def typeLines (debug : Bool) (types : List TypeDecl) : List String :=
  (types.map fun d => if debug then d.outline.text true 0 else d.text).intersperse ""

def summary (file : String) : Failure → String
  | .malformed errors =>
      "couldn't parse " ++ file ++ " due to " ++ counted errors.length "syntax error"
  | .invalid problems => "found " ++ counted problems.length "problem" ++ " in " ++ file

def runCheck (o : Options) (file source : String) : Outcome :=
  -- notices are listed whether they are wanted or not
  let course := .log .info ("checking " ++ file ++ "...") :: (journal source).map Notice.ofEvent
  match check source with
  | .ok types =>
      { exit := 0
        output := typeLines o.debug types
        notices :=
          course ++ [.log .trace ("found " ++ toString types.length ++ " type declarations")] }
  | .error f =>
      let diagnostics := (f.diagnostics source).map fun d =>
        .diagnostic (d.render source (some file) (!o.noColour))
      { exit := 2
        output := []
        notices := course ++ diagnostics ++ [.error (summary file f)] }

def runFile (files : Files) (o : Options) : Outcome :=
  match o.file with
  | none =>
      { exit := 1, output := [], notices := [.error "no source file provided", .usage] }
  | some file =>
      match files.text file with
      | .ok source => runCheck o file source
      | .error fault =>
          { exit := 2
            output := []
            notices := [.error ("couldn't read " ++ file ++ ": " ++ fault.text)] }

def identification (compiler : String) (o : Options) : List String :=
  (if o.version || o.verbose then [commandName ++ " " ++ commandVersion] else [])
    ++ (if o.verbose then ["Compiled with " ++ compiler] else [])

def runOptions (compiler : String) (files : Files) (o : Options) : Outcome :=
  if o.help then { exit := 0, output := [usage], notices := [] }
  else if o.version then { exit := 0, output := identification compiler o, notices := [] }
  else
    let outcome := runFile files o
    { exit := outcome.exit
      output := identification compiler o ++ outcome.output
      notices := outcome.notices.filter fun n => o.verbose || !n.isVerbose }

def run (compiler : String) (files : Files) (arguments : List String) : Outcome :=
  match Options.ofArguments arguments with
  | .ok o => runOptions compiler files o
  | .error unknown =>
      { exit := 1
        output := []
        notices :=
          [.error ("unknown argument" ++ plural unknown.length ++ ": " ++ ", ".intercalate unknown),
            .usage] }

def fileToRead? (arguments : List String) : Option String :=
  match Options.ofArguments arguments with
  | .ok o => if o.help || o.version then none else o.file
  | .error _ => none

end ElmTypes.CommandLine
