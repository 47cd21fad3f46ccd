namespace ElmTypes.Report

inductive Style where
  | error | lineNumber | help | bold
deriving DecidableEq

def Style.code : Style → String
  | .error => "1;38;5;9"
  | .lineNumber => "1;38;5;12"
  | .help => "1;38;5;14"
  | .bold => "1"

def paint (colour : Bool) (style : Style) (text : String) : String :=
  if colour then "\x1b[" ++ style.code ++ "m" ++ text ++ "\x1b[0m" else text

end ElmTypes.Report
