import ElmTypes.Unicode.Printable

namespace ElmTypes.Quoted

def codePoint (c : Char) : String :=
  "\\u\x7b" ++ String.ofList (Nat.toDigits 16 c.toNat) ++ "\x7d"

def escape (mark c : Char) : String :=
  if c = '\t' then "\\t"
  else if c = '\r' then "\\r"
  else if c = '\n' then "\\n"
  else if c = '\x00' then "\\0"
  else if c = '\\' || c = mark then String.ofList ['\\', c]
  else if Unicode.isPrintable c then c.toString
  else codePoint c

def enclose (mark : Char) (text : List Char) : String :=
  mark.toString ++ String.join (text.map (escape mark)) ++ mark.toString

def string (text : String) : String := enclose '"' text.toList

def char (c : Char) : String := enclose '\'' [c]

end ElmTypes.Quoted
