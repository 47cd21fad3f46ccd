namespace ElmTypes

def parenthesize (needed : Bool) (text : String) : String :=
  if needed then "(" ++ text ++ ")" else text

def plural (count : Nat) : String := if count = 1 then "" else "s"

def counted (count : Nat) (noun : String) : String :=
  toString count ++ " " ++ noun ++ plural count

end ElmTypes
