namespace ElmTypes.Digits

def value (c : Char) : Nat :=
  if c.isDigit then c.toNat - '0'.toNat
  else if 'a' ≤ c && c ≤ 'f' then c.toNat - 'a'.toNat + 10
  else if 'A' ≤ c && c ≤ 'F' then c.toNat - 'A'.toNat + 10
  else 0

def isHex (c : Char) : Bool :=
  c.isDigit || ('a' ≤ c && c ≤ 'f') || ('A' ≤ c && c ≤ 'F')

def toNat (base : Nat) (digits : List Char) : Nat :=
  digits.foldl (fun n c => n * base + value c) 0

theorem toNat_append_singleton (base : Nat) (digits : List Char) (c : Char) :
    toNat base (digits ++ [c]) = toNat base digits * base + value c := by
  simp [toNat]

end ElmTypes.Digits
