namespace ElmTypes.Unicode

def covered (ranges : List (Nat × Nat)) (point : Nat) : Bool :=
  ranges.any fun range => range.1 ≤ point && point ≤ range.2

end ElmTypes.Unicode
