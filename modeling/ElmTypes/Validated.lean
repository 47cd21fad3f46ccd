namespace ElmTypes

abbrev Validated (ε α : Type) := Except (List ε) α

namespace Validated

variable {ε α β : Type}

def problems : Validated ε α → List ε
  | .ok _ => []
  | .error es => es

def cons : Validated ε α → Validated ε (List α) → Validated ε (List α)
  | .ok v, .ok vs => .ok (v :: vs)
  | .ok _, .error es => .error es
  -- a failure that names no problem counts neither as a value nor as a problem
  | .error [], rest => rest
  | .error (e :: es), rest => .error (e :: es ++ rest.problems)

def accumulate : List (Validated ε α) → Validated ε (List α)
  | [] => .ok []
  | r :: rs => cons r (accumulate rs)

@[simp] theorem accumulate_nil : accumulate ([] : List (Validated ε α)) = .ok [] := rfl

@[simp] theorem accumulate_cons (r : Validated ε α) (rs : List (Validated ε α)) :
    accumulate (r :: rs) = cons r (accumulate rs) := rfl

theorem problems_cons (r : Validated ε α) (rest : Validated ε (List α)) :
    (cons r rest).problems = r.problems ++ rest.problems := by
  rcases r with (_ | ⟨e, es⟩) | v <;> rcases rest with fs | vs <;> simp [cons, problems]

theorem problems_accumulate (rs : List (Validated ε α)) :
    (accumulate rs).problems = rs.flatMap problems := by
  induction rs with
  | nil => rfl
  | cons r rs ih => simp [problems_cons, ih]

end Validated

end ElmTypes
