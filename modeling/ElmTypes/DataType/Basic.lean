import ElmTypes.Container
import ElmTypes.Text.Phrase

namespace ElmTypes

inductive BaseType where
  | string | int | float
  | other (name : String)
deriving DecidableEq

def BaseType.text : BaseType → String
  | .string => "String"
  | .int => "Int"
  | .float => "Float"
  | .other name => name

def BaseType.ofTypeName (n : TypeName) : BaseType :=
  if n.refersTo "String" "String" then .string
  else if n.refersTo "Basics" "Int" then .int
  else if n.refersTo "Basics" "Float" then .float
  else .other n.name

inductive DataType where
  | record (fields : List (String × DataType))
  | tuple (elements : List DataType)
  | list (element : DataType)
  | maybe (element : DataType)
  | dict (key value : DataType)
  | result (error value : DataType)
  | base (base : BaseType) (arguments : List DataType)

namespace DataType

mutual

def same : DataType → DataType → Bool
  | .record fs, .record gs => sameFields fs gs
  | .tuple ts, .tuple us => sameAll ts us
  | .list t, .list u => same t u
  | .maybe t, .maybe u => same t u
  | .dict k v, .dict l w => same k l && same v w
  | .result e v, .result f w => same e f && same v w
  | .base b ts, .base c us => b == c && sameAll ts us
  | _, _ => false

def sameAll : List DataType → List DataType → Bool
  | [], [] => true
  | t :: ts, u :: us => same t u && sameAll ts us
  | _, _ => false

def sameFields : List (String × DataType) → List (String × DataType) → Bool
  | [], [] => true
  | (m, t) :: fs, (n, u) :: gs => m == n && same t u && sameFields fs gs
  | _, _ => false

end

mutual

theorem eq_of_same : ∀ {t u : DataType}, same t u = true → t = u
  | .record fs, u, h => by
      cases u <;> simp only [same, Bool.false_eq_true] at h
      rw [eq_of_sameFields h]
  | .tuple ts, u, h => by
      cases u <;> simp only [same, Bool.false_eq_true] at h
      rw [eq_of_sameAll h]
  | .list t, u, h => by
      cases u <;> simp only [same, Bool.false_eq_true] at h
      rw [eq_of_same h]
  | .maybe t, u, h => by
      cases u <;> simp only [same, Bool.false_eq_true] at h
      rw [eq_of_same h]
  | .dict k v, u, h => by
      cases u <;> simp only [same, Bool.false_eq_true, Bool.and_eq_true] at h
      rw [eq_of_same h.1, eq_of_same h.2]
  | .result e v, u, h => by
      cases u <;> simp only [same, Bool.false_eq_true, Bool.and_eq_true] at h
      rw [eq_of_same h.1, eq_of_same h.2]
  | .base b ts, u, h => by
      cases u <;> simp only [same, Bool.false_eq_true, Bool.and_eq_true, beq_iff_eq] at h
      rw [h.1, eq_of_sameAll h.2]

theorem eq_of_sameAll : ∀ {ts us : List DataType}, sameAll ts us = true → ts = us
  | [], us, h => by
      cases us <;> simp only [sameAll, Bool.false_eq_true] at h
      rfl
  | t :: ts, us, h => by
      cases us <;> simp only [sameAll, Bool.false_eq_true, Bool.and_eq_true] at h
      rw [eq_of_same h.1, eq_of_sameAll h.2]

theorem eq_of_sameFields :
    ∀ {fs gs : List (String × DataType)}, sameFields fs gs = true → fs = gs
  | [], gs, h => by
      cases gs <;> simp only [sameFields, Bool.false_eq_true] at h
      rfl
  | (m, t) :: fs, gs, h => by
      cases gs <;> simp only [sameFields, Bool.false_eq_true, Bool.and_eq_true, beq_iff_eq] at h
      rw [h.1.1, eq_of_same h.1.2, eq_of_sameFields h.2]

end

mutual

theorem same_self : ∀ t : DataType, same t t = true
  | .record fs => by simp [same, sameFields_self fs]
  | .tuple ts => by simp [same, sameAll_self ts]
  | .list t => by simp [same, same_self t]
  | .maybe t => by simp [same, same_self t]
  | .dict k v => by simp [same, same_self k, same_self v]
  | .result e v => by simp [same, same_self e, same_self v]
  | .base b ts => by simp [same, sameAll_self ts]

theorem sameAll_self : ∀ ts : List DataType, sameAll ts ts = true
  | [] => rfl
  | t :: ts => by simp [sameAll, same_self t, sameAll_self ts]

theorem sameFields_self : ∀ fs : List (String × DataType), sameFields fs fs = true
  | [] => rfl
  | (m, t) :: fs => by simp [sameFields, same_self t, sameFields_self fs]

end

theorem same_eq_true_iff {t u : DataType} : same t u = true ↔ t = u :=
  ⟨eq_of_same, fun h => h ▸ same_self t⟩

instance : DecidableEq DataType := fun _ _ => decidable_of_iff _ same_eq_true_iff

def isCompound : DataType → Bool
  | .list _ | .maybe _ | .dict .. | .result .. => true
  | .base _ arguments => !arguments.isEmpty
  | .record _ | .tuple _ => false

def applied (name : String) (arguments : List String) : String :=
  " ".intercalate (name :: arguments)

mutual

def text : DataType → String
  | .record [] => "\x7b\x7d"
  | .record (field :: fields) =>
      "\x7b " ++ ", ".intercalate (fieldTexts (field :: fields)) ++ " \x7d"
  | .tuple [] => "()"
  | .tuple (t :: ts) => "( " ++ ", ".intercalate (elementTexts (t :: ts)) ++ " )"
  | .list t => applied Container.list.name [parenthesize t.isCompound t.text]
  | .maybe t => applied Container.maybe.name [parenthesize t.isCompound t.text]
  | .dict k v =>
      applied Container.dict.name
        [parenthesize k.isCompound k.text, parenthesize v.isCompound v.text]
  | .result e v =>
      applied Container.result.name
        [parenthesize e.isCompound e.text, parenthesize v.isCompound v.text]
  | .base b arguments => applied b.text (argumentTexts arguments)

def argumentTexts : List DataType → List String
  | [] => []
  | t :: ts => parenthesize t.isCompound t.text :: argumentTexts ts

def elementTexts : List DataType → List String
  | [] => []
  | t :: ts => t.text :: elementTexts ts

def fieldTexts : List (String × DataType) → List String
  | [] => []
  | (name, t) :: fields => (name ++ " : " ++ t.text) :: fieldTexts fields

end

end DataType

end ElmTypes
