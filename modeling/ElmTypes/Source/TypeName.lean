import ElmTypes.Span

namespace ElmTypes

def splitLastDot : List Char → Option (List Char × List Char)
  | [] => none
  | c :: cs =>
      match splitLastDot cs with
      | some (before, after) => some (c :: before, after)
      | none => if c = '.' then some ([], cs) else none

theorem splitLastDot_eq_none_iff {cs : List Char} : splitLastDot cs = none ↔ '.' ∉ cs := by
  induction cs with
  | nil => simp [splitLastDot]
  | cons c cs ih => grind [splitLastDot]

theorem eq_append_of_splitLastDot {cs before after : List Char}
    (h : splitLastDot cs = some (before, after)) : cs = before ++ '.' :: after := by
  induction cs generalizing before after with
  | nil => simp [splitLastDot] at h
  | cons c cs ih => grind [splitLastDot]

theorem not_mem_of_splitLastDot {cs before after : List Char}
    (h : splitLastDot cs = some (before, after)) : '.' ∉ after := by
  induction cs generalizing before after with
  | nil => simp [splitLastDot] at h
  | cons c cs ih => grind [splitLastDot, splitLastDot_eq_none_iff]

/-- A reference to a type. The module is the qualifier that was written, or the module that the
name has been found to come from. -/
structure TypeName where
  module : Option String
  name : String
  span : Span
deriving DecidableEq

namespace TypeName

def ofWord (word : String) (span : Span) : TypeName :=
  match splitLastDot word.toList with
  | some (module, name) => ⟨some (String.ofList module), String.ofList name, span⟩
  | none => ⟨none, word, span⟩

def text (n : TypeName) : String :=
  match n.module with
  | some module => module ++ "." ++ n.name
  | none => n.name

def refersTo (n : TypeName) (module name : String) : Bool :=
  -- a reference without a module is known by its name alone
  n.name == name && n.module.all (· == module)

theorem text_ofWord (word : String) (span : Span) : (ofWord word span).text = word := by
  unfold ofWord
  split
  · rename_i module name h
    have hw := eq_append_of_splitLastDot h
    simp only [text]
    rw [← String.toList_inj]
    simp [hw]
  · rfl

end TypeName

end ElmTypes
