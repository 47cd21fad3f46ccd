import ElmTypes.Lexeme.Basic

namespace ElmTypes.Lexeme.Shader

def mark : List Char := ['g', 'l', 's', 'l', '|']

def text? : List Char → Option (List Char)
  | '|' :: ']' :: _ => some []
  | c :: cs => (text? cs).map (c :: ·)
  | [] => none

theorem eq_append_of_text? {cs text : List Char} (h : text? cs = some text) :
    ∃ rest, cs = text ++ '|' :: ']' :: rest := by
  fun_induction text? cs generalizing text with
  | case1 rest =>
      cases h
      exact ⟨rest, rfl⟩
  | case2 c cs _ ih =>
      obtain ⟨t, ht, rfl⟩ := Option.map_eq_some_iff.1 h
      obtain ⟨rest, hrest⟩ := ih ht
      exact ⟨rest, by simp [hrest]⟩
  | case3 => simp at h

def read (cs : List Char) : Except LexicalError Lexeme :=
  match text? (cs.drop mark.length) with
  | some text => .ok ⟨some (.string (String.ofList text)), mark.length + text.length + 2⟩
  | none => .error ⟨.unfinished .shader, ⟨0, mark.length + 1⟩⟩

end ElmTypes.Lexeme.Shader
