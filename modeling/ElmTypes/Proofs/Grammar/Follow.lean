import ElmTypes.Proofs.Grammar.Derivation
import ElmTypes.Proofs.Lexical.Words

namespace ElmTypes

open Reader

def atomOpeners : List Expected :=
  [.lowercaseName, .capitalisedName, .opening .round, .opening .brace]

def opensAtom (ahead : List Token) : Bool := atomOpeners.any fun e => opens e ahead

structure Ends (rest : List Token) : Prop where
  atom : opensAtom rest = false
  arrow : opens (.symbol .arrow) rest = false

def Inside (ts : List Token) : Prop := ∀ t ∈ ts, t.startsDeclaration = false

theorem Inside.of_subset {ts us : List Token} (h : Inside us) (hs : ts ⊆ us) : Inside ts :=
  fun t ht => h t (hs ht)

theorem opens_cons (e : Expected) (t : Token) (ts : List Token) :
    opens e (t :: ts) = (e.accepts t.kind && !t.startsDeclaration) := rfl

theorem opens_eq_false_of_starts {e : Expected} {ts : List Token}
    (h : ∀ t ∈ ts.head?, t.startsDeclaration = true) : opens e ts = false := by
  cases ts with
  | nil => rfl
  | cons t ts => simp [opens_cons, h t rfl]

theorem Ends.of_starts {ts : List Token} (h : ∀ t ∈ ts.head?, t.startsDeclaration = true) :
    Ends ts := by
  refine ⟨?_, opens_eq_false_of_starts h⟩
  simp [opensAtom, opens_eq_false_of_starts h]

theorem Ends.closing {t : Token} {b : Bracket} (h : t.kind = .closing b) (ts : List Token) :
    Ends (t :: ts) := by
  refine ⟨?_, ?_⟩ <;>
    simp [opensAtom, atomOpeners, opens_cons, h, Expected.accepts, TokenKind.lowercaseName?,
      TokenKind.capitalisedName?]

theorem Ends.symbol {t : Token} {s : Symbol} (h : t.kind = .symbol s) (hs : s ≠ .arrow)
    (ts : List Token) : Ends (t :: ts) := by
  refine ⟨?_, ?_⟩ <;>
    simp [opensAtom, atomOpeners, opens_cons, h, hs, Expected.accepts, TokenKind.lowercaseName?,
      TokenKind.capitalisedName?]

namespace TokenKind

def BeginsAtom (k : TokenKind) : Prop := ∃ e ∈ atomOpeners, e.accepts k = true

theorem lowercaseName?_eq_none_of_capitalised {k : TokenKind} {w : String}
    (h : k.capitalisedName? = some w) : k.lowercaseName? = none := by
  obtain ⟨rfl, hc⟩ := capitalisedName?_eq_some_iff.1 h
  simp [lowercaseName?, Word.isLowercase, Word.beginsUppercase_of_isCapitalised hc]

theorem capitalisedName?_eq_none_of_lowercase {k : TokenKind} {w : String}
    (h : k.lowercaseName? = some w) : k.capitalisedName? = none := by
  cases hc : k.capitalisedName? with
  | none => rfl
  | some v => simp [lowercaseName?_eq_none_of_capitalised hc] at h

variable {k : TokenKind}

theorem BeginsAtom.accepts_closing (h : k.BeginsAtom) (b : Bracket) :
    (Expected.closing b).accepts k = false := by
  obtain ⟨e, he, hk⟩ := h
  cases k with
  | closing b' =>
      simp only [atomOpeners, List.mem_cons, List.not_mem_nil, or_false] at he
      rcases he with rfl | rfl | rfl | rfl <;>
        simp [Expected.accepts, lowercaseName?, capitalisedName?] at hk
  | _ => rfl

theorem BeginsAtom.of_lowercase {w : String} (h : k.lowercaseName? = some w) : k.BeginsAtom :=
  ⟨.lowercaseName, by simp [atomOpeners], by simp [Expected.accepts, h]⟩

theorem BeginsAtom.of_capitalised {w : String} (h : k.capitalisedName? = some w) : k.BeginsAtom :=
  ⟨.capitalisedName, by simp [atomOpeners], by simp [Expected.accepts, h]⟩

end TokenKind

def Begins (ts : List Token) : Prop := ∃ t us, ts = t :: us ∧ t.kind.BeginsAtom

section

variable {ts us rest : List Token} {a : TypeExpr}

open TokenKind in
theorem Derives.begins_atom (h : Derives ts (.atom a)) : Begins ts := by
  cases h with
  | typeVariable ht => exact ⟨_, _, rfl, .of_lowercase ht⟩
  | named ht => exact ⟨_, _, rfl, .of_capitalised ht⟩
  | unit hl | parenthesized hl | tuple hl =>
      exact ⟨_, _, rfl, .opening .round, by simp [atomOpeners], by simp [Expected.accepts, hl]⟩
  | emptyRecord hl | record hl | extensible hl =>
      exact ⟨_, _, rfl, .opening .brace, by simp [atomOpeners], by simp [Expected.accepts, hl]⟩

theorem Derives.begins_application (h : Derives ts (.application a)) : Begins ts := by
  cases h with
  | applied ht => exact ⟨_, _, rfl, .of_capitalised ht⟩
  | ofAtom ha => exact ha.begins_atom

theorem Derives.begins_type (h : Derives ts (.type a)) : Begins ts := by
  cases h with
  | function ha =>
      obtain ⟨t, us, rfl, ht⟩ := ha.begins_application
      exact ⟨t, _, rfl, ht⟩
  | ofApplication ha => exact ha.begins_application

theorem Begins.ne_nil (h : Begins ts) : ts ≠ [] := by
  obtain ⟨t, us, rfl, -⟩ := h
  exact List.cons_ne_nil t us

theorem Begins.opens_closing (h : Begins ts) (b : Bracket) (us : List Token) :
    opens (.closing b) (ts ++ us) = false := by
  obtain ⟨t, ts, rfl, ht⟩ := h
  rw [List.cons_append, opens_cons, ht.accepts_closing, Bool.false_and]

theorem Begins.opensAtom (h : Begins ts) (hin : Inside ts) (us : List Token) :
    opensAtom (ts ++ us) = true := by
  obtain ⟨t, ts, rfl, e, he, ht⟩ := h
  rw [ElmTypes.opensAtom, List.any_eq_true]
  refine ⟨e, he, ?_⟩
  rw [List.cons_append, opens_cons, ht, hin t List.mem_cons_self]
  rfl

theorem opens_closing {r : Token} {b : Bracket} (hr : r.kind = .closing b)
    (hin : r.startsDeclaration = false) : opens (.closing b) (r :: rest) = true := by
  simp [opens_cons, Expected.accepts_closing_iff.2 hr, hin]

theorem opens_lowercaseName {t : Token} {w : String} (ht : t.kind.lowercaseName? = some w)
    (hin : t.startsDeclaration = false) : opens .lowercaseName (t :: rest) = true := by
  simp [opens_cons, Expected.accepts, ht, hin]

theorem opens_capitalisedName {t : Token} {w : String} (ht : t.kind.capitalisedName? = some w)
    (hin : t.startsDeclaration = false) (rest : List Token) :
    opens .lowercaseName (t :: rest) = false ∧ opens .capitalisedName (t :: rest) = true := by
  simp [opens_cons, Expected.accepts, ht, hin, TokenKind.lowercaseName?_eq_none_of_capitalised ht]

end

end ElmTypes
