import ElmTypes.Proofs.Lexical.Tiling

namespace ElmTypes

namespace Lexeme.Quoted

inductive Control where
  | lineFeed | carriageReturn | tab | quote | apostrophe | backslash
deriving DecidableEq

namespace Control

def letter : Control → Char
  | .lineFeed => 'n'
  | .carriageReturn => 'r'
  | .tab => 't'
  | .quote => '"'
  | .apostrophe => '\''
  | .backslash => '\\'

def char : Control → Char
  | .lineFeed => '\n'
  | .carriageReturn => '\r'
  | .tab => '\t'
  | .quote => '"'
  | .apostrophe => '\''
  | .backslash => '\\'

theorem control?_letter (c : Control) : control? c.letter = some c.char := by
  cases c <;> rfl

end Control

structure CodePoint where
  digits : List Char
  char : Char
  ne_nil : digits ≠ []
  isHex : ∀ d ∈ digits, Digits.isHex d = true
  value : Digits.toNat 16 digits = char.toNat

theorem CodePoint.scalar?_digits (p : CodePoint) : scalar? p.digits = some p.char := by
  have hplus : p.digits.head? ≠ some '+' := by
    intro h
    exact absurd (p.isHex '+' (List.mem_of_mem_head? h)) (by decide)
  have hvalid : p.char.toNat.isValidChar := p.char.valid
  have hall : p.digits.all Digits.isHex = true := List.all_eq_true.2 p.isHex
  simp [scalar?, hplus, p.ne_nil, hall, p.value, hvalid]

inductive Item where
  | raw (c : Char)
  | control (c : Control)
  | codePoint (p : CodePoint)

namespace Item

def text : Item → List Char
  | .raw c => [c]
  | .control c => ['\\', c.letter]
  | .codePoint p => '\\' :: 'u' :: '{' :: (p.digits ++ ['}'])

def char : Item → Char
  | .raw c => c
  | .control c => c.char
  | .codePoint p => p.char

end Item

def written (items : List Item) : List Char := items.flatMap Item.text

theorem written_cons (i : Item) (items : List Item) :
    written (i :: items) = i.text ++ written items := rfl

def IsEscape (i : Item) : Prop :=
  ∃ tail, i.text = '\\' :: tail ∧ ∀ rest, escape (tail ++ rest) = .ok (i.char, tail.length)

theorem Control.isEscape (c : Control) : IsEscape (.control c) :=
  ⟨[c.letter], rfl, fun rest =>
    escape_eq_ok_iff.2 (.inr ⟨c.letter, rest, rfl, c.control?_letter, rfl⟩)⟩

theorem CodePoint.isEscape (p : CodePoint) : IsEscape (.codePoint p) := by
  refine ⟨'u' :: '{' :: (p.digits ++ ['}']), rfl, fun rest => escape_eq_ok_iff.2 (.inl ?_)⟩
  refine ⟨p.digits ++ '}' :: rest, by simp, ?_⟩
  refine codePoint_eq_ok_iff.2 ⟨p.digits, rest, rfl, fun d hd => ?_, p.scalar?_digits, by simp⟩
  have hhex := p.isHex d hd
  constructor <;> rintro rfl <;> revert hhex <;> decide

/-- No mark begins with a character that stands for itself, and only where lines may end is one of
them a line feed. -/
inductive Fits (q : Quote) : List Item → Prop where
  | nil : Fits q []
  | raw {c : Char} {items : List Item} (hm : ¬ q.mark <+: c :: (written items ++ q.mark))
      (hb : c ≠ '\\') (hn : c = '\n' → q.spansLines = true) (h : Fits q items) :
      Fits q (.raw c :: items)
  | escape {i : Item} {items : List Item} (hi : IsEscape i) (h : Fits q items) : Fits q (i :: items)

variable {q : Quote} {items : List Item}

theorem isPrefixOf_mark_backslash (q : Quote) (cs : List Char) :
    q.mark.isPrefixOf ('\\' :: cs) = false := by
  cases q <;> simp [Quote.mark, List.isPrefixOf]

theorem isPrefixOf_mark_raw {c : Char} (hm : ¬ q.mark <+: c :: (written items ++ q.mark))
    (rest : List Char) : q.mark.isPrefixOf (c :: (written items ++ (q.mark ++ rest))) = false := by
  have hlength : q.mark.length ≤ (c :: (written items ++ q.mark)).length := by
    simp only [List.length_cons, List.length_append]
    omega
  have hcongr := isPrefixOf_append_congr (x := rest) hlength
  rw [List.cons_append, List.append_assoc] at hcongr
  rw [hcongr, Bool.eq_false_iff, Ne, List.isPrefixOf_iff_prefix]
  exact hm

theorem Fits.body_written (h : Fits q items) (offset : Nat) (rest : List Char) :
    body q 0 offset (written items ++ (q.mark ++ rest)) =
      .ok (items.map Item.char, offset + (written items).length + q.mark.length) := by
  induction h generalizing offset with
  | nil =>
      obtain ⟨c, cs, hcs⟩ : ∃ c cs, q.mark = c :: cs := by cases q <;> exact ⟨_, _, rfl⟩
      have hprefix : q.mark.isPrefixOf (c :: (cs ++ rest)) = true := by
        rw [← List.cons_append, ← hcs, List.isPrefixOf_iff_prefix]
        exact List.prefix_append q.mark rest
      have hbody : body q 0 offset (c :: (cs ++ rest)) = .ok ([], offset + q.mark.length) :=
        body_of_mark hprefix
      rw [← List.cons_append, ← hcs] at hbody
      exact hbody
  | @raw c items hm hb hn _ ih =>
      have hlength : (written (.raw c :: items)).length = 1 + (written items).length :=
        Nat.add_comm _ 1
      refine (body_plain_eq_ok_iff (isPrefixOf_mark_raw hm rest) hb).2 ⟨hn, _, rfl, ?_⟩
      rw [hlength, ← Nat.add_assoc]
      exact ih (offset + 1)
  | @escape i items hi _ ih =>
      obtain ⟨tail, htext, hescape⟩ := hi
      have hwritten : written (i :: items) ++ (q.mark ++ rest) =
          '\\' :: (tail ++ (written items ++ (q.mark ++ rest))) := by
        rw [written_cons, htext, List.append_assoc, List.cons_append]
      have hlength : (written (i :: items)).length = 1 + tail.length + (written items).length := by
        rw [written_cons, List.length_append, htext, List.length_cons, Nat.add_comm 1]
      rw [hwritten, hlength, ← Nat.add_assoc, ← Nat.add_assoc]
      refine (body_escape_eq_ok_iff (isPrefixOf_mark_backslash q _)).2
        ⟨i.char, tail.length, _, hescape _, rfl, ?_⟩
      rw [body_pending]
      exact ih _

theorem fits_of_mark {m : Char} (hq : q.mark = [m])
    (h : ∀ c, .raw c ∈ items → c ≠ m ∧ c ≠ '\\' ∧ c ≠ '\n') : Fits q items := by
  induction items with
  | nil => exact .nil
  | cons i items ih =>
      have hitems := ih fun c hc => h c (List.mem_cons_of_mem i hc)
      cases i with
      | raw c =>
          obtain ⟨hm, hb, hn⟩ := h c List.mem_cons_self
          refine .raw ?_ hb (fun hc => absurd hc hn) hitems
          rw [hq]
          rintro ⟨ds, hds⟩
          exact hm (List.cons.inj hds).1.symm
      | control c => exact .escape c.isEscape hitems
      | codePoint p => exact .escape p.isEscape hitems

theorem eq_raw_of_written {c : Char} {cs ds : List Char} (hc : c ≠ '\\')
    (h : c :: ds = written items ++ cs) :
    items = [] ∨ ∃ rest, items = .raw c :: rest ∧ ds = written rest ++ cs := by
  cases items with
  | nil => exact .inl rfl
  | cons i rest =>
      cases i with
      | raw d =>
          obtain ⟨rfl, hds⟩ := List.cons.inj h
          exact .inr ⟨rest, rfl, hds⟩
      | control d => exact absurd (List.cons.inj h).1 hc
      | codePoint p => exact absurd (List.cons.inj h).1 hc

theorem fits_triple (h : ∀ c, .raw c ∈ items → c ≠ '\\')
    (hthree : ¬ [.raw '"', .raw '"', .raw '"'] <:+: items)
    (hlast : items.getLast? ≠ some (.raw '"')) : Fits .triple items := by
  induction items with
  | nil => exact .nil
  | cons i items ih =>
      have hitems : Fits .triple items := by
        have htail := fun j hj => h j (List.mem_cons_of_mem i hj)
        refine ih htail (fun hi => hthree ?_) fun hl => hlast ?_
        · exact hi.trans (List.suffix_cons i items).isInfix
        · rw [List.getLast?_cons, hl]
          rfl
      cases i with
      | raw c =>
          refine .raw ?_ (h c List.mem_cons_self) (fun _ => rfl) hitems
          -- three quotation marks would stand in a row, or the last character would be one
          rintro ⟨ds, hds⟩
          obtain ⟨rfl, hsecond⟩ := List.cons.inj hds
          rcases eq_raw_of_written (by decide) hsecond with rfl | ⟨items, rfl, hthird⟩
          · exact hlast rfl
          rcases eq_raw_of_written (by decide) hthird with rfl | ⟨items, rfl, -⟩
          · exact hlast rfl
          · exact hthree (List.prefix_append _ items).isInfix
      | control c => exact .escape c.isEscape hitems
      | codePoint p => exact .escape p.isEscape hitems

theorem scan_quote (cs : List Char) : scan '"' cs = readString cs := by
  have hb : Name.canBegin '"' = false := by decide
  simp [scan, hb]

theorem scan_apostrophe (cs : List Char) : scan '\'' cs = readChar cs := by
  have hb : Name.canBegin '\'' = false := by decide
  simp [scan, hb]

theorem readString_double (h : Fits .double items) :
    readString (written items ++ Quote.double.mark) =
      .ok ⟨some (.string (String.ofList (items.map Item.char))), (written items).length + 1⟩ := by
  have hopening : opening (written items ++ Quote.double.mark) = .double := by
    rw [opening, if_neg]
    intro hp
    obtain ⟨ds, hds⟩ := List.isPrefixOf_iff_prefix.1 hp
    rcases eq_raw_of_written (by decide) hds with rfl | ⟨items, rfl, -⟩
    · cases hds
    · cases h with
      | raw hm _ _ _ => exact hm (List.prefix_append ['"'] _)
      | escape hi _ =>
          obtain ⟨tail, htext, -⟩ := hi
          cases htext
  refine readString_eq_ok_iff.2 ⟨items.map Item.char, 1 + (written items).length + 1, ?_, ?_⟩
  · rw [Nat.add_sub_cancel, Nat.add_comm 1]
  · rw [hopening]
    exact h.body_written 1 []

theorem readString_triple (h : Fits .triple items) :
    readString ('"' :: '"' :: (written items ++ Quote.triple.mark)) =
      .ok ⟨some (.string (String.ofList (items.map Item.char))), (written items).length + 5⟩ := by
  refine readString_eq_ok_iff.2 ⟨items.map Item.char, 3 + (written items).length + 3, ?_, ?_⟩
  · rw [Nat.add_comm 3]
    rfl
  · exact h.body_written 3 []

theorem readChar_item {i : Item} (h : Fits .apostrophe [i]) :
    readChar (i.text ++ Quote.apostrophe.mark) = .ok ⟨some (.char i.char), i.text.length + 1⟩ := by
  have hwritten : written [i] = i.text := List.append_nil i.text
  have hbody := h.body_written 1 []
  rw [hwritten] at hbody
  refine readChar_eq_ok_iff.2 ⟨i.char, 1 + i.text.length + 1, ?_, hbody⟩
  rw [Nat.add_sub_cancel, Nat.add_comm 1]

end Lexeme.Quoted

open Lexeme Quoted

theorem lex_written :
    (∀ items : List Item, (∀ c, .raw c ∈ items → c ≠ '"' ∧ c ≠ '\\' ∧ c ≠ '\n') →
      lex (String.ofList ('"' :: (written items ++ ['"']))) =
        .ok [⟨.string (String.ofList (items.map Item.char)),
          ⟨0, ('"' :: (written items ++ ['"'])).length⟩, 0⟩]) ∧
    (∀ items : List Item, (∀ c, .raw c ∈ items → c ≠ '\\') →
      ¬ [.raw '"', .raw '"', .raw '"'] <:+: items → items.getLast? ≠ some (.raw '"') →
      lex (String.ofList ('"' :: '"' :: '"' :: (written items ++ ['"', '"', '"']))) =
        .ok [⟨.string (String.ofList (items.map Item.char)),
          ⟨0, ('"' :: '"' :: '"' :: (written items ++ ['"', '"', '"'])).length⟩, 0⟩]) ∧
    (∀ i : Item, (∀ c, i = .raw c → c ≠ '\'' ∧ c ≠ '\\' ∧ c ≠ '\n') →
      lex (String.ofList ('\'' :: (i.text ++ ['\'']))) =
        .ok [⟨.char i.char, ⟨0, ('\'' :: (i.text ++ ['\''])).length⟩, 0⟩]) := by
  refine ⟨fun items h => ?_, fun items h hthree hlast => ?_, fun i h => ?_⟩
  · refine @lex_of_scan_eq_ok '"' _ [] _ ?_
    rw [List.append_nil, scan_quote, List.length_append]
    exact readString_double (fits_of_mark rfl h)
  · refine @lex_of_scan_eq_ok '"' _ [] _ ?_
    rw [List.append_nil, scan_quote, List.length_cons, List.length_cons, List.length_append]
    exact readString_triple (fits_triple h hthree hlast)
  · have hfits : Fits .apostrophe [i] :=
      fits_of_mark rfl fun c hc => h c (List.mem_singleton.1 hc).symm
    refine @lex_of_scan_eq_ok '\'' _ [] _ ?_
    rw [List.append_nil, scan_apostrophe, List.length_append]
    exact readChar_item hfits

theorem lex_written_each :
    lex "\"a\\n\"" = .ok [⟨.string "a\n", ⟨0, 5⟩, 0⟩] ∧
      lex "\"\"\"\"\"\\\"\\u\x7b0041\x7d\"\"\"" = .ok [⟨.string "\"\"\"A", ⟨0, 18⟩, 0⟩] ∧
      lex "'\\''" = .ok [⟨.char '\'', ⟨0, 4⟩, 0⟩] := by
  have hhex : ∀ d ∈ ['0', '0', '4', '1'], Digits.isHex d = true := List.all_eq_true.1 (by decide)
  let capital : CodePoint := ⟨['0', '0', '4', '1'], 'A', by decide, hhex, by decide⟩
  refine ⟨lex_written.1 [.raw 'a', .control .lineFeed] ?_,
    lex_written.2.1 [.raw '"', .raw '"', .control .quote, .codePoint capital] ?_ ?_ ?_,
    lex_written.2.2 (.control .apostrophe) ?_⟩
  · intro c hc
    obtain rfl : c = 'a' := by simpa using hc
    decide
  · intro c hc
    obtain rfl : c = '"' := by simpa using hc
    decide
  · simp [List.infix_cons_iff, List.cons_prefix_cons]
  · simp
  · intro c hc
    cases hc

end ElmTypes
