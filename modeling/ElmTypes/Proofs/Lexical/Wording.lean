import ElmTypes.Proofs.Lexical.Errors
import ElmTypes.Proofs.Lexical.Words
import ElmTypes.Proofs.Text.OneLine

namespace ElmTypes

def LexicalCause.lineFeedEscape : LexicalCause := .invalidEscape "\n"

theorem LexicalCause.message_invalidEscape (text : String) :
    (LexicalCause.invalidEscape text).message = "invalid escape `\\" ++ text ++ "`" := rfl

theorem LexicalCause.oneLine_notes (cause : LexicalCause) : ∀ n ∈ cause.notes, OneLine n := by
  cases cause with
  | emptyInteger | hugeInteger | malformedFloat => exact List.forall_mem_singleton.2 (by decide)
  | _ => simp [notes]

namespace Lexeme

theorem not_lineFeed_of_isHex {cs : List Char} (h : ∀ c ∈ cs, Digits.isHex c = true) :
    '\n' ∉ cs := by
  intro hm
  exact absurd (h _ hm) (by decide)

theorem not_lineFeed_of_isDigit {cs : List Char} (h : ∀ c ∈ cs, c.isDigit = true) :
    '\n' ∉ cs := by
  intro hm
  exact absurd (h _ hm) (by decide)

theorem forall_mem_takeWhile (p : Char → Bool) (cs : List Char) :
    ∀ c ∈ cs.takeWhile p, p c = true :=
  List.all_eq_true.1 List.all_takeWhile

namespace Number

theorem not_lineFeed_floatTail (cs : List Char) : '\n' ∉ floatTail cs := by
  fun_induction floatTail cs with
  | case1 cs ih => simpa using ih
  | case2 cs ih => simpa using ih
  | case3 c cs _ _ hc ih =>
      rw [List.mem_cons, not_or]
      refine ⟨?_, ih⟩
      rintro rfl
      revert hc
      decide
  | case4 => simp
  | case5 => simp

theorem oneLine_of_integer? {base : Nat} {marker : String} {digits : List Char}
    {cause : LexicalCause} (hm : OneLine marker) (hd : '\n' ∉ digits)
    (h : integer? base marker digits = .error cause) : OneLine cause.message := by
  have htext : OneLine (marker ++ String.ofList digits) := hm.append (oneLine_ofList.2 hd)
  have hmessage : OneLine ("could not parse " ++ (marker ++ String.ofList digits) ++ " as an integer") :=
    (OneLine.append (by decide) htext).append (by decide)
  unfold integer? at h
  split at h
  · cases h
    exact hmessage
  · split at h
    · cases h
    · cases h
      exact hmessage

theorem oneLine_of_float? {text : List Char} {cause : LexicalCause} (ht : '\n' ∉ text)
    (h : float? text = .error cause) : OneLine cause.message := by
  unfold float? at h
  split at h
  · cases h
  · cases h
    exact (OneLine.append (by decide) (oneLine_ofList.2 ht)).append (by decide)

theorem eq_error_of_literal {tail : List Char} {r : Except LexicalCause TokenKind}
    {e : LexicalError} (h : literal tail r = .error e) : r = .error e.cause := by
  cases r with
  | ok k => cases h
  | error cause =>
      cases h
      rfl

theorem oneLine_of_read {c : Char} {cs : List Char} {e : LexicalError} (hc : c ≠ '\n')
    (h : read c cs = .error e) : OneLine e.cause.message := by
  have hdigits : '\n' ∉ cs.takeWhile Char.isDigit :=
    not_lineFeed_of_isDigit (forall_mem_takeWhile _ cs)
  by_cases hx : c = '0' ∧ cs.head? = some 'x'
  · obtain ⟨rfl, hd⟩ := hx
    obtain ⟨ds, rfl⟩ := List.head?_eq_some_iff.1 hd
    rw [read_hexadecimal] at h
    have hhex := not_lineFeed_of_isHex (forall_mem_takeWhile _ ds)
    exact oneLine_of_integer? (by decide) hhex (eq_error_of_literal h)
  · cases hf : isFraction (cs.dropWhile Char.isDigit) with
    | true =>
        rw [read_float hx hf] at h
        refine oneLine_of_float? ?_ (eq_error_of_literal h)
        rw [List.mem_cons, List.mem_append, not_or, not_or]
        exact ⟨hc.symm, hdigits, not_lineFeed_floatTail _⟩
    | false =>
        rw [read_decimal hx hf] at h
        refine oneLine_of_integer? (by decide) ?_ (eq_error_of_literal h)
        rw [List.mem_cons, not_or]
        exact ⟨hc.symm, hdigits⟩

end Number

namespace Quoted

theorem oneLine_unfinished (what : Unfinished) :
    OneLine (LexicalCause.unfinished what).message := by
  cases what <;> decide

theorem oneLine_invalidEscape {text : String} (h : OneLine text) :
    OneLine (LexicalCause.invalidEscape text).message :=
  (OneLine.append (by decide) h).append (by decide)

theorem oneLine_of_codePoint {cs : List Char} {e : LexicalError} (h : codePoint cs = .error e) :
    OneLine e.cause.message := by
  have hhex : '\n' ∉ cs.takeWhile fun c => c != '}' && c != '\n' := by
    intro hm
    exact absurd (forall_mem_takeWhile _ cs _ hm) (by decide)
  have htext : OneLine ("u\x7b" ++ String.ofList (cs.takeWhile fun c => c != '}' && c != '\n')
      ++ "\x7d") :=
    (OneLine.append (by decide) (oneLine_ofList.2 hhex)).append (by decide)
  simp only [codePoint] at h
  split at h
  · split at h
    · cases h
    · cases h
      exact oneLine_invalidEscape htext
  · cases h
    exact oneLine_invalidEscape htext

theorem oneLine_of_escape {cs : List Char} {e : LexicalError} (h : escape cs = .error e)
    (he : e.cause ≠ .lineFeedEscape) : OneLine e.cause.message := by
  unfold escape at h
  split at h
  · cases h
    exact oneLine_unfinished _
  · exact oneLine_of_codePoint h
  · rename_i c _ _
    split at h
    · cases h
    · cases h
      refine oneLine_invalidEscape (OneLine.char ?_)
      rintro rfl
      exact he rfl

theorem oneLine_of_body {q : Quote} {pending offset : Nat} {cs : List Char} {e : LexicalError}
    (h : body q pending offset cs = .error e) (he : e.cause ≠ .lineFeedEscape) :
    OneLine e.cause.message := by
  induction cs generalizing pending offset with
  | nil =>
      cases pending <;> cases h <;> exact oneLine_unfinished _
  | cons c cs ih =>
      cases pending with
      | succ pending => exact ih h
      | zero =>
          obtain ⟨-, ⟨-, x, hx, rfl⟩ | ⟨-, d, n, -, hb⟩ | ⟨-, -, rfl⟩ | ⟨-, -, hb⟩⟩ :=
            body_cons_eq_error h
          · exact oneLine_of_escape (e := x) hx he
          · exact ih hb
          · exact oneLine_unfinished _
          · exact ih hb

theorem oneLine_of_readString {cs : List Char} {e : LexicalError} (h : readString cs = .error e)
    (he : e.cause ≠ .lineFeedEscape) : OneLine e.cause.message :=
  oneLine_of_body (body_of_readString_eq_error h) he

theorem oneLine_of_readChar {cs : List Char} {e : LexicalError} (h : readChar cs = .error e)
    (he : e.cause ≠ .lineFeedEscape) : OneLine e.cause.message := by
  rw [readChar] at h
  cases hb : body .apostrophe 0 1 cs with
  | error x =>
      rw [hb] at h
      cases h
      exact oneLine_of_body hb he
  | ok p =>
      obtain ⟨text, total⟩ := p
      rw [hb] at h
      have hcause : e.cause = .notOneCharacter := by
        rcases text with _ | ⟨c, _ | ⟨d, text⟩⟩ <;> cases h <;> rfl
      rw [hcause]
      decide

end Quoted

theorem oneLine_of_scan {c : Char} {cs : List Char} {e : LexicalError} (h : scan c cs = .error e)
    (he : e.cause ≠ .lineFeedEscape) : OneLine e.cause.message := by
  have hc : c ≠ '\n' := by
    rintro rfl
    rw [scan_blank rfl] at h
    cases h
  rw [scan_eq_read_choose] at h
  cases hform : Form.choose c cs with
  | number =>
      rw [hform] at h
      exact Number.oneLine_of_read hc h
  | string =>
      rw [hform] at h
      exact Quoted.oneLine_of_readString h he
  | character =>
      rw [hform] at h
      exact Quoted.oneLine_of_readChar h he
  | blockComment =>
      rw [hform] at h
      simp only [Form.read, Comment.readBlock] at h
      split at h
      · cases h
      · cases h
        decide
  | shader =>
      rw [hform] at h
      simp only [Form.read, Shader.read] at h
      split at h
      · cases h
      · cases h
        decide
  | unknown =>
      rw [hform] at h
      cases h
      exact (OneLine.append (by decide) (OneLine.char hc)).append (by decide)
  | _ =>
      rw [hform] at h
      cases h

end Lexeme

theorem oneLine_of_lexFrom {pending offset column : Nat} {cs : List Char} {e : LexicalError}
    (h : lexFrom pending offset column cs = .error e) (he : e.cause ≠ .lineFeedEscape) :
    OneLine e.cause.message := by
  induction cs generalizing pending offset column with
  | nil => cases pending <;> cases h
  | cons c cs ih =>
      cases pending with
      | succ pending => exact ih h
      | zero =>
          rw [lexFrom] at h
          split at h
          · rename_i x hx
            cases h
            exact Lexeme.oneLine_of_scan (e := x) hx he
          · rename_i l hl
            cases hr : lexFrom l.tail (offset + 1) (columnAfter column c) cs with
            | ok tokens =>
                rw [hr] at h
                cases h
            | error x =>
                rw [hr] at h
                cases h
                exact ih hr

theorem oneLine_of_lex {source : String} {e : LexicalError} (h : lex source = .error e)
    (he : e.cause ≠ .lineFeedEscape) : OneLine e.cause.message :=
  oneLine_of_lexFrom h he

theorem IsWord.oneLine {w : String} (h : IsWord w) : OneLine w := h.ne_lineFeed

namespace TokenKind

theorem IsNumber.oneLine_text {k : TokenKind} (h : k.IsNumber) : OneLine k.text := by
  cases k with
  | integer n => exact .nat n
  | float x => exact .float _ x
  | _ => exact h.elim

theorem oneLine_text_of_symbol (s : Symbol) : OneLine (TokenKind.symbol s).text := by
  cases s <;> decide

theorem oneLine_text_ofOperator {w : String} (h : OneLine w) : OneLine (ofOperator w).text := by
  unfold ofOperator
  split
  · exact oneLine_text_of_symbol _
  · exact h

end TokenKind

theorem Lexeme.oneLine_of_delimiter? {c : Char} {k : TokenKind} (h : delimiter? c = some k) :
    OneLine k.text := by
  unfold delimiter? at h
  split at h <;> cases h <;> decide

theorem Lexeme.oneLine_text_of_scan {c : Char} {cs : List Char} {k : TokenKind} {n : Nat}
    (h : scan c cs = .ok ⟨some k, n⟩) : OneLine k.text := by
  have hs := Form.suits_choose c cs
  have hscan := h
  rw [scan_eq_read_choose] at h
  cases hform : Form.choose c cs with
  | name =>
      rw [hform] at h
      cases h
      exact (isWord_of_scan hscan).oneLine
  | number =>
      rw [hform] at h
      obtain ⟨r, hr, hnumber⟩ := Number.read_eq_literal c cs
      rw [Form.read, hr] at h
      cases r with
      | error e => cases h
      | ok k' =>
          cases h
          exact (hnumber _ rfl).oneLine_text
  | string =>
      rw [hform] at h
      obtain ⟨text, total, ht, -⟩ := Quoted.readString_eq_ok_iff.1 h
      cases ht
      exact .enclose (by decide) _
  | character =>
      rw [hform] at h
      obtain ⟨d, total, ht, -⟩ := Quoted.readChar_eq_ok_iff.1 h
      cases ht
      exact .enclose (by decide) _
  | blockComment =>
      rw [hform] at h hs
      obtain ⟨ds, rfl⟩ := List.head?_eq_some_iff.1 hs.2
      obtain ⟨m, -, hl⟩ := Comment.readBlock_eq_ok_iff.1 h
      cases hl
  | shader =>
      rw [hform] at h
      simp only [Form.read, Shader.read] at h
      split at h <;> cases h
      exact .enclose (by decide) _
  | single kind =>
      rw [hform] at h hs
      cases h
      exact oneLine_of_delimiter? hs
  | operator =>
      have hc : c ≠ '\n' := by
        rintro rfl
        rw [scan_blank rfl] at hscan
        cases hscan
      have htail : '\n' ∉ cs.takeWhile isOperator := by
        intro hm
        exact absurd (forall_mem_takeWhile _ cs _ hm) (by decide)
      rw [hform] at h
      cases h
      refine TokenKind.oneLine_text_ofOperator (oneLine_ofList.2 ?_)
      rw [List.mem_cons, not_or]
      exact ⟨hc.symm, htail⟩
  | lineComment | blank | unknown =>
      rw [hform] at h
      cases h

theorem oneLine_text_of_lex {source : String} {tokens : List Token} (h : lex source = .ok tokens)
    {t : Token} (ht : t ∈ tokens) : OneLine t.kind.text := by
  have htiles : Tiles [] source.toList tokens := tiles_of_lexFrom h
  obtain ⟨b, c, cs, rest, -, -, hs, -, -⟩ := htiles.exists_of_mem ht
  exact Lexeme.oneLine_text_of_scan hs

end ElmTypes
