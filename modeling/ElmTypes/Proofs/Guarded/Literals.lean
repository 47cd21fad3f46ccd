import ElmTypes.Proofs.Guarded.Scanning
import ElmTypes.Proofs.Lexical.Joining
import ElmTypes.Proofs.Lexical.Wording

namespace ElmTypes

open Lexeme

namespace Lexeme.Name

theorem rest_append_of_forall {w : List Char} (hw : ∀ c ∈ w, canContinue c = true) (capital : Bool)
    (r : List Char) : rest capital (w ++ r) = w ++ rest capital r := by
  induction w with
  | nil => rfl
  | cons c w ih =>
      obtain ⟨hc, hw⟩ := List.forall_mem_cons.1 hw
      rw [List.cons_append, rest_cons_of_ne (ne_dot_of_canContinue hc), if_pos hc, ih hw,
        List.cons_append]

def goesOn (r : List Char) : Bool := r[0]? == some '.' && r[1]?.any Unicode.isAlphabetic

theorem exists_of_goesOn {r : List Char} (h : goesOn r = true) :
    ∃ d ds, r = '.' :: d :: ds ∧ Unicode.isAlphabetic d = true := by
  rcases r with _ | ⟨c, _ | ⟨d, ds⟩⟩
  · simp [goesOn] at h
  · simp [goesOn] at h
  · obtain ⟨rfl, hd⟩ : c = '.' ∧ Unicode.isAlphabetic d = true := by simpa [goesOn] using h
    exact ⟨d, ds, rfl, hd⟩

theorem rest_eq_nil {capital : Bool} {r : List Char} (hr : ∀ c ∈ r.head?, canContinue c = false)
    (h : (capital && goesOn r) = false) : rest capital r = [] := by
  fun_cases rest capital r with
  | case1 c cs hc => simp [goesOn, hc] at h
  | case2 => rfl
  | case3 c cs hd hc => simp [hr c rfl] at hc
  | case4 => rfl
  | case5 => rfl

end Lexeme.Name

namespace Guarded.Scanner

variable {before cs rest : List Char} {c : Char} {n : Nat}

def Gives {α : Type} (x : Scanner α) (before taken rest : List Char) :
    Except LexicalError α → Prop
  | .ok a => Scans x before taken rest a
  | .error e => Fails x before (taken ++ rest) e

theorem Scans.gives {α β : Type} {x : Scanner α} {f : α → Scanner β} {u v : List Char} {a : α}
    {r : Except LexicalError β} (hx : Scans x before u (v ++ rest) a)
    (hf : Gives (f a) (before ++ u) v rest r) : Gives (x >>= f) before (u ++ v) rest r := by
  cases r with
  | ok b => exact hx.bind hf
  | error e =>
      have h := hx.fails hf
      rwa [← List.append_assoc] at h

theorem Scans.look_gives {α β : Type} {x : Scanner α} {f : α → Scanner β} {u : List Char} {a : α}
    {r : Except LexicalError β} (hx : Scans x before [] (u ++ rest) a)
    (hf : Gives (f a) before u rest r) : Gives (x >>= f) before u rest r := by
  rw [← List.append_nil before] at hf
  exact hx.gives hf

theorem Scans.finish_gives {α β : Type} {x : Scanner α} {f : α → Scanner β} {u : List Char} {a : α}
    {r : Except LexicalError β} (hx : Scans x before u rest a)
    (hf : Gives (f a) (before ++ u) [] rest r) : Gives (x >>= f) before u rest r := by
  have h := Scans.gives (v := []) hx hf
  rwa [List.append_nil] at h

def Obeys (x : Scanner (Option TokenKind)) (before : List Char) (c : Char) (cs : List Char) :
    Except LexicalError Lexeme → Prop
  | .ok l => Scans x before (c :: cs.take l.tail) (cs.drop l.tail) l.kind
  | .error e => Fails x before (c :: cs) (e.shift before.length)

theorem Scans.obeys {x : Scanner (Option TokenKind)} {tail : List Char} {kind : Option TokenKind}
    (h : Scans x before (c :: tail) rest kind) :
    Obeys x before c (tail ++ rest) (.ok ⟨kind, tail.length⟩) := by
  simp only [Obeys]
  rwa [List.take_left, List.drop_left]

theorem scans_textFrom {name w : List Char} :
    Scans (textFrom (name ++ w) name.length) before [] rest w := by
  rw [textFrom, if_pos (by simp), List.drop_left]
  exact .pure w

theorem scans_segments (name : List Char) {tail : List Char} (hc : Name.canContinue c = true)
    (ht : Name.rest (Unicode.isUppercase c) (tail ++ rest) = tail)
    (hn : (c :: tail ++ rest).length < n) :
    Scans (segments n name) before (c :: tail) rest (name ++ c :: tail) := by
  induction n generalizing before name c tail with
  | zero => exact absurd hn (Nat.not_lt_zero _)
  | succ n ih =>
      obtain ⟨w, r, hw, hr, hsplit⟩ : ∃ w r, (∀ d ∈ w, Name.canContinue d = true) ∧
          (∀ d ∈ r.head?, Name.canContinue d = false) ∧ tail ++ rest = w ++ r :=
        ⟨_, _, forall_mem_takeWhile _ _, head?_dropWhile_not _ _,
          List.takeWhile_append_dropWhile.symm⟩
      have htake : Scans (takeWhile Name.canContinue) before (c :: w) r (c :: w) :=
        scans_takeWhile (List.forall_mem_cons.2 ⟨hc, hw⟩) hr
      rw [hsplit, Name.rest_append_of_forall hw] at ht
      subst ht
      replace hsplit := List.append_cancel_left ((List.append_assoc _ _ _).symm.trans hsplit)
      cases hgo : Unicode.isUppercase c && Name.goesOn r with
      | false =>
          rw [Name.rest_eq_nil hr hgo] at hsplit ⊢
          subst hsplit
          rw [List.append_nil]
          apply htake.finish
          dsimp only
          apply Scans.look (v := []) scans_textFrom
          apply Scans.look (v := []) (scans_peekAt 0)
          apply Scans.look (v := []) (scans_peekAt 1)
          rw [if_neg (by simpa [Name.goesOn] using hgo)]
          exact .pure _
      | true =>
          obtain ⟨hcapital, hdot⟩ := Bool.and_eq_true_iff.1 hgo
          obtain ⟨d, ds, rfl, hd⟩ := Name.exists_of_goesOn hdot
          have hcontinue : Name.canContinue d = true := by simp [Name.canContinue, hd]
          simp only [Name.rest, hcapital, hd, Bool.and_self, if_true, List.cons_append,
            List.cons.injEq, true_and] at hsplit hn ⊢
          generalize htail : Name.rest (Unicode.isUppercase d) ds = tail at hsplit hn ⊢
          subst hsplit
          have hscan : Scans (segments n (name ++ c :: w ++ ['.'])) (before ++ c :: w ++ ['.'])
              (d :: tail) rest (name ++ c :: w ++ ['.'] ++ d :: tail) :=
            ih _ hcontinue htail (by simp at hn ⊢; omega)
          have hdotted : Scans (segments (n + 1) name) before (c :: w ++ '.' :: d :: tail) rest
              (name ++ c :: w ++ '.' :: d :: tail) := by
            apply htake.bind
            dsimp only
            apply Scans.look scans_textFrom
            apply Scans.look (scans_peekAt 0)
            apply Scans.look (scans_peekAt 1)
            rw [if_pos (by simp [hcapital, hd])]
            rw [List.append_assoc (name ++ c :: w)] at hscan
            exact Scans.bind (v := d :: tail) (scans_next '.') hscan
          rwa [List.append_assoc name] at hdotted

theorem obeys_word (hc : Name.canBegin c = true) :
    Obeys word before c cs (.ok (Name.read c cs)) := by
  have hcontinue : Name.canContinue c = true := by
    rw [Name.canBegin, Bool.or_eq_true_iff] at hc
    rcases hc with hc | hc <;> simp [Name.canContinue, hc]
  obtain ⟨rest, hrest⟩ := Name.rest_prefix (Unicode.isUppercase c) cs
  rw [Name.read]
  generalize htail : Name.rest (Unicode.isUppercase c) cs = tail at hrest ⊢
  subst hrest
  apply Scans.obeys
  exact (scans_bounded fun n hn => scans_segments [] hcontinue htail hn).finish (.pure _)

theorem Gives.obeys {x : Scanner (Option TokenKind)} {tail : List Char}
    {r : Except LexicalCause TokenKind}
    (h : Gives x before (c :: tail) rest
      ((r.map some).mapError fun cause => ⟨cause, ⟨before.length, tail.length + 1⟩⟩)) :
    Obeys x before c (tail ++ rest) (Number.literal tail r) := by
  cases r with
  | ok kind => exact Scans.obeys h
  | error cause => exact h

theorem gives_literal {now u : List Char} (h : now = before ++ u)
    (r : Except LexicalCause TokenKind) :
    Gives (literal before.length r) now [] rest
      ((r.map some).mapError fun cause => ⟨cause, ⟨before.length, u.length⟩⟩) := by
  subst h
  cases r with
  | ok kind => exact .pure _
  | error cause => exact fails_failFrom rfl

theorem scans_floatRest {tail : List Char} (ht : Number.floatTail (tail ++ rest) = tail)
    (hn : (tail ++ rest).length < n) : Scans (floatRest n) before tail rest tail := by
  induction n generalizing before tail with
  | zero => exact absurd hn (Nat.not_lt_zero _)
  | succ n ih =>
      have hsign {c : Char} {text : List Char} (hc : (c == '-' || c == '+') = true)
          (ht : Number.floatTail (text ++ rest) = text)
          (hn : ('e' :: c :: text ++ rest).length < n + 1) :
          Scans (floatRest (n + 1)) before ('e' :: c :: text) rest ('e' :: c :: text) := by
        apply Scans.bind (u := ['e']) (v := c :: text) (scans_nextIf rfl)
        dsimp only
        rw [if_pos rfl]
        apply Scans.bind (u := [c]) (v := text) (scans_nextIf hc)
        exact (ih ht (by simp at hn ⊢; omega)).finish (.pure _)
      have hend (h : ∀ c ∈ rest.head?, Number.isFloatCharacter c = false) :
          Scans (floatRest (n + 1)) before [] rest [] := by
        apply Scans.look (v := []) (scans_nextIf_none h)
        exact .pure []
      generalize hcs : tail ++ rest = cs at ht
      fun_cases Number.floatTail cs with
      | case1 cs =>
          rw [Number.floatTail] at ht
          subst ht
          simp only [List.cons_append, List.cons.injEq, true_and] at hcs
          exact hsign rfl (by rw [hcs]) hn
      | case2 cs =>
          rw [Number.floatTail] at ht
          subst ht
          simp only [List.cons_append, List.cons.injEq, true_and] at hcs
          exact hsign rfl (by rw [hcs]) hn
      | case3 c cs hminus hplus hc =>
          rw [Number.floatTail.eq_3 c cs hminus hplus, if_pos hc] at ht
          subst ht
          simp only [List.cons_append, List.cons.injEq, true_and] at hcs
          have htail : Number.floatTail (Number.floatTail cs ++ rest) = Number.floatTail cs := by
            rw [hcs]
          generalize Number.floatTail cs = tail at hcs hn htail ⊢
          have hscan : Scans (floatRest n) (before ++ [c]) tail rest tail :=
            ih htail (by simp at hn ⊢; omega)
          apply Scans.bind (u := [c]) (v := tail) (scans_nextIf hc)
          dsimp only
          split
          · rename_i he
            have hnone : ∀ d ∈ (tail ++ rest).head?, (d == '-' || d == '+') = false := by
              intro d hd
              obtain ⟨ds, hds⟩ := List.head?_eq_some_iff.1 hd
              rw [hcs] at hds
              simp only [Bool.or_eq_false_iff, beq_eq_false_iff_ne]
              exact ⟨fun h => hminus ds he (h ▸ hds), fun h => hplus ds he (h ▸ hds)⟩
            exact Scans.look (scans_nextIf_none hnone) (hscan.finish (.pure _))
          · exact Scans.look (.pure none) (hscan.finish (.pure _))
      | case4 c cs hminus hplus hc =>
          rw [Number.floatTail.eq_3 c cs hminus hplus, if_neg hc] at ht
          subst ht
          obtain rfl : rest = c :: cs := hcs
          apply hend
          simpa [Number.isFloatCharacter] using hc
      | case5 =>
          rw [Number.floatTail] at ht
          subst ht
          obtain rfl : rest = [] := hcs
          exact hend (by simp)

theorem isFraction_eq (r : List Char) : Number.isFraction r =
    (r[0]? == some '.' && r[1]?.any Char.isDigit || r[0]? == some 'e') := by
  fun_cases Number.isFraction r with
  | case1 c cs => simp
  | case2 cs => simp
  | case3 r hdot he =>
      rcases r with _ | ⟨c, _ | ⟨d, r⟩⟩
      · rfl
      · have hc : c ≠ 'e' := fun hc => he [] (by rw [hc])
        simp [hc]
      · have hc : c ≠ 'e' := fun hc => he (d :: r) (by rw [hc])
        have hc' : c ≠ '.' := fun hc => hdot d r (by rw [hc])
        simp [hc, hc']

theorem obeys_hexadecimal (before : List Char) {w : List Char} (hw : ∀ d ∈ w, Digits.isHex d = true)
    (hr : ∀ d ∈ rest.head?, Digits.isHex d = false) :
    Obeys (number before.length) before '0' ('x' :: w ++ rest)
      (Number.literal ('x' :: w) (Number.integer? 16 "0x" w)) := by
  apply Gives.obeys
  apply Scans.look_gives (scans_comesNext _)
  rw [if_pos (by simp)]
  apply Scans.gives (u := ['0', 'x']) (v := w) (scans_skip _)
  apply Scans.finish_gives (scans_takeWhile hw hr)
  exact gives_literal (List.append_assoc _ _ _) _

theorem obeys_decimal (before : List Char) {w : List Char}
    (hmark : ¬ ['0', 'x'].isPrefixOf (c :: w ++ rest) = true)
    (hw : ∀ d ∈ c :: w, d.isDigit = true) (hr : ∀ d ∈ rest.head?, d.isDigit = false)
    (hf : Number.isFraction rest = false) :
    Obeys (number before.length) before c (w ++ rest)
      (Number.literal w (Number.integer? 10 "" (c :: w))) := by
  apply Gives.obeys
  apply Scans.look_gives (scans_comesNext _)
  rw [if_neg hmark]
  apply Scans.finish_gives (scans_takeWhile hw hr)
  apply Scans.look_gives (scans_peekAt 0)
  apply Scans.look_gives (scans_peekAt 1)
  apply Scans.look_gives (scans_peekAt 0)
  simp only [List.nil_append, ← isFraction_eq, hf, Bool.false_eq_true, if_false]
  exact gives_literal rfl _

theorem obeys_float (before : List Char) {w tail : List Char}
    (hmark : ¬ ['0', 'x'].isPrefixOf (c :: w ++ (tail ++ rest)) = true)
    (hw : ∀ d ∈ c :: w, d.isDigit = true) (hr : ∀ d ∈ (tail ++ rest).head?, d.isDigit = false)
    (hf : Number.isFraction (tail ++ rest) = true)
    (ht : Number.floatTail (tail ++ rest) = tail) :
    Obeys (number before.length) before c (w ++ tail ++ rest)
      (Number.literal (w ++ tail) (Number.float? (c :: (w ++ tail)))) := by
  rw [← List.append_assoc] at hmark
  apply Gives.obeys
  rw [← List.cons_append]
  apply Scans.look_gives (scans_comesNext _)
  rw [if_neg hmark]
  apply Scans.gives (scans_takeWhile hw hr)
  apply Scans.look_gives (scans_peekAt 0)
  apply Scans.look_gives (scans_peekAt 1)
  apply Scans.look_gives (scans_peekAt 0)
  simp only [← isFraction_eq, hf, if_true]
  apply Scans.finish_gives (scans_bounded fun n hn => scans_floatRest ht hn)
  exact gives_literal (List.append_assoc _ _ _) _

theorem obeys_number (hc : c.isDigit = true) :
    Obeys (number before.length) before c cs (Number.read c cs) := by
  by_cases hx : c = '0' ∧ cs.head? = some 'x'
  · obtain ⟨rfl, hhead⟩ := hx
    obtain ⟨ds, rfl⟩ := List.head?_eq_some_iff.1 hhead
    have h := obeys_hexadecimal before (forall_mem_takeWhile Digits.isHex ds)
      (head?_dropWhile_not Digits.isHex ds)
    rwa [List.cons_append, List.takeWhile_append_dropWhile] at h
  · have hsplit := List.takeWhile_append_dropWhile (p := Char.isDigit) (l := cs)
    have hmark : ¬ ['0', 'x'].isPrefixOf (c :: cs) = true := by
      intro hp
      obtain ⟨ds, hds⟩ := List.isPrefixOf_iff_prefix.1 hp
      obtain ⟨rfl, rfl⟩ := List.cons.inj hds
      exact hx ⟨rfl, rfl⟩
    have hw : ∀ d ∈ c :: cs.takeWhile Char.isDigit, d.isDigit = true :=
      List.forall_mem_cons.2 ⟨hc, forall_mem_takeWhile _ cs⟩
    have hr : ∀ d ∈ (cs.dropWhile Char.isDigit).head?, d.isDigit = false :=
      head?_dropWhile_not _ cs
    cases hf : Number.isFraction (cs.dropWhile Char.isDigit) with
    | false =>
        rw [Number.read_decimal hx hf]
        rw [← hsplit] at hmark
        have h := obeys_decimal before hmark hw hr hf
        rwa [hsplit] at h
    | true =>
        rw [Number.read_float hx hf]
        obtain ⟨rest, hrest⟩ := Number.floatTail_isPrefix (cs.dropWhile Char.isDigit)
        generalize htail : Number.floatTail (cs.dropWhile Char.isDigit) = tail at hrest ⊢
        rw [← hsplit, ← hrest] at hmark
        rw [← hrest] at hr hf htail
        have h := obeys_float before hmark hw hr hf htail
        rwa [List.append_assoc, hrest, hsplit] at h

theorem scans_escape (before : List Char) {d : Char} {k : Nat}
    (h : Lexeme.Quoted.escape cs = .ok (d, k)) :
    Scans (escape before.length) (before ++ ['\\']) (cs.take k) (cs.drop k) d := by
  rcases Lexeme.Quoted.escape_eq_ok_iff.1 h with ⟨tail, rfl, ht⟩ | ⟨c, tail, rfl, hc, rfl⟩
  · obtain ⟨hex, rest, rfl, hhex, hd, rfl⟩ := Lexeme.Quoted.codePoint_eq_ok_iff.1 ht
    have hsplit : 'u' :: '{' :: (hex ++ '}' :: rest) = 'u' :: '{' :: (hex ++ ['}']) ++ rest := by
      simp
    have hlength : hex.length + 3 = ('u' :: '{' :: (hex ++ ['}'])).length := by simp
    rw [hsplit, hlength, List.take_left, List.drop_left]
    apply Scans.bind (u := ['u']) (v := '{' :: (hex ++ ['}'])) (scans_next 'u')
    apply Scans.look (scans_peekAt 0)
    rw [if_pos (by simp)]
    apply Scans.bind (u := ['{']) (v := hex ++ ['}']) (scans_next '{')
    apply Scans.bind (scans_takeWhile (by simpa using hhex) (by simp))
    apply Scans.finish (scans_nextIf rfl)
    simp only [hd, Option.isSome_some, Option.filter_some, if_true]
    exact .pure d
  · have hu : (c == 'u') = false := by
      rw [beq_eq_false_iff_ne]
      rintro rfl
      cases hc
    apply Scans.finish (scans_next c)
    apply Scans.look (v := []) (scans_peekAt 0)
    simp only [hu, Bool.false_and, Bool.false_eq_true, if_false, hc]
    exact .pure d

theorem codePoint_eq_error {hex r : List Char} {e : LexicalError}
    (hhex : ∀ d ∈ hex, (d != '}' && d != '\n') = true)
    (hr : ∀ d ∈ r.head?, (d != '}' && d != '\n') = false)
    (h : Lexeme.Quoted.codePoint (hex ++ r) = .error e) :
    ((Quoted.scalar? hex).filter fun _ => r.head? == some '}') = none ∧
      e = ⟨.invalidEscape ("u\x7b" ++ String.ofList hex ++ "\x7d"),
        ⟨0, hex.length + (if r.head? = some '}' then 3 else 2) + 1⟩⟩ := by
  have htake : (hex ++ r).takeWhile (fun d => d != '}' && d != '\n') = hex :=
    takeWhile_append_eq_left hhex hr
  simp only [Lexeme.Quoted.codePoint, htake, List.drop_left] at h
  split at h
  · rename_i c hc
    split at h
    · cases h
    · rename_i hclosed
      cases h
      simp [hc, hclosed]
  · rename_i hnone
    cases h
    simp [hnone]

theorem fails_escape {e : LexicalError} (h : Lexeme.Quoted.escape cs = .error e) :
    Fails (escape before.length) (before ++ ['\\']) cs (e.shift before.length) := by
  unfold Lexeme.Quoted.escape at h
  split at h
  · cases h
    apply Scans.look_fails scans_next_nil
    exact fails_failFrom (u := ['\\']) rfl
  · rename_i tail
    have hw := forall_mem_takeWhile (fun d => d != '}' && d != '\n') tail
    have hr := head?_dropWhile_not (fun d => d != '}' && d != '\n') tail
    have hsplit := List.takeWhile_append_dropWhile (p := fun d => d != '}' && d != '\n') (l := tail)
    generalize tail.takeWhile (fun d => d != '}' && d != '\n') = hex,
      tail.dropWhile (fun d => d != '}' && d != '\n') = r at hw hr hsplit
    subst hsplit
    obtain ⟨hnone, rfl⟩ := codePoint_eq_error hw hr h
    apply Scans.fails (u := ['u']) (scans_next 'u')
    apply Scans.look_fails (scans_peekAt 0)
    rw [if_pos (by simp)]
    apply Scans.fails (u := ['{']) (scans_next '{')
    apply Scans.fails (scans_takeWhile hw hr)
    by_cases hclosed : r.head? = some '}'
    · obtain ⟨r, rfl⟩ := List.head?_eq_some_iff.1 hclosed
      apply Scans.fails (u := ['}']) (scans_nextIf rfl)
      simp only [List.head?_cons, beq_self_eq_true] at hnone
      simp only [Option.isSome_some, hnone]
      have hlength : hex.length + 3 + 1 = ('\\' :: 'u' :: '{' :: (hex ++ ['}'])).length := by simp
      rw [if_pos hclosed, hlength]
      exact fails_failFrom (by simp)
    · have hbrace : ∀ d ∈ r.head?, (d == '}') = false := by
        intro d hd
        rw [beq_eq_false_iff_ne]
        rintro rfl
        exact hclosed hd
      apply Scans.look_fails (scans_nextIf_none hbrace)
      rw [beq_false_of_ne hclosed] at hnone
      simp only [Option.isSome_none, hnone]
      have hlength : hex.length + 2 + 1 = ('\\' :: 'u' :: '{' :: hex).length := by simp
      rw [if_neg hclosed, hlength]
      exact fails_failFrom (by simp)
  · rename_i c cs hu
    split at h
    · cases h
    · rename_i hc
      cases h
      apply Scans.fails (u := [c]) (scans_next c)
      apply Scans.look_fails (scans_peekAt 0)
      rw [if_neg]
      · simp only [hc]
        exact fails_failFrom (u := ['\\', c]) (List.append_assoc _ _ _)
      · intro hopen
        obtain ⟨rfl, hbrace⟩ : c = 'u' ∧ cs[0]? = some '{' := by simpa using hopen
        rw [← List.head?_eq_getElem?] at hbrace
        obtain ⟨ds, rfl⟩ := List.head?_eq_some_iff.1 hbrace
        exact hu ds rfl rfl

theorem le_of_escape {d : Char} {k : Nat} (h : Lexeme.Quoted.escape cs = .ok (d, k)) :
    k ≤ cs.length := by
  rcases Lexeme.Quoted.escape_eq_ok_iff.1 h with ⟨tail, rfl, ht⟩ | ⟨c, tail, rfl, -, rfl⟩
  · obtain ⟨hex, rest, rfl, -, -, rfl⟩ := Lexeme.Quoted.codePoint_eq_ok_iff.1 ht
    simp
  · simp

section

variable {q : Quoted.Quote} {start : Nat} {now v ds : List Char}

theorem scans_quoted_mark (hm : q.mark.isPrefixOf (q.mark ++ rest) = true) :
    Scans (quoted q start (n + 1)) now q.mark rest [] := by
  apply Scans.look (scans_comesNext _)
  rw [if_pos hm]
  exact (scans_skip _).finish (.pure [])

theorem scans_quoted_escape {w : List Char} {d : Char}
    (hm : q.mark.isPrefixOf ('\\' :: (w ++ v) ++ rest) = false)
    (he : Scans (escape now.length) (now ++ ['\\']) w (v ++ rest) d)
    (hr : Scans (quoted q start n) (now ++ '\\' :: w) v rest ds) :
    Scans (quoted q start (n + 1)) now ('\\' :: (w ++ v)) rest (d :: ds) := by
  apply Scans.look (scans_comesNext _)
  rw [hm, if_neg Bool.false_ne_true]
  apply Scans.look scans_position
  apply Scans.bind (u := ['\\']) (v := w ++ v) (scans_next '\\')
  dsimp only
  rw [if_pos rfl]
  apply he.bind
  rw [List.append_assoc]
  exact hr.finish (.pure _)

theorem scans_quoted_plain (hm : q.mark.isPrefixOf (c :: v ++ rest) = false) (hc : c ≠ '\\')
    (hlines : c = '\n' → q.spansLines = true)
    (hr : Scans (quoted q start n) (now ++ [c]) v rest ds) :
    Scans (quoted q start (n + 1)) now (c :: v) rest (c :: ds) := by
  apply Scans.look (scans_comesNext _)
  rw [hm, if_neg Bool.false_ne_true]
  apply Scans.look scans_position
  apply Scans.bind (u := [c]) (v := v) (scans_next c)
  dsimp only
  rw [if_neg hc, if_neg (by simpa using hlines)]
  exact hr.finish (.pure _)

theorem fails_unfinished {u : List Char} :
    Fails (do
      let length ← minus (before ++ u).length before.length
      fail ⟨.unfinished q.unfinished, ⟨before.length, length⟩⟩ : Scanner (List Char)) now rest
      ⟨.unfinished q.unfinished, ⟨before.length, u.length⟩⟩ := by
  rw [List.length_append, minus_eq (Nat.le_add_right _ _), pure_bind, Nat.add_sub_cancel_left]
  exact fails_fail

theorem fails_quoted_nil {u : List Char} :
    Fails (quoted q before.length (n + 1)) (before ++ u) []
      ⟨.unfinished q.unfinished, ⟨before.length, u.length⟩⟩ := by
  have hm : q.mark.isPrefixOf [] = false := by cases q <;> rfl
  apply Scans.look_fails (scans_comesNext _)
  rw [hm, if_neg Bool.false_ne_true]
  apply Scans.look_fails scans_position
  apply Scans.look_fails scans_next_nil
  exact fails_unfinished

theorem fails_quoted_lineFeed {u : List Char} (hm : q.mark.isPrefixOf (c :: cs) = false)
    (hc : c ≠ '\\') (hline : (c = '\n' && !q.spansLines) = true) :
    Fails (quoted q before.length (n + 1)) (before ++ u) (c :: cs)
      ⟨.unfinished q.unfinished, ⟨before.length, u.length⟩⟩ := by
  apply Scans.look_fails (scans_comesNext _)
  rw [hm, if_neg Bool.false_ne_true]
  apply Scans.look_fails scans_position
  apply Scans.fails (u := [c]) (scans_next c)
  dsimp only
  rw [if_neg hc, if_pos hline]
  exact fails_unfinished

theorem fails_quoted_plain {e : LexicalError} (hm : q.mark.isPrefixOf (c :: cs) = false)
    (hc : c ≠ '\\') (hline : (c = '\n' && !q.spansLines) = false)
    (hr : Fails (quoted q start n) (now ++ [c]) cs e) :
    Fails (quoted q start (n + 1)) now (c :: cs) e := by
  apply Scans.look_fails (scans_comesNext _)
  rw [hm, if_neg Bool.false_ne_true]
  apply Scans.look_fails scans_position
  apply Scans.fails (u := [c]) (scans_next c)
  dsimp only
  rw [if_neg hc, if_neg (by simp [hline])]
  exact hr.bind

theorem fails_quoted_backslash {e : LexicalError} (hm : q.mark.isPrefixOf ('\\' :: cs) = false)
    (h : Fails (do
      let d ← escape now.length
      let ds ← quoted q start n
      return d :: ds) (now ++ ['\\']) cs e) :
    Fails (quoted q start (n + 1)) now ('\\' :: cs) e := by
  apply Scans.look_fails (scans_comesNext _)
  rw [hm, if_neg Bool.false_ne_true]
  apply Scans.look_fails scans_position
  apply Scans.fails (u := ['\\']) (scans_next '\\')
  dsimp only
  rw [if_pos rfl]
  exact h

end

theorem scans_quoted (before : List Char) {q : Quoted.Quote} {u ds : List Char} {k : Nat}
    (h : Quoted.body q 0 u.length cs = .ok (ds, u.length + k)) (hn : cs.length < n) :
    Scans (quoted q before.length n) (before ++ u) (cs.take k) (cs.drop k) ds := by
  induction n generalizing u cs ds k with
  | zero => exact absurd hn (Nat.not_lt_zero _)
  | succ n ih =>
      have hnext {w cs ds : List Char} {j total : Nat}
          (h : Quoted.body q 0 (u.length + w.length) cs = .ok (ds, total))
          (htotal : total = u.length + w.length + j) (hn : cs.length < n) :
          Scans (quoted q before.length n) (before ++ u ++ w) (cs.take j) (cs.drop j) ds := by
        rw [htotal, ← List.length_append] at h
        rw [List.append_assoc]
        exact ih h hn
      cases cs with
      | nil => cases h
      | cons c cs =>
          rw [List.length_cons] at hn
          cases hm : q.mark.isPrefixOf (c :: cs) with
          | true =>
              obtain ⟨rest, hrest⟩ := List.isPrefixOf_iff_prefix.1 hm
              rw [Quoted.body_of_mark hm] at h
              obtain ⟨rfl, hk⟩ := Prod.mk.inj (Except.ok.inj h)
              obtain rfl := Nat.add_left_cancel hk
              rw [← hrest, List.take_left, List.drop_left]
              exact scans_quoted_mark (hrest ▸ hm)
          | false =>
              by_cases hc : c = '\\'
              · subst hc
                obtain ⟨d, m, es, he, rfl, hb⟩ := (Quoted.body_escape_eq_ok_iff hm).1 h
                have hbounds := Quoted.bounds_of_body_eq_ok hb
                obtain ⟨j, rfl⟩ : ∃ j, k = m + j + 1 := ⟨k - m - 1, by omega⟩
                obtain ⟨w, rest, rfl, rfl⟩ : ∃ w rest, cs = w ++ rest ∧ m = w.length :=
                  ⟨cs.take m, cs.drop m, by simp, by simp; omega⟩
                rw [Quoted.body_pending, Nat.add_assoc, Nat.add_comm 1] at hb
                have hescape := scans_escape (before ++ u) he
                rw [List.take_left, List.drop_left] at hescape
                have hrest := hnext (w := '\\' :: w) (j := j) hb (by simp; omega)
                  (by simp at hn; omega)
                rw [List.take_succ_cons, List.drop_succ_cons, List.take_length_add_append,
                  List.drop_length_add_append]
                rw [← List.take_append_drop j rest] at hm hescape
                rw [← List.append_assoc, ← List.cons_append] at hm
                exact scans_quoted_escape hm hescape hrest
              · obtain ⟨hlines, es, rfl, hb⟩ := (Quoted.body_plain_eq_ok_iff hm hc).1 h
                have hbounds := Quoted.bounds_of_body_eq_ok hb
                obtain ⟨j, rfl⟩ : ∃ j, k = j + 1 := ⟨k - 1, by omega⟩
                have hrest := hnext (w := [c]) (j := j) hb (by simp; omega) (by omega)
                rw [List.take_succ_cons, List.drop_succ_cons]
                rw [← List.take_append_drop j cs] at hm
                exact scans_quoted_plain hm hc hlines hrest

theorem fails_quoted {q : Quoted.Quote} {u : List Char} {e : LexicalError}
    (h : Quoted.body q 0 u.length cs = .error e) (hn : cs.length < n) :
    Fails (quoted q before.length n) (before ++ u) cs (e.shift before.length) := by
  induction n generalizing u cs with
  | zero => exact absurd hn (Nat.not_lt_zero _)
  | succ n ih =>
      have hnext {w cs : List Char} (h : Quoted.body q 0 (u.length + w.length) cs = .error e)
          (hn : cs.length < n) :
          Fails (quoted q before.length n) (before ++ u ++ w) cs (e.shift before.length) := by
        rw [← List.length_append] at h
        rw [List.append_assoc]
        exact ih h hn
      cases cs with
      | nil =>
          cases h
          exact fails_quoted_nil
      | cons c cs =>
          rw [List.length_cons] at hn
          obtain ⟨hm, ⟨rfl, x, hx, rfl⟩ | ⟨rfl, d, m, he, hb⟩ | ⟨hc, hline, rfl⟩ |
            ⟨hc, hline, hb⟩⟩ := Quoted.body_cons_eq_error h
          · have hshift : (x.shift u.length).shift before.length =
                x.shift (before ++ u).length := by
              simp [LexicalError.shift, Span.shift_shift]
            rw [hshift]
            exact fails_quoted_backslash hm (fails_escape hx).bind
          · have hlength := le_of_escape he
            obtain ⟨w, rest, rfl, rfl⟩ : ∃ w rest, cs = w ++ rest ∧ m = w.length :=
              ⟨cs.take m, cs.drop m, by simp, by simp; omega⟩
            rw [Quoted.body_pending, Nat.add_assoc, Nat.add_comm 1] at hb
            have hescape := scans_escape (before ++ u) he
            rw [List.take_left, List.drop_left] at hescape
            refine fails_quoted_backslash hm (hescape.fails ?_)
            rw [List.append_assoc (before ++ u)]
            exact (hnext (w := '\\' :: w) hb (by simp at hn; omega)).bind
          · exact fails_quoted_lineFeed hm hc hline
          · exact fails_quoted_plain hm hc hline (hnext (w := [c]) hb (by omega))

theorem scans_quoted_append (before : List Char) {q : Quoted.Quote} {u ds : List Char} {total : Nat}
    (h : Quoted.body q 0 u.length cs = .ok (ds, total)) :
    ∃ w rest, cs = w ++ rest ∧ total = u.length + w.length ∧
      Scans (bounded (quoted q before.length)) (before ++ u) w rest ds := by
  have hbounds := Quoted.bounds_of_body_eq_ok h
  obtain ⟨w, rest, rfl, htotal⟩ : ∃ w rest, cs = w ++ rest ∧ total = u.length + w.length :=
    ⟨cs.take (total - u.length), cs.drop (total - u.length), by simp, by simp; omega⟩
  refine ⟨w, rest, rfl, htotal, scans_bounded fun n hn => ?_⟩
  have hscan := scans_quoted before (htotal ▸ h) hn
  rwa [List.take_left, List.drop_left] at hscan

theorem obeys_character : Obeys (character before.length) before '\'' cs (Quoted.readChar cs) := by
  cases hb : Quoted.body .apostrophe 0 1 cs with
  | error e =>
      rw [Quoted.readChar, hb]
      apply Scans.fails (u := ['\'']) (scans_skip ['\''])
      exact (fails_bounded fun n hn => fails_quoted (u := ['\'']) hb hn).bind
  | ok outcome =>
      obtain ⟨text, total⟩ := outcome
      obtain ⟨w, rest, rfl, rfl, htext⟩ := scans_quoted_append before (u := ['\'']) hb
      rw [Quoted.readChar, hb]
      have hnot : Fails (failFrom before.length .notOneCharacter : Scanner (Option TokenKind))
          (before ++ ['\''] ++ w) rest
          ⟨.notOneCharacter, ⟨before.length, ['\''].length + w.length⟩⟩ := by
        rw [← List.length_append]
        exact fails_failFrom (List.append_assoc _ _ _)
      rcases text with _ | ⟨c, _ | ⟨d, text⟩⟩
      · exact Scans.fails (u := ['\'']) (scans_skip ['\'']) (htext.fails hnot)
      · have hscan : Scans (character before.length) before ('\'' :: w) rest (some (.char c)) :=
          Scans.bind (scans_skip ['\'']) (htext.finish (.pure _))
        have hlength : ['\''].length + w.length - 1 = w.length := Nat.add_sub_cancel_left _ _
        have hread : Obeys (character before.length) before '\'' (w ++ rest)
            (.ok ⟨some (.char c), ['\''].length + w.length - 1⟩) := by
          rw [hlength]
          exact hscan.obeys
        exact hread
      · exact Scans.fails (u := ['\'']) (scans_skip ['\'']) (htext.fails hnot)

theorem mark_append_drop (cs : List Char) :
    (Quoted.opening cs).mark ++ cs.drop ((Quoted.opening cs).mark.length - 1) = '"' :: cs := by
  unfold Quoted.opening
  split
  · rename_i h
    obtain ⟨rest, rfl⟩ := List.isPrefixOf_iff_prefix.1 h
    rfl
  · rfl

theorem obeys_string : Obeys (string before.length) before '"' cs (Quoted.readString cs) := by
  have hopening : (if Quoted.Quote.triple.mark.isPrefixOf ('"' :: cs) then Quoted.Quote.triple
      else .double) = Quoted.opening cs := rfl
  have hsplit := mark_append_drop cs
  generalize hq : Quoted.opening cs = q at hopening hsplit
  cases hr : Quoted.readString cs with
  | error e =>
      have hb := Quoted.body_of_readString_eq_error hr
      rw [hq] at hb
      apply Scans.look_fails (scans_comesNext _)
      rw [hopening, ← hsplit]
      apply Scans.fails (scans_skip _)
      exact (fails_bounded fun n hn => fails_quoted hb hn).bind
  | ok l =>
      obtain ⟨text, total, rfl, hb⟩ := Quoted.readString_eq_ok_iff.1 hr
      rw [hq] at hb
      obtain ⟨w, rest, hw, rfl, htext⟩ := scans_quoted_append before hb
      rw [hw, ← List.append_assoc] at hsplit
      have hmark : q.mark ≠ [] := by cases q <;> simp [Quoted.Quote.mark]
      obtain ⟨hnil, -⟩ | ⟨tail, htail, rfl⟩ := List.append_eq_cons_iff.1 hsplit
      · exact absurd (List.append_eq_nil_iff.1 hnil).1 hmark
      have hscan : Scans (string before.length) before ('"' :: tail) rest
          (some (.string (String.ofList text))) := by
        rw [← htail]
        apply Scans.look (scans_comesNext _)
        rw [hsplit, hopening]
        exact (scans_skip _).bind (htext.finish (.pure _))
      have hlength : q.mark.length + w.length - 1 = tail.length := by
        rw [← List.length_append, htail, List.length_cons, Nat.add_sub_cancel]
      rw [hlength]
      exact hscan.obeys

end Guarded.Scanner

end ElmTypes
