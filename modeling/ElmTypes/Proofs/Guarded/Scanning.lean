import ElmTypes.Proofs.Guarded.Scanner
import ElmTypes.Token.Lex

namespace ElmTypes.Guarded

structure Tape.Stands (t : Tape) (before ahead : List Char) : Prop where
  text : t.text = before ++ ahead
  position : t.position = before.length
  lineStart : t.lineStart + before.foldl columnAfter 0 = before.length

namespace Scanner

open Lexeme

/-- From behind `before` it takes the part `taken` of the text, for this result. -/
def Scans {α : Type} (x : Scanner α) (before taken rest : List Char) (a : α) : Prop :=
  ∀ t : Tape, t.Stands before (taken ++ rest) →
    ∃ t', x.run t = .ok a t' ∧ t'.Stands (before ++ taken) rest

def Fails {α : Type} (x : Scanner α) (before ahead : List Char) (e : LexicalError) : Prop :=
  ∀ t : Tape, t.Stands before ahead → ∃ t', x.run t = .error (.error e) t'

section

variable {α β : Type} {x : Scanner α} {f : α → Scanner β} {before u v rest : List Char} {a : α}
  {b : β} {e : LexicalError}

theorem Scans.pure (a : α) : Scans (pure a) before [] rest a := by
  intro t h
  refine ⟨t, rfl, ?_⟩
  rwa [List.append_nil]

theorem Scans.bind (hx : Scans x before u (v ++ rest) a) (hf : Scans (f a) (before ++ u) v rest b) :
    Scans (x >>= f) before (u ++ v) rest b := by
  intro t h
  rw [List.append_assoc] at h
  obtain ⟨t', ht, h'⟩ := hx t h
  obtain ⟨t'', ht', h''⟩ := hf t' h'
  rw [List.append_assoc] at h''
  refine ⟨t'', ?_, h''⟩
  rw [EStateM.run_bind, ht]
  exact ht'

theorem Scans.look (hx : Scans x before [] (v ++ rest) a) (hf : Scans (f a) before v rest b) :
    Scans (x >>= f) before v rest b := by
  rw [← List.append_nil before] at hf
  exact hx.bind hf

theorem Scans.finish (hx : Scans x before u rest a) (hf : Scans (f a) (before ++ u) [] rest b) :
    Scans (x >>= f) before u rest b := by
  have h := Scans.bind (v := []) hx hf
  rwa [List.append_nil] at h

theorem Scans.fails (hx : Scans x before u rest a) (hf : Fails (f a) (before ++ u) rest e) :
    Fails (x >>= f) before (u ++ rest) e := by
  intro t h
  obtain ⟨t', ht, h'⟩ := hx t h
  obtain ⟨t'', ht'⟩ := hf t' h'
  refine ⟨t'', ?_⟩
  rw [EStateM.run_bind, ht]
  exact ht'

theorem Scans.look_fails (hx : Scans x before [] rest a) (hf : Fails (f a) before rest e) :
    Fails (x >>= f) before rest e := by
  rw [← List.append_nil before] at hf
  exact hx.fails hf

theorem Fails.bind (hx : Fails x before rest e) : Fails (x >>= f) before rest e := by
  intro t h
  obtain ⟨t', ht⟩ := hx t h
  refine ⟨t', ?_⟩
  rw [EStateM.run_bind, ht]

theorem fails_fail : Fails (fail e : Scanner α) before rest e := fun t _ => ⟨t, rfl⟩

theorem scans_position : Scans position before [] rest before.length := by
  intro t h
  refine ⟨t, ?_, by rwa [List.append_nil]⟩
  rw [← h.position]
  rfl

theorem scans_peekAt (n : Nat) : Scans (peekAt n) before [] rest rest[n]? := by
  intro t h
  have hget : t.text[t.position + n]? = rest[n]? := by
    rw [h.text, h.position, List.getElem?_append_right (Nat.le_add_right _ _),
      Nat.add_sub_cancel_left]
    rfl
  refine ⟨t, ?_, by rwa [List.append_nil]⟩
  rw [← hget]
  rfl

theorem scans_comesNext (mark : List Char) :
    Scans (comesNext mark) before [] rest (mark.isPrefixOf rest) := by
  intro t h
  have hdrop : t.text.drop t.position = rest := by
    rw [h.text, h.position, List.drop_left]
    rfl
  refine ⟨t, ?_, by rwa [List.append_nil]⟩
  rw [← hdrop]
  rfl

theorem scans_next (c : Char) : Scans next before [c] rest (some c) := by
  intro t h
  have hget : t.text[t.position]? = some c := by
    rw [h.text, h.position, List.getElem?_append_right (Nat.le_refl _), Nat.sub_self]
    rfl
  refine ⟨⟨t.text, t.position + 1, if c = '\n' then t.position + 1 else t.lineStart⟩,
    ?_, ?_, ?_, ?_⟩
  · simp only [next, EStateM.run_bind, EStateM.run_get, hget]
    rfl
  · rw [h.text, List.append_assoc]
  · rw [h.position, List.length_append]
    rfl
  · rw [List.foldl_append, List.foldl_cons, List.foldl_nil, columnAfter, List.length_append,
      List.length_singleton, ← h.lineStart]
    split
    · rw [h.position, h.lineStart, Nat.add_zero]
    · exact (Nat.add_assoc _ _ _).symm

theorem scans_next_nil : Scans next before [] [] none := by
  intro t h
  have hget : t.text[t.position]? = none := by
    rw [h.text, h.position]
    simp
  refine ⟨t, ?_, by rwa [List.append_nil]⟩
  simp only [next, EStateM.run_bind, EStateM.run_get, hget]
  rfl

theorem scans_nextIf {p : Char → Bool} {c : Char} (hc : p c = true) :
    Scans (nextIf p) before [c] rest (some c) := by
  refine Scans.look (scans_peekAt 0) ?_
  simp only [List.cons_append, List.getElem?_cons_zero, hc, if_true]
  exact scans_next c

theorem scans_nextIf_none {p : Char → Bool} (h : ∀ c ∈ rest.head?, p c = false) :
    Scans (nextIf p) before [] rest none := by
  refine Scans.look (scans_peekAt 0) ?_
  cases rest with
  | nil => exact .pure none
  | cons c rest =>
      have hc : p c = false := h c rfl
      simp only [List.nil_append, List.getElem?_cons_zero, hc, Bool.false_eq_true, if_false]
      exact .pure none

theorem scans_skip (u : List Char) : Scans (skip u.length) before u rest () := by
  induction u generalizing before with
  | nil => exact .pure ()
  | cons c u ih => exact (scans_next c).bind ih

theorem scans_columnOf :
    Scans (columnOf before.length) before [] rest (before.foldl columnAfter 0) := by
  intro t h
  have hline := h.lineStart
  refine ⟨t, ?_, by rwa [List.append_nil]⟩
  rw [columnOf, EStateM.run_bind, EStateM.run_get]
  simp only
  rw [minus_eq (by omega), EStateM.run_pure, Nat.sub_eq_of_eq_add]
  omega

theorem scans_lengthFrom : Scans (lengthFrom before.length) (before ++ u) [] rest u.length := by
  refine Scans.look scans_position ?_
  rw [List.length_append, minus_eq (Nat.le_add_right _ _), Nat.add_sub_cancel_left]
  exact .pure _

theorem fails_failFrom {now : List Char} {cause : LexicalCause} (h : now = before ++ u) :
    Fails (failFrom before.length cause : Scanner α) now rest
      ⟨cause, ⟨before.length, u.length⟩⟩ := by
  subst h
  exact scans_lengthFrom.look_fails fails_fail

theorem scans_bounded {read : Nat → Scanner α}
    (h : ∀ n, (u ++ rest).length < n → Scans (read n) before u rest a) :
    Scans (bounded read) before u rest a := by
  intro t ht
  have hdrop : t.text.drop t.position = u ++ rest := by
    rw [ht.text, ht.position, List.drop_left]
  have hrun : (bounded read).run t = (read ((u ++ rest).length + 1)).run t := by
    rw [← hdrop]
    rfl
  rw [hrun]
  exact h _ (Nat.lt_succ_self _) t ht

theorem fails_bounded {read : Nat → Scanner α}
    (h : ∀ n, rest.length < n → Fails (read n) before rest e) :
    Fails (bounded read) before rest e := by
  intro t ht
  have hdrop : t.text.drop t.position = rest := by
    rw [ht.text, ht.position, List.drop_left]
  have hrun : (bounded read).run t = (read (rest.length + 1)).run t := by
    rw [← hdrop]
    rfl
  rw [hrun]
  exact h _ (Nat.lt_succ_self _) t ht

theorem scans_takeWhileAt {p : Char → Bool} {n : Nat} (hp : ∀ c ∈ u, p c = true)
    (hr : ∀ c ∈ rest.head?, p c = false) (hn : u.length < n) :
    Scans (takeWhileAt p n) before u rest u := by
  induction n generalizing before u with
  | zero => exact absurd hn (Nat.not_lt_zero _)
  | succ n ih =>
      cases u with
      | nil =>
          apply Scans.look (v := []) (scans_nextIf_none hr)
          exact .pure []
      | cons c u =>
          obtain ⟨hc, hu⟩ := List.forall_mem_cons.1 hp
          have htail : Scans (takeWhileAt p n) (before ++ [c]) u rest u :=
            ih hu (Nat.lt_of_succ_lt_succ hn)
          exact (scans_nextIf hc).bind (htail.finish (.pure (c :: u)))

theorem scans_takeWhile {p : Char → Bool} (hp : ∀ c ∈ u, p c = true)
    (hr : ∀ c ∈ rest.head?, p c = false) : Scans (takeWhile p) before u rest u := by
  refine scans_bounded fun n hn => scans_takeWhileAt hp hr ?_
  rw [List.length_append] at hn
  omega

theorem takeWhile_append_eq_left {p : Char → Bool} (hp : ∀ c ∈ u, p c = true)
    (hr : ∀ c ∈ rest.head?, p c = false) : (u ++ rest).takeWhile p = u := by
  rw [List.takeWhile_append_of_pos hp]
  cases rest with
  | nil => rw [List.takeWhile_nil, List.append_nil]
  | cons c rest => rw [List.takeWhile_cons, hr c rfl, if_neg Bool.false_ne_true, List.append_nil]

theorem head?_dropWhile_not (p : Char → Bool) (cs : List Char) :
    ∀ c ∈ (cs.dropWhile p).head?, p c = false := by
  intro c hc
  have h := List.head?_dropWhile_not p cs
  rw [hc] at h
  simpa using h

end

end Scanner

end ElmTypes.Guarded
