import Mathlib.Order.MinMax
import ElmTypes.Proofs.Lexical.LineFeeds
import ElmTypes.Proofs.Lexical.Tiling

namespace ElmTypes

open Lexeme

def crlf (text : List Char) : List Char :=
  text.flatMap fun c => if c = '\n' then ['\r', '\n'] else [c]

@[simp] theorem crlf_nil : crlf [] = [] := rfl

@[simp] theorem crlf_lineFeed (cs : List Char) : crlf ('\n' :: cs) = '\r' :: '\n' :: crlf cs := rfl

@[simp] theorem crlf_append (cs ds : List Char) : crlf (cs ++ ds) = crlf cs ++ crlf ds :=
  List.flatMap_append

theorem crlf_cons_of_ne {c : Char} (h : c ≠ '\n') (cs : List Char) : crlf (c :: cs) = c :: crlf cs := by
  simp [crlf, h]

theorem crlf_eq_self {cs : List Char} (h : '\n' ∉ cs) : crlf cs = cs := by
  induction cs with
  | nil => rfl
  | cons c cs ih =>
      rw [List.mem_cons, not_or] at h
      rw [crlf_cons_of_ne (Ne.symm h.1), ih h.2]

theorem head?_crlf {cs : List Char} {c : Char} (h : (crlf cs).head? = some c) :
    cs.head? = some c ∨ c = '\r' := by
  cases cs with
  | nil => cases h
  | cons d cs =>
      by_cases hd : d = '\n'
      · subst hd
        exact .inr (Option.some.inj h).symm
      · rw [crlf_cons_of_ne hd] at h
        exact .inl h

theorem foldl_columnAfter_crlf (cs : List Char) (column : Nat) :
    (crlf cs).foldl columnAfter column = cs.foldl columnAfter column := by
  induction cs generalizing column with
  | nil => rfl
  | cons c cs ih =>
      by_cases hc : c = '\n'
      · subst hc
        exact ih 0
      · rw [crlf_cons_of_ne hc]
        exact ih _

theorem Position.after_crlf (text : List Char) : after (crlf text) = after text := by
  induction text using List.reverseRecOn with
  | nil => rfl
  | append_singleton text c ih =>
      by_cases hc : c = '\n'
      · have hadvance : ((after text).advance '\r').advance '\n' = (after text).advance '\n' := by
          rw [advance_lineFeed, advance_lineFeed, advance_of_ne (by decide)]
        rw [hc, crlf_append, after_append_singleton, ← hadvance, ← ih, ← after_append_singleton,
          ← after_append_singleton, List.append_assoc]
        rfl
      · rw [crlf_append, crlf_cons_of_ne hc, crlf_nil, after_append_singleton,
          after_append_singleton, ih]

def crlfOffset (text : List Char) (n : Nat) : Nat := (crlf (text.take n)).length

theorem crlfOffset_mono (text : List Char) : Monotone (crlfOffset text) := by
  intro m n hmn
  have htake : text.take n = text.take m ++ (text.drop m).take (n - m) := by
    rw [← List.take_add, Nat.add_sub_of_le hmn]
  rw [crlfOffset, crlfOffset, htake, crlf_append, List.length_append]
  exact Nat.le_add_right _ _

theorem crlfOffset_append (before rest : List Char) :
    crlfOffset (before ++ rest) before.length = (crlf before).length := by
  rw [crlfOffset, List.take_left]

structure Span.InCrlf (text : List Char) (s s' : Span) : Prop where
  isEmpty : s'.isEmpty = s.isEmpty
  start : s'.start = crlfOffset text s.start
  stop : s'.stop = crlfOffset text s.stop

structure Token.InCrlf (text : List Char) (t t' : Token) : Prop where
  kind : t'.kind = t.kind
  column : t'.column = t.column
  span : t.span.InCrlf text t'.span

namespace Lexeme

theorem Comment.lengthToClose_crlf {depth n : Nat} {cs : List Char}
    (h : lengthToClose depth cs = some n) :
    lengthToClose depth (crlf cs) = some (crlf (cs.take n)).length := by
  fun_induction lengthToClose depth cs generalizing n with
  | case1 =>
      cases h
      simp [lengthToClose]
  | case2 depth cs ih =>
      obtain ⟨m, hm, rfl⟩ := Option.map_eq_some_iff.1 h
      simp [crlf_cons_of_ne, lengthToClose, ih hm]
  | case3 depth cs ih =>
      obtain ⟨m, hm, rfl⟩ := Option.map_eq_some_iff.1 h
      simp [crlf_cons_of_ne, lengthToClose, ih hm]
  | case4 depth c cs ho hc ih =>
      obtain ⟨m, hm, rfl⟩ := Option.map_eq_some_iff.1 h
      by_cases hn : c = '\n'
      · subst hn
        simp [lengthToClose, ih hm]
      · -- no carriage return comes between two characters that open or close a comment
        have hhead {d : Char} {ds : List Char} (hd : d ≠ '\r') (h : crlf cs = d :: ds) :
            ∃ es, cs = d :: es :=
          List.head?_eq_some_iff.1 ((head?_crlf (h ▸ rfl)).resolve_right hd)
        have hstep : lengthToClose (depth + 1) (c :: crlf cs) =
            (lengthToClose (depth + 1) (crlf cs)).map (· + 1) := by
          apply lengthToClose.eq_4
          · intro ds h1 h2
            obtain ⟨es, rfl⟩ := hhead (by decide) h2
            exact ho es h1 rfl
          · intro ds h1 h2
            obtain ⟨es, rfl⟩ := hhead (by decide) h2
            exact hc es h1 rfl
        rw [crlf_cons_of_ne hn, hstep, ih hm, List.take_succ_cons, crlf_cons_of_ne hn]
        rfl
  | case5 => cases h

theorem scan_crlf_of_skipped {c : Char} {cs rest : List Char} (hc : c ≠ '\n')
    (h : scan c (cs ++ rest) = .ok (.skipped cs.length)) :
    scan c (crlf cs ++ crlf rest) = .ok (.skipped (crlf cs).length) := by
  have hs := Form.suits_choose c (cs ++ rest)
  have hform := choose_of_skipped h rfl
  rw [scan_eq_read_choose] at h
  rcases hform with hform | hform | hform
  · rw [hform] at h hs
    obtain ⟨rfl, hd⟩ := hs
    obtain ⟨ds, hds⟩ := List.head?_eq_some_iff.1 hd
    rw [Form.read, hds] at h
    obtain ⟨n, hn, hl⟩ := Comment.readBlock_eq_ok_iff.1 h
    have hlength : cs.length = n + 1 := congrArg Lexeme.tail hl
    cases cs with
    | nil => cases hlength
    | cons d text =>
        obtain ⟨rfl, (rfl : text ++ rest = ds)⟩ := List.cons.inj hds
        have hclose := Comment.lengthToClose_crlf hn
        rw [← Nat.succ.inj hlength, List.take_left, crlf_append] at hclose
        rw [crlf_cons_of_ne (by decide), List.cons_append, scan_blockComment]
        exact Comment.readBlock_eq_ok_iff.2 ⟨_, hclose, rfl⟩
  · rw [hform] at h hs
    obtain ⟨rfl, hd⟩ := hs
    have hline : Comment.line (cs ++ rest) = cs :=
      Comment.line_append_eq_of_length_eq (congrArg Lexeme.tail (Except.ok.inj h))
    obtain ⟨ht, hr⟩ := Comment.forall_of_line_append_eq hline
    have hcs : crlf cs = cs := crlf_eq_self fun hm => (ht _ hm).1 rfl
    have hr' : ∀ c ∈ (crlf rest).head?, c = '\n' ∨ c = '\r' := by
      intro c hc
      exact (head?_crlf hc).elim (hr c) .inr
    have hline' := Comment.line_append ht hr'
    cases cs with
    | nil =>
        obtain ⟨ds, rfl⟩ := List.head?_eq_some_iff.1 hd
        exact absurd (hr '-' rfl) (by decide)
    | cons d text =>
        obtain rfl := Option.some.inj hd
        rw [hcs, List.cons_append, scan_lineComment, ← List.cons_append, hline']
  · rw [hform] at h hs
    obtain rfl := List.length_eq_zero_iff.1 (congrArg Lexeme.tail (Except.ok.inj h)).symm
    exact scan_blank hs _

end Lexeme

theorem lexFrom_crlf_of_skipped {c : Char} {cs rest : List Char}
    (h : scan c (cs ++ rest) = .ok (.skipped cs.length)) (offset column : Nat) :
    lexFrom 0 offset column (crlf (c :: cs) ++ crlf rest) =
      lexFrom 0 (offset + (crlf (c :: cs)).length) ((c :: cs).foldl columnAfter column)
        (crlf rest) := by
  by_cases hc : c = '\n'
  · subst hc
    rw [scan_blank rfl] at h
    obtain rfl := List.length_eq_zero_iff.1 (congrArg Lexeme.tail (Except.ok.inj h)).symm
    have hreturn : scan '\r' ([] ++ '\n' :: crlf rest) = .ok (.skipped ([] : List Char).length) :=
      scan_blank rfl _
    exact (lexFrom_of_scan_eq_skipped hreturn offset column).trans (lexFrom_lineFeed _ _ _)
  · rw [← foldl_columnAfter_crlf, crlf_cons_of_ne hc]
    exact lexFrom_of_scan_eq_skipped (scan_crlf_of_skipped hc h) offset column

theorem scan_append_crlf {c : Char} {cs rest : List Char} {kind : TokenKind}
    (h : scan c (cs ++ rest) = .ok ⟨some kind, cs.length⟩) :
    scan c (cs ++ crlf rest) = .ok ⟨some kind, cs.length⟩ := by
  have hline : crlf (rest.takeWhile (· != '\n')) = rest.takeWhile (· != '\n') := by
    apply crlf_eq_self
    intro hm
    exact absurd (forall_mem_takeWhile _ rest _ hm) (by decide)
  have hdelimits : Delimits (crlf (rest.dropWhile (· != '\n'))) := by
    intro d hd
    rcases head?_crlf hd with hd | rfl
    · have hnot := List.head?_dropWhile_not (· != '\n') rest
      rw [hd] at hnot
      obtain rfl : d = '\n' := by simpa using hnot
      decide
    · decide
  rw [← List.takeWhile_append_dropWhile (p := (· != '\n')) (l := rest), ← List.append_assoc] at h
  rw [← List.takeWhile_append_dropWhile (p := (· != '\n')) (l := rest), crlf_append, hline,
    ← List.append_assoc]
  exact scan_append_congr hdelimits h (by simp) (by simp)

theorem Tiles.crlf {before ahead : List Char} {tokens : List Token} (h : Tiles before ahead tokens)
    (hs : ∀ t ∈ tokens, ∀ text, t.kind = .string text → '\n' ∉ t.span.slice (before ++ ahead)) :
    ∃ tokens', lexFrom 0 (crlf before).length (before.foldl columnAfter 0) (crlf ahead) =
      .ok tokens' ∧ List.Forall₂ (Token.InCrlf (before ++ ahead)) tokens tokens' := by
  induction h with
  | done before => exact ⟨[], rfl, .nil⟩
  | @skipped before cs rest c l tokens h hl hk hr ih =>
      obtain ⟨kind, tail⟩ := l
      obtain rfl : kind = none := hk
      obtain rfl : tail = cs.length := hl
      rw [List.append_assoc] at ih
      obtain ⟨tokens', hlex, htokens⟩ := ih hs
      refine ⟨tokens', ?_, htokens⟩
      rw [crlf_append, lexFrom_crlf_of_skipped h, ← hlex, crlf_append, List.length_append,
        List.foldl_append]
  | @token before cs rest c kind tokens h hr ih =>
      obtain ⟨hfirst, hrest⟩ := List.forall_mem_cons.1 hs
      have hslice : Span.slice ⟨before.length, (c :: cs).length⟩ (before ++ (c :: cs ++ rest)) =
          c :: cs := by
        rw [Span.slice, List.drop_left, List.take_left]
      have hline : '\n' ∉ c :: cs := by
        intro hn
        have htake : c :: (cs ++ rest).take cs.length = c :: cs := by rw [List.take_left]
        obtain ⟨text, hkind, -⟩ := lineFeed_mem_of_scan h (htake ▸ hn)
        apply hfirst text hkind
        rwa [hslice]
      rw [List.append_assoc] at ih
      obtain ⟨tokens', hlex, htokens⟩ := ih hrest
      refine ⟨⟨kind, ⟨(ElmTypes.crlf before).length, (c :: cs).length⟩,
        before.foldl columnAfter 0⟩ :: tokens', ?_, .cons ⟨rfl, rfl, rfl, ?_, ?_⟩ htokens⟩
      · rw [crlf_append, crlf_eq_self hline, lexFrom_of_scan_eq_ok (scan_append_crlf h) rfl]
        rw [crlf_append, crlf_eq_self hline, List.length_append, List.foldl_append] at hlex
        rw [hlex]
        rfl
      · exact (crlfOffset_append _ _).symm
      · have hstop := crlfOffset_append (before ++ c :: cs) rest
        rw [crlf_append, crlf_eq_self hline, List.length_append, List.length_append,
          List.append_assoc] at hstop
        exact hstop.symm

end ElmTypes
