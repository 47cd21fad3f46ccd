import ElmTypes.Proofs.Grammar.Opening

namespace ElmTypes

namespace Reader

variable {α β : Type} {c : Cursor} {t : Token} {ts : List Token} {kind : ModuleKind}

def Leaves (ts : List Token) (c : Cursor) (r : Reader α) : Prop :=
  match r.run c with
  | .ok _ d => d.ahead <:+ ts
  | .error _ d => d.ahead <:+ ts

theorem Reads.leaves {r : Reader α} {R : List Token → α → Prop} (h : Reads r R)
    (hc : c.ahead <:+ ts) : Leaves ts c r := by
  have hrun := h c
  unfold Leaves
  cases hr : r.run c with
  | ok a d =>
      rw [hr] at hrun
      obtain ⟨us, hd, -⟩ := hrun
      exact List.IsSuffix.trans ⟨us, hd.ahead.symm⟩ hc
  | error x d =>
      rw [hr] at hrun
      obtain ⟨us, hd, -⟩ := hrun
      exact List.IsSuffix.trans ⟨us, hd.ahead.symm⟩ hc

namespace Leaves

variable {r : Reader α} {f : α → Reader β}

theorem pure (a : α) (hc : c.ahead <:+ ts) : Leaves ts c (pure a) := hc

theorem bind (hr : Leaves ts c r) (hf : ∀ a d, d.ahead <:+ ts → Leaves ts d (f a)) :
    Leaves ts c (r >>= f) := by
  unfold Leaves at hr ⊢
  rw [EStateM.run_bind]
  cases hrun : r.run c with
  | ok a d =>
      rw [hrun] at hr
      exact hf a d hr
  | error x d =>
      rw [hrun] at hr
      exact hr

theorem map (g : α → β) (hr : Leaves ts c r) : Leaves ts c (g <$> r) := by
  rw [map_eq_pure_bind]
  exact hr.bind fun a _ hd => .pure (g a) hd

theorem lastSpan {f : Span → Reader β} (h : ∀ s, Leaves ts c (f s)) :
    Leaves ts c (lastSpan >>= f) := h c.last

theorem nextSpan {f : Span → Reader β} (h : ∀ s, Leaves ts c (f s)) :
    Leaves ts c (nextSpan >>= f) := h _

theorem declarationEnd (hc : c.ahead <:+ ts) : Leaves ts c declarationEnd := by
  have hrun : Leaves ts c (do unless c.atBoundary do unexpected) := by
    cases c.atBoundary with
    | true => exact .pure () hc
    | false => exact hc
  exact hrun

end Leaves

theorem run_expect {e : Expected} (hc : c.ahead = t :: ts) (h : e.accepts t.kind = true) :
    (expect e).run c = .ok t.span ⟨ts, [], t.span⟩ := by
  rw [expect, EStateM.run_bind, run_take, hc]
  simp only [h, if_true]
  rfl

theorem leaves_expect {e : Expected} (hc : c.ahead = t :: ts) (h : e.accepts t.kind = true) :
    Leaves ts c (expect e) := by
  unfold Leaves
  simp only [run_expect hc h]
  exact List.suffix_rfl

def firstWord : ModuleKind → Keyword
  | .normal => .module
  | .port => .port
  | .effect => .effect

theorem keyword?_of_headerKindOf (h : headerKindOf ts = some kind) :
    ∃ t us, ts = t :: us ∧ t.kind.keyword? = some (firstWord kind) := by
  have hbegins {w : Keyword} (hw : begins w ts = true) :
      ∃ t us, ts = t :: us ∧ t.kind.keyword? = some w := by
    cases ts with
    | nil => cases hw
    | cons t us => exact ⟨t, us, rfl, Expected.accepts_keyword_iff.1 hw⟩
  have hkind {second : ModuleKind} (hs : headerKindSecond second ts = some kind) :
      kind = second := by
    unfold headerKindSecond at hs
    split at hs
    · exact (Option.some.inj hs).symm
    · cases hs
  unfold headerKindOf at h
  split at h
  · rename_i hw
    obtain rfl := Option.some.inj h
    exact hbegins hw
  split at h
  · rename_i hw
    obtain rfl := hkind h
    exact hbegins hw
  split at h
  · rename_i hw
    obtain rfl := hkind h
    exact hbegins hw
  · cases h

theorem leaves_headerWords (hc : c.ahead = t :: ts)
    (hk : t.kind.keyword? = some (firstWord kind)) : Leaves ts c (headerWords kind) := by
  have hmodule : Leaves ts c (do
      advance
      unless ← eat (.keyword .module) do unexpected) := by
    have hadvance : Leaves ts c advance := by
      have htail : c.advance.ahead = ts := by simp [hc]
      exact htail ▸ List.suffix_refl c.advance.ahead
    refine hadvance.bind fun _ d hd => ((reads_eat _).leaves hd).bind fun b e he => ?_
    cases b with
    | true => exact .pure () he
    | false => exact he
  cases kind with
  | normal =>
      refine (leaves_expect hc (Expected.accepts_keyword_iff.2 hk)).bind fun _ d hd => ?_
      exact .pure () hd
  | port => exact hmodule
  | effect => exact hmodule

theorem leaves_header (hc : c.ahead = t :: ts) (hk : t.kind.keyword? = some (firstWord kind)) :
    Leaves ts c (header kind) := by
  refine .nextSpan fun start => (leaves_headerWords hc hk).bind fun _ d hd => ?_
  refine (reads_capitalisedName.leaves hd).bind fun _ e he => ?_
  have hexposing {name : String} {d : Cursor} (hd : d.ahead <:+ ts) : Leaves ts d (do
      let exposed ← exposing
      return (⟨kind, name, exposed, start.hull (← lastSpan)⟩ : Header)) :=
    (reads_exposing.leaves hd).bind fun _ _ he => .lastSpan fun _ => .pure _ he
  simp only
  split
  · refine ((reads_eat _).leaves he).bind fun b f hf => ?_
    cases b with
    | true => exact ((reads_skipGroup _).leaves hf).bind fun _ _ hg => hexposing hg
    | false => exact hexposing hf
  · exact hexposing he

theorem leaves_importLine (hc : c.ahead = t :: ts)
    (h : (Expected.keyword .import).accepts t.kind = true) : Leaves ts c importLine := by
  refine (leaves_expect hc h).bind fun start d hd => ?_
  refine (reads_capitalisedName.leaves hd).bind fun _ e he => ?_
  have hend {i : Span → Import} {d : Cursor} (hd : d.ahead <:+ ts) : Leaves ts d (do
      let span := start.hull (← lastSpan)
      declarationEnd
      return i span) :=
    .lastSpan fun _ => (Leaves.declarationEnd hd).bind fun _ _ he => .pure _ he
  have hexposing {i : Option Exposing → Span → Import} {d : Cursor} (hd : d.ahead <:+ ts) :
      Leaves ts d (do
        let exposed ← if ← checkInside (.keyword .exposing) then some <$> exposing else pure none
        let span := start.hull (← lastSpan)
        declarationEnd
        return i exposed span) := by
    refine ((peeks_checkInside _).reads.leaves hd).bind fun b e he => ?_
    cases b with
    | true => exact ((reads_exposing.leaves he).map some).bind fun _ _ hf => hend hf
    | false => exact hend he
  refine ((reads_eat _).leaves he).bind fun b f hf => ?_
  cases b with
  | true =>
      exact (((reads_declaredName.leaves hf).map Prod.fst).map some).bind fun _ _ hg => hexposing hg
  | false => exact hexposing hf

end Reader

namespace Cursor

open Reader

variable {α : Type} {c : Cursor} {t : Token} {ts : List Token} {item : Reader α}

theorem length_lt_of_read (h : Leaves ts c item) (hc : c.ahead = t :: ts) :
    (c.read item).2.ahead.length < c.ahead.length := by
  rw [hc, List.length_cons]
  unfold Leaves at h
  unfold read
  cases hrun : item.run c with
  | ok a d =>
      rw [hrun] at h
      exact Nat.lt_succ_of_le h.length_le
  | error e d =>
      rw [hrun] at h
      exact Nat.lt_succ_of_le ((nextDeclaration_suffix d).trans h).length_le

theorem length_lt_of_read_importLine (h : c.accepts (.keyword .import) = true) :
    (c.read importLine).2.ahead.length < c.ahead.length := by
  cases hc : c.ahead with
  | nil => simp [accepts, hc] at h
  | cons t ts =>
      rw [← hc]
      refine length_lt_of_read (leaves_importLine hc ?_) hc
      simpa [accepts, hc] using h

theorem length_lt_of_read_header {kind : ModuleKind} (h : headerKindOf c.ahead = some kind) :
    (c.read (some <$> header kind)).2.ahead.length < c.ahead.length := by
  obtain ⟨t, ts, hc, hk⟩ := keyword?_of_headerKindOf h
  exact length_lt_of_read ((leaves_header hc hk).map some) hc

theorem length_lt_of_readDeclaration (h : c.ahead ≠ []) :
    c.readDeclaration.2.ahead.length < c.ahead.length := by
  rw [readDeclaration]
  cases hr : Reader.declaration.run c with
  | ok d e => exact length_lt_of_run_declaration hr
  | error x d =>
      have hle := (reads_declaration.of_run_eq_error hr h).2.length_le
      have hpos := List.length_pos_iff.2 h
      simp only
      split
      · rename_i heq
        have hnext := (nextDeclaration_suffix d.advance).length_le
        rw [ahead_advance, List.length_tail] at hnext
        omega
      · have hnext := (nextDeclaration_suffix d).length_le
        omega

end Cursor

end ElmTypes
