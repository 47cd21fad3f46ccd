import ElmTypes.Proofs.Grammar.FileParts
import ElmTypes.Proofs.Grammar.Rereading

namespace ElmTypes

open Reader

namespace Reader

variable {α β : Type} {k : Nat}

theorem lastSpanOf_cons (s : Span) (t : Token) (ts : List Token) :
    lastSpanOf s (t :: ts) = lastSpanOf t.span ts :=
  lastSpanOf_append s [t] ts

theorem Rereads.map {r : Reader α} {s : Nat → Reader α} {P : List Token → α → Prop}
    (h : Rereads r s k P) (f : α → β) :
    Rereads (f <$> r) (fun n => f <$> s n) k fun ts b => ∃ a, f a = b ∧ P ts a := by
  simp only [map_eq_pure_bind]
  refine h.bind fun ts a ha => .pure ⟨a, rfl, ?_⟩
  rwa [List.append_nil]

theorem rereads_bounded {read : Nat → Reader α} {R : List Token → α → Prop}
    (h : ∀ n, Rereads (read n) read 0 R) : Rereads (bounded read) (fun _ => bounded read) k R := by
  intro c a d hrun
  obtain ⟨ts, hd, hR, hy⟩ := h _ c a d hrun
  refine ⟨ts, hd, hR, fun n rest _ hrest => yields_bounded (hy _ rest ?_ hrest)⟩
  rw [List.length_append]
  omega

theorem Rereads.next {r : Reader β} {f : Token → Reader β} {Q : List Token → β → Prop}
    (hr : ∀ c b e, r.run c = .ok b e ↔
      ∃ t ts, c.ahead = t :: ts ∧ (f t).run ⟨ts, [], t.span⟩ = .ok b e)
    (hf : ∀ t, Rereads (f t) (fun _ => f t) k fun us b => Q (t :: us) b) :
    Rereads r (fun _ => r) k Q := by
  intro c b e hrun
  obtain ⟨t, ts, hc, hrun⟩ := (hr c b e).1 hrun
  obtain ⟨us, he, hq, hy⟩ := hf t _ b e hrun
  have ht : c.Takes [t] ⟨ts, [], t.span⟩ := ⟨hc, rfl⟩
  refine ⟨t :: us, ht.trans he, hq, fun n rest hn hrest expected => ?_⟩
  rw [List.length_cons] at hn
  obtain ⟨expected', hus⟩ := hy n rest (by omega) hrest []
  refine ⟨expected', (hr _ _ _).2 ⟨t, us ++ rest, rfl, ?_⟩⟩
  rw [hus, lastSpanOf_cons]

theorem rereads_parenthesizedOperator :
    Rereads parenthesizedOperator (fun _ => parenthesizedOperator) k fun ts _ => ts ≠ [] := by
  refine rereads_expect.bind ?_
  rintro _ s ⟨t, rfl, -, rfl⟩
  refine Rereads.next (f := fun t => t.kind.operator?.elim unexpected fun operator => do
    let _ ← expect (.closing .round)
    return operator) ?_ fun t => ?_
  · intro c b e
    rw [EStateM.run_bind, run_peek]
    cases hc : c.ahead with
    | nil => simp [-bind_pure_comp]
    | cons t ts =>
        cases ho : t.kind.operator? with
        | none => simp [ho, -bind_pure_comp]
        | some operator => simp [ho, hc, Cursor.advance, -bind_pure_comp]
  · cases t.kind.operator? with
    | none => exact rereads_unexpected
    | some operator => exact rereads_expect.bind fun _ _ _ => .pure (by simp)

theorem rereads_exposedName :
    Rereads exposedName (fun _ => exposedName) k fun ts _ => ts ≠ [] := by
  refine looks_check.rereads_head fun b => ?_
  cases b with
  | true =>
      refine rereads_lowercaseName.bind ?_
      rintro _ _ ⟨t, rfl, -⟩
      exact .pure (by simp)
  | false =>
  refine looks_check.rereads_head fun b => ?_
  cases b with
  | true =>
      refine rereads_declaredName.bind ?_
      rintro _ _ ⟨t, rfl, -⟩
      refine rereads_eat.bind fun _ b _ => ?_
      cases b with
      | true =>
          refine rereads_expect.bind fun _ _ _ => rereads_expect.bind fun _ _ _ => ?_
          exact .pure (by simp)
      | false => exact .pure (by simp)
  | false =>
  refine looks_check.rereads_head fun b => ?_
  cases b with
  | true =>
      refine rereads_parenthesizedOperator.bind fun ts _ hts => .pure ?_
      simpa using hts
  | false => exact rereads_unexpected

theorem rereads_exposing : Rereads exposing (fun _ => exposing) k fun ts _ => ts ≠ [] := by
  refine rereads_expect.bind ?_
  rintro _ _ ⟨t, rfl, -⟩
  refine rereads_expect.bind fun _ _ _ => rereads_eat.bind fun _ b _ => ?_
  cases b with
  | true => exact rereads_expect.bind fun _ _ _ => .pure (by simp)
  | false =>
      have hnames : Rereads (separated .comma exposedName) (fun _ => separated .comma exposedName) k
          fun _ _ => True :=
        (rereads_separated (R := fun _ _ => True) (L := fun _ _ => True)
          (rereads_exposedName.mono fun _ _ h => ⟨h, trivial⟩) trivial (by simp)).mono (by simp)
      exact hnames.bind fun _ _ _ => rereads_expect.bind fun _ _ _ => .pure (by simp)

theorem rereads_closeGroup (b : Bracket) (n depth : Nat) :
    Rereads (closeGroup b n depth) (fun n => closeGroup b n depth) 0 fun _ _ => True := by
  induction n generalizing depth with
  | zero =>
      cases depth with
      | zero => exact rereads_unexpected
      | succ depth => exact rereads_unexpected
  | succ n ih =>
      cases depth with
      | zero =>
          intro c a d hrun
          cases hrun
          refine ⟨[], .refl c, trivial, fun m rest hm _ => ?_⟩
          obtain ⟨m, rfl⟩ := Nat.exists_eq_add_one_of_ne_zero (Nat.ne_zero_of_lt hm)
          exact .pure ()
      | succ depth =>
          rintro ⟨ahead, expected, last⟩ a d hrun
          cases ahead with
          | nil => cases hrun
          | cons t ts =>
              obtain ⟨us, hd, -, hy⟩ := ih _ ⟨ts, [], t.span⟩ a d hrun
              have ht : Cursor.Takes ⟨t :: ts, expected, last⟩ [t] ⟨ts, [], t.span⟩ := ⟨rfl, rfl⟩
              refine ⟨t :: us, ht.trans hd, trivial, fun m rest hm hrest expected => ?_⟩
              obtain ⟨m, rfl⟩ := Nat.exists_eq_add_one_of_ne_zero (Nat.ne_zero_of_lt hm)
              obtain ⟨expected', hus⟩ := hy m rest (Nat.lt_of_succ_lt_succ hm) hrest []
              refine ⟨expected', ?_⟩
              rw [lastSpanOf_cons]
              exact hus

theorem rereads_skipGroup (b : Bracket) :
    Rereads (skipGroup b) (fun _ => skipGroup b) k fun _ _ => True :=
  rereads_expect.bind fun _ _ _ => rereads_bounded fun n => rereads_closeGroup b n 1

theorem rereads_headerWords (kind : ModuleKind) :
    Rereads (headerWords kind) (fun _ => headerWords kind) k fun ts _ => ts ≠ [] := by
  have hmodule : Rereads (do
      advance
      unless ← eat (.keyword .module) do unexpected) (fun _ => do
      advance
      unless ← eat (.keyword .module) do unexpected) k fun ts (_ : Unit) => ts ≠ [] := by
    refine Rereads.next (f := fun _ => do unless ← eat (.keyword .module) do unexpected) ?_
      fun t => ?_
    · rintro ⟨ahead, expected, last⟩ b e
      cases ahead with
      | nil => simp [run_eat, Cursor.advance, Cursor.accepts, -bind_pure_comp]
      | cons t ts => simp [Cursor.advance, -bind_pure_comp]
    · refine rereads_eat.bind fun _ b _ => ?_
      cases b with
      | true => exact .pure (by simp)
      | false => exact rereads_unexpected
  cases kind with
  | normal =>
      refine rereads_expect.bind ?_
      rintro _ _ ⟨t, rfl, -⟩
      exact .pure (by simp)
  | port => exact hmodule
  | effect => exact hmodule

theorem rereads_header (kind : ModuleKind) :
    Rereads (header kind) (fun _ => header kind) k fun ts _ => ts ≠ [] := by
  refine Looks.rereads_head (w := fun t => (t.map Token.span).getD .empty) looks_nextSpan
    fun start => ?_
  refine (rereads_headerWords kind).bind fun ts _ hts => rereads_capitalisedName.bind ?_
  rintro us ⟨name, s⟩ -
  have hrest {Q : List Token → Header → Prop} (hq : ∀ vs h, Q vs h) : Rereads (do
      let exposed ← exposing
      return (⟨kind, name, exposed, start.hull (← lastSpan)⟩ : Header)) (fun _ => do
      let exposed ← exposing
      return (⟨kind, name, exposed, start.hull (← lastSpan)⟩ : Header)) k Q :=
    rereads_exposing.bind fun _ _ _ => rereads_lastSpan.bind fun _ _ _ => .pure (hq _ _)
  simp only
  split
  · refine rereads_eat.bind fun ws b _ => ?_
    cases b with
    | true => exact (rereads_skipGroup _).bind fun vs _ _ => hrest (by simp [hts])
    | false => exact hrest (by simp [hts])
  · exact hrest (by simp [hts])

theorem rereads_someHeader (kind : ModuleKind) :
    Rereads (some <$> header kind) (fun _ => some <$> header kind) k fun _ h => h ≠ none := by
  refine ((rereads_header kind).map some).mono ?_
  rintro ts _ ⟨h, rfl, -⟩
  exact Option.some_ne_none h

theorem rereads_importLine :
    Rereads importLine (fun _ => importLine) k fun _ _ => True := by
  refine rereads_expect.bind fun _ start _ => rereads_capitalisedName.bind ?_
  rintro _ ⟨name, s⟩ -
  have hend {shortName : Option String} {exposed : Option Exposing}
      {Q : List Token → Import → Prop} (hq : ∀ vs i, Q vs i) : Rereads (do
        let span := start.hull (← lastSpan)
        declarationEnd
        return (⟨name, shortName, exposed, span⟩ : Import)) (fun _ => do
        let span := start.hull (← lastSpan)
        declarationEnd
        return (⟨name, shortName, exposed, span⟩ : Import)) k Q :=
    rereads_lastSpan.bind fun _ _ _ => .declarationEnd (.pure (hq _ _))
  have hexposing {shortName : Option String} : Rereads (do
      let exposed ← if ← checkInside (.keyword .exposing) then some <$> exposing else pure none
      let span := start.hull (← lastSpan)
      declarationEnd
      return (⟨name, shortName, exposed, span⟩ : Import)) (fun _ => do
      let exposed ← if ← checkInside (.keyword .exposing) then some <$> exposing else pure none
      let span := start.hull (← lastSpan)
      declarationEnd
      return (⟨name, shortName, exposed, span⟩ : Import)) k fun _ _ => True := by
    refine .checkInside ?_ (hend fun _ _ => trivial)
    refine (rereads_exposing.map some).bind ?_
    rintro ts _ ⟨exposed, -, hts⟩
    exact hend (by simp [hts])
  refine rereads_eat.bind fun _ b _ => ?_
  cases b with
  | true => exact ((rereads_declaredName.map Prod.fst).map some).bind fun _ _ _ => hexposing
  | false => exact hexposing

def begins (w : Keyword) (ts : List Token) : Bool :=
  ts.head?.any fun t => (Expected.keyword w).accepts t.kind

def headerKindSecond (kind : ModuleKind) (ts : List Token) : Option ModuleKind :=
  if begins .module ts.tail then some kind else none

def headerKindOf (ts : List Token) : Option ModuleKind :=
  if begins .module ts then some .normal
  else if begins .effect ts then headerKindSecond .effect ts
  else if begins .port ts then headerKindSecond .port ts
  else none

theorem looks_headerKind? : Looks headerKind? headerKindOf := by
  have hopens (kind : ModuleKind) : Looks (do
      if (← peekSecond).any (fun t => (Expected.keyword .module).accepts t.kind) then
        return some kind
      else
        return none) (headerKindSecond kind) := by
    have hsecond : headerKindSecond kind = fun ts =>
        if ts[1]?.any (fun t => (Expected.keyword .module).accepts t.kind) then some kind
        else none := by
      funext ts
      rw [headerKindSecond, begins, List.head?_tail]
    rw [hsecond]
    refine looks_peekSecond.then (w := fun second _ =>
      if second.any (fun t => (Expected.keyword .module).accepts t.kind) then some kind else none)
      fun second => ?_
    split
    · exact looks_pure _
    · exact looks_pure _
  rw [headerKind?]
  refine looks_check.then (w := fun b ts =>
    if b then some ModuleKind.normal
    else if begins .effect ts then headerKindSecond .effect ts
    else if begins .port ts then headerKindSecond .port ts else none) fun b => ?_
  cases b with
  | true => exact looks_pure _
  | false =>
  refine looks_check.then (w := fun b ts =>
    if b then headerKindSecond .effect ts
    else if begins .port ts then headerKindSecond .port ts else none) fun b => ?_
  cases b with
  | true => simpa using hopens .effect
  | false =>
  refine looks_check.then (w := fun b ts => if b then headerKindSecond .port ts else none)
    fun b => ?_
  cases b with
  | true => simpa using hopens .port
  | false => exact looks_pure _

theorem headerKindOf_append {ts us : List Token} (h : headerKindOf us = none) :
    headerKindOf (ts ++ us) = headerKindOf ts := by
  cases ts with
  | nil => exact h
  | cons t ts =>
      have hmodule : begins .module us = false := by
        cases hm : begins .module us with
        | false => rfl
        | true => simp [headerKindOf, hm] at h
      have hsecond : begins .module (ts ++ us) = begins .module ts := by
        cases ts with
        | nil => exact hmodule
        | cons u ts => rfl
      unfold headerKindOf headerKindSecond
      rw [List.cons_append, List.tail_cons, List.tail_cons, hsecond]
      rfl

end Reader

namespace Cursor

variable {α : Type} {c c' d : Cursor} {ts us : List Token}

structure Extends (us : List Token) (c c' : Cursor) : Prop where
  ahead : c'.ahead = c.ahead ++ us
  last : c'.last = c.last

theorem Extends.note (h : c.Extends us c') (e : Expected) : (c.note e).Extends us (c'.note e) := by
  constructor
  · rw [ahead_note, ahead_note, h.ahead]
  · rw [last_note, last_note, h.last]

theorem Extends.accepts (h : c.Extends us c') {e : Expected}
    (hus : (us.head?.any fun t => e.accepts t.kind) = false) : c'.accepts e = c.accepts e := by
  unfold Cursor.accepts
  rw [h.ahead]
  cases c.ahead with
  | nil => exact hus
  | cons t ts => rfl

theorem Extends.run (h : c.Extends us c') (hus : ∀ t ∈ us.head?, t.startsDeclaration = true)
    {r : Reader α} {R : List Token → α → Prop} (hr : Rereads r (fun _ => r) 0 R) {a : α}
    (hrun : r.run c = .ok a d) : ∃ d', r.run c' = .ok a d' ∧ d.Extends us d' := by
  obtain ⟨ts, hd, -, hy⟩ := hr c a d hrun
  obtain ⟨expected, hrun'⟩ := hy (ts.length + 1) (d.ahead ++ us) (Nat.lt_succ_self _)
    (.of_starts hus _) c'.expected
  have hc' : c' = ⟨ts ++ (d.ahead ++ us), c'.expected, c.last⟩ := by
    rw [← List.append_assoc, ← hd.ahead, ← h.ahead, ← h.last]
  rw [hc']
  exact ⟨_, hrun', rfl, hd.last.symm⟩

theorem read_eq_ok_iff {item : Reader α} {a : α} :
    c.read item = (.ok a, d) ↔ item.run c = .ok a d := by
  unfold read
  cases item.run c with
  | ok b e => simp
  | error x e => simp

theorem readHeader_start (ts : List Token) : ∃ expected, (start ts).readHeader =
    match headerKindOf ts with
    | some kind => read (some <$> Reader.header kind) ⟨ts, expected, .empty⟩
    | none => (.ok none, ⟨ts, expected, .empty⟩) := by
  obtain ⟨expected, hlook⟩ := looks_headerKind? ts .empty []
  refine ⟨expected, ?_⟩
  rw [readHeader, start, hlook]
  cases headerKindOf ts <;> rfl

theorem readHeader_append (hus : ∀ t ∈ us.head?, t.startsDeclaration = true)
    (hk : headerKindOf us = none) {header : Option Header}
    (h : (start ts).readHeader = (.ok header, c)) :
    ∃ c', (start (ts ++ us)).readHeader = (.ok header, c') ∧ c.Extends us c' := by
  obtain ⟨expected, hstart⟩ := readHeader_start ts
  obtain ⟨expected', hstart'⟩ := readHeader_start (ts ++ us)
  rw [headerKindOf_append hk] at hstart'
  rw [hstart] at h
  rw [hstart']
  have hextends : Extends us ⟨ts, expected, .empty⟩ ⟨ts ++ us, expected', .empty⟩ := ⟨rfl, rfl⟩
  generalize headerKindOf ts = kind? at h ⊢
  cases kind? with
  | none =>
      cases h
      exact ⟨_, rfl, hextends⟩
  | some kind =>
      obtain ⟨c', hrun, hc'⟩ := hextends.run hus (rereads_someHeader kind) (read_eq_ok_iff.1 h)
      exact ⟨c', read_eq_ok_iff.2 hrun, hc'⟩

theorem headerKindOf_eq_none (h : (start ts).readHeader = (.ok none, c)) :
    headerKindOf ts = none ∧ c.ahead = ts := by
  obtain ⟨expected, hstart⟩ := readHeader_start ts
  rw [hstart] at h
  cases hk : headerKindOf ts with
  | none =>
      rw [hk] at h
      cases h
      exact ⟨rfl, rfl⟩
  | some kind =>
      rw [hk] at h
      obtain ⟨ts, -, hsome, -⟩ := @rereads_someHeader 0 kind _ _ _ (read_eq_ok_iff.1 h)
      exact absurd rfl hsome

theorem ReadsImports.extends {is : List Import} (h : c.ReadsImports is d)
    (hus : ∀ t ∈ us.head?, t.startsDeclaration = true) (hi : begins .import us = false)
    (hc : c.Extends us c') : ∃ d', c'.ReadsImports is d' ∧ d.Extends us d' := by
  induction h generalizing c' with
  | nil ha =>
      rw [← hc.accepts hi] at ha
      exact ⟨_, .nil ha, hc.note _⟩
  | cons ha hrun _ ih =>
      rw [← hc.accepts hi] at ha
      obtain ⟨c'', hrun', hc''⟩ := (hc.note (.keyword .import)).run hus rereads_importLine hrun
      obtain ⟨d', himports, hd'⟩ := ih hc''
      exact ⟨d', .cons ha hrun' himports, hd'⟩

end Cursor

end ElmTypes
