import ElmTypes.Proofs.Expectation.Declaration

namespace ElmTypes

namespace Exchange

open Reader Cursor Pairing

section

variable {x : Exchange} {c c' : Cursor} {t : Token} {ts : List Token}

theorem tracks_exposedName : x.Tracks exposedName := by
  refine .check ?_ (.check ?_ (.check ?_ .unexpected))
  · exact BeginsWith.lowercaseName.bind fun _ => .pure _
  · refine BeginsWith.declaredName.bind fun _ => BeginsWith.eat.tracks.bind fun b => ?_
    cases b with
    | true =>
        exact BeginsWith.expect.tracks.bind fun _ => BeginsWith.expect.tracks.bind fun _ => .pure _
    | false => exact .pure _
  · exact beginsWith_parenthesizedOperator.bind fun _ => .pure _

theorem beginsWith_exposing : x.BeginsWith [.keyword .exposing] exposing := by
  refine BeginsWith.expect.bind fun _ => BeginsWith.expect.tracks.bind fun _ => ?_
  refine BeginsWith.eat.tracks.bind fun b => ?_
  cases b with
  | true => exact BeginsWith.expect.tracks.bind fun _ => .pure _
  | false =>
      have hnames : x.Tracks (separated .comma exposedName) :=
        (BeginsWith.separated (.of_tracks tracks_exposedName)).tracks
      exact hnames.bind fun _ => BeginsWith.expect.tracks.bind fun _ => .pure _

def depthAfter (b : Bracket) (depth : Nat) (t : Token) : Nat :=
  if t.kind == .opening b then depth + 2 else if t.kind == .closing b then depth else depth + 1

theorem run_closeGroup {b : Bracket} {n depth : Nat} (hc : c.ahead = t :: ts) :
    (closeGroup b (n + 1) (depth + 1)).run c =
      (closeGroup b n (depthAfter b depth t)).run ⟨ts, [], t.span⟩ := by
  rw [closeGroup, EStateM.run_bind, run_peek, hc, List.head?_cons]
  simp only
  rw [EStateM.run_bind, run_advance]
  simp only [Cursor.advance, hc]
  rfl

theorem tracks_closeGroup (b : Bracket) (n depth : Nat) : x.Tracks (closeGroup b n depth) := by
  induction n generalizing depth with
  | zero => cases depth <;> exact .unexpected
  | succ n ih =>
      cases depth with
      | zero => exact .pure ()
      | succ depth =>
          refine ⟨Stops.peek.bind fun t => ?_, fun {ts c c'} h => ?_⟩
          · cases t with
            | none => exact Stops.advance.bind fun _ => .unexpected
            | some t => exact Stops.advance.bind fun _ => (ih _).toStops
          · cases ts with
            | nil => exact .takesOld (leaves_of_run_eq ((ih _).leaves _) (run_closeGroup h.old))
            | cons t ts =>
                exact ((ih _).outcome (.after x ts t.span)).of_run_eq (run_closeGroup h.old)
                  (run_closeGroup h.new)

theorem tracks_skipGroup (b : Bracket) : x.Tracks (skipGroup b) :=
  BeginsWith.expect.tracks.bind fun _ => .bounded fun n => tracks_closeGroup b (n + 1) 1

theorem tracks_headerWords (kind : ModuleKind) : x.Tracks (headerWords kind) := by
  have hmodule : x.Tracks (do
      advance
      unless ← eat (.keyword .module) do unexpected) := by
    refine Tracks.advance.bind fun _ => BeginsWith.eat.tracks.bind fun b => ?_
    cases b with
    | true => exact .pure ()
    | false => exact .unexpected
  cases kind with
  | normal => exact BeginsWith.expect.tracks.bind fun _ => .pure ()
  | port => exact hmodule
  | effect => exact hmodule

def headerRest (kind : ModuleKind) (start : Span) : Reader Header := do
  let (name, _) ← capitalisedName
  if kind == .effect then
    if ← eat (.keyword .where) then skipGroup .brace
  let exposed ← exposing
  return ⟨kind, name, exposed, start.hull (← lastSpan)⟩

theorem tracks_headerRest (kind : ModuleKind) (start : Span) :
    x.Tracks (headerRest kind start) := by
  refine BeginsWith.capitalisedName.tracks.bind fun p => ?_
  have hexposing : x.Tracks (do
      let exposed ← exposing
      return (⟨kind, p.1, exposed, start.hull (← lastSpan)⟩ : Header)) :=
    beginsWith_exposing.tracks.bind fun _ => Tracks.lastSpan.bind fun _ => .pure _
  simp only
  split
  · refine BeginsWith.eat.tracks.bind fun b => ?_
    cases b with
    | true => exact (tracks_skipGroup .brace).bind fun _ => hexposing
    | false => exact hexposing
  · exact hexposing

theorem tracks_header (kind : ModuleKind) : x.Tracks (header kind) :=
  Tracks.nextSpan.bind fun start => (tracks_headerWords kind).bind fun _ =>
    tracks_headerRest kind start

theorem leaves_header_second (x : Exchange) {u : Token} {kind : ModuleKind}
    (hc : c.ahead = t :: u :: ts) (hu : u.startsDeclaration = false)
    (hm : (Expected.keyword .module).accepts u.kind = true) (hk : kind ≠ .normal) :
    Leaves ts c (header kind) := by
  have hadvance : advance.run c = .ok () ⟨u :: ts, [], t.span⟩ := by simp [Cursor.advance, hc]
  have heat : Leaves ts ⟨u :: ts, [], t.span⟩ (eat (.keyword .module)) :=
    (BeginsWith.eat (x := x)).leads _ (List.mem_singleton_self _) _ u ts rfl hu hm
  have hwords : Leaves ts c (do
      advance
      unless ← eat (.keyword .module) do unexpected) := by
    refine leaves_of_run_eq (s := do unless ← eat (.keyword .module) do unexpected)
      (heat.bind fun b d hd => ?_) ?_
    · cases b with
      | true => exact .pure () hd
      | false => exact hd
    · rw [EStateM.run_bind, hadvance]
  have hheader (h : Leaves ts c (headerWords kind)) : Leaves ts c (header kind) :=
    .nextSpan fun start => h.bind fun _ d hd =>
      leaves_of_suffix ((x.tracks_headerRest kind start).leaves d) hd
  cases kind with
  | normal => exact absurd rfl hk
  | port => exact hheader hwords
  | effect => exact hheader hwords

theorem beginsWith_importLine : x.BeginsWith [.keyword .import] importLine := by
  refine BeginsWith.expect.bind fun start => BeginsWith.capitalisedName.tracks.bind fun p => ?_
  have hend (shortName : Option String) (exposed : Option Exposing) : x.Tracks (do
      let span := start.hull (← lastSpan)
      declarationEnd
      return (⟨p.1, shortName, exposed, span⟩ : Import)) :=
    Tracks.lastSpan.bind fun _ => Tracks.declarationEnd.bind fun _ => .pure _
  have hexposing (shortName : Option String) : x.Tracks (do
      let exposed ← if ← checkInside (.keyword .exposing) then some <$> exposing else pure none
      let span := start.hull (← lastSpan)
      declarationEnd
      return (⟨p.1, shortName, exposed, span⟩ : Import)) := by
    refine .checkInside ?_ (hend shortName none)
    exact (beginsWith_exposing.map some).bind fun exposed => hend shortName exposed
  refine BeginsWith.eat.tracks.bind fun b => ?_
  cases b with
  | true =>
      exact ((BeginsWith.declaredName.map Prod.fst).map some).tracks.bind fun name => hexposing name
  | false => exact hexposing none

end

end Exchange

end ElmTypes
