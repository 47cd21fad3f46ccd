import ElmTypes.Grammar.Reader
import ElmTypes.Source.TypeExpr

namespace ElmTypes.Reader

def hullAll (s : Span) (types : List TypeExpr) : Span :=
  types.foldl (fun s t => s.hull t.span) s

def recordField (inner : Reader TypeExpr) : Reader (RecordField TypeExpr) := do
  let (name, span) ← lowercaseName
  let _ ← expect (.symbol .colon)
  let type ← inner
  return ⟨name, type, span.hull type.span⟩

def recordBase? : Reader (Option String) := do
  let named ← check .lowercaseName
  let second ← peekSecond
  if named && second.any (·.kind == .symbol .bar) then
    let (base, _) ← lowercaseName
    let _ ← expect (.symbol .bar)
    return some base
  else
    return none

def recordType (inner : Reader TypeExpr) : Reader TypeExpr := do
  let start ← expect (.opening .brace)
  if ← eat (.closing .brace) then
    return .record [] (start.hull (← lastSpan))
  let base ← recordBase?
  let fields ← separated .comma (recordField inner)
  let stop ← expect (.closing .brace)
  match base with
  | some base => return .extensible base fields (start.hull stop)
  | none => return .record fields (start.hull stop)

def parenthesized (inner : Reader TypeExpr) : Reader TypeExpr := do
  let start ← expect (.opening .round)
  if ← eat (.closing .round) then
    return .unit (start.hull (← lastSpan))
  let first ← inner
  if ← checkInside (.symbol .comma) then
    let others ← repeated (eat (.symbol .comma)) inner
    let stop ← expect (.closing .round)
    return .tuple (first :: others) (start.hull stop)
  else
    let stop ← expect (.closing .round)
    return first.withSpan (start.hull stop)

def atom (inner : Reader TypeExpr) : Reader TypeExpr := do
  if ← checkInside .lowercaseName then
    let (name, span) ← lowercaseName
    return .variable name span
  else if ← checkInside .capitalisedName then
    let (name, span) ← capitalisedName
    return .named (.ofWord name span) [] span
  else if ← checkInside (.opening .round) then
    parenthesized inner
  else if ← checkInside (.opening .brace) then
    recordType inner
  else do
    note .typeExpr
    unexpected

def atAtom : Reader Bool := do
  if ← checkInside .lowercaseName then return true
  if ← checkInside .capitalisedName then return true
  if ← checkInside (.opening .round) then return true
  checkInside (.opening .brace)

def typeArguments (inner : Reader TypeExpr) : Reader (List TypeExpr) :=
  repeated atAtom (atom inner)

def application (inner : Reader TypeExpr) : Reader TypeExpr := do
  if ← checkInside .capitalisedName then
    let (name, span) ← capitalisedName
    let arguments ← typeArguments inner
    return .named (.ofWord name span) arguments (hullAll span arguments)
  else
    atom inner

def arrow (inner : Reader TypeExpr) : Reader TypeExpr := do
  let domain ← application inner
  if ← eat (.symbol .arrow) then
    let codomain ← inner
    return .function domain codomain (domain.span.hull codomain.span)
  else
    return domain

def typeExprAt : (bound : Nat) → Reader TypeExpr
  | 0 => unexpected
  | bound + 1 => arrow (typeExprAt bound)

/-- A type expression. Every one inside another has a token before it, so the tokens ahead bound the
nesting. -/
def typeExpr : Reader TypeExpr := bounded typeExprAt

end ElmTypes.Reader
