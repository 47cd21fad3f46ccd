import ElmTypes.Grammar.TypeExpr
import ElmTypes.Source.Declaration

namespace ElmTypes

def TokenKind.associativity? : TokenKind → Option Associativity
  | .word "left" => some .left
  | .word "right" => some .right
  | .word "non" => some .non
  | _ => none

namespace Reader

def typeParameters : Reader (List String) :=
  repeated (checkInside .lowercaseName) do
    let (name, _) ← lowercaseName
    return name

def variant : Reader Variant := do
  let (name, span) ← declaredName
  let arguments ← typeArguments typeExpr
  return ⟨name, arguments, hullAll span arguments⟩

def aliasRest : Reader Declared := do
  let (name, _) ← declaredName
  let parameters ← typeParameters
  let _ ← expect (.symbol .equals)
  let type ← typeExpr
  declarationEnd
  return .alias name parameters type

def customRest : Reader Declared := do
  let (name, _) ← declaredName
  let parameters ← typeParameters
  -- a type without alternatives can be written, and is rejected later
  let variants ← if ← eat (.symbol .equals) then separated .bar variant else pure []
  declarationEnd
  return .custom name parameters variants

def typeDeclaration : Reader Declared := do
  let _ ← expect (.keyword .type)
  if ← eat (.keyword .alias) then aliasRest else customRest

def portDeclaration : Reader Declared := do
  let _ ← expect (.keyword .port)
  let (name, _) ← lowercaseName
  let _ ← expect (.symbol .colon)
  let type ← typeExpr
  declarationEnd
  return .port name type

def parenthesizedOperator : Reader String := do
  let _ ← expect (.opening .round)
  match (← peek).bind (·.kind.operator?) with
  | some operator => do
      advance
      let _ ← expect (.closing .round)
      return operator
  | none => do
      note .operator
      unexpected

def associativitySecond : Reader Bool :=
  -- otherwise `infix` is the name of a value
  return (← peekSecond).any fun t => t.kind.associativity?.isSome

def fixityDeclaration : Reader Declared := do
  let _ ← expect (.keyword .fixity)
  let (associativity, _) ← take .lowercaseName TokenKind.associativity?
  let (precedence, _) ← take .integer TokenKind.integer?
  let operator ← parenthesizedOperator
  let _ ← expect (.symbol .equals)
  let (function, _) ← lowercaseName
  declarationEnd
  return .fixity associativity precedence operator function

def signatureRest (name : String) (span : Span) : Reader TypeExpr := do
  let type ← typeExpr
  declarationEnd
  let next := (← peek).map Token.kind
  if next == some (.word name) then
    advance
    return type
  else
    fail (.danglingSignature name next) span

def patterns : Reader Unit := do
  advanceWhile fun t => !t.startsDeclaration && t.kind != .symbol .equals
  if ← atBoundary then unexpected
  advance

def valueDeclaration : Reader Declared := do
  let (name, span) ← lowercaseName
  let signature ←
    if ← eat (.symbol .colon) then some <$> signatureRest name span else pure none
  unless ← eat (.symbol .equals) do patterns
  if ← atBoundary then
    note .declaration
    fail (.missingBody name) (← lastSpan)
  advanceWhile fun t => !t.startsDeclaration
  return .value name signature

def declared : Reader Declared := do
  if ← check (.keyword .type) then return ← typeDeclaration
  if ← check (.keyword .port) then return ← portDeclaration
  if (← check (.keyword .fixity)) && (← associativitySecond) then return ← fixityDeclaration
  if ← check .lowercaseName then return ← valueDeclaration
  note .declaration
  unexpected

def declaration : Reader Declaration := do
  if let some t ← peek then
    unless t.startsDeclaration do fail (.indented t.kind) t.span
  let start ← nextSpan
  let d ← declared
  return ⟨d, start.hull (← lastSpan)⟩

end Reader

end ElmTypes
