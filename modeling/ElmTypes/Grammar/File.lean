import ElmTypes.Grammar.Declaration
import ElmTypes.Source.File
import ElmTypes.Validated

namespace ElmTypes

namespace Reader

def exposedName : Reader Exposed := do
  if ← check .lowercaseName then
    let (name, _) ← lowercaseName
    return .value name
  else if ← check .capitalisedName then
    let (name, _) ← declaredName
    if ← eat (.opening .round) then
      let _ ← expect (.symbol .dots)
      let _ ← expect (.closing .round)
      return .type name true
    else
      return .type name false
  else if ← check (.opening .round) then
    let operator ← parenthesizedOperator
    return .operator operator
  else
    unexpected

def exposing : Reader Exposing := do
  let _ ← expect (.keyword .exposing)
  let _ ← expect (.opening .round)
  if ← eat (.symbol .dots) then
    let _ ← expect (.closing .round)
    return .all
  else
    let names ← separated .comma exposedName
    let _ ← expect (.closing .round)
    return .only names

def closeGroup (b : Bracket) : (bound depth : Nat) → Reader Unit
  | 0, _ => unexpected
  | _, 0 => return
  | bound + 1, depth + 1 => do
      match ← peek with
      | none => do
          advance
          unexpected
      | some t => do
          advance
          closeGroup b bound
            (if t.kind == .opening b then depth + 2
             else if t.kind == .closing b then depth
             else depth + 1)

def skipGroup (b : Bracket) : Reader Unit := do
  let _ ← expect (.opening b)
  bounded fun bound => closeGroup b bound 1

def headerKind? : Reader (Option ModuleKind) := do
  let opens (kind : ModuleKind) : Reader (Option ModuleKind) := do
    if (← peekSecond).any (fun t => (Expected.keyword .module).accepts t.kind) then
      return some kind
    else
      return none
  if ← check (.keyword .module) then return some .normal
  if ← check (.keyword .effect) then return ← opens .effect
  if ← check (.keyword .port) then return ← opens .port
  return none

def headerWords : ModuleKind → Reader Unit
  | .normal => do
      let _ ← expect (.keyword .module)
  | .port | .effect => do
      advance
      unless ← eat (.keyword .module) do unexpected

def header (kind : ModuleKind) : Reader Header := do
  let start ← nextSpan
  headerWords kind
  let (name, _) ← capitalisedName
  if kind == .effect then
    -- the settings of an effect module are skipped
    if ← eat (.keyword .where) then skipGroup .brace
  let exposed ← exposing
  return ⟨kind, name, exposed, start.hull (← lastSpan)⟩

def importLine : Reader Import := do
  let start ← expect (.keyword .import)
  let (module, _) ← capitalisedName
  let shortName ← if ← eat (.keyword .as) then some <$> Prod.fst <$> declaredName else pure none
  let exposed ← if ← checkInside (.keyword .exposing) then some <$> exposing else pure none
  let span := start.hull (← lastSpan)
  declarationEnd
  return ⟨module, shortName, exposed, span⟩

end Reader

namespace Cursor

abbrev Outcome (α : Type) := Validated SyntaxError α

def nextDeclaration (c : Cursor) : Cursor := c.advanceWhile fun t => !t.startsDeclaration

def read {α : Type} (item : Reader α) (c : Cursor) : Outcome α × Cursor :=
  match item.run c with
  | .ok a c => (.ok a, c)
  | .error e c => (.error [e], c.nextDeclaration)

def readDeclaration (c : Cursor) : Outcome Declaration × Cursor :=
  match Reader.declaration.run c with
  | .ok d c => (.ok d, c)
  | .error e c' =>
      (.error [e],
        -- a token at which no declaration begins is passed over
        (if c'.ahead.length = c.ahead.length then c'.advance else c').nextDeclaration)

def readHeader (c : Cursor) : Outcome (Option Header) × Cursor :=
  match Reader.headerKind?.run c with
  | .ok (some kind) c => c.read (some <$> Reader.header kind)
  | .ok none c => (.ok none, c)
  | .error e c => (.error [e], c)

def readImports : (bound : Nat) → Cursor → List (Outcome Import) × Cursor
  | 0, c => ([], c)
  | bound + 1, c =>
      let c := c.note (.keyword .import)
      if c.accepts (.keyword .import) then
        let (r, c) := c.read Reader.importLine
        let (rs, c) := readImports bound c
        (r :: rs, c)
      else ([], c)

def readDeclarations : (bound : Nat) → Cursor → List (Outcome Declaration)
  | 0, _ => []
  | bound + 1, c =>
      if c.ahead.isEmpty then []
      else
        let (r, c) := c.readDeclaration
        r :: readDeclarations bound c

end Cursor

def SourceFile.ofTokens (tokens : List Token) : Validated SyntaxError SourceFile :=
  let (header, c) := (Cursor.start tokens).readHeader
  let (imports, c) := c.readImports (tokens.length + 1)
  let declarations := c.readDeclarations (tokens.length + 1)
  let imports := Validated.accumulate imports
  let declarations := Validated.accumulate declarations
  match header, imports, declarations with
  | .ok header, .ok imports, .ok declarations => .ok ⟨header, imports, declarations⟩
  | _, _, _ => .error (header.problems ++ imports.problems ++ declarations.problems)

end ElmTypes
