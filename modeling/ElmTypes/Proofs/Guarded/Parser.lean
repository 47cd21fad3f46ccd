import ElmTypes.Proofs.Guarded.Scanner
import ElmTypes.Grammar.File

namespace ElmTypes.Guarded

structure Place where
  pieces : List Piece
  cursor : Nat
  expected : List Expected
  last : Span

abbrev Parser := Run SyntaxError Place

namespace Piece

def startsDeclaration (p : Piece) : Bool := p.column == 0

def shown (p : Piece) : TokenKind := p.kind.getD (.word "\x7bwhitespace hack\x7d")

end Piece

namespace Parser

variable {α : Type}

def accepts (e : Expected) (p : Piece) : Parser Bool :=
  match p.kind with
  | some kind => return e.accepts kind
  | none => fault .blank

def unwrapWord (p : Piece) : Parser String :=
  match p.kind with
  | some (.word text) => return text
  | _ => fault .notWord

def unwrapInteger (p : Piece) : Parser Nat :=
  match p.kind with
  | some (.integer value) => return value
  | _ => fault .notInteger

def unwrapAssociativity (p : Piece) : Parser Associativity :=
  match p.kind.bind TokenKind.associativity? with
  | some associativity => return associativity
  | none => fault .notAssociativity

def peekAt (n : Nat) : Parser (Option Piece) := do
  let m ← get
  return m.pieces[m.cursor + n]?

def bump : Parser (Option Piece) := do
  let m ← get
  match m.pieces[m.cursor]? with
  | none => do
      set { m with expected := [] }
      return none
  | some p => do
      set ({ m with cursor := m.cursor + 1, expected := [], last := p.span } : Place)
      return some p

def lastSpan : Parser Span := return (← get).last

def nextSpan : Parser Span := return ((← peekAt 0).map Piece.span).getD .empty

def atBoundary : Parser Bool := return (← peekAt 0).all Piece.startsDeclaration

def note (e : Expected) : Parser Unit :=
  modify fun m => if m.expected.contains e then m else { m with expected := m.expected ++ [e] }

def unexpected : Parser α := do
  let m ← get
  set { m with expected := [] }
  match m.pieces[m.cursor]? with
  | none => fail ⟨.unexpectedEnd m.expected, m.last⟩
  | some p => fail ⟨.unexpectedToken p.shown m.expected, p.span⟩

def nthIs (n : Nat) (e : Expected) : Parser Bool := do
  match ← peekAt n with
  | none => return false
  | some p => accepts e p

def check (e : Expected) : Parser Bool := do
  note e
  nthIs 0 e

def checkInside (e : Expected) : Parser Bool := do
  let inside := !(← atBoundary)
  return (← check e) && inside

def eat (e : Expected) : Parser Bool := do
  let found ← checkInside e
  if found then
    let _ ← bump
  return found

def expectPiece (e : Expected) : Parser Piece := do
  if ← check e then
    match ← bump with
    | some p => return p
    | none => fault .noToken
  else
    unexpected

def take (e : Expected) (unwrap : Piece → Parser α) : Parser (α × Span) := do
  let p ← expectPiece e
  let a ← unwrap p
  return (a, p.span)

def expect (e : Expected) : Parser Span := do
  let p ← expectPiece e
  return p.span

def lowercaseName : Parser (String × Span) := take .lowercaseName unwrapWord

def capitalisedName : Parser (String × Span) := take .capitalisedName unwrapWord

def declaredName : Parser (String × Span) := do
  let (name, span) ← capitalisedName
  if name.toList.contains '.' then fail ⟨.qualifiedName name, span⟩
  return (name, span)

def declarationEnd : Parser Unit := do
  unless ← atBoundary do unexpected

def bounded (read : Nat → Parser α) : Parser α := do
  let m ← get
  read ((m.pieces.drop m.cursor).length + 1)

def repeatAt (more : Parser Bool) (item : Parser α) : (bound : Nat) → Parser (List α)
  | 0 => fault .endless
  | bound + 1 => do
      if ← more then
        let a ← item
        let as ← repeatAt more item bound
        return a :: as
      else
        return []

def repeated (more : Parser Bool) (item : Parser α) : Parser (List α) :=
  bounded (repeatAt more item)

def separated (s : Symbol) (item : Parser α) : Parser (List α) := do
  let a ← item
  let as ← repeated (eat (.symbol s)) item
  return a :: as

def bumpWhileAt (p : Piece → Bool) : (bound : Nat) → Parser Unit
  | 0 => fault .endless
  | bound + 1 => do
      if (← peekAt 0).any p then
        let _ ← bump
        bumpWhileAt p bound
      else
        return

def skipToDeclaration : Parser Unit := bounded (bumpWhileAt fun p => !p.startsDeclaration)

def growAll (s : Span) : List TypeExpr → Parser Span
  | [] => return s
  | t :: ts => do
      let s ← grow s t.span
      growAll s ts

def recordField (inner : Parser TypeExpr) : Parser (RecordField TypeExpr) := do
  let (name, span) ← lowercaseName
  let _ ← expect (.symbol .colon)
  let type ← inner
  let span ← grow span type.span
  return ⟨name, type, span⟩

def recordBase? : Parser (Option String) := do
  let named ← check .lowercaseName
  let second ← peekAt 1
  if named && second.any (·.kind == some (.symbol .bar)) then
    let (base, _) ← lowercaseName
    let _ ← expect (.symbol .bar)
    return some base
  else
    return none

def recordType (inner : Parser TypeExpr) : Parser TypeExpr := do
  let start ← expect (.opening .brace)
  if ← eat (.closing .brace) then
    let span ← grow start (← lastSpan)
    return .record [] span
  let base ← recordBase?
  let fields ← separated .comma (recordField inner)
  let stop ← expect (.closing .brace)
  let span ← grow start stop
  match base with
  | some base => return .extensible base fields span
  | none => return .record fields span

def parenthesized (inner : Parser TypeExpr) : Parser TypeExpr := do
  let start ← expect (.opening .round)
  if ← eat (.closing .round) then
    let span ← grow start (← lastSpan)
    return .unit span
  let first ← inner
  if ← checkInside (.symbol .comma) then
    let others ← repeated (eat (.symbol .comma)) inner
    let stop ← expect (.closing .round)
    let span ← grow start stop
    return .tuple (first :: others) span
  else
    let stop ← expect (.closing .round)
    let span ← grow start stop
    return first.withSpan span

def atom (inner : Parser TypeExpr) : Parser TypeExpr := do
  if ← checkInside .lowercaseName then
    let (name, span) ← lowercaseName
    return .variable name span
  else if ← checkInside .capitalisedName then
    let (name, span) ← capitalisedName
    return .named (.ofWord name span) [] span
  else if ← checkInside (.opening .round) then
    parenthesized inner
  else if ← checkInside (.opening .brace) then
    recordType inner
  else do
    note .typeExpr
    unexpected

def atAtom : Parser Bool := do
  if ← checkInside .lowercaseName then return true
  if ← checkInside .capitalisedName then return true
  if ← checkInside (.opening .round) then return true
  checkInside (.opening .brace)

def typeArguments (inner : Parser TypeExpr) : Parser (List TypeExpr) :=
  repeated atAtom (atom inner)

def application (inner : Parser TypeExpr) : Parser TypeExpr := do
  if ← checkInside .capitalisedName then
    let (name, span) ← capitalisedName
    let arguments ← typeArguments inner
    let whole ← growAll span arguments
    return .named (.ofWord name span) arguments whole
  else
    atom inner

def arrow (inner : Parser TypeExpr) : Parser TypeExpr := do
  let domain ← application inner
  if ← eat (.symbol .arrow) then
    let codomain ← inner
    let span ← grow domain.span codomain.span
    return .function domain codomain span
  else
    return domain

def typeExprAt : (bound : Nat) → Parser TypeExpr
  | 0 => fault .endless
  | bound + 1 => arrow (typeExprAt bound)

def typeExpr : Parser TypeExpr := bounded typeExprAt

def typeParameters : Parser (List String) :=
  repeated (checkInside .lowercaseName) do
    let (name, _) ← lowercaseName
    return name

def variant : Parser Variant := do
  let (name, span) ← declaredName
  let arguments ← typeArguments typeExpr
  let span ← growAll span arguments
  return ⟨name, arguments, span⟩

def aliasRest : Parser Declared := do
  let (name, _) ← declaredName
  let parameters ← typeParameters
  let _ ← expect (.symbol .equals)
  let type ← typeExpr
  declarationEnd
  return .alias name parameters type

def customRest : Parser Declared := do
  let (name, _) ← declaredName
  let parameters ← typeParameters
  let variants ← if ← eat (.symbol .equals) then separated .bar variant else pure []
  declarationEnd
  return .custom name parameters variants

def typeDeclaration : Parser Declared := do
  let _ ← expect (.keyword .type)
  if ← eat (.keyword .alias) then aliasRest else customRest

def portDeclaration : Parser Declared := do
  let _ ← expect (.keyword .port)
  let (name, _) ← lowercaseName
  let _ ← expect (.symbol .colon)
  let type ← typeExpr
  declarationEnd
  return .port name type

def parenthesizedOperator : Parser String := do
  let _ ← expect (.opening .round)
  match (← peekAt 0).bind fun p => p.kind.bind TokenKind.operator? with
  | some operator => do
      let _ ← bump
      let _ ← expect (.closing .round)
      return operator
  | none => do
      note .operator
      unexpected

def associativitySecond : Parser Bool :=
  return (← peekAt 1).any fun p => (p.kind.bind TokenKind.associativity?).isSome

def fixityDeclaration : Parser Declared := do
  let _ ← expect (.keyword .fixity)
  let (associativity, _) ← take .lowercaseName unwrapAssociativity
  let (precedence, _) ← take .integer unwrapInteger
  let operator ← parenthesizedOperator
  let _ ← expect (.symbol .equals)
  let (function, _) ← lowercaseName
  declarationEnd
  return .fixity associativity precedence operator function

def signatureRest (name : String) (span : Span) : Parser TypeExpr := do
  let type ← typeExpr
  declarationEnd
  let next ← peekAt 0
  if next.any (·.kind == some (.word name)) then
    let _ ← bump
    return type
  else
    fail ⟨.danglingSignature name (next.map Piece.shown), span⟩

def patterns : Parser Unit := do
  bounded (bumpWhileAt fun p => !p.startsDeclaration && p.kind != some (.symbol .equals))
  if ← atBoundary then unexpected
  let _ ← bump

def valueDeclaration : Parser Declared := do
  let (name, span) ← lowercaseName
  let signature ←
    if ← eat (.symbol .colon) then some <$> signatureRest name span else pure none
  unless ← eat (.symbol .equals) do patterns
  if ← atBoundary then
    note .declaration
    fail ⟨.missingBody name, ← lastSpan⟩
  skipToDeclaration
  return .value name signature

def declared : Parser Declared := do
  if ← check (.keyword .type) then return ← typeDeclaration
  if ← check (.keyword .port) then return ← portDeclaration
  if (← check (.keyword .fixity)) && (← associativitySecond) then return ← fixityDeclaration
  if ← check .lowercaseName then return ← valueDeclaration
  note .declaration
  unexpected

def declaration : Parser Declaration := do
  if let some p ← peekAt 0 then
    unless p.startsDeclaration do fail ⟨.indented p.shown, p.span⟩
  let start ← nextSpan
  let d ← declared
  let span ← grow start (← lastSpan)
  return ⟨d, span⟩

def exposedName : Parser Exposed := do
  if ← check .lowercaseName then
    let (name, _) ← lowercaseName
    return .value name
  else if ← check .capitalisedName then
    let (name, _) ← declaredName
    if ← eat (.opening .round) then
      let _ ← expect (.symbol .dots)
      let _ ← expect (.closing .round)
      return .type name true
    else
      return .type name false
  else if ← check (.opening .round) then
    let operator ← parenthesizedOperator
    return .operator operator
  else
    unexpected

def exposing : Parser Exposing := do
  let _ ← expect (.keyword .exposing)
  let _ ← expect (.opening .round)
  if ← eat (.symbol .dots) then
    let _ ← expect (.closing .round)
    return .all
  else
    let names ← separated .comma exposedName
    let _ ← expect (.closing .round)
    return .only names

def closeGroup (b : Bracket) : (bound depth : Nat) → Parser Unit
  | 0, _ => fault .endless
  | bound + 1, depth => do
      if depth = 0 then return
      else
        match ← bump with
        | none => unexpected
        | some p =>
            if p.kind == some (.opening b) then closeGroup b bound (depth + 1)
            else if p.kind == some (.closing b) then
              let depth ← minus depth 1
              closeGroup b bound depth
            else closeGroup b bound depth

def skipGroup (b : Bracket) : Parser Unit := do
  let _ ← expect (.opening b)
  bounded fun bound => closeGroup b bound 1

def hasHeader : Parser Bool := do
  if ← check (.keyword .module) then return true
  if ← check (.keyword .effect) then return ← nthIs 1 (.keyword .module)
  if ← check (.keyword .port) then return ← nthIs 1 (.keyword .module)
  return false

def headerWords : Parser ModuleKind := do
  if ← check (.keyword .port) then
    let _ ← bump
    unless ← eat (.keyword .module) do unexpected
    return .port
  else if ← check (.keyword .effect) then
    let _ ← bump
    unless ← eat (.keyword .module) do unexpected
    return .effect
  else
    let _ ← expect (.keyword .module)
    return .normal

def header : Parser Header := do
  let start ← nextSpan
  let kind ← headerWords
  let (name, _) ← capitalisedName
  if kind == .effect then
    if ← eat (.keyword .where) then skipGroup .brace
  let exposed ← exposing
  let span ← grow start (← lastSpan)
  return ⟨kind, name, exposed, span⟩

def importLine : Parser Import := do
  let start ← expect (.keyword .import)
  let (module, _) ← capitalisedName
  let shortName ← if ← eat (.keyword .as) then some <$> Prod.fst <$> declaredName else pure none
  let exposed ← if ← checkInside (.keyword .exposing) then some <$> exposing else pure none
  let span ← grow start (← lastSpan)
  declarationEnd
  return ⟨module, shortName, exposed, span⟩

def attempt (item : Parser α) : Parser (Except SyntaxError α) := fun m =>
  match item.run m with
  | .ok a m => .ok (.ok a) m
  | .error (.error e) m => .ok (.error e) m
  | .error (.fault f) m => .error (.fault f) m

def recovering (item : Parser α) : Parser (Validated SyntaxError α) := do
  match ← attempt item with
  | .ok a => return .ok a
  | .error e => do
      skipToDeclaration
      return .error [e]

def headerOutcome : Parser (Validated SyntaxError (Option Header)) := do
  if ← hasHeader then recovering (some <$> header) else return .ok none

def imports : (bound : Nat) → Parser (List (Validated SyntaxError Import))
  | 0 => fault .endless
  | bound + 1 => do
      if ← check (.keyword .import) then
        let r ← recovering importLine
        let rs ← imports bound
        return r :: rs
      else
        return []

def declarationOutcome : Parser (Validated SyntaxError Declaration) := do
  let start := (← get).cursor
  match ← attempt declaration with
  | .ok d => return .ok d
  | .error e => do
      if (← get).cursor = start then
        let _ ← bump
      skipToDeclaration
      return .error [e]

def declarations : (bound : Nat) → Parser (List (Validated SyntaxError Declaration))
  | 0 => fault .endless
  | bound + 1 => do
      if (← peekAt 0).isSome then
        let r ← declarationOutcome
        let rs ← declarations bound
        return r :: rs
      else
        return []

def assemble (header : Validated SyntaxError (Option Header))
    (imports : Validated SyntaxError (List Import))
    (declarations : Validated SyntaxError (List Declaration)) : Validated SyntaxError SourceFile :=
  match header, imports, declarations with
  | .ok header, .ok imports, .ok declarations => .ok ⟨header, imports, declarations⟩
  | _, _, _ => .error (header.problems ++ imports.problems ++ declarations.problems)

def file : Parser (Validated SyntaxError SourceFile) := do
  let header ← headerOutcome
  let imports ← bounded imports
  let declarations ← bounded declarations
  return assemble header (.accumulate imports) (.accumulate declarations)

end Parser

end ElmTypes.Guarded
