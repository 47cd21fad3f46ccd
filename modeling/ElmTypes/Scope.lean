import ElmTypes.Source.File

namespace ElmTypes

/-- What the names of a file mean. Of two entries for a name the first counts. -/
structure Scope where
  home : String
  declared : List String
  aliases : List (String × String)
  exposed : List (String × String)

namespace Scope

def defaultAliases : List (String × String) := [("Cmd", "Platform.Cmd"), ("Sub", "Platform.Sub")]

def defaultExposed : List (String × String) :=
  [("Int", "Basics"), ("Float", "Basics"), ("Bool", "Basics"), ("Order", "Basics"),
   ("Never", "Basics"), ("List", "List"), ("Maybe", "Maybe"), ("Result", "Result"),
   ("String", "String"), ("Char", "Char"), ("Program", "Platform"), ("Cmd", "Platform.Cmd"),
   ("Sub", "Platform.Sub")]

def importedAliases (i : Import) : List (String × String) :=
  i.shortName.toList.map fun name => (name, i.module)

def exposedType? : Exposed → Option String
  | .type name _ => some name
  | _ => none

def importedTypes (i : Import) : List (String × String) :=
  match i.exposing with
  | some (.only names) => (names.filterMap exposedType?).map fun name => (name, i.module)
  | _ => []

def ofFile (f : SourceFile) : Scope where
  home := f.moduleName
  declared := f.declarations.filterMap fun d => d.declared.typeName?
  aliases := f.imports.reverse.flatMap importedAliases ++ defaultAliases
  exposed := f.imports.reverse.flatMap importedTypes ++ defaultExposed

def module? (s : Scope) (n : TypeName) : Option String :=
  match n.module with
  | some qualifier => some ((s.aliases.lookup qualifier).getD qualifier)
  | none => if s.declared.contains n.name then some s.home else s.exposed.lookup n.name

def resolve (s : Scope) (n : TypeName) : TypeName := { n with module := s.module? n }

end Scope

def SourceFile.resolve (f : SourceFile) : SourceFile :=
  { f with declarations := f.declarations.map (Declaration.mapNames (Scope.ofFile f).resolve) }

end ElmTypes
