namespace ElmTypes.CommandLine

structure Options where
  debug : Bool
  help : Bool
  noColour : Bool
  verbose : Bool
  version : Bool
  file : Option String
deriving DecidableEq

/-- Whether one of the forms of an option is among the arguments, and the arguments without its
first occurrence. Forms that come first are preferred. -/
def takeOption (forms : List String) (arguments : List String) : Bool × List String :=
  match forms.find? fun form => arguments.contains form with
  | some form => (true, arguments.erase form)
  | none => (false, arguments)

def looksLikeOption (argument : String) : Bool :=
  argument.toList.head? == some '-' && argument != "-"

def Options.ofArguments (arguments : List String) : Except (List String) Options :=
  let (debug, rest) := takeOption ["-d", "--debug"] arguments
  let (help, rest) := takeOption ["-h", "--help"] rest
  let (noColour, rest) := takeOption ["--no-color"] rest
  let (verbose, rest) := takeOption ["-v", "--verbose"] rest
  let (version, rest) := takeOption ["-V", "--version"] rest
  match rest.filter looksLikeOption with
  | [] => .ok { debug, help, noColour, verbose, version, file := rest.head? }
  | unknown => .error unknown

theorem takeOption_of_not_mem {forms arguments : List String}
    (h : ∀ form ∈ forms, form ∉ arguments) : takeOption forms arguments = (false, arguments) := by
  have hnone : (forms.find? fun form => arguments.contains form) = none := by
    simpa using h
  rw [takeOption, hnone]

end ElmTypes.CommandLine
