import FeatureFlags.Json.Entries

/-!
# Arguments

Options have a long name and may have a short one.  Short options can stand
together behind one dash; a value follows its option as the next argument, after
an equals sign, or right behind the short name.  After two dashes everything is
positional.  No option may be given twice.
-/

namespace FeatureFlags.CommandLine

structure KnownOption where
  long : String
  short : Option Char
  takesValue : Bool

inductive Argument
  | option (long : String) (value : Option String)
  | positional (text : String)
  deriving DecidableEq

def looksLikeOption (argument : String) : Bool :=
  match argument.toList with
  | '-' :: _ :: _ => true
  | _ => false

/-- What an argument says, and the option whose value the next one has to be. -/
structure Said where
  arguments : List Argument
  pending : Option String := none

def readCluster (options : List KnownOption) : List Char → Option Said
  | [] => some ⟨[], none⟩
  | short :: rest =>
    match options.find? fun option => option.short = some short with
    | none => none
    | some option =>
      if option.takesValue then
        match rest with
        | [] => some ⟨[], some option.long⟩
        | '=' :: value =>
          some ⟨[.option option.long (some (String.ofList value))], none⟩
        | value =>
          some ⟨[.option option.long (some (String.ofList value))], none⟩
      else
        (readCluster options rest).map fun said =>
          { said with arguments := .option option.long none :: said.arguments }

def readLong (options : List KnownOption) (text : List Char) : Option Said :=
  let name := String.ofList (text.takeWhile (· ≠ '='))
  match options.find? fun option => option.long = name with
  | none => none
  | some option =>
    match option.takesValue, text.dropWhile (· ≠ '=') with
    | true, [] => some ⟨[], some option.long⟩
    | true, _ :: value =>
      some ⟨[.option option.long (some (String.ofList value))], none⟩
    | false, [] => some ⟨[.option option.long none], none⟩
    | false, _ :: _ => none

def readArgument (options : List KnownOption) (argument : String) : Option Said :=
  match argument.toList with
  | '-' :: '-' :: text => readLong options text
  | '-' :: short :: rest => readCluster options (short :: rest)
  | _ => some ⟨[.positional argument], none⟩

/-- All arguments, the first of which is the value of a pending option. -/
def readArguments (options : List KnownOption) :
    Option String → List String → Option (List Argument)
  | none, [] => some []
  | some _, [] => none
  | some long, argument :: rest =>
    if looksLikeOption argument then none
    else
      (readArguments options none rest).map
        (.option long (some argument) :: ·)
  | none, argument :: rest =>
    if argument = "--" then some (rest.map .positional)
    else
      match readArgument options argument with
      | none => none
      | some said =>
        (readArguments options said.pending rest).map (said.arguments ++ ·)

def Argument.long? : Argument → Option String
  | option long _ => some long
  | positional _ => none

def Argument.positional? : Argument → Option String
  | option _ _ => none
  | positional text => some text

structure Arguments where
  options : Entries (Option String)
  path : String

def Arguments.has (arguments : Arguments) (long : String) : Bool :=
  (Entries.value? long arguments.options).isSome

def Arguments.value? (arguments : Arguments) (long : String) : Option String :=
  (Entries.value? long arguments.options).join

def Argument.entry? : Argument → Option (String × Option String)
  | option long value => some (long, value)
  | positional _ => none

def readCommand (options : List KnownOption) (arguments : List String) :
    Option Arguments :=
  match readArguments options none arguments with
  | none => none
  | some given =>
    match given.filterMap Argument.positional? with
    | [path] =>
      if (given.filterMap Argument.long?).Nodup then
        some ⟨given.filterMap Argument.entry?, path⟩
      else none
    | _ => none

end FeatureFlags.CommandLine
