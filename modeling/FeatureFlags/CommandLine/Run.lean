import FeatureFlags.CommandLine.Arguments
import FeatureFlags.CommandLine.Folder
import FeatureFlags.Store.Payload
import FeatureFlags.Validation.Report

/-!
# The commands

A command works on one file.  `Request.read` takes it from the arguments, which
may also ask for the version alone, and `Command.answer` says what it prints,
given what reading its file yields.
-/

namespace FeatureFlags.CommandLine

inductive Command
  | compile (path : String) (pretty saveBody : Bool)
  | reopen (path : String) (key : Option String)
  | validate (path : String) (draft : Bool)
  deriving DecidableEq

def Command.path : Command → String
  | compile path _ _ => path
  | reopen path _ => path
  | validate path _ => path

structure Outcome where
  exit : Nat
  output : String
  error : Option String
  deriving DecidableEq

def usageExit : Nat := 2

def Outcome.failed (message : String) : Outcome := ⟨1, "", some message⟩

def Outcome.printed (text : String) : Outcome := ⟨0, text ++ "\n", none⟩

def verbose : KnownOption := ⟨"verbose", some 'v', false⟩

def compileOptions : List KnownOption :=
  [verbose, ⟨"pretty", some 'p', false⟩, ⟨"save-body", none, false⟩]

def reopenOptions : List KnownOption := [verbose, ⟨"key", some 'k', true⟩]

def validateOptions : List KnownOption := [verbose, ⟨"draft", none, false⟩]

def Command.named (name : String) (arguments : List String) : Option Command :=
  match name with
  | "compile" =>
    (readCommand compileOptions arguments).map fun given =>
      .compile given.path (given.has "pretty") (given.has "save-body")
  | "decompile" =>
    (readCommand reopenOptions arguments).map fun given =>
      .reopen given.path (given.value? "key")
  | "validate" =>
    (readCommand validateOptions arguments).map fun given =>
      .validate given.path (given.has "draft")
  | _ => none

inductive Request
  | version
  | command (command : Command)
  deriving DecidableEq

inductive Lead
  | version
  | command (verbose : Bool)

/-- The short options behind one dash; what follows `V` is not looked at. -/
def leadCluster (verbose : Bool) : List Char → Option Lead
  | [] => some (.command verbose)
  | 'V' :: _ => some .version
  | 'v' :: rest => if verbose then none else leadCluster true rest
  | _ => none

def leadOption (verbose : Bool) (argument : String) : Option Lead :=
  if argument = "--version" then some .version
  else if argument = "--verbose" then
    if verbose then none else some (.command true)
  else
    match argument.toList with
    | '-' :: cluster => leadCluster verbose cluster
    | _ => none

def Request.readAfter (verbose : Bool) : List String → Option Request
  | [] => none
  | argument :: rest =>
    if looksLikeOption argument then
      match leadOption verbose argument with
      | none => none
      | some .version => some .version
      | some (.command verbose) => readAfter verbose rest
    else (Command.named argument rest).map .command

/-- The request in the arguments.  Nothing after a wish for the version counts. -/
def Request.read (arguments : List String) : Option Request :=
  readAfter false arguments

/-! ## Answers -/

def rendered (json : Json) (pretty : Bool) : String :=
  if pretty then json.indented else json.compact

def readDraft (path : String) (json : Json) : Except String Draft :=
  match Draft.reader.ofJson json with
  | .ok draft => .ok draft
  | .error mismatch =>
    .error ("JSON error in '" ++ path ++ "': " ++ mismatch.message)

def compileAnswer (path : String) (pretty saveBody : Bool) (json : Json) :
    Outcome :=
  match readDraft path json with
  | .error message => .failed message
  | .ok draft =>
    let compiled :=
      if saveBody then (SaveRequest.ofDraft draft).map SaveRequest.toJson
      else draft.compile.map Document.toJson
    match compiled with
    | .error error => .failed error.message
    | .ok json => .printed (rendered json pretty)

def draftsAnswer (drafts : List Draft) : Outcome :=
  .printed (Json.indented (.arr (drafts.map Draft.toJson)))

/-- A file with flags is a document; any other is a flag of the given key. -/
def reopenAnswer (path : String) (key : Option String) (json : Json) :
    Outcome :=
  match json.member? "flags" with
  | some _ =>
    match Document.ofJson json with
    | .error mismatch =>
      .failed ("Failed to read '" ++ path ++ "' as a flag document: " ++
        (DocumentError.mismatched mismatch).message)
    | .ok document => draftsAnswer document.drafts
  | none =>
    match Flag.reopen json (key.getD (fileStem path)) with
    | .error error => .failed error.message
    | .ok draft => draftsAnswer [draft]

def reportLines (report : Report) : String :=
  if report.valid then "Valid\n"
  else
    "Invalid\n" ++
      String.join (report.errors.map fun error => "  -> " ++ error ++ "\n")

def reportAnswer (report : Report) : Outcome :=
  ⟨if report.valid then 0 else 1, reportLines report, none⟩

def checked (draft : Bool) (json : Json) : Report :=
  if draft then
    match Draft.reader.ofJson json with
    | .ok draft => draft.validate
    | .error mismatch => .failure ("JSON error: " ++ mismatch.message)
  else validate json

def Command.answer (command : Command) (content : Except FileFault ByteArray) :
    Outcome :=
  match command, loadJson command.path content with
  | compile path pretty saveBody, .ok json =>
    compileAnswer path pretty saveBody json
  | reopen path key, .ok json => reopenAnswer path key json
  | validate _ draft, .ok json => reportAnswer (checked draft json)
  | validate _ _, .error (.misread error) =>
    reportAnswer (.failure ("JSON error: " ++ error.message))
  | _, .error error => .failed error.message

def versionLine : String := "hata 0.1.0"

/-- A run in a folder; without an outcome when the arguments make no request. -/
def run (folder : Folder) (arguments : List String) : Option Outcome :=
  (Request.read arguments).map fun
    | .version => .printed versionLine
    | .command command => command.answer (folder.read command.path)

end FeatureFlags.CommandLine
