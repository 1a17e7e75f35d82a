import FeatureFlags.Compile
import FeatureFlags.Reopen

/-!
# Loading files

A file is loaded as an untyped value; the caller looks at the value to decide
what the file holds.  `DocumentError` gathers what can go wrong from the file to
the document.
-/

namespace FeatureFlags

inductive FileFault
  | notFound
  | notDirectory
  | isDirectory
  | nameTooLong
  | holdsNul
  | notText
  | other (message : String)
  deriving DecidableEq

def FileFault.message : FileFault → String
  | notFound => "No such file or directory (os error 2)"
  | notDirectory => "Not a directory (os error 20)"
  | isDirectory => "Is a directory (os error 21)"
  | nameTooLong => "File name too long (os error 36)"
  | holdsNul => "file name contained an unexpected NUL byte"
  | notText => "stream did not contain valid UTF-8"
  | other message => message

inductive DocumentError
  | misread (error : Shape.TextError)
  | mismatched (mismatch : Shape.Mismatch)
  | inaccessible (path : String) (fault : FileFault)
  | compile (error : CompileError)
  | reopen (error : ReopenError)

namespace DocumentError

def ofSyntax (error : Json.SyntaxError) : DocumentError :=
  .misread ⟨.flaw error.cause, error.place⟩

/-- What is wrong with the text or value itself, without what it was for. -/
def detail : DocumentError → String
  | misread error => error.message
  | mismatched mismatch => mismatch.message
  | inaccessible _ fault => fault.message
  | compile error => error.message
  | reopen error => error.message

def message (error : DocumentError) : String :=
  match error with
  | misread _ => "Failed to parse document JSON: " ++ error.detail
  | mismatched _ => "Failed to parse document JSON: " ++ error.detail
  | inaccessible path _ =>
    "Could not access '" ++ path ++ "': " ++ error.detail
  | compile _ => error.detail
  | reopen _ => error.detail

end DocumentError

def decodeText (content : ByteArray) : Except FileFault String :=
  match String.fromUTF8? content with
  | some text => .ok text
  | none => .error .notText

def loadJson (path : String) (content : Except FileFault ByteArray) :
    Except DocumentError Json :=
  match content.bind decodeText with
  | .error fault => .error (.inaccessible path fault)
  | .ok text => (Json.parse text).mapError .ofSyntax

end FeatureFlags
