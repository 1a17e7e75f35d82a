import FeatureFlags.Validation.Document

/-!
# Reports

A report says whether a check found nothing, and lists in words what it found.
-/

namespace FeatureFlags

structure Report where
  valid : Bool
  errors : List String
  deriving DecidableEq

namespace Report

def ofViolations (violations : List Violation) : Report where
  valid := violations.isEmpty
  errors := violations.map Violation.message

def failure (message : String) : Report := ⟨false, [message]⟩

def toJson (report : Report) : Json :=
  .obj [("valid", .bool report.valid), ("errors", .ofTexts report.errors)]

open Shape (Record Reader) in
def reader : Reader Report :=
  (Record.of Report.mk
    |>.required "valid" Reader.boolean
    |>.required "errors" Reader.text.list).reader "ValidationReport"

end Report

def validate (document : Json) : Report :=
  .ofViolations (Validation.violations document)

def Document.validate (document : Document) : Report :=
  FeatureFlags.validate document.toJson

/-- Checks the document that a draft compiles to, and the draft itself. -/
def Draft.validate (draft : Draft) : Report :=
  match draft.compile with
  | .error error => .failure error.message
  | .ok document => .ofViolations (Validation.draftViolations draft document)

end FeatureFlags
