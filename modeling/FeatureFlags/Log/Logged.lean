import FeatureFlags.Log.Event

/-!
# Logged operations

A `Logged` value comes with the events that arose while it was made.  Here the
operations of the library are paired with their events.
-/

namespace FeatureFlags

structure Logged (α : Type) where
  value : α
  events : List Event

namespace Logged

instance : Monad Logged where
  pure value := ⟨value, []⟩
  bind first next :=
    let second := next first.value
    ⟨second.value, first.events ++ second.events⟩

def toFlag (draft : Draft) : Logged (Except CompileError Flag) :=
  ⟨draft.toFlag, draft.compileEvents⟩

def compile (draft : Draft) : Logged (Except CompileError Document) :=
  ⟨draft.compile, draft.compileEvents⟩

def saveRequest (draft : Draft) : Logged (Except CompileError SaveRequest) :=
  ⟨SaveRequest.ofDraft draft, draft.compileEvents⟩

def toCondition (tree : Json) : Logged Condition :=
  ⟨Logic.toCondition tree, conditionEvents tree⟩

def toDraft (flag : Flag) (key : String) : Logged Draft :=
  ⟨flag.toDraft key, flag.reopenEvents key⟩

def reopen (json : Json) (key : String) : Logged (Except ReopenError Draft) :=
  match Flag.reader.ofJson json with
  | .ok flag => ⟨Flag.reopen json key, flag.reopenEvents key⟩
  | .error _ => ⟨Flag.reopen json key, []⟩

def drafts (document : Document) : Logged (List Draft) :=
  ⟨document.drafts,
    document.flags.entries.flatMap fun entry => entry.2.reopenEvents entry.1⟩

def storedDraft (stored : StoredFlag) : Logged Draft :=
  ⟨stored.toDraft, stored.flag.reopenEvents stored.key⟩

def validate (document : Json) : Logged Report :=
  ⟨FeatureFlags.validate document, validationEvents document⟩

def validateDocument (document : Document) : Logged Report :=
  ⟨document.validate, validationEvents document.toJson⟩

def validateDraft (draft : Draft) : Logged Report :=
  ⟨draft.validate, draft.validationEvents⟩

end Logged

end FeatureFlags
