import FeatureFlags.Json.Skip
import FeatureFlags.Shape.Mismatch

/-!
# Reading a text into a shape

A `Keeper` reads one value from a text and keeps the part of it that a shape
asks for: the known members of a record, and everything of any other value.  It
stops at the first fault of the text or of the shape, whichever comes first.

A mismatch that does not concern a single value has no place of its own.  The
record or table around it gives it one: where it has been closed.
-/

namespace FeatureFlags.Shape

open FeatureFlags.Json (Stop Flaw skipSpaces byteCount)

inductive Halt
  | placed (cause : Cause) (left : Nat)
  | unplaced (mismatch : Mismatch) (rest : List Char)

def Halt.ofStop (stop : Stop) : Halt := .placed (.flaw stop.flaw) stop.left

def Halt.before (mismatch : Mismatch) (rest : List Char) : Halt :=
  .placed (.mismatch mismatch) (byteCount rest)

/-- Reads a value, whose brackets nest at most so deep, and keeps its part. -/
abbrev Keeper := Nat → List Char → Except Halt (Json × List Char)

abbrev Step := List Char → Except Halt (Json × List Char)

def afterBrace (cs : List Char) : List Char :=
  match skipSpaces cs with
  | '}' :: rest => rest
  | rest => rest

/-- Where reading stands once an array has been closed as far as it can be. -/
def afterBracket (cs : List Char) : List Char :=
  match skipSpaces cs with
  | ']' :: rest => rest
  | ',' :: rest => skipSpaces rest
  | rest => rest

/-- Gives an unplaced mismatch the place after the closing bracket. -/
def settle {α : Type} (close : List Char → List Char) :
    Except Halt α → Except Halt α
  | .error (.unplaced mismatch rest) => .error (.before mismatch (close rest))
  | other => other

def endArray (cs : List Char) : Except Stop (List Char) :=
  match skipSpaces cs with
  | [] => .error (.on .endInArray [])
  | ']' :: rest => .ok rest
  | ',' :: rest =>
    match skipSpaces rest with
    | ']' :: rest => .error (.on .trailingComma (']' :: rest))
    | rest => .error (.on .trailingCharacters rest)
  | rest => .error (.on .trailingCharacters rest)

def found (cs : List Char) : Except Stop (Found × List Char) :=
  match cs with
  | '[' :: _ => .ok (.sequence, cs)
  | '{' :: _ => .ok (.table, cs)
  | cs => (Json.scalar cs).map fun read => (Found.of read.1, read.2)

def misfit (expected : Expected) (cs : List Char) : Halt :=
  match found cs with
  | .error stop => .ofStop stop
  | .ok (found, rest) => .before (.wrongType found expected) rest

namespace Keeper

def judged (judge : Json → Option Mismatch) : Keeper := fun depth cs =>
  match Json.value depth cs with
  | .error stop => .error (.ofStop stop)
  | .ok (json, rest) =>
    match judge json with
    | none => .ok (json, rest)
    | some mismatch => .error (.unplaced mismatch rest)

def text : Keeper := fun _ cs =>
  match skipSpaces cs with
  | '"' :: rest =>
    match Json.string rest with
    | .error stop => .error (.ofStop stop)
    | .ok (text, rest) => .ok (.str text, rest)
  | cs => .error (misfit .text cs)

def nullable (keep : Keeper) : Keeper := fun depth cs =>
  match skipSpaces cs with
  | 'n' :: rest =>
    match Json.word ['u', 'l', 'l'] rest with
    | .error stop => .error (.ofStop stop)
    | .ok rest => .ok (.null, rest)
  | cs => keep depth cs

def table (keep : Keeper) : Keeper := fun depth cs =>
  match skipSpaces cs with
  | '{' :: rest =>
    match depth with
    | 0 => .error (.ofStop (.on .tooDeep ('{' :: rest)))
    | depth + 1 =>
      settle afterBrace <|
        (Json.members .ofStop (keep depth) (rest.length + 1) true rest).map
          fun read => (.obj (Entries.collapse read.1), read.2)
  | cs => .error (misfit .table cs)

end Keeper

/--
Keeps the members that have a step of their own and skips the others.  The
names in `seen` must not come again.
-/
def keepMembers (steps : Entries Step) :
    Nat → Bool → List String → List Char →
      Except Halt (Entries Json × List Char)
  | 0, _, _, cs => .error (.ofStop (.on .endInObject cs))
  | fuel + 1, first, seen, cs =>
    match Json.nextName first cs with
    | .error stop => .error (.ofStop stop)
    | .ok (.done after) => .ok ([], after)
    | .ok (.more name rest) =>
      match Entries.value? name steps with
      | none =>
        match (Json.colon rest).bind Json.skip with
        | .error stop => .error (.ofStop stop)
        | .ok rest => keepMembers steps fuel false seen rest
      | some step =>
        if name ∈ seen then .error (.unplaced (.repeated name) rest)
        else
          match Json.colon rest with
          | .error stop => .error (.ofStop stop)
          | .ok rest =>
            match step rest with
            | .error halt => .error halt
            | .ok (json, rest) =>
              match keepMembers steps fuel false (name :: seen) rest with
              | .error halt => .error halt
              | .ok (kept, rest) => .ok ((name, json) :: kept, rest)

def keepItems : Entries Step → Bool → List Char →
    Except Halt (Entries Json × Bool × List Char)
  | [], _, cs => .ok ([], false, cs)
  | (name, step) :: steps, first, cs =>
    match Json.nextItem first cs with
    | .error stop => .error (.ofStop stop)
    | .ok (.done after) => .ok ([], true, after)
    | .ok (.more _ rest) =>
      match step rest with
      | .error halt => .error halt
      | .ok (json, rest) =>
        match keepItems steps false rest with
        | .error halt => .error halt
        | .ok (kept, closed, rest) => .ok ((name, json) :: kept, closed, rest)

inductive Form
  | named
  | positional
  deriving DecidableEq

def judgeKept (judge : Form → Entries Json → Option Mismatch) (form : Form)
    (kept : Entries Json) (rest : List Char) : Except Halt (Json × List Char) :=
  match judge form kept with
  | none => .ok (.obj kept, rest)
  | some mismatch => .error (.before mismatch rest)

def Keeper.record (name : String) (fields : Entries Keeper)
    (judge : Form → Entries Json → Option Mismatch) : Keeper := fun depth cs =>
  match skipSpaces cs with
  | '[' :: rest =>
    match depth with
    | 0 => .error (.ofStop (.on .tooDeep ('[' :: rest)))
    | depth + 1 =>
      settle afterBracket <|
        match keepItems (fields.mapValues (· depth)) true rest with
        | .error halt => .error halt
        | .ok (kept, true, rest) => judgeKept judge .positional kept rest
        | .ok (kept, false, rest) =>
          match endArray rest with
          | .error stop => .error (.ofStop stop)
          | .ok rest => judgeKept judge .positional kept rest
  | '{' :: rest =>
    match depth with
    | 0 => .error (.ofStop (.on .tooDeep ('{' :: rest)))
    | depth + 1 =>
      settle afterBrace <|
        match keepMembers (fields.mapValues (· depth)) (rest.length + 1) true []
          rest with
        | .error halt => .error halt
        | .ok (kept, rest) => judgeKept judge .named kept rest
  | cs => .error (misfit (.record name) cs)

end FeatureFlags.Shape
