import FeatureFlags.Engine.Flag
import FeatureFlags.Json.SortedTable

/-!
# Documents of the engine

A document holds flags by their keys, in ascending order of the keys.
-/

namespace FeatureFlags

structure Document where
  flags : SortedTable Flag
  deriving DecidableEq

namespace Document

def single (key : String) (flag : Flag) : Document := ⟨.single key flag⟩

def toJson (document : Document) : Json :=
  .obj [("flags", .obj (document.flags.entries.mapValues Flag.toJson))]

def text (document : Document) : String := document.toJson.indented

open Shape (Record Reader) in
def reader : Reader Document :=
  (Record.of Document.mk
    |>.required "flags"
      (Flag.reader.table.map fun flags => .ofEntries flags.entries)).reader
    "EngineDocument"

def ofText (text : String) : Except Shape.TextError Document :=
  reader.ofText text

def ofJson (json : Json) : Except Shape.Mismatch Document := reader.ofJson json

end Document

end FeatureFlags
