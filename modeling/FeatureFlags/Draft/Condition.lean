import FeatureFlags.Shape.Record

/-!
# Conditions of a rule

A condition compares an attribute of the evaluation context with a value.  The
form keeps it flat: the attribute's path, an operator, a comparator that only a
version comparison uses, and the raw text of the value.
-/

namespace FeatureFlags

inductive Operator
  | endsWith
  | startsWith
  | equals
  | semVer
  | inList
  | notInList
  | inString
  | notInString
  | other (name : String)
  deriving DecidableEq

namespace Operator

def name : Operator → String
  | endsWith => "ends_with"
  | startsWith => "starts_with"
  | equals => "=="
  | semVer => "sem_ver"
  | inList => "in_list"
  | notInList => "not_in_list"
  | inString => "in_string"
  | notInString => "not_in_string"
  | other name => name

def ofName (name : String) : Operator :=
  match name with
  | "ends_with" => endsWith
  | "starts_with" => startsWith
  | "==" => equals
  | "sem_ver" => semVer
  | "in_list" => inList
  | "not_in_list" => notInList
  | "in_string" => inString
  | "not_in_string" => notInString
  | name => other name

/--
The operator that a key stands for when its operands are an attribute and a
value.  The other known operators have shapes of their own, so their names are
no such keys.
-/
def ofKey (key : String) : Operator :=
  match key with
  | "ends_with" => endsWith
  | "starts_with" => startsWith
  | "==" => equals
  | key => other key

theorem name_ofName (name : String) : (ofName name).name = name := by
  unfold ofName
  split <;> simp [Operator.name]

theorem name_ofKey (key : String) : (ofKey key).name = key := by
  unfold ofKey
  split <;> simp [Operator.name]

def toJson (operator : Operator) : Json := .str operator.name

def reader : Shape.Reader Operator := Shape.Reader.text.map ofName

end Operator

def comparators : List String := [">=", ">", "<", "<=", "==", "!="]

def defaultComparator : String := ">="

structure Condition where
  name : String := ""
  operator : Operator := .endsWith
  comparator : String := defaultComparator
  value : String := ""
  deriving DecidableEq

namespace Condition

def blank : Condition := {}

def version (name comparator value : String) : Condition :=
  { name, operator := .semVer, comparator, value }

def listValues (condition : Condition) : List String :=
  Text.values condition.value

def toJson (condition : Condition) : Json :=
  .obj [
    ("name", .str condition.name),
    ("operator", condition.operator.toJson),
    ("subOperator", .str condition.comparator),
    ("value", .str condition.value)]

open Shape (Record Reader) in
def reader : Reader Condition :=
  (Record.of Condition.mk
    |>.defaulted "name" Reader.text blank.name
    |>.defaulted "operator" Operator.reader blank.operator
    |>.defaulted "subOperator" Reader.text blank.comparator
    |>.defaulted "value" Reader.text blank.value).reader "Condition"

end Condition

end FeatureFlags
