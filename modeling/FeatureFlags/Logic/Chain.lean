import FeatureFlags.Logic.Tree

/-!
# Chains of conditions

A chain is one `if` over an array that alternates conditions and variants.  An
array of even length is all pairs; in one of odd length the last item is the
fallback, whatever it is.
-/

namespace FeatureFlags.Logic

structure Branch where
  condition : Json
  variant : String
  deriving DecidableEq

structure Chain where
  branches : List Branch
  fallback : Option String
  deriving DecidableEq

def fallbackItems : Option String → List Json
  | none => []
  | some variant => [.str variant]

def Chain.items (chain : Chain) : List Json :=
  chain.branches.flatMap (fun branch => [branch.condition, .str branch.variant])
    ++ fallbackItems chain.fallback

def Chain.toJson (chain : Chain) : Json := call ifKey chain.items

/-- The items of a chain, when the tree is an object with an `if` array. -/
def chainItems? (tree : Json) : Option (List Json) :=
  match tree.member? ifKey with
  | some (.arr items) => some items
  | _ => none

structure Split where
  pairs : List (Json × Json)
  fallback : Option Json
  deriving DecidableEq

def split : List Json → Split
  | [] => ⟨[], none⟩
  | [last] => ⟨[], some last⟩
  | condition :: target :: rest =>
    let others := split rest
    ⟨(condition, target) :: others.pairs, others.fallback⟩

end FeatureFlags.Logic
