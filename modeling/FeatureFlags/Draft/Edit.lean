import FeatureFlags.Draft.Basic

/-!
# Edits of a draft

The edits that a form offers, as values.  `Draft.edit?` carries one out, or
answers `none` when it names a variant or rule that is not there; `Draft.run`
carries out a sequence and passes over the edits that cannot be done.

Edits keep the default variant in order where they can: a sole variant is the
default, and a removed default falls back to the first variant left.
-/

namespace FeatureFlags

inductive Edit
  | setType (type : ValueType)
  | addVariant
  | renameVariant (index : Nat) (name : String)
  | setVariantValue (index : Nat) (value : FormValue)
  | removeVariant (index : Nat)
  | addRule
  | removeRule (index : Nat)

structure Preset where
  variants : List Variant
  default : String

def ValueType.preset : ValueType → Preset
  | boolean => ⟨Draft.booleanVariants, "false"⟩
  | string => ⟨[⟨"foo", .text "foo"⟩, ⟨"bar", .text "bar"⟩], "foo"⟩
  | number => ⟨[⟨"1", .ofNat 1 (by decide)⟩, ⟨"2", .ofNat 2 (by decide)⟩], "1"⟩
  | object =>
    ⟨[⟨"foo", .text "\x7b\"foo\":\"foo\"\x7d"⟩,
      ⟨"bar", .text "\x7b\"bar\":\"bar\"\x7d"⟩], "foo"⟩

namespace Draft

/-- The type with its preset, and everything that names a variant with it. -/
def setType (draft : Draft) (type : ValueType) : Draft :=
  let preset := type.preset
  { draft with
    type
    variants := preset.variants
    defaultVariant := preset.default
    defaultRule := preset.default
    rules := [.placeholder preset.default] }

def addVariant (draft : Draft) : Draft :=
  { draft with variants := draft.variants ++ [⟨"", .zero draft.type⟩] }

def adoptSoleVariant (draft : Draft) : Draft :=
  match draft.variants with
  | [only] => { draft with defaultVariant := only.name }
  | _ => draft

def changeVariant? (draft : Draft) (index : Nat) (change : Variant → Variant) :
    Option Draft :=
  if index < draft.variants.length then
    some ({ draft with
      variants := draft.variants.modify index change }).adoptSoleVariant
  else none

def removeVariant? (draft : Draft) (index : Nat) : Option Draft :=
  match draft.variants[index]? with
  | none => none
  | some removed =>
    let rest := { draft with variants := draft.variants.eraseIdx index }
    if removed.name = draft.defaultVariant then
      some { rest with defaultVariant := rest.firstVariantName?.getD "" }
    else some rest

def addRule (draft : Draft) : Draft :=
  let target := draft.firstVariantName?.getD targetWithoutVariants
  { draft with rules := draft.rules ++ [.placeholder target] }

def removeRule? (draft : Draft) (index : Nat) : Option Draft :=
  if index < draft.rules.length then
    some { draft with rules := draft.rules.eraseIdx index }
  else none

def edit? (draft : Draft) : Edit → Option Draft
  | .setType type => some (draft.setType type)
  | .addVariant => some draft.addVariant
  | .renameVariant index name =>
    draft.changeVariant? index fun variant => { variant with name }
  | .setVariantValue index value =>
    draft.changeVariant? index fun variant => { variant with value }
  | .removeVariant index => draft.removeVariant? index
  | .addRule => some draft.addRule
  | .removeRule index => draft.removeRule? index

/-- The draft after the edit, unchanged when the edit cannot be done. -/
def apply (draft : Draft) (edit : Edit) : Draft :=
  (draft.edit? edit).getD draft

def run (draft : Draft) (edits : List Edit) : Draft :=
  edits.foldl apply draft

end Draft

end FeatureFlags
