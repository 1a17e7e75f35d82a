import FeatureFlags.Logic.Chain
import FeatureFlags.Proofs.Conditions

/-!
# Chains there and back

The items of a chain have their meaning by position.  `Alternating` says which
items may stand where for a chain that is read and written again to come back
unchanged.  Every chain of expressible conditions is written so.
-/

namespace FeatureFlags.Logic

def IsText (json : Json) : Prop := ∃ text, json = .str text

/--
The items at odd positions and the last item are texts.  Every other item is a
condition that the form can express.
-/
def Alternating (items : List Json) : Prop :=
  ∀ index item, items[index]? = some item →
    if index % 2 = 1 ∨ index + 1 = items.length then IsText item
    else Expressible item

theorem str_operandText_iff {json : Json} :
    Json.str (operandText json) = json ↔ IsText json := by
  constructor
  · intro h
    exact ⟨_, h.symm⟩
  · rintro ⟨text, rfl⟩
    rw [operandText_str]

theorem alternating_nil : Alternating [] := by
  intro index item h
  simp at h

theorem alternating_singleton {last : Json} :
    Alternating [last] ↔ IsText last := by
  constructor
  · intro h
    simpa using h 0 last rfl
  · intro h index item hitem
    cases index with
    | zero =>
        cases hitem
        simpa using h
    | succ index => simp at hitem

theorem alternating_cons_cons {condition target : Json} {rest : List Json} :
    Alternating (condition :: target :: rest) ↔
      Expressible condition ∧ IsText target ∧ Alternating rest := by
  constructor
  · intro h
    refine ⟨?_, ?_, ?_⟩
    · simpa using h 0 condition rfl
    · simpa using h 1 target rfl
    · intro index item hitem
      have place := h (index + 2) item (by simpa using hitem)
      simpa using place
  · rintro ⟨hcondition, htarget, hrest⟩ index item hitem
    match index with
    | 0 =>
        cases hitem
        simpa using hcondition
    | 1 =>
        cases hitem
        simpa using htarget
    | index + 2 =>
        have place := hrest index item (by simpa using hitem)
        simpa using place

theorem chainItems?_eq_some_iff {tree : Json} {items : List Json} :
    chainItems? tree = some items ↔
      tree.member? ifKey = some (.arr items) := by
  unfold chainItems?
  split
  · rename_i found given
    rw [given]
    simp
  · rename_i other
    exact iff_of_false nofun (other items)

@[simp] theorem items_cons (branch : Branch) (branches : List Branch)
    (fallback : Option String) :
    Chain.items ⟨branch :: branches, fallback⟩ =
      branch.condition :: .str branch.variant ::
        Chain.items ⟨branches, fallback⟩ := rfl

theorem split_items (chain : Chain) :
    split chain.items =
      ⟨chain.branches.map fun branch => (branch.condition, .str branch.variant),
        chain.fallback.map .str⟩ := by
  obtain ⟨branches, fallback⟩ := chain
  induction branches with
  | nil => cases fallback <;> rfl
  | cons branch branches ih => simp [split, ih]

theorem alternating_items {chain : Chain}
    (h : ∀ branch ∈ chain.branches, Expressible branch.condition) :
    Alternating chain.items := by
  obtain ⟨branches, fallback⟩ := chain
  induction branches with
  | nil =>
      cases fallback with
      | none => exact alternating_nil
      | some variant => exact alternating_singleton.mpr ⟨variant, rfl⟩
  | cons branch branches ih =>
      rw [items_cons, alternating_cons_cons]
      exact ⟨h branch (by simp), ⟨_, rfl⟩,
        ih fun other hother => h other (List.mem_cons_of_mem _ hother)⟩

theorem two_le_length_items {chain : Chain} (h : chain.branches ≠ []) :
    2 ≤ chain.items.length := by
  obtain ⟨branches, fallback⟩ := chain
  cases branches with
  | nil => exact absurd rfl h
  | cons branch branches => simp

def Split.reread (parts : Split) : Chain where
  branches := parts.pairs.map fun pair =>
    ⟨ofCondition (toCondition pair.1), operandText pair.2⟩
  fallback := parts.fallback.map operandText

theorem items_reread_iff (items : List Json) :
    (split items).reread.items = items ↔ Alternating items := by
  induction items using split.induct with
  | case1 => exact iff_of_true rfl alternating_nil
  | case2 last =>
      rw [alternating_singleton, ← str_operandText_iff]
      simp [split, Split.reread, Chain.items, fallbackItems]
  | case3 condition target rest ih =>
      rw [alternating_cons_cons, ← ofCondition_toCondition_iff,
        ← str_operandText_iff, ← ih]
      simp [split, Split.reread]

theorem pairs_split_ne_nil {items : List Json} (h : 2 ≤ items.length) :
    (split items).pairs ≠ [] := by
  match items with
  | condition :: target :: rest => simp [split]

theorem getElem?_pairs_split (items : List Json) (i : Nat) :
    (split items).pairs[i]? =
      (items[2 * i]?).bind fun condition =>
        (items[2 * i + 1]?).map (condition, ·) := by
  induction items using split.induct generalizing i with
  | case1 => simp [split]
  | case2 last => cases i <;> simp [split, Nat.mul_add]
  | case3 condition target rest ih =>
      cases i with
      | zero => simp [split]
      | succ i => simpa [split, Nat.mul_add] using ih i

theorem mem_pairs_split_iff {items : List Json} {condition target : Json} :
    (condition, target) ∈ (split items).pairs ↔
      ∃ i, items[2 * i]? = some condition ∧
        items[2 * i + 1]? = some target := by
  simp [List.mem_iff_getElem?, getElem?_pairs_split, Option.bind_eq_some_iff]

theorem fallback_split (items : List Json) :
    (split items).fallback =
      if items.length % 2 = 1 then items.getLast? else none := by
  induction items using split.induct with
  | case1 => rfl
  | case2 last => rfl
  | case3 condition target rest ih =>
      -- an odd rest is not empty, so its last item is that of the whole
      cases rest with
      | nil => simp [split]
      | cons item rest =>
          have parity : (rest.length + 1 + 1 + 1) % 2 =
              (rest.length + 1) % 2 := by omega
          simpa [split, List.getLast?_cons_cons, parity] using ih

theorem length_pairs_split (items : List Json) :
    (split items).pairs.length = items.length / 2 := by
  induction items using split.induct with
  | case1 => rfl
  | case2 last => simp [split]
  | case3 condition target rest ih =>
      simp only [split, List.length_cons, ih]
      omega

theorem split_concat_of_even {items : List Json}
    (even : items.length % 2 = 0) (last : Json) :
    split (items ++ [last]) = ⟨(split items).pairs, some last⟩ := by
  induction items using split.induct with
  | case1 => rfl
  | case2 other => simp at even
  | case3 condition target rest ih =>
      have others := ih (by simp only [List.length_cons] at even; omega)
      simp [split, others]

theorem isSome_fallback_split_iff {items : List Json} :
    (split items).fallback.isSome = true ↔ items.length % 2 = 1 := by
  rw [fallback_split]
  by_cases odd : items.length % 2 = 1
  · have nonempty : items ≠ [] := by
      rintro rfl
      simp at odd
    simp [odd, nonempty]
  · simp [odd]

def Split.items (parts : Split) : List Json :=
  parts.pairs.flatMap (fun pair => [pair.1, pair.2]) ++ parts.fallback.toList

theorem items_split (items : List Json) : (split items).items = items := by
  induction items using split.induct with
  | case1 => rfl
  | case2 last => rfl
  | case3 condition target rest ih =>
      have tail := congrArg (condition :: target :: ·) ih
      simpa [split, Split.items] using tail

theorem split_of_parts (parts : Split) : split parts.items = parts := by
  obtain ⟨pairs, fallback⟩ := parts
  induction pairs with
  | nil => cases fallback <;> rfl
  | cons pair pairs ih =>
      have rest : Split.items ⟨pair :: pairs, fallback⟩ =
          pair.1 :: pair.2 :: Split.items ⟨pairs, fallback⟩ := rfl
      rw [rest, split, ih]

/--
A chain that is written is split into its branches, in their order, and its
fallback.  The parts of any items put together again are the items, and there is
a fallback among them just when the number of items is odd.
-/
theorem split_loses_nothing :
    (∀ chain : Chain, ∃ items, chainItems? chain.toJson = some items ∧
      (split items).pairs = chain.branches.map
          (fun branch => (branch.condition, .str branch.variant)) ∧
        (split items).fallback = chain.fallback.map .str) ∧
    ∀ items : List Json, (split items).items = items ∧
      ((split items).fallback.isSome = true ↔ items.length % 2 = 1) := by
  constructor
  · intro chain
    have parts := split_items chain
    exact ⟨chain.items, rfl, congrArg Split.pairs parts,
      congrArg Split.fallback parts⟩
  · intro items
    exact ⟨items_split items, isSome_fallback_split_iff⟩

end FeatureFlags.Logic
