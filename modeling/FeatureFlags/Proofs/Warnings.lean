import FeatureFlags.Log.Logged
import FeatureFlags.Proofs.Chains
import FeatureFlags.Proofs.MissingSubjects

/-!
# Warnings of opening a flag

A condition of a chain is lost when opening has no condition of the form for it
and takes the blank one.  Main statement: opening warns of exactly those lost
conditions that negate something other than a membership, once for each and in
their order.  Conditions without an operator are lost too, but silently.
-/

namespace FeatureFlags

namespace Logic

def HasOperator (tree : Json) : Prop :=
  ∃ member others, tree = .obj (member :: others)

def IsMembership (tree : Json) : Prop :=
  ∃ operands others, tree = .obj (("in", operands) :: others)

def NegatesOther (tree : Json) : Prop :=
  ∃ content others, tree = .obj (("!", content) :: others) ∧
    ¬ IsMembership content

/-- No object, an object without keys, or a negation of no membership. -/
def Lost (tree : Json) : Prop := ¬ HasOperator tree ∨ NegatesOther tree

theorem firstMember?_eq_none_iff {tree : Json} :
    firstMember? tree = none ↔ ¬ HasOperator tree := by
  unfold firstMember?
  split
  · rename_i member others
    exact iff_of_false nofun fun none => none ⟨member, others, rfl⟩
  · rename_i none
    exact iff_of_true rfl fun ⟨member, others, same⟩ => none member others same

theorem recover_eq_blank_iff {tree : Json} :
    recover tree = .blank ↔ ¬ HasOperator tree := by
  rw [← firstMember?_eq_none_iff, recover]
  cases firstMember? tree with
  | none => simp
  | some member =>
      obtain ⟨key, operands⟩ := member
      by_cases negates : key = notKey
      · simp only [negates, if_true, recoverNegation]
        split
        · simp
        · split <;> simp
      · simp [negates]

theorem recoverNegation_eq_unsupported_iff {content : Json} :
    recoverNegation content = .unsupportedNegation ↔
      ¬ IsMembership content := by
  unfold recoverNegation
  split
  · rename_i none
    refine iff_of_true rfl fun ⟨operands, others, same⟩ => ?_
    subst same
    exact nomatch none
  · rename_i key operands first
    obtain ⟨others, rfl⟩ := firstMember?_eq_some first
    by_cases includes : key = inKey
    · subst includes
      simp only [if_true, reduceCtorEq, false_iff, not_not]
      exact ⟨operands, others, rfl⟩
    · simp only [includes, if_false, true_iff]
      rintro ⟨_, _, ⟨⟩⟩
      exact includes rfl

theorem recover_eq_unsupportedNegation_iff {tree : Json} :
    recover tree = .unsupportedNegation ↔ NegatesOther tree := by
  unfold recover
  split
  · rename_i none
    refine iff_of_false nofun ?_
    rintro ⟨_, _, rfl, -⟩
    exact nomatch none
  · rename_i key content first
    obtain ⟨others, rfl⟩ := firstMember?_eq_some first
    by_cases negates : key = notKey
    · subst negates
      simp only [if_true, recoverNegation_eq_unsupported_iff]
      constructor
      · intro other
        exact ⟨content, others, rfl, other⟩
      · rintro ⟨_, _, ⟨⟩, other⟩
        exact other
    · simp only [negates, if_false, reduceCtorEq, false_iff]
      rintro ⟨_, _, ⟨⟩, -⟩
      exact negates rfl

instance (tree : Json) : Decidable (HasOperator tree) :=
  decidable_of_iff (¬ recover tree = .blank)
    (not_iff_comm.mp recover_eq_blank_iff.symm)

instance (tree : Json) : Decidable (NegatesOther tree) :=
  decidable_of_iff _ recover_eq_unsupportedNegation_iff

instance (tree : Json) : Decidable (Lost tree) :=
  inferInstanceAs (Decidable (_ ∨ _))

theorem lost_iff {tree : Json} :
    Lost tree ↔ ∀ condition, recover tree ≠ .condition condition := by
  rw [Lost, ← recover_eq_blank_iff, ← recover_eq_unsupportedNegation_iff]
  cases recover tree <;> simp

theorem negatesOther_of_lost_iff {tree : Json} :
    (Lost tree → NegatesOther tree) ↔ HasOperator tree := by
  have hasOperator : NegatesOther tree → HasOperator tree := by
    rintro ⟨content, others, rfl, -⟩
    exact ⟨_, _, rfl⟩
  unfold Lost
  tauto

theorem length_filter_negatesOther_iff (trees : List Json) :
    (trees.filter NegatesOther).length = (trees.filter Lost).length ↔
      ∀ tree ∈ trees, HasOperator tree := by
  -- the second filter within the first, so equal lengths leave nothing out
  have nested : trees.filter NegatesOther =
      (trees.filter Lost).filter NegatesOther := by
    rw [List.filter_filter]
    apply List.filter_congr
    intro tree _
    by_cases other : NegatesOther tree <;> simp [Lost, other]
  rw [nested, List.length_filter_eq_length_iff]
  simp only [List.mem_filter, decide_eq_true_eq, and_imp]
  exact forall₂_congr fun tree _ => negatesOther_of_lost_iff

def pairedConditions (items : List Json) : List Json :=
  (List.range (items.length / 2)).filterMap fun i => items[2 * i]?

theorem map_fst_pairs_split (items : List Json) :
    (split items).pairs.map Prod.fst = pairedConditions items := by
  induction items using split.induct with
  | case1 => rfl
  | case2 last => simp [split, pairedConditions]
  | case3 condition target rest ih =>
      have half : (condition :: target :: rest).length / 2 =
          rest.length / 2 + 1 := by
        simp only [List.length_cons]
        omega
      rw [pairedConditions, half, List.range_succ_eq_map]
      simpa [split, pairedConditions, List.filterMap_map, Nat.mul_add,
        Function.comp_def] using ih

end Logic

def Flag.conditions (flag : Flag) : List Json :=
  Logic.pairedConditions ((flag.targeting.bind Logic.chainItems?).getD [])

theorem Flag.map_fst_pairs_chainSplit (flag : Flag) :
    flag.chainSplit.pairs.map Prod.fst = flag.conditions := by
  rw [chainSplit, Logic.map_fst_pairs_split, conditions]
  congr 1
  unfold chainItems?
  rcases flag.targeting.bind Logic.chainItems? with _ | _ | _ <;> rfl

def warnings (events : List Event) : List Event :=
  events.filter (·.level = .warn)

theorem warnings_append (events others : List Event) :
    warnings (events ++ others) = warnings events ++ warnings others :=
  List.filter_append _ _

theorem warnings_conditionEvents (tree : Json) :
    warnings (conditionEvents tree) =
      if Logic.NegatesOther tree then [.negationUnsupported tree] else [] := by
  simp only [← Logic.recover_eq_unsupportedNegation_iff]
  unfold conditionEvents
  cases Logic.recover tree <;> rfl

theorem warnings_flatMap_conditionEvents (trees : List Json) :
    warnings (trees.flatMap conditionEvents) =
      (trees.filter Logic.NegatesOther).map .negationUnsupported := by
  induction trees with
  | nil => rfl
  | cons tree trees ih =>
      rw [List.flatMap_cons, warnings_append, warnings_conditionEvents, ih]
      by_cases other : Logic.NegatesOther tree <;> simp [other]

theorem Flag.warnings_reopenEvents (flag : Flag) (key : String) :
    warnings (flag.reopenEvents key) =
      (flag.conditions.filter Logic.NegatesOther).map .negationUnsupported := by
  have conditions : flag.chainSplit.pairs.flatMap
      (fun pair => conditionEvents pair.1) =
        flag.conditions.flatMap conditionEvents := by
    rw [← flag.map_fst_pairs_chainSplit, List.flatMap_map]
  have placeholder : warnings flag.placeholderEvents = [] := by
    unfold placeholderEvents
    split <;> rfl
  have opened : warnings [.flagReopened (flag.toDraft key)] = [] := rfl
  rw [reopenEvents, conditions, warnings_append, warnings_append,
    warnings_flatMap_conditionEvents, placeholder, opened, List.append_nil,
    List.append_nil]

/--
Opening warns of the conditions that negate something other than a membership,
of each once and in their order, and of nothing else.  The lost conditions are
these and those without an operator, so opening warns of all that is lost just
when every condition has an operator.
-/
theorem Flag.warnings_opening (flag : Flag) (key : String) :
    warnings (Logged.toDraft flag key).events =
        (flag.conditions.filter Logic.NegatesOther).map .negationUnsupported ∧
      (∀ tree, Logic.Lost tree ↔
        ∀ condition, Logic.recover tree ≠ .condition condition) ∧
      ((warnings (Logged.toDraft flag key).events).length =
          (flag.conditions.filter Logic.Lost).length ↔
        ∀ tree ∈ flag.conditions, Logic.HasOperator tree) := by
  have warned := flag.warnings_reopenEvents key
  refine ⟨warned, fun _ => Logic.lost_iff, ?_⟩
  rw [Logged.toDraft, warned, List.length_map]
  exact Logic.length_filter_negatesOther_iff flag.conditions

def silentFlag : Flag where
  state := .enabled
  defaultVariant := none
  variants := .ofEntries [("on", .bool true)]
  targeting := some (.obj [("if", .arr [.obj [], .str "on"])])

/-- A lost condition without an operator is not warned of. -/
theorem Flag.exists_lost_without_warning :
    ¬ ∀ (flag : Flag) (key : String),
      (warnings (Logged.toDraft flag key).events).length =
        (flag.conditions.filter Logic.Lost).length := by
  intro always
  have one := always silentFlag "f"
  have silent : warnings (Logged.toDraft silentFlag "f").events = [] := by
    decide +kernel
  have lost : silentFlag.conditions.filter Logic.Lost = [.obj []] := by
    decide +kernel
  rw [silent, lost] at one
  exact nomatch one

end FeatureFlags
