import Mathlib

/-!
# The policy table

A row of the table is a combination of component types that may run together, each with a
priority. Rows come from the highest use case to the lowest. The searches are those of
`PolicyManager.c`, in their order.
-/

namespace OmapHal.PolicyManager

open List

def PM_NUM_COMPONENTS : Nat := 47
def OMX_POLICY_MAX_COMBINATION_LENGTH : Nat := 50
def OMX_POLICY_MAX_COMBINATIONS : Nat := 111

/-- `OMX_POLICY_COMPONENT_PRIORITY`. -/
structure ComponentPriority where
  component : Nat
  priority : Nat
  deriving DecidableEq, Repr

/-- A table as `PopulatePolicyTable` can leave it: within the arrays, with component types
found by name and priorities of the type `OMX_U8`. -/
structure PolicyTable where
  rows : List (List ComponentPriority)
  numCombinations_le : rows.length ≤ OMX_POLICY_MAX_COMBINATIONS
  length_le : ∀ row ∈ rows, row.length ≤ OMX_POLICY_MAX_COMBINATION_LENGTH
  component_lt : ∀ row ∈ rows, ∀ e ∈ row, e.component < PM_NUM_COMPONENTS
  priority_lt : ∀ row ∈ rows, ∀ e ∈ row, e.priority < 2 ^ 8

variable (T : PolicyTable)

/-- A combination, empty past the end of the table. -/
def PolicyTable.row (combination : Nat) : List ComponentPriority :=
  T.rows.getD combination []

/-- The first entry of a component in a row. -/
def entryIn (row : List ComponentPriority) (component : Nat) : Option ComponentPriority :=
  row.find? (·.component == component)

def CheckActiveCombination (activePolicyCombination componentRequestingPolicy : Nat) :
    Option Nat :=
  (entryIn (T.row activePolicyCombination) componentRequestingPolicy).map (·.priority)

/-- The combination and the priority that the loop over the table ends with: those of the last
row with the component. -/
def CheckAllCombinations (componentRequestingPolicy : Nat) : Option (Nat × Nat) :=
  T.rows.zipIdx.foldl
    (fun found rowAt =>
      match entryIn rowAt.1 componentRequestingPolicy with
      | some e => some (rowAt.2, e.priority)
      | none => found)
    none

def IsComponentSupported (component combination : Nat) : Bool :=
  (T.row combination).any (·.component == component)

/-- The rows with a component, a row as often as it has it. -/
def supportingRows (rows : List (List ComponentPriority)) (component : Nat) : List Nat :=
  rows.zipIdx.flatMap fun rowAt =>
    (rowAt.1.filter (·.component == component)).map fun _ => rowAt.2

/-- The list of supporting combinations, `none` where its 111 places are overrun. -/
def GetSupportingCombinations (componentRequestingPolicy : Nat) : Option (List Nat) :=
  if (supportingRows T.rows componentRequestingPolicy).length ≤ OMX_POLICY_MAX_COMBINATIONS then
    some (supportingRows T.rows componentRequestingPolicy)
  else none

def GetPriority (component combination : Nat) : Int :=
  match entryIn (T.row combination) component with
  | some e => e.priority
  | none => -1

/-- A component type stands in a row. -/
def PolicyTable.Has (combination component : Nat) : Prop :=
  ∃ e ∈ T.row combination, e.component = component

instance (combination component : Nat) : Decidable (T.Has combination component) :=
  inferInstanceAs (Decidable (∃ e ∈ T.row combination, e.component = component))

variable {T} {combination component : Nat}

theorem entryIn_isSome {row : List ComponentPriority} :
    (entryIn row component).isSome ↔ ∃ e ∈ row, e.component = component := by
  unfold entryIn
  rw [find?_isSome]
  simp only [beq_iff_eq]

theorem exists_entry_iff :
    (∃ e, entryIn (T.row combination) component = some e) ↔ T.Has combination component := by
  rw [← Option.isSome_iff_exists, entryIn_isSome]
  rfl

/-- A row of the table that has a component. -/
theorem PolicyTable.has_iff :
    T.Has combination component ↔
      ∃ row, T.rows[combination]? = some row ∧ ∃ e ∈ row, e.component = component := by
  unfold PolicyTable.Has PolicyTable.row
  rw [getD_eq_getElem?_getD]
  cases hrow : T.rows[combination]? with
  | none => simp
  | some row => simp

theorem IsComponentSupported_iff :
    IsComponentSupported T component combination ↔ T.Has combination component := by
  unfold IsComponentSupported PolicyTable.Has
  simp only [any_eq_true, beq_iff_eq]

theorem CheckActiveCombination_isSome :
    (CheckActiveCombination T combination component).isSome ↔ T.Has combination component := by
  unfold CheckActiveCombination
  rw [Option.isSome_map, entryIn_isSome]
  rfl

theorem GetPriority_of_has (h : T.Has combination component) :
    ∃ e, entryIn (T.row combination) component = some e ∧
      GetPriority T component combination = e.priority := by
  obtain ⟨e, he⟩ := exists_entry_iff.mpr h
  refine ⟨e, he, ?_⟩
  unfold GetPriority
  rw [he]

theorem GetPriority_ne_neg_one_iff :
    GetPriority T component combination ≠ -1 ↔ T.Has combination component := by
  rw [← exists_entry_iff]
  unfold GetPriority
  cases entryIn (T.row combination) component with
  | none => simp
  | some e => simp

/-- The supporting list is the rows that have the component. -/
theorem mem_supportingRows_iff :
    combination ∈ supportingRows T.rows component ↔ T.Has combination component := by
  rw [PolicyTable.has_iff]
  unfold supportingRows
  rw [mem_flatMap]
  constructor
  · rintro ⟨⟨row, i⟩, hrow, hmem⟩
    rw [mk_mem_zipIdx_iff_getElem?] at hrow
    obtain ⟨e, he, rfl⟩ := mem_map.mp hmem
    rw [mem_filter, beq_iff_eq] at he
    exact ⟨row, hrow, e, he⟩
  · rintro ⟨row, hrow, e, he, hcomponent⟩
    refine ⟨(row, combination), mk_mem_zipIdx_iff_getElem?.mpr hrow, ?_⟩
    exact mem_map.mpr ⟨e, mem_filter.mpr ⟨he, beq_iff_eq.mpr hcomponent⟩, rfl⟩

/-- What the loop over the table ends with. -/
inductive LastRow (rows : List (List ComponentPriority)) (component : Nat) :
    Option (Nat × Nat) → Prop where
  /-- No row has the component. -/
  | absent : (∀ (i : Nat) (row : List ComponentPriority), rows[i]? = some row →
        entryIn row component = none) →
      LastRow rows component none
  /-- The last row that has it, with its priority there. -/
  | last {i : Nat} {row : List ComponentPriority} {e : ComponentPriority} :
      rows[i]? = some row → entryIn row component = some e →
      (∀ (j : Nat) (row : List ComponentPriority), i < j → rows[j]? = some row →
        entryIn row component = none) →
      LastRow rows component (some (i, e.priority))

theorem lastRow_foldl (rows : List (List ComponentPriority)) (component : Nat) :
    LastRow rows component (rows.zipIdx.foldl (fun found rowAt =>
        match entryIn rowAt.1 component with
        | some e => some (rowAt.2, e.priority)
        | none => found) none) := by
  induction rows using reverseRecOn with
  | nil => exact .absent fun i row h => by simp at h
  | append_singleton rows last ih =>
    rw [zipIdx_append, foldl_append, zipIdx_singleton, foldl_cons, foldl_nil, Nat.zero_add]
    have hlast : (rows ++ [last])[rows.length]? = some last := by simp
    cases he : entryIn last component with
    | some e =>
      refine .last hlast he fun j row hj hrow => ?_
      rw [getElem?_eq_none (by rw [length_append, length_singleton]; omega)] at hrow
      cases hrow
    | none =>
      have hkeep : ∀ (j : Nat) (row : List ComponentPriority), (rows ++ [last])[j]? = some row →
          rows[j]? = some row ∨ entryIn row component = none := by
        intro j row hrow
        rcases Nat.lt_trichotomy j rows.length with hj | rfl | hj
        · exact .inl (by rwa [getElem?_append_left hj] at hrow)
        · rw [hlast] at hrow
          exact .inr (Option.some.inj hrow ▸ he)
        · rw [getElem?_eq_none (by rw [length_append, length_singleton]; omega)]
            at hrow
          cases hrow
      generalize rows.zipIdx.foldl _ none = found at ih ⊢
      cases ih with
      | absent hnone =>
        exact .absent fun j row hrow => (hkeep j row hrow).elim (hnone j row) id
      | last hrow hentry hafter =>
        refine .last ?_ hentry fun j row' hj hrow' =>
          (hkeep j row' hrow').elim (hafter j row' hj) id
        obtain ⟨hlt, -⟩ := List.getElem?_eq_some_iff.mp hrow
        rw [getElem?_append_left hlt]
        exact hrow

theorem CheckAllCombinations_lastRow (T : PolicyTable) (component : Nat) :
    LastRow T.rows component (CheckAllCombinations T component) :=
  lastRow_foldl T.rows component

theorem has_of_entry {row : List ComponentPriority} {e : ComponentPriority}
    (hrow : T.rows[combination]? = some row) (he : entryIn row component = some e) :
    T.Has combination component :=
  PolicyTable.has_iff.mpr ⟨row, hrow, entryIn_isSome.mp (by rw [he]; rfl)⟩

theorem not_has_of_entry_none
    (h : ∀ row, T.rows[combination]? = some row → entryIn row component = none) :
    ¬ T.Has combination component := by
  rintro hhas
  obtain ⟨row, hrow, he⟩ := PolicyTable.has_iff.mp hhas
  have hsome := entryIn_isSome.mpr he
  rw [h row hrow] at hsome
  exact Bool.false_ne_true hsome

/-- The loop over the table finds the last row with the component. -/
theorem CheckAllCombinations_cases (T : PolicyTable) (component : Nat) :
    (CheckAllCombinations T component = none ∧ ∀ i, ¬ T.Has i component) ∨
      ∃ i priority, CheckAllCombinations T component = some (i, priority) ∧
        T.Has i component ∧ ∀ j, i < j → ¬ T.Has j component := by
  have hloop := CheckAllCombinations_lastRow T component
  generalize CheckAllCombinations T component = found at hloop ⊢
  cases hloop with
  | absent hnone => exact .inl ⟨rfl, fun i => not_has_of_entry_none fun row => hnone i row⟩
  | last hrow hentry hafter =>
    exact .inr ⟨_, _, rfl, has_of_entry hrow hentry, fun j hj =>
      not_has_of_entry_none fun row => hafter j row hj⟩

end OmapHal.PolicyManager
