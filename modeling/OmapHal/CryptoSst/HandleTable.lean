import OmapHal.Core.Ring
import OmapHal.Core.Run

/-!
# Tables of objects with 16-bit handles

`lib_object.c` for the objects identified by a handle: a ring of nodes from `pRoot` on. A loop that
takes more turns than there are handles has no result.
-/

namespace OmapHal.CryptoSst

open Function List Nat Option

open OmapHal.Core (Ring Segment AlongSome)

/-- The pointer to a node. -/
abbrev Pointer := Nat

def LIB_OBJECT_HANDLE16_MAX : Nat := 0xFFFF

/-- The table, with the nodes in memory. -/
structure LIB_OBJECT_TABLE_HANDLE16 where
  pRoot : Option Pointer
  pPrevious : Pointer → Pointer
  pNext : Pointer → Pointer
  nHandle : Pointer → Nat

namespace LIB_OBJECT_TABLE_HANDLE16

/-- The loop of `libObjectSearch`. -/
def searchFrom (pTable : LIB_OBJECT_TABLE_HANDLE16) (pRoot : Pointer) (nKey1 : Nat) :
    Nat → Pointer → Option (Option Pointer)
  | 0, _ => none
  | turns + 1, pNode =>
    if nKey1 = pTable.nHandle pNode then some (some pNode)
    else if pTable.pNext pNode = pRoot then some none
    else searchFrom pTable pRoot nKey1 turns (pTable.pNext pNode)

def libObjectHandle16Search (pTable : LIB_OBJECT_TABLE_HANDLE16) (nHandle : Nat) :
    Option (Option Pointer) :=
  match pTable.pRoot with
  | none => some none
  | some pRoot => pTable.searchFrom pRoot nHandle LIB_OBJECT_HANDLE16_MAX pRoot

/-- The new node goes just before another one; it is the root in front of the root. -/
def insertBefore (pTable : LIB_OBJECT_TABLE_HANDLE16) (pNew pNode : Pointer) (nFreeHandle : Nat) :
    LIB_OBJECT_TABLE_HANDLE16 where
  pRoot := if some pNode = pTable.pRoot then some pNew else pTable.pRoot
  pPrevious := Function.update (Function.update pTable.pPrevious pNew (pTable.pPrevious pNode))
    pNode pNew
  pNext := Function.update (Function.update pTable.pNext pNew pNode) (pTable.pPrevious pNode) pNew
  nHandle := Function.update pTable.nHandle pNew (nFreeHandle % 0x10000)

/-- The loop behind `scan_list`. -/
def scanList (pTable : LIB_OBJECT_TABLE_HANDLE16) (pRoot pNew : Pointer) :
    Nat → Pointer → Nat → Option (Bool × LIB_OBJECT_TABLE_HANDLE16)
  | 0, _, _ => none
  | turns + 1, pNode, nFreeHandle =>
    if pTable.nHandle pNode > nFreeHandle then
      some (true, pTable.insertBefore pNew pNode nFreeHandle)
    else if pTable.pNext pNode = pRoot then some (false, pTable)
    else scanList pTable pRoot pNew turns (pTable.pNext pNode) (nFreeHandle + 1)

def libObjectHandle16Add (pTable : LIB_OBJECT_TABLE_HANDLE16) (pNew : Pointer) :
    Option (Bool × LIB_OBJECT_TABLE_HANDLE16) :=
  match pTable.pRoot with
  | none => some (true, {
      pRoot := some pNew
      pPrevious := Function.update pTable.pPrevious pNew pNew
      pNext := Function.update pTable.pNext pNew pNew
      nHandle := Function.update pTable.nHandle pNew 1 })
  | some pRoot =>
    let pLast := pTable.pPrevious pRoot
    if pTable.nHandle pLast = LIB_OBJECT_HANDLE16_MAX then
      pTable.scanList pRoot pNew LIB_OBJECT_HANDLE16_MAX pRoot 1
    else some (true, {
      pRoot := some pRoot
      pPrevious := Function.update (Function.update pTable.pPrevious pNew pLast) pRoot pNew
      pNext := Function.update (Function.update pTable.pNext pLast pNew) pNew pRoot
      nHandle := Function.update pTable.nHandle pNew ((pTable.nHandle pLast + 1) % 0x10000) })

def libObjectRemove (pTable : LIB_OBJECT_TABLE_HANDLE16) (pObject : Pointer) :
    LIB_OBJECT_TABLE_HANDLE16 where
  pRoot :=
    if pTable.pPrevious pObject = pObject then none
    else if some pObject = pTable.pRoot then some (pTable.pNext pObject)
    else pTable.pRoot
  pPrevious := Function.update pTable.pPrevious (pTable.pNext pObject) (pTable.pPrevious pObject)
  pNext := Function.update pTable.pNext (pTable.pPrevious pObject) (pTable.pNext pObject)
  nHandle := pTable.nHandle

def libObjectHandle16Remove (pTable : LIB_OBJECT_TABLE_HANDLE16) (pObject : Pointer) :
    LIB_OBJECT_TABLE_HANDLE16 :=
  { pTable.libObjectRemove pObject with nHandle := Function.update pTable.nHandle pObject 0 }

def libObjectHandle16RemoveOne (pTable : LIB_OBJECT_TABLE_HANDLE16) :
    Option Pointer × LIB_OBJECT_TABLE_HANDLE16 :=
  match pTable.pRoot with
  | none => (none, pTable)
  | some pObject => (some pObject, pTable.libObjectHandle16Remove pObject)

/-! ### The order of the nodes -/

variable {t : LIB_OBJECT_TABLE_HANDLE16} {l l₁ l₂ : List Pointer} {p root x : Pointer}

/-- The nodes from the root on have rising handles. -/
structure Sorted (t : LIB_OBJECT_TABLE_HANDLE16) (l : List Pointer) : Prop where
  ring : Ring t.pNext t.pPrevious l
  root : t.pRoot = l.head?
  rising : l.Pairwise fun a b => t.nHandle a < t.nHandle b
  range : ∀ a ∈ l, 1 ≤ t.nHandle a ∧ t.nHandle a ≤ LIB_OBJECT_HANDLE16_MAX

namespace Sorted

theorem nodup (h : t.Sorted l) : l.Nodup :=
  h.rising.imp fun hlt heq => absurd (heq ▸ hlt) (lt_irrefl _)

theorem nodup_handles (h : t.Sorted l) : (l.map t.nHandle).Nodup :=
  pairwise_map.mpr (h.rising.imp ne_of_lt)

/-- There are no more nodes than handles up to a bound of theirs. -/
theorem length_le (h : t.Sorted l) {m : Nat} (hm : ∀ a ∈ l, t.nHandle a ≤ m) : l.length ≤ m := by
  have hsub : (l.map t.nHandle).toFinset ⊆ Finset.Icc 1 m := by
    intro k hk
    obtain ⟨a, ha, rfl⟩ := mem_map.mp (mem_toFinset.mp hk)
    exact Finset.mem_Icc.mpr ⟨(h.range a ha).1, hm a ha⟩
  have hcard := Finset.card_le_card hsub
  rw [toFinset_card_of_nodup h.nodup_handles, length_map, card_Icc] at hcard
  exact hcard

/-- All the handles are live where there are as many nodes. -/
theorem full_iff (h : t.Sorted l) : l.length = LIB_OBJECT_HANDLE16_MAX ↔
    ∀ k, 1 ≤ k → k ≤ LIB_OBJECT_HANDLE16_MAX → k ∈ l.map t.nHandle := by
  have hsub : (l.map t.nHandle).toFinset ⊆ Finset.Icc 1 LIB_OBJECT_HANDLE16_MAX := by
    intro k hk
    obtain ⟨a, ha, rfl⟩ := mem_map.mp (mem_toFinset.mp hk)
    exact Finset.mem_Icc.mpr (h.range a ha)
  have hcard : (l.map t.nHandle).toFinset.card = l.length := by
    rw [toFinset_card_of_nodup h.nodup_handles, length_map]
  constructor
  · intro hlength k hk hk'
    have hall := Finset.eq_of_subset_of_card_le hsub (by rw [hcard, hlength, card_Icc]; rfl)
    exact mem_toFinset.mp (hall ▸ Finset.mem_Icc.mpr ⟨hk, hk'⟩)
  · intro hall
    have hcard' := Finset.card_le_card (s := Finset.Icc 1 LIB_OBJECT_HANDLE16_MAX)
      (t := (l.map t.nHandle).toFinset) fun k hk => by
        obtain ⟨hk, hk'⟩ := Finset.mem_Icc.mp hk
        exact mem_toFinset.mpr (hall k hk hk')
    rw [hcard, card_Icc] at hcard'
    exact le_antisymm (h.length_le fun a ha => (h.range a ha).2) hcard'

/-! ### Search -/

/-- What follows a node on the way round. -/
theorem next_eq (h : t.Sorted l) (hroot : l.head? = some root) (hl : l = l₁ ++ p :: l₂) :
    t.pNext p = l₂.head?.getD root := by
  cases l₂ with
  | nil =>
    subst hl
    exact (h.ring.ends hroot).1
  | cons q l₂ =>
    have hsegment := h.ring.segment
    rw [hl, Segment.append_cons] at hsegment
    exact hsegment.2.1.1

/-- The way round ends behind the last node only. -/
theorem next_eq_root_iff (h : t.Sorted l) (hroot : l.head? = some root) (hl : l = l₁ ++ p :: l₂) :
    t.pNext p = root ↔ l₂ = [] := by
  rw [h.next_eq hroot hl]
  cases l₂ with
  | nil => exact iff_of_true rfl rfl
  | cons q l₂ =>
    refine iff_of_false (fun heq => ?_) (cons_ne_nil q l₂)
    have hnodup := h.nodup
    cases l₁ with
    | nil =>
      obtain rfl : p = root := some.inj ((congrArg head? hl).symm.trans hroot)
      rw [hl, nil_append, nodup_cons] at hnodup
      exact hnodup.1 (heq ▸ mem_cons_self)
    | cons a l₁ =>
      obtain rfl : a = root := some.inj ((congrArg head? hl).symm.trans hroot)
      rw [hl, cons_append, nodup_cons] at hnodup
      refine hnodup.1 (mem_append_right l₁ (mem_cons_of_mem p ?_))
      exact heq ▸ mem_cons_self

/-- The search follows the list to its end. -/
theorem searchFrom_eq (h : t.Sorted l) (hroot : l.head? = some root) (hl : l = l₁ ++ p :: l₂)
    {turns : Nat} (hturns : l₂.length < turns) (nKey1 : Nat) :
    t.searchFrom root nKey1 turns p = some ((p :: l₂).find? fun a => nKey1 = t.nHandle a) := by
  induction l₂ generalizing l₁ p turns with
  | nil =>
    obtain ⟨turns, rfl⟩ := exists_eq_succ_of_ne_zero (ne_of_gt hturns)
    rw [searchFrom, if_pos ((h.next_eq_root_iff hroot hl).mpr rfl)]
    by_cases hkey : nKey1 = t.nHandle p <;> simp [hkey]
  | cons q l₂ ih =>
    obtain ⟨turns, rfl⟩ := exists_eq_succ_of_ne_zero (ne_of_gt (zero_lt_of_lt hturns))
    have hnext : t.pNext p = q := h.next_eq hroot hl
    have hgo : t.pNext p ≠ root := fun heq =>
      cons_ne_nil q l₂ ((h.next_eq_root_iff hroot hl).mp heq)
    rw [searchFrom, if_neg hgo, hnext]
    have hrest := ih (hl.trans (append_cons l₁ p (q :: l₂))) (lt_of_succ_lt_succ hturns)
    by_cases hkey : nKey1 = t.nHandle p
    · simp [hkey]
    · rw [if_neg hkey, hrest]
      simp [find?_cons, hkey]

theorem search_eq (h : t.Sorted l) (nHandle : Nat) :
    t.libObjectHandle16Search nHandle = some (l.find? fun a => nHandle = t.nHandle a) := by
  rw [libObjectHandle16Search, h.root]
  cases l with
  | nil => rfl
  | cons root l =>
    have hlength := h.length_le fun a ha => (h.range a ha).2
    exact h.searchFrom_eq rfl (nil_append _).symm hlength nHandle

/-! ### Addition -/

/-- A new node between two parts of the nodes, with a handle between theirs. -/
theorem insert (h : t.Sorted (l₁ ++ l₂)) {t' : LIB_OBJECT_TABLE_HANDLE16} {k : Nat}
    (hring : Ring t'.pNext t'.pPrevious (l₁ ++ x :: l₂))
    (hroot : t'.pRoot = (l₁ ++ x :: l₂).head?) (hx : x ∉ l₁ ++ l₂)
    (hhandles : t'.nHandle = update t.nHandle x k)
    (hlow : ∀ a ∈ l₁, t.nHandle a < k) (hhigh : ∀ a ∈ l₂, k < t.nHandle a)
    (hk : 1 ≤ k ∧ k ≤ LIB_OBJECT_HANDLE16_MAX) : t'.Sorted (l₁ ++ x :: l₂) := by
  have hsame : ∀ a ∈ l₁ ++ l₂, t'.nHandle a = t.nHandle a := by
    intro a ha
    rw [hhandles, update_of_ne]
    rintro rfl
    exact hx ha
  have hnew : t'.nHandle x = k := by rw [hhandles, update_self]
  refine ⟨hring, hroot, ?_, fun a ha => ?_⟩
  · obtain ⟨h₁, h₂, hcross⟩ := pairwise_append.mp h.rising
    refine pairwise_append.mpr ⟨?_, pairwise_cons.mpr ⟨fun b hb => ?_, ?_⟩, ?_⟩
    · refine h₁.imp_of_mem fun ha hb hlt => ?_
      rwa [hsame _ (mem_append_left l₂ ha), hsame _ (mem_append_left l₂ hb)]
    · rw [hnew, hsame b (mem_append_right l₁ hb)]
      exact hhigh b hb
    · refine h₂.imp_of_mem fun ha hb hlt => ?_
      rwa [hsame _ (mem_append_right l₁ ha), hsame _ (mem_append_right l₁ hb)]
    · intro a ha b hb
      rw [hsame a (mem_append_left l₂ ha)]
      rcases mem_cons.mp hb with rfl | hb
      · rw [hnew]
        exact hlow a ha
      · rw [hsame b (mem_append_right l₁ hb)]
        exact hcross a ha b hb
  · rcases mem_append.mp ha with ha | ha
    · rw [hsame a (mem_append_left l₂ ha)]
      exact h.range a (mem_append_left l₂ ha)
    · rcases mem_cons.mp ha with rfl | ha
      · rwa [hnew]
      · rw [hsame a (mem_append_right l₁ ha)]
        exact h.range a (mem_append_right l₁ ha)

/-- A node that goes just before another one. -/
theorem insertBefore (h : t.Sorted (l₁ ++ p :: l₂)) (hx : x ∉ l₁ ++ p :: l₂) {k : Nat}
    (hlow : ∀ a ∈ l₁, t.nHandle a < k) (hhigh : k < t.nHandle p) (hk : 1 ≤ k) :
    (t.insertBefore x p k).Sorted (l₁ ++ x :: p :: l₂) := by
  have hp : p ∈ l₁ ++ p :: l₂ := mem_append_right l₁ mem_cons_self
  have hmax := (h.range p hp).2
  have hfit : k % 0x10000 = k := by
    rw [LIB_OBJECT_HANDLE16_MAX] at hmax
    omega
  obtain ⟨-, hrest, -⟩ := pairwise_append.mp h.rising
  refine h.insert ?_ ?_ hx (by rw [LIB_OBJECT_TABLE_HANDLE16.insertBefore, hfit]) hlow
    (fun a ha => ?_) ⟨hk, by omega⟩
  · have hturned : Ring t.pNext t.pPrevious (p :: (l₂ ++ l₁)) := h.ring.rotate_append
    have hperm : (p :: l₂ ++ l₁).Perm (l₁ ++ p :: l₂) := perm_append_comm
    have hne : ∀ a ∈ p :: (l₂ ++ l₁), a ≠ x := by
      rintro a ha rfl
      exact hx (hperm.mem_iff.mp ha)
    have hpx := hne p mem_cons_self
    have hlast := hne _ hturned.prev_mem
    have hput : Ring (t.insertBefore x p k).pNext (t.insertBefore x p k).pPrevious
        (p :: (l₂ ++ l₁) ++ [x]) := by
      refine hturned.insert (hperm.nodup_iff.mpr h.nodup) ?_ ?_ ?_ ?_ (fun b hb hbl => ?_)
        fun b hb hbp => ?_
      · simp [LIB_OBJECT_TABLE_HANDLE16.insertBefore, update_of_ne hlast.symm]
      · simp [LIB_OBJECT_TABLE_HANDLE16.insertBefore, update_of_ne hpx.symm]
      · simp [LIB_OBJECT_TABLE_HANDLE16.insertBefore]
      · simp [LIB_OBJECT_TABLE_HANDLE16.insertBefore]
      · simp [LIB_OBJECT_TABLE_HANDLE16.insertBefore, update_of_ne hbl, update_of_ne (hne b hb)]
      · simp [LIB_OBJECT_TABLE_HANDLE16.insertBefore, update_of_ne hbp, update_of_ne (hne b hb)]
    have hback : Ring (t.insertBefore x p k).pNext (t.insertBefore x p k).pPrevious
        (l₁ ++ [x] ++ p :: l₂) := Ring.rotate_append (by simpa using hput)
    simpa using hback
  · rw [LIB_OBJECT_TABLE_HANDLE16.insertBefore, h.root]
    cases l₁ with
    | nil => exact if_pos rfl
    | cons a l₁ =>
      refine if_neg fun heq => ?_
      obtain rfl : p = a := some.inj heq
      exact (nodup_cons.mp h.nodup).1 (mem_append_right l₁ mem_cons_self)
  · rcases mem_cons.mp ha with rfl | ha
    · exact hhigh
    · exact lt_trans hhigh ((pairwise_cons.mp hrest).1 a ha)

/-- What an addition of a node makes of the table. -/
inductive Adds (t : LIB_OBJECT_TABLE_HANDLE16) (l : List Pointer) (x : Pointer) :
    Bool → LIB_OBJECT_TABLE_HANDLE16 → Prop
  | added {t' : LIB_OBJECT_TABLE_HANDLE16} {l₁ l₂ : List Pointer} (hl : l = l₁ ++ l₂)
      (hsorted : t'.Sorted (l₁ ++ x :: l₂)) (hsame : ∀ a ∈ l, t'.nHandle a = t.nHandle a)
      (hroom : l.length < LIB_OBJECT_HANDLE16_MAX) : Adds t l x true t'
  | full (hfull : l.length = LIB_OBJECT_HANDLE16_MAX) : Adds t l x false t

theorem Adds.of_insertBefore (h : t.Sorted l) (hx : x ∉ l) (hl : l = l₁ ++ p :: l₂)
    (htaken : ∀ a ∈ l₁, t.nHandle a ≤ l₁.length) (hgap : l₁.length + 1 < t.nHandle p) :
    Adds t l x true (t.insertBefore x p (l₁.length + 1)) := by
  subst hl
  have hsorted := h.insertBefore hx (fun a ha => lt_succ_of_le (htaken a ha)) hgap
    (le_add_left 1 _)
  refine .added rfl hsorted (fun a ha => update_of_ne ?_ _ _) ?_
  · rintro rfl
    exact hx ha
  · have hlength := hsorted.length_le fun a ha => (hsorted.range a ha).2
    simp only [length_append, length_cons] at hlength ⊢
    omega

/-- The handles up to that of the node are all taken in front of it, and the scan looks for a gap
from there. -/
theorem scanList_spec (h : t.Sorted l) (hroot : l.head? = some root) (hx : x ∉ l)
    (hl : l = l₁ ++ p :: l₂) {turns : Nat} (hturns : l₂.length < turns)
    (htaken : ∀ a ∈ l₁, t.nHandle a ≤ l₁.length)
    (hlast : ∀ a ∈ l.getLast?, t.nHandle a = LIB_OBJECT_HANDLE16_MAX) :
    ∃ r t', t.scanList root x turns p (l₁.length + 1) = some (r, t') ∧ Adds t l x r t' := by
  induction l₂ generalizing l₁ p turns with
  | nil =>
    obtain ⟨turns, rfl⟩ := exists_eq_succ_of_ne_zero (ne_of_gt hturns)
    rw [scanList, if_pos ((h.next_eq_root_iff hroot hl).mpr rfl)]
    by_cases hgap : t.nHandle p > l₁.length + 1
    · rw [if_pos hgap]
      exact ⟨true, _, rfl, Adds.of_insertBefore h hx hl htaken hgap⟩
    · rw [if_neg hgap]
      refine ⟨false, t, rfl, .full (le_antisymm (h.length_le fun a ha => (h.range a ha).2) ?_)⟩
      have hmax := hlast p (by rw [hl, getLast?_concat]; rfl)
      rw [hl, length_append]
      exact hmax ▸ not_lt.mp hgap
  | cons q l₂ ih =>
    obtain ⟨turns, rfl⟩ := exists_eq_succ_of_ne_zero (ne_of_gt (zero_lt_of_lt hturns))
    have hnext : t.pNext p = q := h.next_eq hroot hl
    have hgo : t.pNext p ≠ root := fun heq =>
      cons_ne_nil q l₂ ((h.next_eq_root_iff hroot hl).mp heq)
    rw [scanList, if_neg hgo, hnext]
    by_cases hgap : t.nHandle p > l₁.length + 1
    · rw [if_pos hgap]
      exact ⟨true, _, rfl, Adds.of_insertBefore h hx hl htaken hgap⟩
    · rw [if_neg hgap]
      have htaken' : ∀ a ∈ l₁ ++ [p], t.nHandle a ≤ (l₁ ++ [p]).length := by
        intro a ha
        rw [length_append]
        rcases mem_append.mp ha with ha | ha
        · exact le_succ_of_le (htaken a ha)
        · obtain rfl := mem_singleton.mp ha
          exact not_lt.mp hgap
      have hrest := ih (hl.trans (append_cons l₁ p (q :: l₂)))
        (lt_of_succ_lt_succ hturns) htaken'
      rwa [length_append] at hrest

/-- A node that goes behind the last one. -/
theorem append (h : t.Sorted (root :: l)) (hx : x ∉ root :: l)
    (hlast : t.nHandle (t.pPrevious root) ≠ LIB_OBJECT_HANDLE16_MAX) :
    ∃ t', t.libObjectHandle16Add x = some (true, t') ∧ Adds t (root :: l) x true t' := by
  have hmem := h.ring.prev_mem
  have hhigh : ∀ a ∈ root :: l, t.nHandle a ≤ t.nHandle (t.pPrevious root) := by
    obtain ⟨l', hl'⟩ := Ring.exists_append h.ring
    have hrising := h.rising
    rw [hl', pairwise_append] at hrising
    intro a ha
    rw [hl'] at ha
    rcases mem_append.mp ha with ha | ha
    · exact le_of_lt (hrising.2.2 a ha _ (mem_singleton_self _))
    · rw [mem_singleton.mp ha]
  have hmax := (h.range _ hmem).2
  rw [LIB_OBJECT_HANDLE16_MAX] at hlast hmax
  have hfit : (t.nHandle (t.pPrevious root) + 1) % 0x10000 = t.nHandle (t.pPrevious root) + 1 := by
    omega
  rw [libObjectHandle16Add, h.root]
  dsimp only [head?_cons]
  rw [LIB_OBJECT_HANDLE16_MAX, if_neg hlast, hfit]
  refine ⟨_, rfl, ?_⟩
  have hne : ∀ a ∈ root :: l, a ≠ x := by
    rintro a ha rfl
    exact hx ha
  have hpx := hne root mem_cons_self
  have hlx := hne _ hmem
  have hroot : root :: l = root :: l ++ [] := (append_nil _).symm
  have hsorted : LIB_OBJECT_TABLE_HANDLE16.Sorted ⟨some root,
      update (update t.pPrevious x (t.pPrevious root)) root x,
      update (update t.pNext (t.pPrevious root) x) x root,
      update t.nHandle x (t.nHandle (t.pPrevious root) + 1)⟩ (root :: l ++ [x]) := by
    refine insert (hroot ▸ h) ?_ rfl (hroot ▸ hx) rfl
      (fun a ha => lt_succ_of_le (hhigh a ha)) (fun a ha => absurd ha not_mem_nil)
      ⟨le_add_left 1 _, ?_⟩
    · refine h.ring.insert h.nodup ?_ ?_ ?_ ?_ (fun b hb hbl => ?_) fun b hb hbp => ?_
      · simp
      · simp [update_of_ne hpx.symm]
      · simp [update_of_ne hlx]
      · simp
      · simp [update_of_ne hbl, update_of_ne (hne b hb)]
      · simp [update_of_ne hbp, update_of_ne (hne b hb)]
    · rw [LIB_OBJECT_HANDLE16_MAX]
      omega
  refine .added hroot hsorted (fun a ha => update_of_ne (hne a ha) _ _) ?_
  have hlength := h.length_le hhigh
  rw [LIB_OBJECT_HANDLE16_MAX]
  omega

/-- An addition in any table. -/
theorem add_spec (h : t.Sorted l) (hx : x ∉ l) :
    ∃ r t', t.libObjectHandle16Add x = some (r, t') ∧ Adds t l x r t' := by
  cases l with
  | nil =>
    rw [libObjectHandle16Add, h.root]
    refine ⟨true, _, rfl, .added (append_nil []).symm ?_ nofun (by decide)⟩
    refine ⟨Ring.singleton.mpr ⟨by simp, by simp⟩, rfl, pairwise_singleton _ _, fun a ha => ?_⟩
    obtain rfl := mem_singleton.mp ha
    simp [LIB_OBJECT_HANDLE16_MAX]
  | cons root l =>
    by_cases hlast : t.nHandle (t.pPrevious root) = LIB_OBJECT_HANDLE16_MAX
    · have hturns := h.length_le fun a ha => (h.range a ha).2
      have hmax : ∀ a ∈ (root :: l).getLast?, t.nHandle a = LIB_OBJECT_HANDLE16_MAX := by
        obtain ⟨l', hl'⟩ := Ring.exists_append h.ring
        intro a ha
        rw [hl', getLast?_concat] at ha
        rwa [← some.inj ha]
      rw [libObjectHandle16Add, h.root]
      dsimp only [head?_cons]
      rw [if_pos hlast]
      exact h.scanList_spec rfl hx (nil_append _).symm hturns nofun hmax
    · obtain ⟨t', heq, hadds⟩ := h.append hx hlast
      exact ⟨true, t', heq, hadds⟩

/-! ### Removal -/

/-- A removal keeps the other handles. -/
theorem remove (h : t.Sorted (l₁ ++ x :: l₂)) :
    (t.libObjectHandle16Remove x).Sorted (l₁ ++ l₂) ∧
      ∀ a ∈ l₁ ++ l₂, (t.libObjectHandle16Remove x).nHandle a = t.nHandle a := by
  have hturned : Ring t.pNext t.pPrevious (x :: (l₂ ++ l₁)) := h.ring.rotate_append
  have hperm : (x :: l₂ ++ l₁).Perm (l₁ ++ x :: l₂) := perm_append_comm
  have hnodup : (x :: (l₂ ++ l₁)).Nodup := hperm.nodup_iff.mpr h.nodup
  have hsub : Sublist (l₁ ++ l₂) (l₁ ++ x :: l₂) :=
    Sublist.append_left (sublist_cons_self x l₂) l₁
  have hne : ∀ a ∈ l₁ ++ l₂, a ≠ x := by
    rintro a ha rfl
    exact (nodup_cons.mp hnodup).1 (perm_append_comm.mem_iff.mp ha)
  have hsame : ∀ a ∈ l₁ ++ l₂, (t.libObjectHandle16Remove x).nHandle a = t.nHandle a :=
    fun a ha => update_of_ne (hne a ha) _ _
  refine ⟨⟨?_, ?_, ?_, fun a ha => ?_⟩, hsame⟩
  · have hleft : Ring (t.libObjectHandle16Remove x).pNext (t.libObjectHandle16Remove x).pPrevious
        (l₂ ++ l₁) := by
      cases hrest : l₂ ++ l₁ with
      | nil => trivial
      | cons a l =>
        rw [hrest] at hturned hnodup
        refine hturned.remove hnodup ?_ ?_ (fun b _ hb => ?_) fun b _ hb => ?_
        · simp [libObjectHandle16Remove, libObjectRemove]
        · simp [libObjectHandle16Remove, libObjectRemove]
        · simp [libObjectHandle16Remove, libObjectRemove, update_of_ne hb]
        · simp [libObjectHandle16Remove, libObjectRemove, update_of_ne hb]
    exact hleft.rotate_append
  · have hrest : ∀ a l, l₂ ++ l₁ = a :: l → t.pPrevious x ≠ x ∧ t.pNext x = a := by
      intro a l heq
      rw [heq] at hturned hnodup
      obtain ⟨l', hl'⟩ := hturned.exists_append_tail
      refine ⟨fun hself => (nodup_cons.mp hnodup).1 ?_, hturned.1.1⟩
      rw [hl', hself]
      exact mem_append_right l' (mem_singleton_self x)
    dsimp only [libObjectHandle16Remove, libObjectRemove]
    rw [h.root]
    cases l₁ with
    | nil =>
      cases l₂ with
      | nil => exact if_pos hturned.1.2
      | cons a l₂ =>
        obtain ⟨hself, hnext⟩ := hrest a l₂ (append_nil _)
        rw [if_neg hself, hnext]
        exact if_pos rfl
    | cons b l₁ =>
      have hcons : l₂ ++ b :: l₁ ≠ [] := by simp
      obtain ⟨a, l, heq⟩ := exists_cons_of_ne_nil hcons
      rw [if_neg (hrest a l heq).1]
      refine if_neg fun hx => ?_
      exact hne b mem_cons_self (some.inj hx).symm
  · refine (h.rising.sublist hsub).imp_of_mem fun ha hb hlt => ?_
    rwa [hsame _ ha, hsame _ hb]
  · rw [hsame a ha]
    exact h.range a (hsub.subset ha)

end Sorted

end LIB_OBJECT_TABLE_HANDLE16

end OmapHal.CryptoSst
