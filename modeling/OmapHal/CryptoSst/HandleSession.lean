import OmapHal.CryptoSst.HandleTable

/-!
# Runs on a table of handles

Objects are added, removed by name and removed one by one. The handles that are live are told by
the calls alone.
-/

namespace OmapHal.CryptoSst

open List

open OmapHal.Core (AlongSome)

variable {t : LIB_OBJECT_TABLE_HANDLE16} {l : List Pointer}

/-- The table, with the live objects and the handles that their additions gave them. -/
structure HandleSession where
  table : LIB_OBJECT_TABLE_HANDLE16
  live : List (Nat × Pointer)

inductive HandleEvent where
  | add (pObject : Pointer)
  | remove (pObject : Pointer)
  | removeOne
  deriving DecidableEq, Repr

namespace HandleSession

def without (live : List (Nat × Pointer)) (pObject : Pointer) : List (Nat × Pointer) :=
  live.filter fun entry => entry.2 ≠ pObject

def step (σ : HandleSession) : HandleEvent → Option HandleSession
  | .add pObject => do
    let (added, table) ← σ.table.libObjectHandle16Add pObject
    some ⟨table, if added then (table.nHandle pObject, pObject) :: σ.live else σ.live⟩
  | .remove pObject => some ⟨σ.table.libObjectHandle16Remove pObject, without σ.live pObject⟩
  | .removeOne =>
    let (removed, table) := σ.table.libObjectHandle16RemoveOne
    some ⟨table, removed.elim σ.live (without σ.live)⟩

/-- Only an object that is in the table is removed, and only one that is not is added. -/
def Possible (σ : HandleSession) : HandleEvent → Prop
  | .add pObject => pObject ∉ σ.live.map Prod.snd
  | .remove pObject => pObject ∈ σ.live.map Prod.snd
  | .removeOne => True

/-- The live handles are distinct and in their range, the nodes are in order, and a search finds
what is live. -/
structure Right (σ : HandleSession) : Prop where
  handles : (σ.live.map Prod.fst).Nodup
  range : ∀ entry ∈ σ.live, 1 ≤ entry.1 ∧ entry.1 ≤ LIB_OBJECT_HANDLE16_MAX
  ordered : ∃ l, σ.table.Sorted l ∧ l.Perm (σ.live.map Prod.snd)
  search : ∀ nHandle, ∃ found, σ.table.libObjectHandle16Search nHandle = some found ∧
    ∀ pObject, found = some pObject ↔ (nHandle, pObject) ∈ σ.live

/-- One object is taken out. -/
def Removes (live : List (Nat × Pointer)) (pObject : Pointer) : Prop :=
  ∃ nHandle, live.Perm ((nHandle, pObject) :: without live pObject)

/-- An addition fails exactly if all handles are live, and a removal removes one object. -/
def Serves (σ : HandleSession) : HandleEvent → Prop
  | .add pObject => ∃ added table, σ.table.libObjectHandle16Add pObject = some (added, table) ∧
    (added = false ↔ ∀ k, 1 ≤ k → k ≤ LIB_OBJECT_HANDLE16_MAX → k ∈ σ.live.map Prod.fst) ∧
      (added = false → table = σ.table)
  | .remove pObject => Removes σ.live pObject
  | .removeOne => match σ.table.libObjectHandle16RemoveOne.1 with
    | none => σ.live = []
    | some pObject => Removes σ.live pObject

/-! ### The invariant -/

variable {σ τ : HandleSession} {event : HandleEvent} {live : List (Nat × Pointer)}
  {pObject : Pointer}

/-- The live objects are the nodes of the table, with their handles. -/
def Inv (σ : HandleSession) : Prop :=
  ∃ l, σ.table.Sorted l ∧ σ.live.Perm (l.map fun a => (σ.table.nHandle a, a))

private theorem find?_eq_some_iff (h : t.Sorted l) (nHandle : Nat) (pObject : Pointer) :
    (l.find? fun a => nHandle = t.nHandle a) = some pObject ↔
      pObject ∈ l ∧ nHandle = t.nHandle pObject := by
  constructor
  · intro hfound
    exact ⟨mem_of_find?_eq_some hfound, by simpa using find?_some hfound⟩
  · rintro ⟨hmem, rfl⟩
    cases hfound : l.find? fun a => t.nHandle pObject = t.nHandle a with
    | none => exact absurd (find?_eq_none.mp hfound pObject hmem) (by simp)
    | some q =>
      have hq : t.nHandle pObject = t.nHandle q := by simpa using find?_some hfound
      have hinj := inj_on_of_nodup_map h.nodup_handles
      rw [hinj hmem (mem_of_find?_eq_some hfound) hq]

/-- The invariant says all that is promised. -/
theorem Inv.right (h : σ.Inv) : σ.Right := by
  obtain ⟨l, hsorted, hlive⟩ := h
  refine ⟨?_, fun entry hentry => ?_, ⟨l, hsorted, ?_⟩, fun nHandle => ?_⟩
  · refine (hlive.map Prod.fst).nodup_iff.mpr ?_
    rw [map_map]
    exact hsorted.nodup_handles
  · obtain ⟨a, ha, rfl⟩ := mem_map.mp (hlive.mem_iff.mp hentry)
    exact hsorted.range a ha
  · have hobjects := hlive.map Prod.snd
    rw [map_map] at hobjects
    exact (hobjects.trans (by simp [Function.comp_def])).symm
  · refine ⟨_, hsorted.search_eq nHandle, fun pObject => ?_⟩
    rw [find?_eq_some_iff hsorted, hlive.mem_iff, mem_map]
    constructor
    · rintro ⟨hmem, rfl⟩
      exact ⟨pObject, hmem, rfl⟩
    · rintro ⟨a, ha, heq⟩
      obtain ⟨rfl, rfl⟩ := Prod.mk.inj heq
      exact ⟨ha, rfl⟩

private theorem mem_handles_iff (hlive : live.Perm (l.map fun a => (t.nHandle a, a))) (k : Nat) :
    k ∈ live.map Prod.fst ↔ k ∈ l.map t.nHandle := by
  rw [(hlive.map Prod.fst).mem_iff, map_map]
  rfl

private theorem mem_objects_iff (hlive : live.Perm (l.map fun a => (t.nHandle a, a)))
    (p : Pointer) : p ∈ live.map Prod.snd ↔ p ∈ l := by
  rw [(hlive.map Prod.snd).mem_iff, map_map]
  simp [Function.comp_def]

theorem inv_add (h : σ.Inv) (hpossible : σ.Possible (.add pObject)) :
    σ.Serves (.add pObject) ∧ ∀ τ, σ.step (.add pObject) = some τ → τ.Inv := by
  obtain ⟨l, hsorted, hlive⟩ := h
  have hx : pObject ∉ l := fun hmem => hpossible ((mem_objects_iff hlive pObject).mpr hmem)
  obtain ⟨added, t', heq, hadds⟩ := hsorted.add_spec hx
  have hfull : (∀ k, 1 ≤ k → k ≤ LIB_OBJECT_HANDLE16_MAX → k ∈ σ.live.map Prod.fst) ↔
      l.length = LIB_OBJECT_HANDLE16_MAX := by
    rw [hsorted.full_iff]
    exact forall_congr' fun k => imp_congr_right fun _ => imp_congr_right fun _ =>
      mem_handles_iff hlive k
  have hstep : σ.step (.add pObject) =
      some ⟨t', if added then (t'.nHandle pObject, pObject) :: σ.live else σ.live⟩ := by
    rw [step, heq]
    rfl
  constructor
  · refine ⟨added, t', heq, ?_, fun hfailed => ?_⟩
    · rw [hfull]
      cases hadds with
      | added hl hsorted' hsame hroom => exact iff_of_false Bool.noConfusion (Nat.ne_of_lt hroom)
      | full hlength => exact iff_of_true rfl hlength
    · cases hadds with
      | added hl hsorted' hsame hroom => cases hfailed
      | full hlength => rfl
  · intro τ hτ
    obtain rfl := Option.some.inj (hstep.symm.trans hτ)
    cases hadds with
    | @added _ l₁ l₂ hl hsorted' hsame hroom =>
      refine ⟨_, hsorted', ?_⟩
      have hkept : (l.map fun a => (t'.nHandle a, a)) = l.map fun a => (σ.table.nHandle a, a) :=
        map_congr_left fun a ha => by rw [hsame a ha]
      have hnew : (l₁ ++ pObject :: l₂).Perm (pObject :: l) := by
        rw [hl]
        exact perm_middle
      refine Perm.trans ?_ (hnew.map _).symm
      rw [map_cons, hkept]
      exact hlive.cons _
    | full hlength => exact ⟨l, hsorted, hlive⟩

theorem inv_remove (h : σ.Inv) (hmem : pObject ∈ σ.live.map Prod.snd) :
    Removes σ.live pObject ∧
      Inv ⟨σ.table.libObjectHandle16Remove pObject, without σ.live pObject⟩ := by
  obtain ⟨l, hsorted, hlive⟩ := h
  obtain ⟨l₁, l₂, rfl⟩ := append_of_mem ((mem_objects_iff hlive pObject).mp hmem)
  obtain ⟨hsorted', hsame⟩ := hsorted.remove
  have hfirst : σ.live.Perm ((σ.table.nHandle pObject, pObject) ::
      (l₁ ++ l₂).map fun a => (σ.table.nHandle a, a)) :=
    hlive.trans (perm_middle.map _)
  have hx : pObject ∉ l₁ ++ l₂ := by
    have hnodup := perm_middle.nodup_iff.mp hsorted.nodup
    exact (nodup_cons.mp hnodup).1
  have hwithout : (without σ.live pObject).Perm
      ((l₁ ++ l₂).map fun a => (σ.table.nHandle a, a)) := by
    refine (hfirst.filter _).trans (Perm.of_eq ?_)
    rw [filter_cons_of_neg (by simp), filter_eq_self]
    intro entry hentry
    obtain ⟨a, ha, rfl⟩ := mem_map.mp hentry
    exact decide_eq_true fun heq => hx (heq ▸ ha)
  refine ⟨⟨_, hfirst.trans (hwithout.symm.cons _)⟩, _, hsorted', hwithout.trans (.of_eq ?_)⟩
  exact map_congr_left fun a ha => by rw [hsame a ha]

/-- Every operation keeps the invariant. -/
theorem inv_step (h : σ.Inv) (hpossible : σ.Possible event) :
    σ.Serves event ∧ ∀ τ, σ.step event = some τ → τ.Inv := by
  cases event with
  | add pObject => exact inv_add h hpossible
  | remove pObject =>
    obtain ⟨hremoves, hinv⟩ := inv_remove h hpossible
    refine ⟨hremoves, fun τ hτ => ?_⟩
    obtain rfl := Option.some.inj hτ
    exact hinv
  | removeOne =>
    obtain ⟨l, hsorted, hlive⟩ := id h
    rw [step, Serves, LIB_OBJECT_TABLE_HANDLE16.libObjectHandle16RemoveOne, hsorted.root]
    cases l with
    | nil =>
      refine ⟨hlive.eq_nil, fun τ hτ => ?_⟩
      obtain rfl := Option.some.inj hτ
      exact h
    | cons root l =>
      have hmem : root ∈ σ.live.map Prod.snd :=
        (mem_objects_iff hlive root).mpr mem_cons_self
      obtain ⟨hremoves, hinv⟩ := inv_remove h hmem
      refine ⟨hremoves, fun τ hτ => ?_⟩
      obtain rfl := Option.some.inj hτ
      exact hinv

end HandleSession

/-- Over every run of calls on an empty table the live handles are right, an addition fails only
where there is no handle left, and a removal removes one object. -/
theorem handleTable_right (table : LIB_OBJECT_TABLE_HANDLE16) (events : List HandleEvent)
    (hempty : table.pRoot = none)
    (hpossible : AlongSome HandleSession.step HandleSession.Possible ⟨table, []⟩ events) :
    AlongSome HandleSession.step
      (fun σ event => σ.Right ∧ σ.Serves event ∧ ∀ τ, σ.step event = some τ → τ.Right)
      ⟨table, []⟩ events := by
  refine AlongSome.mono_invariant (I := HandleSession.Inv) hpossible hpossible
    ⟨[], ⟨trivial, hempty, .nil, nofun⟩, .nil⟩ ?_ ?_
  · intro σ event h _ hp
    obtain ⟨hserves, hnext⟩ := HandleSession.inv_step h hp
    exact ⟨HandleSession.Inv.right h, hserves, fun τ hτ => (hnext τ hτ).right⟩
  · intro σ event τ h _ hp hτ
    exact (HandleSession.inv_step h hp).2 τ hτ

/-- Two objects, of which the first one goes by name. -/
theorem handleTable_right_two :
    AlongSome HandleSession.step
      (fun σ event => σ.Right ∧ σ.Serves event ∧ ∀ τ, σ.step event = some τ → τ.Right)
      ⟨⟨none, id, id, fun _ => 0⟩, []⟩ [.add 10, .add 20, .remove 10, .removeOne] := by
  refine handleTable_right _ _ rfl ⟨not_mem_nil, fun τ hτ => ?_⟩
  obtain rfl := Option.some.inj hτ
  refine ⟨show 20 ∉ [10] by simp, fun τ hτ => ?_⟩
  obtain rfl := Option.some.inj hτ
  refine ⟨show 10 ∈ [20, 10] by simp, fun τ hτ => ?_⟩
  obtain rfl := Option.some.inj hτ
  exact ⟨trivial, fun τ _ => trivial⟩

end OmapHal.CryptoSst
