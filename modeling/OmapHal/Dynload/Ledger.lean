import OmapHal.Dynload.Load

/-!
# What a load holds

The ledger of a world: the host blocks and the target storage in use, the global symbols and the
faults so far. Work on the mirror list and on the target's list leaves the ledger alone, and the
reference counts of the roots.
-/

namespace OmapHal.Dynload

open Function Option List

variable {hndl h : my_handle} {root : dbg_mirror_root} {bufr : List UInt8} {locn : LDR_ADDR}
  {f : my_handle → my_handle} {prev mlist : Ptr} {rest : List Ptr}

variable {cb : Callbacks} {w w' w'' : World} {p q : Ptr}

/-- Two worlds with the same ledger, each block used for the same. -/
structure Balanced (w w' : World) : Prop where
  host : w'.host.Perm w.host
  target : w'.target.Perm w.target
  symbols : w'.symbols = w.symbols
  faults : w'.faults = w.faults

/-- Symbols stand under the handle of a module in use or under no handle. -/
def World.Sound (w : World) : Prop := ∀ s ∈ w.symbols, s.moduleid = 0 ∨ s.moduleid ∈ w.host

def World.refcount? (w : World) (p : Ptr) : Option UInt16 := (w.root? p).map (·.refcount)

/-- A change that the ledger does not show. -/
structure Kept (w w' : World) : Prop where
  host : w'.host = w.host
  target : w'.target = w.target
  symbols : w'.symbols = w.symbols
  faults : w'.faults = w.faults
  refcount : ∀ p, w'.refcount? p = w.refcount? p

theorem Kept.refl (w : World) : Kept w w := ⟨rfl, rfl, rfl, rfl, fun _ => rfl⟩

theorem Kept.trans (h : Kept w w') (h' : Kept w' w'') : Kept w w'' where
  host := h'.host.trans h.host
  target := h'.target.trans h.target
  symbols := h'.symbols.trans h.symbols
  faults := h'.faults.trans h.faults
  refcount p := (h'.refcount p).trans (h.refcount p)

theorem handle?_eq_some :
    w.handle? p = some hndl ↔ p ∈ w.host ∧ w.blocks p = .handle hndl := by
  unfold World.handle?
  split
  · rename_i hp
    simp only [hp, true_and]
    cases w.blocks p <;> simp
  · rename_i hp
    simp [hp]

theorem root?_eq_some :
    w.root? p = some root ↔ p ∈ w.host ∧ w.blocks p = .root root := by
  unfold World.root?
  split
  · rename_i hp
    simp only [hp, true_and]
    cases w.blocks p <;> simp
  · rename_i hp
    simp [hp]

/-- The root behind a pointer, when another block has changed. -/
theorem root?_setBlock_of_ne {b : Block} (h : q ≠ p) : (w.setBlock p b).root? q = w.root? q := by
  simp only [World.root?, World.setBlock, update_of_ne h]

theorem root?_setBlock_self (h : p ∈ w.host) :
    (w.setBlock p (.root root)).root? p = some root :=
  root?_eq_some.mpr ⟨h, update_self ..⟩

theorem handle?_setBlock_self (h : p ∈ w.host) :
    (w.setBlock p (.handle hndl)).handle? p = some hndl :=
  handle?_eq_some.mpr ⟨h, update_self ..⟩

theorem root?_of_handle (h : w.handle? p = some hndl) : w.root? p = none := by
  obtain ⟨hp, hb⟩ := handle?_eq_some.mp h
  simp [World.root?, hp, hb]

theorem kept_called (w : World) : Kept w w.called := ⟨rfl, rfl, rfl, rfl, fun _ => rfl⟩

theorem kept_writemem :
    Kept w (w.writemem cb bufr locn).2 := by
  unfold World.writemem
  split
  · exact ⟨rfl, rfl, rfl, rfl, fun _ => rfl⟩
  · exact kept_called w

theorem blocks_writemem :
    (w.writemem cb bufr locn).2.blocks = w.blocks := by
  unfold World.writemem
  split <;> rfl

theorem modifyHandle_eq_some :
    w.modifyHandle p f = some w' ↔
      ∃ hndl, w.handle? p = some hndl ∧ w' = w.setBlock p (.handle (f hndl)) := by
  simp only [World.modifyHandle, map_eq_some_iff, eq_comm (b := w')]

theorem modifyRoot_eq_some {f : dbg_mirror_root → dbg_mirror_root} :
    w.modifyRoot p f = some w' ↔
      ∃ root, w.root? p = some root ∧ w' = w.setBlock p (.root (f root)) := by
  simp only [World.modifyRoot, map_eq_some_iff, eq_comm (b := w')]

theorem kept_modifyHandle (h : w.modifyHandle p f = some w') :
    Kept w w' := by
  obtain ⟨hndl, hp, rfl⟩ := modifyHandle_eq_some.mp h
  refine ⟨rfl, rfl, rfl, rfl, fun q => ?_⟩
  unfold World.refcount?
  by_cases hq : q = p
  · subst hq
    rw [root?_of_handle hp, root?_of_handle (handle?_setBlock_self (handle?_eq_some.mp hp).1)]
  · rw [root?_setBlock_of_ne hq]

theorem kept_modifyRoot {f : dbg_mirror_root → dbg_mirror_root} (h : w.modifyRoot p f = some w')
    (hf : ∀ root, (f root).refcount = root.refcount) : Kept w w' := by
  obtain ⟨root, hp, rfl⟩ := modifyRoot_eq_some.mp h
  refine ⟨rfl, rfl, rfl, rfl, fun q => ?_⟩
  unfold World.refcount?
  by_cases hq : q = p
  · subst hq
    rw [hp, root?_setBlock_self (root?_eq_some.mp hp).1, map_some, map_some, hf]
  · rw [root?_setBlock_of_ne hq]

theorem kept_setHnext {next : Ptr} (h : w.setHnext p next = some w') : Kept w w' := by
  rcases or_eq_some_iff.mp h with h | ⟨-, h⟩
  · exact kept_modifyRoot h fun root => rfl
  · exact kept_modifyHandle h

theorem kept_setHprev (h : w.setHprev p prev = some w') : Kept w w' := by
  unfold World.setHprev at h
  split at h
  · cases h
    exact Kept.refl w
  · exact kept_modifyHandle h

theorem kept_dequeue {dm : dbg_mirror_list} (h : w.dequeue dm = some w') : Kept w w' := by
  obtain ⟨w₁, h₁, h⟩ := bind_eq_some_iff.mp h
  exact (kept_setHnext h₁).trans (kept_setHprev h)

/-- What a handle holds, whatever its neighbours in the mirror list. -/
def my_handle.SameHoldings (h h' : my_handle) : Prop :=
  h'.dm.hroot = h.dm.hroot ∧ h'.dm.dbthis = h.dm.dbthis ∧ h'.dm.dbsiz = h.dm.dbsiz ∧
    h'.dm.context = h.dm.context ∧ h'.secn_count = h.secn_count ∧ h'.secns = h.secns

theorem my_handle.SameHoldings.refl (h : my_handle) : h.SameHoldings h :=
  ⟨rfl, rfl, rfl, rfl, rfl, rfl⟩

theorem my_handle.SameHoldings.trans {h' h'' : my_handle} (h₁ : h.SameHoldings h')
    (h₂ : h'.SameHoldings h'') : h.SameHoldings h'' :=
  ⟨h₂.1.trans h₁.1, h₂.2.1.trans h₁.2.1, h₂.2.2.1.trans h₁.2.2.1,
    h₂.2.2.2.1.trans h₁.2.2.2.1, h₂.2.2.2.2.1.trans h₁.2.2.2.2.1, h₂.2.2.2.2.2.trans h₁.2.2.2.2.2⟩

/-- A handle after a change that concerns only the neighbours of a handle. -/
theorem holdings_modifyHandle
    (hmodify : w.modifyHandle p f = some w') (hf : ∀ h : my_handle, h.SameHoldings (f h))
    (hq : w.blocks q = .handle h) :
    ∃ h', w'.blocks q = .handle h' ∧ h.SameHoldings h' := by
  obtain ⟨hndl, hp, rfl⟩ := modifyHandle_eq_some.mp hmodify
  by_cases heq : q = p
  · subst heq
    obtain rfl := Block.handle.inj (hq.symm.trans (handle?_eq_some.mp hp).2)
    exact ⟨_, update_self .., hf h⟩
  · exact ⟨h, (update_of_ne heq ..).trans hq, .refl h⟩

theorem holdings_setHprev (hset : w.setHprev p prev = some w')
    (hq : w.blocks q = .handle h) : ∃ h', w'.blocks q = .handle h' ∧ h.SameHoldings h' := by
  unfold World.setHprev at hset
  split at hset
  · cases hset
    exact ⟨h, hq, .refl h⟩
  · exact holdings_modifyHandle hset (fun h => ⟨rfl, rfl, rfl, rfl, rfl, rfl⟩) hq

theorem blocks_modifyRoot {f : dbg_mirror_root → dbg_mirror_root}
    (hmodify : w.modifyRoot p f = some w') (hq : w.blocks q = .handle h) :
    w'.blocks q = .handle h := by
  obtain ⟨root, hp, rfl⟩ := modifyRoot_eq_some.mp hmodify
  have hne : q ≠ p := by
    rintro rfl
    have heq := hq.symm.trans (root?_eq_some.mp hp).2
    cases heq
  exact (update_of_ne hne ..).trans hq

theorem holdings_enqueue {hndl : Ptr}
    (henqueue : w.enqueue mlist hndl = some w') (hq : w.blocks q = .handle h) :
    ∃ h', w'.blocks q = .handle h' ∧ h.SameHoldings h' := by
  obtain ⟨root, -, henqueue⟩ := bind_eq_some_iff.mp henqueue
  obtain ⟨w₁, hw₁, henqueue⟩ := bind_eq_some_iff.mp henqueue
  obtain ⟨w₂, hw₂, henqueue⟩ := bind_eq_some_iff.mp henqueue
  obtain ⟨w₃, hw₃, henqueue⟩ := bind_eq_some_iff.mp henqueue
  obtain ⟨h₁, hq₁, hsame₁⟩ :=
    holdings_modifyHandle hw₁ (fun h => ⟨rfl, rfl, rfl, rfl, rfl, rfl⟩) hq
  obtain ⟨h₂, hq₂, hsame₂⟩ := holdings_setHprev hw₂ hq₁
  obtain ⟨h₃, hq₃, hsame₃⟩ := holdings_setHprev hw₃ hq₂
  exact ⟨h₃, blocks_modifyRoot henqueue hq₃, (hsame₁.trans hsame₂).trans hsame₃⟩

theorem kept_enqueue {hndl : Ptr} (h : w.enqueue mlist hndl = some w') : Kept w w' := by
  obtain ⟨root, -, h⟩ := bind_eq_some_iff.mp h
  obtain ⟨w₁, h₁, h⟩ := bind_eq_some_iff.mp h
  obtain ⟨w₂, h₂, h⟩ := bind_eq_some_iff.mp h
  obtain ⟨w₃, h₃, h⟩ := bind_eq_some_iff.mp h
  exact ((kept_modifyHandle h₁).trans (kept_setHprev h₂)).trans
    ((kept_setHprev h₃).trans (kept_modifyRoot h fun root => rfl))

theorem kept_unlink {link : LDR_ADDR × UInt16} {e : Nat}
    (h : w.unlink cb hndl link = some (e, w')) : Kept w w' := by
  obtain ⟨before, -, h⟩ := bind_eq_some_iff.mp h
  obtain ⟨w₂, h₂, h⟩ := bind_eq_some_iff.mp h
  obtain ⟨root, -, h⟩ := bind_eq_some_iff.mp h
  cases h
  exact (kept_writemem.trans (kept_modifyRoot h₂ fun root => rfl)).trans kept_writemem

theorem kept_unlist {init : Bool} {mhandle : Ptr} {e : Nat}
    (h : w.unlist cb init mhandle hndl = some (e, w')) : Kept w w' := by
  unfold World.unlist at h
  split at h
  · cases h
    exact Kept.refl w
  obtain ⟨w₁, h₁, h⟩ := bind_eq_some_iff.mp h
  obtain ⟨link, -, h⟩ := bind_eq_some_iff.mp h
  refine (kept_dequeue h₁).trans ?_
  split at h
  · cases h
    exact Kept.refl _
  split at h
  · cases h
    exact kept_called _
  · exact (kept_called w₁).trans (kept_unlink h)

/-- The list of a pointer that may be `NULL`. -/
def own (p : Ptr) : List Ptr := if p = 0 then [] else [p]
@[simp] theorem own_zero : own 0 = [] := rfl

theorem own_of_ne (h : p ≠ 0) : own p = [p] := if_neg h

/-- The blocks that a load gives back itself. -/
def dload_state.tables (dlthis : dload_state) : List Ptr :=
  own dlthis.local_symtab ++ (own dlthis.sect_hdrs ++ own dlthis.str_head)

/-- Giving back what is in use is no fault. -/
theorem Deallocate_perm (h : w.host.Perm (p :: rest)) :
    (w.Deallocate p).host.Perm rest ∧ (w.Deallocate p).faults = w.faults := by
  have hp : p ∈ w.host := h.symm.subset mem_cons_self
  rw [World.Deallocate, if_pos hp]
  refine ⟨?_, rfl⟩
  have herase := h.erase p
  rwa [erase_cons_head] at herase

/-- The block that was handed out last is given back. -/
theorem Deallocate_cons (rest : List Ptr) (h : w.host = p :: rest) :
    w.Deallocate p = { w with host := rest } := by
  unfold World.Deallocate
  rw [h, if_pos mem_cons_self, erase_cons_head]

@[simp] theorem Deallocate_target (w : World) (p : Ptr) : (w.Deallocate p).target = w.target := by
  unfold World.Deallocate
  split <;> rfl

@[simp] theorem Deallocate_symbols (w : World) (p : Ptr) :
    (w.Deallocate p).symbols = w.symbols := by
  unfold World.Deallocate
  split <;> rfl

@[simp] theorem Deallocate_blocks (w : World) (p : Ptr) :
    (w.Deallocate p).blocks = w.blocks := by
  unfold World.Deallocate
  split <;> rfl

theorem free_perm (h : w.host.Perm (own p ++ rest)) :
    (w.free p).host.Perm rest ∧ (w.free p).faults = w.faults := by
  unfold World.free
  split
  · rename_i hp
    rw [hp] at h
    exact ⟨h, rfl⟩
  · rename_i hp
    rw [own_of_ne hp] at h
    exact Deallocate_perm h

@[simp] theorem free_target (w : World) (p : Ptr) : (w.free p).target = w.target := by
  unfold World.free
  split
  · rfl
  · exact Deallocate_target w p

@[simp] theorem free_symbols (w : World) (p : Ptr) : (w.free p).symbols = w.symbols := by
  unfold World.free
  split
  · rfl
  · exact Deallocate_symbols w p

@[simp] theorem free_blocks (w : World) (p : Ptr) : (w.free p).blocks = w.blocks := by
  unfold World.free
  split
  · rfl
  · exact Deallocate_blocks w p

/-- Target storage given back with the record it was got with. -/
theorem dealloc_perm {info : LDR_SECTION_INFO} {rest : List LDR_SECTION_INFO}
    (h : w.target.Perm (info.storage :: rest)) :
    ∃ target, w.dealloc info = { w with target := target } ∧ target.Perm rest := by
  have hp : info.storage ∈ w.target := h.symm.subset mem_cons_self
  refine ⟨w.target.erase info.storage, by rw [World.dealloc, if_pos hp], ?_⟩
  have herase := h.erase info.storage
  rwa [erase_cons_head] at herase

end OmapHal.Dynload
