import OmapHal.Dynload.Ledger

/-!
# Giving a module back

A complete handle records all that its module holds: the granted sections in the first places of
its section table, the debug record, the root if the module made it. Unloading gives back exactly
that.
-/

namespace OmapHal.Dynload

open Option List

variable {cb : Callbacks} {alloc init : Bool} {w₀ w w' : World} {hndl : Ptr} {h : my_handle}
  {grants secns : List LDR_SECTION_INFO} {rest extra : List Ptr} {e : Nat}

/-- The storage of the debug record that a handle stands for. -/
def my_handle.record (h : my_handle) : List LDR_SECTION_INFO :=
  if h.dm.dbthis = 0 then []
  else
    [{ dllview_info h.dm.dbsiz.toUInt32 with
      load_addr := h.dm.dbthis
      context := h.dm.context }]

/-- What a module holds is recorded in its handle: `rest` are the blocks that the load still gives
back itself, `extra` is the root if the module made it. -/
structure Recorded (w₀ w : World) (alloc : Bool) (hndl : Ptr) (rest extra : List Ptr)
    (grants : List LDR_SECTION_INFO) (h : my_handle) : Prop where
  new : hndl ≠ 0 ∧ hndl ∉ w₀.host
  host : w.host.Perm (rest ++ (extra ++ hndl :: w₀.host))
  target : w.target.Perm (h.record ++ (grants.map (·.storage) ++ w₀.target))
  symbols : ∃ added, w.symbols = added ++ w₀.symbols ∧ ∀ s ∈ added, s.moduleid = hndl
  faults : w.faults = w₀.faults
  handle : w.blocks hndl = .handle h
  count : (h.secn_count >>> 1).toNat = grants.length
  secns : h.secns.take grants.length = grants.map some
  allocated : alloc = false → grants = [] ∧ h.dm.dbthis = 0

/-- The handle is complete: the root is given back with the last record if the module made it. -/
structure Settled (w₀ w : World) (alloc : Bool) (hndl : Ptr) (rest extra : List Ptr)
    (grants : List LDR_SECTION_INFO) (h : my_handle) : Prop
    extends Recorded w₀ w alloc hndl rest extra grants h where
  rootless : h.dm.hroot = 0 → extra = [] ∧ h.dm.dbthis = 0
  root : h.dm.hroot ≠ 0 →
    (extra = [h.dm.hroot] ∧ w.refcount? h.dm.hroot = some (if h.dm.dbthis = 0 then 0 else 1) ∧
        w₀.Find_Matching_Symbol (some LOADER_DLLVIEW_ROOT) = none) ∨
      (extra = [] ∧ w₀.Find_Matching_Symbol (some LOADER_DLLVIEW_ROOT) ≠ none)

/-- The symbols of a new module are gone after the purge, and no other. -/
theorem purge_symbols {added : List Symbol} (hw : w₀.Sound) (hnew : hndl ≠ 0 ∧ hndl ∉ w₀.host)
    (hsymbols : w.symbols = added ++ w₀.symbols) (hadded : ∀ s ∈ added, s.moduleid = hndl) :
    (w.Purge_Symbol_Table hndl).symbols = w₀.symbols := by
  have hold : ∀ s ∈ w₀.symbols, s.moduleid ≠ hndl := by
    intro s hs heq
    rcases hw s hs with hid | hid
    · exact hnew.1 (heq.symm.trans hid)
    · exact hnew.2 (heq ▸ hid)
  show w.symbols.filter _ = _
  rw [hsymbols, filter_append, filter_eq_nil_iff.mpr fun s hs => ?_,
    filter_eq_self.mpr fun s hs => ?_, nil_append]
  · simpa using hold s hs
  · simp [hadded s hs]

/-- The first places of the section table, given back where they hold the granted records. -/
theorem deallocSections_perm {secns : List (Option LDR_SECTION_INFO)}
    {rest : List LDR_SECTION_INFO} (hsecns : secns.take grants.length = grants.map some)
    (htarget : w.target.Perm (grants.map (·.storage) ++ rest)) :
    ∃ target, w.deallocSections grants.length secns = { w with target := target } ∧
      target.Perm rest := by
  induction grants generalizing secns w with
  | nil => exact ⟨w.target, rfl, htarget⟩
  | cons info grants ih =>
    cases secns with
    | nil => cases hsecns
    | cons slot secns =>
      obtain ⟨rfl, hrest⟩ := cons.inj hsecns
      obtain ⟨target, hdealloc, hperm⟩ := dealloc_perm htarget
      obtain ⟨target', hsections, hperm'⟩ :=
        ih (w := w.dealloc info) hrest (by rw [hdealloc]; exact hperm)
      refine ⟨target', ?_, hperm'⟩
      show World.deallocSections grants.length secns (w.dealloc info) = _
      rw [hsections, hdealloc]

/-- The record of a module is given back, and its root loses one reference. -/
theorem dropRecord_perm {mhandle : Ptr} {rest : List LDR_SECTION_INFO}
    (hdrop : w.dropRecord cb alloc init mhandle h = some (e, w'))
    (halloc : alloc = false → h.dm.dbthis = 0) (htarget : w.target.Perm (h.record ++ rest)) :
    w'.host = w.host ∧ w'.target.Perm rest ∧ w'.symbols = w.symbols ∧ w'.faults = w.faults ∧
      (w.refcount? h.dm.hroot = some (if h.dm.dbthis = 0 then 0 else 1) →
        w'.refcount? h.dm.hroot = some 0) := by
  unfold World.dropRecord at hdrop
  unfold my_handle.record at htarget
  split at hdrop
  · rename_i hdbthis
    cases hdrop
    rw [if_pos hdbthis] at htarget ⊢
    exact ⟨rfl, htarget, rfl, rfl, id⟩
  · rename_i hdbthis
    rw [if_neg hdbthis] at htarget ⊢
    obtain ⟨⟨e₁, w₁⟩, hunlist, hdrop⟩ := bind_eq_some_iff.mp hdrop
    obtain ⟨w₂, hmodify, hdrop⟩ := bind_eq_some_iff.mp hdrop
    cases hdrop
    have hkept := kept_unlist hunlist
    have halloc : alloc = true := by
      cases alloc
      · exact absurd (halloc rfl) hdbthis
      · rfl
    rw [if_pos halloc] at hmodify
    have htarget₁ : w₁.target.Perm (LDR_SECTION_INFO.storage
        { dllview_info h.dm.dbsiz.toUInt32 with
          load_addr := h.dm.dbthis, context := h.dm.context } :: rest) := by
      rw [hkept.target]
      exact htarget
    obtain ⟨target, hdealloc, hperm⟩ := dealloc_perm htarget₁
    rw [hdealloc] at hmodify
    obtain ⟨root, hroot, rfl⟩ := modifyRoot_eq_some.mp hmodify
    refine ⟨hkept.host, hperm, hkept.symbols, hkept.faults, fun href => ?_⟩
    have hroot₁ : w₁.root? h.dm.hroot = some root := hroot
    have href₁ := hkept.refcount h.dm.hroot
    rw [href, World.refcount?, hroot₁] at href₁
    have hone : root.refcount = 1 := some.inj href₁
    rw [World.refcount?, root?_setBlock_self (root?_eq_some.mp hroot).1, map_some, hone]
    rfl

/-- A module gives back the root if and only if it made it. -/
theorem leaveRoot_perm {mhandle : Ptr} {blocks : List Ptr} {rest : List LDR_SECTION_INFO}
    (hleave : w.leaveRoot cb alloc init mhandle h = some (e, w'))
    (halloc : alloc = false → h.dm.dbthis = 0) (htarget : w.target.Perm (h.record ++ rest))
    (hhost : w.host.Perm (extra ++ blocks))
    (hrootless : h.dm.hroot = 0 → extra = [] ∧ h.dm.dbthis = 0)
    (hroot : h.dm.hroot ≠ 0 → (extra = [h.dm.hroot] ∧
          w.refcount? h.dm.hroot = some (if h.dm.dbthis = 0 then 0 else 1) ∧
          w.Find_Matching_Symbol (some LOADER_DLLVIEW_ROOT) = none) ∨
        (extra = [] ∧ w.Find_Matching_Symbol (some LOADER_DLLVIEW_ROOT) ≠ none)) :
    w'.host.Perm blocks ∧ w'.target.Perm rest ∧ w'.symbols = w.symbols ∧
      w'.faults = w.faults := by
  unfold World.leaveRoot at hleave
  split at hleave
  · rename_i hzero
    cases hleave
    obtain ⟨rfl, hdbthis⟩ := hrootless hzero
    unfold my_handle.record at htarget
    rw [if_pos hdbthis] at htarget
    exact ⟨hhost, htarget, rfl, rfl⟩
  · rename_i hzero
    obtain ⟨⟨e₁, w₁⟩, hdrop, hleave⟩ := bind_eq_some_iff.mp hleave
    obtain ⟨root, hroot?, hleave⟩ := bind_eq_some_iff.mp hleave
    obtain ⟨hhost₁, htarget₁, hsymbols₁, hfaults₁, href₁⟩ := dropRecord_perm hdrop halloc htarget
    have hfind : w₁.Find_Matching_Symbol (some LOADER_DLLVIEW_ROOT) =
        w.Find_Matching_Symbol (some LOADER_DLLVIEW_ROOT) := by
      simp only [World.Find_Matching_Symbol, hsymbols₁]
    rcases hroot hzero with ⟨rfl, href, hnone⟩ | ⟨rfl, hsome⟩
    · have hcount : root.refcount = 0 := by
        have hmap := href₁ href
        rw [World.refcount?, hroot?] at hmap
        exact some.inj hmap
      rw [if_pos ⟨hcount, hfind.trans hnone⟩] at hleave
      cases hleave
      have hhost₂ : w₁.host.Perm (h.dm.hroot :: blocks) := by
        rw [hhost₁]
        exact hhost
      have hfree := Deallocate_perm hhost₂
      exact ⟨hfree.1, by rwa [Deallocate_target], by rwa [Deallocate_symbols],
        hfree.2.trans hfaults₁⟩
    · rw [if_neg fun hboth => hsome (hfind.symm.trans hboth.2)] at hleave
      cases hleave
      exact ⟨by rw [hhost₁]; exact hhost, htarget₁, hsymbols₁, hfaults₁⟩

/-- Unloading a module gives back what its handle records, and nothing else. -/
theorem unload_balanced (hw : w₀.Sound) (hs : Settled w₀ w alloc hndl [] extra grants h)
    (hunload : Dynamic_Unload_Module cb alloc init hndl w = some (e, w')) : Balanced w₀ w' := by
  unfold Dynamic_Unload_Module at hunload
  rw [if_neg hs.new.1] at hunload
  obtain ⟨added, hsymbols, hadded⟩ := hs.symbols
  have hpurge := purge_symbols hw hs.new hsymbols hadded
  have hin : hndl ∈ w.host := hs.host.symm.subset (by simp)
  have hhandle : (w.Purge_Symbol_Table hndl).handle? hndl = some h :=
    handle?_eq_some.mpr ⟨hin, hs.handle⟩
  obtain ⟨h', hh', hunload⟩ := bind_eq_some_iff.mp hunload
  obtain rfl : h = h' := some.inj (hhandle.symm.trans hh')
  obtain ⟨⟨e₁, w₁⟩, hleave, hunload⟩ := bind_eq_some_iff.mp hunload
  cases hunload
  -- the sections
  obtain ⟨target, hsections, hrecord⟩ : ∃ target,
      (if alloc then (w.Purge_Symbol_Table hndl).deallocSections (h.secn_count >>> 1).toNat h.secns
        else w.Purge_Symbol_Table hndl) = { w.Purge_Symbol_Table hndl with target := target } ∧
      target.Perm (h.record ++ w₀.target) := by
    have htarget : (w.Purge_Symbol_Table hndl).target.Perm
        (grants.map (·.storage) ++ (h.record ++ w₀.target)) :=
      hs.target.trans (by rw [← append_assoc, ← append_assoc]
                          exact perm_append_comm.append_right _)
    split
    · rw [hs.count]
      exact deallocSections_perm hs.secns htarget
    · rename_i halloc
      obtain ⟨rfl, -⟩ := hs.allocated (by simpa using halloc)
      exact ⟨_, rfl, htarget⟩
  rw [hsections] at hleave
  -- the record and the root
  have hfind : World.Find_Matching_Symbol { w.Purge_Symbol_Table hndl with target := target }
      (some LOADER_DLLVIEW_ROOT) = w₀.Find_Matching_Symbol (some LOADER_DLLVIEW_ROOT) := by
    simp only [World.Find_Matching_Symbol, hpurge]
  have hheld : w.host.Perm (extra ++ hndl :: w₀.host) := hs.host
  obtain ⟨hhost, htarget, hsymbols₁, hfaults⟩ := leaveRoot_perm hleave
    (fun halloc => (hs.allocated halloc).2) hrecord hheld hs.rootless
    fun hroot => by rw [hfind]; exact hs.root hroot
  have hfree := Deallocate_perm hhost
  exact ⟨hfree.1, by rwa [Deallocate_target],
    (Deallocate_symbols w₁ hndl).trans (hsymbols₁.trans hpurge),
    hfree.2.trans (hfaults.trans hs.faults)⟩

end OmapHal.Dynload
