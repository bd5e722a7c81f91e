import OmapHal.Dynload.Balance

/-!
# Only orderly images balance

For every image that is not orderly there are callbacks, and a world, with which a load does not
balance.
-/

namespace OmapHal.Dynload

open Function List Nat Option

variable {readable : World → Bool} {errs : Nat} {h : my_handle}

variable {cb : Callbacks} {image : Image} {alloc init : Bool} {w₀ w w' : World} {l l' : Loading}

/-- The handle of a load stands in a block of its own, beside the tables. -/
structure Sited (l : Loading) (h : my_handle) : Prop where
  host : l.w.host.Perm (l.dlthis.tables ++ [l.dlthis.myhandle])
  given : l.dlthis.myhandle ≠ 0
  handle : l.w.blocks l.dlthis.myhandle = .handle h

section Sited

variable {h : my_handle} {i : Nat} {info : LDR_SECTION_INFO} {secns : List doff_scnhdr_t}

theorem Sited.mem_host (hl : Sited l h) : l.dlthis.myhandle ∈ l.w.host :=
  hl.host.symm.subset (by simp)

/-- The handle of a load from nothing, before its sections are allocated. -/
theorem Early.sited (image : Image) {symbols : List Symbol} {p : Ptr}
    (hearly : Early (.empty symbols) l)
    (hp : p ≠ 0) (hw : w.host = p :: l.w.host) :
    Sited ⟨w.setBlock p (.handle (new_handle image p)), { l.dlthis with myhandle := p }⟩
      (new_handle image p) := by
  refine ⟨?_, hp, update_self ..⟩
  show w.host.Perm (l.dlthis.tables ++ [p])
  rw [hw]
  refine (hearly.host.cons p).trans ?_
  simp only [dload_state.tables, hearly.state.2.1, own_zero, nil_append, World.empty, append_nil]
  exact (perm_append_singleton ..).symm

theorem Sited.error (hl : Sited l h) : Sited l.dload_error h := ⟨hl.host, hl.given, hl.handle⟩

/-- A store to the section table, inside the block of the handle or not. -/
theorem Sited.store (hl : Sited l h) (i : Nat) (info : LDR_SECTION_INFO) :
    ∃ w' table, l.w.storeSection l.dlthis.myhandle i info = w' ∧
      Sited { l with w := w' } { h with secns := table } ∧ table.length = h.secns.length ∧
      (∀ j, j ≠ i → table.getD j none = h.secns.getD j none) ∧ l.w.faults ≤ w'.faults ∧
      (h.secns = [] → table = [] ∧ l.w.faults < w'.faults) := by
  by_cases hi : i < h.secns.length
  · refine ⟨_, h.secns.set i (some info), storeSection_eq hl.mem_host hl.handle hi,
      ⟨hl.host, hl.given, update_self ..⟩, length_set .., fun j hj => ?_,
      le_refl _, fun hnil => ?_⟩
    · simp only [getD_eq_getElem?_getD, getElem?_set_ne (Ne.symm hj)]
    · rw [hnil] at hi
      exact absurd hi (not_lt_zero i)
  · refine ⟨l.w.fault, h.secns, ?_, ⟨hl.host, hl.given, hl.handle⟩, rfl, fun _ _ => rfl,
      le_succ _, fun hnil => ⟨hnil, lt_succ_self _⟩⟩
    unfold World.storeSection
    rw [handle?_eq_some.mpr ⟨hl.mem_host, hl.handle⟩]
    exact if_neg hi

/-- A section is reported exactly when its name lies outside the string table. -/
theorem Sited.checked (image : Image) (shp : doff_scnhdr_t) (hl : Sited l h) :
    ∃ l₁, (if shp.ds_offset < image.header.df_strtab_size then l else l.dload_error) = l₁ ∧
      Sited l₁ h ∧ l₁.w = l.w ∧ l₁.dlthis.allocated_secn_count = l.dlthis.allocated_secn_count ∧
      l₁.dlthis.local_symtab = l.dlthis.local_symtab ∧ (l₁.dlthis.dload_errcount = 0 ↔
        l.dlthis.dload_errcount = 0 ∧ shp.ds_offset < image.header.df_strtab_size) := by
  split
  · rename_i hname
    exact ⟨l, rfl, hl, rfl, rfl, rfl, fun hzero => ⟨hzero, hname⟩, fun hzero => hzero.1⟩
  · rename_i hname
    exact ⟨_, rfl, hl.error, rfl, rfl, rfl, fun hzero => absurd hzero (succ_ne_zero _),
      fun hzero => absurd hzero.2 hname⟩

/-- A section that needs storage and gets it: its place is written, if it is in the block. -/
theorem allocateLoop_granted_step (image : Image) (i : Nat) (secns : List doff_scnhdr_t)
    (readable : World → Bool) (errs : Nat) {shp : doff_scnhdr_t}
    (hl : Sited l h) (hneeds : DS_NEEDS_ALLOCATION shp) :
    ∃ l' table, allocateLoop (obliging readable errs) image true i (shp :: secns) l =
        allocateLoop (obliging readable errs) image true (i + 1) secns l' ∧
      Sited l' { h with secns := table } ∧ table.length = h.secns.length ∧
      (∀ j, j ≠ i → table.getD j none = h.secns.getD j none) ∧ l.w.faults ≤ l'.w.faults ∧
      l'.dlthis.allocated_secn_count = l.dlthis.allocated_secn_count + 1 ∧
      l'.dlthis.local_symtab = l.dlthis.local_symtab ∧
      (l'.dlthis.dload_errcount = 0 ↔
        l.dlthis.dload_errcount = 0 ∧ shp.ds_offset < image.header.df_strtab_size) := by
  rw [allocateLoop]
  obtain ⟨l₁, hl₁, hsited, hw, hcount, hsymtab, herr⟩ := hl.checked image shp
  rw [hl₁, if_pos hneeds]
  dsimp only
  obtain ⟨w₂, table₂, hstore₂, hsited₂, hlen₂, hother₂, hfaults₂, -⟩ := hsited.store i shp.ldrsec
  rw [hstore₂, if_pos rfl]
  obtain ⟨info, w₃, halloc, hhost₃, hblocks₃, hfaults₃⟩ : ∃ info w₃,
      w₂.alloc (obliging readable errs) shp.ldrsec = (some info, w₃) ∧ w₃.host = w₂.host ∧
        w₃.blocks = w₂.blocks ∧ w₃.faults = w₂.faults := ⟨_, _, rfl, rfl, rfl, rfl⟩
  rw [halloc]
  dsimp only
  have hsited₃ : Sited { l₁ with w := w₃ } { h with secns := table₂ } :=
    ⟨by rw [hhost₃]; exact hsited₂.host, hsited₂.given, by rw [hblocks₃]; exact hsited₂.handle⟩
  obtain ⟨w₄, table₄, hstore₄, hsited₄, hlen₄, hother₄, hfaults₄, -⟩ := hsited₃.store i info
  rw [hstore₄]
  refine ⟨_, table₄, rfl, ⟨hsited₄.host, hsited₄.given, hsited₄.handle⟩, hlen₄.trans hlen₂,
    fun j hj => (hother₄ j hj).trans (hother₂ j hj), ?_, ?_, hsymtab, herr⟩
  · rw [← hw]
    exact le_trans hfaults₂ (le_trans (le_of_eq hfaults₃.symm) hfaults₄)
  · rw [← hcount]
    rfl

/-- With all storage granted, the places that are written are those of the sections that need
storage. -/
theorem allocateLoop_granted (image : Image) (i : Nat) (secns : List doff_scnhdr_t)
    (readable : World → Bool) (errs : Nat) (hl : Sited l h) :
    ∃ l' table, allocateLoop (obliging readable errs) image true i secns l = l' ∧
      Sited l' { h with secns := table } ∧ table.length = h.secns.length ∧
      (∀ j, (table.getD j none).isSome → (h.secns.getD j none).isSome ∨
        ∃ k s, j = i + k ∧ secns[k]? = some s ∧ DS_NEEDS_ALLOCATION s) ∧
      l.w.faults ≤ l'.w.faults ∧
      l'.dlthis.allocated_secn_count =
        l.dlthis.allocated_secn_count + secns.countP DS_NEEDS_ALLOCATION ∧
      l'.dlthis.local_symtab = l.dlthis.local_symtab ∧
      (l'.dlthis.dload_errcount = 0 ↔ l.dlthis.dload_errcount = 0 ∧
        ∀ s ∈ secns, s.ds_offset < image.header.df_strtab_size) := by
  induction secns generalizing i l h with
  | nil =>
    exact ⟨_, h.secns, rfl, ⟨hl.host, hl.given, hl.handle⟩, rfl, fun _ => .inl,
      le_refl _, rfl,
      rfl, fun hzero => ⟨hzero, fun s hs => (nomatch hs)⟩, fun hzero => hzero.1⟩
  | cons shp secns ih =>
    cases hneeds : DS_NEEDS_ALLOCATION shp with
    | true =>
      obtain ⟨l₁, table₁, heq, hsited, hlen, hother, hfaults, hcount, hsymtab, herr⟩ :=
        allocateLoop_granted_step image i secns readable errs hl hneeds
      obtain ⟨l₂, table₂, heq₂, hsited₂, hlen₂, hplaces, hfaults₂, hcount₂, hsymtab₂, herr₂⟩ :=
        ih (i := i + 1) hsited
      refine ⟨l₂, table₂, heq.trans heq₂, hsited₂, hlen₂.trans hlen, fun j hj => ?_,
        le_trans hfaults hfaults₂, ?_, hsymtab₂.trans hsymtab, ?_⟩
      · by_cases hi : j = i
        · exact .inr ⟨0, shp, hi, rfl, hneeds⟩
        · rcases hplaces j hj with hold | ⟨k, s, hk, hs, hyes⟩
          · rw [hother j hi] at hold
            exact .inl hold
          · exact .inr ⟨k + 1, s, by omega, hs, hyes⟩
      · rw [hcount₂, hcount, countP_cons_of_pos hneeds]
        omega
      · rw [herr₂, herr, forall_mem_cons, and_assoc]
    | false =>
      rw [allocateLoop]
      rw [if_neg (by rw [hneeds]; exact Bool.false_ne_true)]
      obtain ⟨l₁, hl₁, hsited, hw, hcount, hsymtab, herr⟩ := hl.checked image shp
      rw [hl₁, ← hw, ← hcount, ← hsymtab]
      obtain ⟨l₂, table₂, heq₂, hsited₂, hlen₂, hplaces, hfaults₂, hcount₂, hsymtab₂, herr₂⟩ :=
        ih (i := i + 1) hsited
      refine ⟨l₂, table₂, heq₂, hsited₂, hlen₂, fun j hj => ?_, hfaults₂, ?_, hsymtab₂, ?_⟩
      · refine (hplaces j hj).imp_right ?_
        rintro ⟨k, s, hk, hs, hyes⟩
        exact ⟨k + 1, s, by omega, hs, hyes⟩
      · rw [hcount₂, countP_cons_of_neg (by rw [hneeds]; exact Bool.false_ne_true)]
      · rw [herr₂, herr, forall_mem_cons, and_assoc]

/-- Without an allocator, a handle block without places is written past its end. -/
theorem allocateLoop_refused (cb : Callbacks) (image : Image) (i : Nat) (hl : Sited l h)
    (hroom : h.secns = []) (hneeds : ∃ s ∈ secns, DS_NEEDS_ALLOCATION s) :
    ∃ l', allocateLoop cb image false i secns l = l' ∧ Sited l' h ∧ l.w.faults < l'.w.faults ∧
      l'.dlthis.allocated_secn_count = l.dlthis.allocated_secn_count ∧
      l'.dlthis.local_symtab = l.dlthis.local_symtab ∧ l'.dlthis.dload_errcount ≠ 0 := by
  induction secns generalizing i l with
  | nil =>
    obtain ⟨s, hs, -⟩ := hneeds
    cases hs
  | cons shp secns ih =>
    rw [allocateLoop]
    obtain ⟨l₁, hl₁, hsited, hw, hcount, hsymtab, -⟩ := hl.checked image shp
    rw [hl₁]
    cases hyes : DS_NEEDS_ALLOCATION shp with
    | true =>
      rw [if_pos rfl]
      dsimp only
      obtain ⟨w₂, table, hstore, hsited₂, -, -, -, hfault⟩ := hsited.store i shp.ldrsec
      obtain ⟨rfl, hlt⟩ := hfault hroom
      rw [hstore, if_neg Bool.false_ne_true]
      have hhandle : ({ h with secns := [] } : my_handle) = h := by rw [← hroom]
      rw [hhandle] at hsited₂
      exact ⟨_, rfl, ⟨hsited₂.host, hsited₂.given, hsited₂.handle⟩, hw ▸ hlt, hcount, hsymtab,
        succ_ne_zero _⟩
    | false =>
      rw [if_neg Bool.false_ne_true]
      obtain ⟨l₂, heq, hsited₂, hlt, hcount₂, hsymtab₂, herr⟩ := ih (i := i + 1) hsited (by
        obtain ⟨s, hs, hsome⟩ := hneeds
        rcases mem_cons.mp hs with rfl | hs
        · rw [hyes] at hsome
          cases hsome
        · exact ⟨s, hs, hsome⟩)
      exact ⟨l₂, heq, hsited₂, hw ▸ hlt, hcount₂.trans hcount, hsymtab₂.trans hsymtab, herr⟩

end Sited

/-- A load whose handle will not be given back without a fault. -/
structure Doomed (alloc : Bool) (l : Loading) (h : my_handle) : Prop extends Sited l h where
  rootless : h.dm.hroot = 0
  bound : l.dlthis.allocated_secn_count ≤ MAX_REASONABLE_SECTIONS
  unpaid : 0 < l.w.faults ∨
    alloc = true ∧ ∃ j < l.dlthis.allocated_secn_count, h.secns.getD j none = none

section Doomed

variable {h : my_handle}

/-- The places of a list that are counted come first if they are the first ones. -/
theorem takeWhile_of_counted {α : Type} {p : α → Bool} {l : List α}
    (h : ∀ j < l.countP p, ∃ a, l[j]? = some a ∧ p a) :
    (∀ a ∈ l.dropWhile p, p a = false) ∧ (l.takeWhile p).length = l.countP p := by
  induction l with
  | nil => exact ⟨fun a ha => (nomatch ha), rfl⟩
  | cons a l ih =>
    cases ha : p a with
    | true =>
      rw [countP_cons_of_pos ha] at h ⊢
      rw [dropWhile_cons_of_pos ha, takeWhile_cons_of_pos ha, length_cons]
      obtain ⟨hback, hlen⟩ := ih fun j hj => h (j + 1) (succ_lt_succ hj)
      exact ⟨hback, congrArg (· + 1) hlen⟩
    | false =>
      have hno : ¬p a := by rw [ha]; exact Bool.false_ne_true
      rw [countP_cons_of_neg hno] at h ⊢
      rw [dropWhile_cons_of_neg hno, takeWhile_cons_of_neg hno]
      have hzero : l.countP p = 0 := by
        by_contra hsome
        obtain ⟨b, hb, hyes⟩ := h 0 (pos_of_ne_zero hsome)
        obtain rfl := some.inj hb
        exact hno hyes
      refine ⟨fun b hb => ?_, hzero.symm⟩
      rcases mem_cons.mp hb with rfl | hb
      · exact ha
      · exact Bool.eq_false_iff.mpr (countP_eq_zero.mp hzero b hb)

/-- With sections out of order, the handle of a load from nothing is not given back cleanly. -/
theorem allocate_sections_doomed {symbols : List Symbol}
    (hearly : Early (.empty symbols) l) (hsections : image.sections ≠ [])
    (hbound : image.sections.length ≤ MAX_REASONABLE_SECTIONS)
    (hnot : ¬((alloc = false ∧ image.header.df_target_scns ≠ 0) ∨
      (MY_HANDLE_SIZE ≤ handle_size image ∧ image.Contiguous))) :
    ∃ h, Doomed alloc (allocate_sections (obliging readable errs) image alloc l) h ∧
      (allocate_sections (obliging readable errs) image alloc l).dlthis.local_symtab = 0 := by
  obtain ⟨hhandle, hsymtab, hcount⟩ := hearly.state
  rw [not_or] at hnot
  obtain ⟨hgiven, hfits⟩ := hnot
  unfold allocate_sections
  rw [if_neg hsections, if_neg (by simpa using hgiven)]
  obtain ⟨p, hp, hnew, hw⟩ := obliging_Allocate readable errs l.w (handle_size image)
  rw [hw]
  dsimp only
  rw [if_neg hp]
  have hhost : ∀ w' : World, w'.host = p :: l.w.host →
      Sited ⟨w'.setBlock p (.handle (new_handle image p)), { l.dlthis with myhandle := p }⟩
        (new_handle image p) := fun w' hw' => hearly.sited image hp hw'
  have hroom : (new_handle image p).secns.length = handle_room image := length_replicate
  have hblank : ∀ j, ((new_handle image p).secns.getD j none).isSome → False := by
    intro j hj
    simp [new_handle, getD_eq_getElem?_getD, getElem?_replicate] at hj
    split at hj <;> simp at hj
  have hlimit : image.sections.countP DS_NEEDS_ALLOCATION ≤ MAX_REASONABLE_SECTIONS :=
    le_trans countP_le_length hbound
  cases alloc with
  | true =>
    obtain ⟨w₁, hw₁, hhost₁, hfaults₁⟩ : ∃ w₁, (if handle_size image < MY_HANDLE_SIZE then
        World.fault { l.w.called.setBlock p .raw with host := p :: l.w.host }
        else { l.w.called.setBlock p .raw with host := p :: l.w.host }) = w₁ ∧
        w₁.host = p :: l.w.host ∧ (handle_size image < MY_HANDLE_SIZE → 0 < w₁.faults) := by
      split
      · exact ⟨_, rfl, rfl, fun _ => succ_pos _⟩
      · rename_i hsize
        exact ⟨_, rfl, rfl, fun hsmall => absurd hsmall hsize⟩
    rw [hw₁]
    obtain ⟨l', table, heq, hsited, hlen, hplaces, hfaults, hcount', hsymtab', -⟩ :=
      allocateLoop_granted image 0 image.sections readable errs (hhost w₁ hhost₁)
    rw [heq]
    have htotal : l'.dlthis.allocated_secn_count = image.sections.countP DS_NEEDS_ALLOCATION :=
      hcount'.trans (by rw [hcount, zero_add])
    refine ⟨_, ⟨hsited, rfl, htotal ▸ hlimit, ?_⟩, hsymtab'.trans hsymtab⟩
    by_cases hsize : handle_size image < MY_HANDLE_SIZE
    · exact .inl (lt_of_lt_of_le (hfaults₁ hsize) hfaults)
    · refine .inr ⟨rfl, ?_⟩
      by_contra hall
      have hwritten : ∀ j < image.sections.countP DS_NEEDS_ALLOCATION,
          (table.getD j none).isSome := by
        intro j hj
        by_contra hnone
        exact hall ⟨j, htotal ▸ hj, not_isSome_iff_eq_none.mp hnone⟩
      obtain ⟨hback, hfront⟩ := takeWhile_of_counted (p := DS_NEEDS_ALLOCATION)
        (l := image.sections) fun j hj => by
          obtain ⟨k, s, hk, hs, hyes⟩ := (hplaces j (hwritten j hj)).resolve_left (hblank j)
          rw [hk, zero_add]
          exact ⟨s, hs, hyes⟩
      refine hfits ⟨not_lt.mp hsize, hback, ?_⟩
      rw [hfront, ← hroom, ← hlen]
      by_contra hlong
      have hlast := hwritten table.length (not_le.mp hlong)
      rw [getD_eq_getElem?_getD, getElem?_eq_none (le_refl _)] at hlast
      cases hlast
  | false =>
    have hscns : image.header.df_target_scns = 0 := by
      by_contra hsome
      exact hgiven ⟨rfl, hsome⟩
    have hsize : handle_size image = MY_HANDLE_SIZE := by
      unfold handle_size
      rw [hscns]
      rfl
    have hnil : (new_handle image p).secns = [] := by
      refine eq_nil_of_length_eq_zero ?_
      rw [hroom, handle_room, hsize, Nat.sub_self, Nat.zero_div]
    rw [if_neg (by rw [hsize]; exact lt_irrefl _)]
    have hneeds : ∃ s ∈ image.sections, DS_NEEDS_ALLOCATION s := by
      by_contra hnone
      have hall : ∀ s ∈ image.sections, DS_NEEDS_ALLOCATION s = false := fun s hs =>
        Bool.eq_false_iff.mpr fun hyes => hnone ⟨s, hs, hyes⟩
      refine hfits ⟨le_of_eq hsize.symm, fun s hs =>
        hall s ((dropWhile_suffix _).subset hs), ?_⟩
      have htake : image.sections.takeWhile DS_NEEDS_ALLOCATION = [] := by
        obtain ⟨shp, rest, hcons⟩ := exists_cons_of_ne_nil hsections
        rw [hcons, takeWhile_cons_of_neg]
        rw [hall shp (hcons ▸ mem_cons_self)]
        exact Bool.false_ne_true
      rw [htake]
      exact zero_le _
    obtain ⟨l', heq, hsited, hlt, hcount', hsymtab', -⟩ :=
      allocateLoop_refused (obliging readable errs) image 0
        (hhost { l.w.called.setBlock p .raw with host := p :: l.w.host } rfl) hnil hneeds
    rw [heq]
    refine ⟨_, ⟨hsited, rfl, ?_, .inl (lt_of_le_of_lt (zero_le _) hlt)⟩,
      hsymtab'.trans hsymtab⟩
    rw [hcount', show l.dlthis.allocated_secn_count = 0 from hcount]
    exact zero_le _

theorem Doomed.symbols (hl : Doomed alloc l h) (hsymtab : l.dlthis.local_symtab = 0) :
    Doomed alloc (dload_symbols (obliging readable errs) image l) h := by
  unfold dload_symbols
  split
  · exact hl
  dsimp only
  generalize max (_ : Nat) _ = siz
  obtain ⟨p, hp, hnew, hw⟩ := obliging_Allocate readable errs l.w siz
  rw [hw]
  dsimp only
  rw [if_neg hp]
  have hposted := symbolLoop_posted (obliging readable errs) image 0
    ⟨{ l.w.called.setBlock p .raw with host := p :: l.w.host },
      { l.dlthis with local_symtab := p }⟩ (fun sym hsym => hsym)
  generalize symbolLoop _ _ _ _ _ = l' at hposted ⊢
  obtain ⟨n, hstate⟩ := hposted.state
  have hother : l.dlthis.myhandle ≠ p := fun heq => hnew (heq ▸ hl.mem_host)
  refine ⟨⟨?_, ?_, ?_⟩, hl.rootless, ?_, ?_⟩
  · rw [hposted.host, hstate]
    have hhost := hl.host
    rw [dload_state.tables, hsymtab] at hhost
    show (p :: l.w.host).Perm (own p ++ _ ++ _)
    rw [own_of_ne hp]
    exact hhost.cons p
  · rw [hstate]
    exact hl.given
  · rw [hposted.blocks, hstate]
    exact (update_of_ne hother ..).trans hl.handle
  · rw [hstate]
    exact hl.bound
  · rw [hposted.faults, hstate]
    exact hl.unpaid

theorem Doomed.data (hl : Doomed alloc l h) : Doomed alloc (dload_data cb l) h :=
  ⟨⟨hl.host, hl.given, hl.handle⟩, hl.rootless, hl.bound, hl.unpaid⟩

/-- A module without a root or a debug record is unloaded. -/
theorem unload_rootless (cb : Callbacks) (alloc init : Bool) {hndl : Ptr} (hin : hndl ∈ w.host)
    (hne : hndl ≠ 0) (hb : w.blocks hndl = .handle h) (hroot : h.dm.hroot = 0) :
    ∃ w', Dynamic_Unload_Module cb alloc init hndl w = some (0, w') ∧
      w.faults ≤ w'.faults ∧ (alloc → w'.faults = w.faults →
        ∀ j < (h.secn_count >>> 1).toNat, (h.secns.getD j none).isSome) := by
  have hhandle : (w.Purge_Symbol_Table hndl).handle? hndl = some h :=
    handle?_eq_some.mpr ⟨hin, hb⟩
  unfold Dynamic_Unload_Module World.leaveRoot
  rw [if_neg hne]
  simp only [bind_eq_bind, hhandle, bind_some, if_pos hroot]
  refine ⟨_, rfl, ?_, fun halloc hfaults => ?_⟩
  · refine le_trans ?_ (faults_le_Deallocate _ _)
    split
    · exact faults_le_deallocSections _ _ (w.Purge_Symbol_Table hndl)
    · exact le_refl _
  · rw [if_pos halloc] at hfaults
    refine written_of_deallocSections (w := w.Purge_Symbol_Table hndl) ?_
    exact le_trans (faults_le_Deallocate _ _) (le_of_eq hfaults)

/-- A load that is doomed and has had errors does not balance. -/
theorem Doomed.not_balances (hl : Doomed alloc l h)
    (hload : loadImage cb image alloc init ⟨w, .start⟩ = l)
    (herrcount : l.dlthis.dload_errcount ≠ 0)
    (hfaults : w.faults = 0) : ¬Balances cb image alloc init w := by
  -- the handle is complete, but for its root
  obtain ⟨w₁, hcounted, hmodify⟩ : ∃ w₁, l.w.setBlock l.dlthis.myhandle (.handle { h with
        secn_count := UInt16.ofNat (2 * l.dlthis.allocated_secn_count) +
          (if l.dlthis.big_e_target then 1 else 0) }) = w₁ ∧
      l.w.modifyHandle l.dlthis.myhandle (fun h => { h with
        secn_count := UInt16.ofNat (2 * l.dlthis.allocated_secn_count) +
          (if l.dlthis.big_e_target then 1 else 0) }) = some w₁ :=
    ⟨_, rfl, modifyHandle_eq_some.mpr
      ⟨h, handle?_eq_some.mpr ⟨hl.mem_host, hl.handle⟩, rfl⟩⟩
  have hinit : init_module_handle cb image alloc (loadImage cb image alloc init ⟨w, .start⟩) =
      some { l with w := w₁ } := by
    unfold init_module_handle
    rw [hload, if_neg hl.given]
    simp only [bind_eq_bind, hmodify, bind_some, if_pos herrcount]
  obtain ⟨hhost, hfreed, -, hblocks⟩ := freeTables_perm (l := { l with w := w₁ })
    [l.dlthis.myhandle] (by rw [← hcounted]; exact hl.host)
  have hb : (freeTables { l with w := w₁ }).blocks l.dlthis.myhandle = .handle { h with
      secn_count := UInt16.ofNat (2 * l.dlthis.allocated_secn_count) +
        (if l.dlthis.big_e_target then 1 else 0) } := by
    rw [hblocks, ← hcounted]
    exact update_self ..
  obtain ⟨w', hunload, hle, hwritten⟩ := unload_rootless cb alloc init
    (hhost.symm.subset mem_cons_self) hl.given hb hl.rootless
  intro hbalances
  have hbalanced := (hbalances _ (load_failed hinit herrcount hunload)).1 herrcount
  have hzero : w'.faults = 0 := hbalanced.faults.trans hfaults
  have hw₁ : w₁.faults = l.w.faults := by rw [← hcounted]; rfl
  rcases hl.unpaid with hpos | ⟨halloc, j, hj, hnone⟩
  · rw [hfreed, hzero] at hle
    exact absurd hpos (not_lt.mpr (hw₁ ▸ hle))
  · have hsome := hwritten halloc (by omega) j (by
      rw [secn_count_shift hl.bound]
      exact hj)
    rw [show getD _ j none = none from hnone] at hsome
    cases hsome

/-- With sections out of order, a load that then fails does not balance. -/
theorem not_balances_of_unfit (haccepted : image.tables_accepted) (hinit : init)
    (hsections : image.sections ≠ []) (hnot : ¬((alloc = false ∧ image.header.df_target_scns ≠ 0) ∨
      (MY_HANDLE_SIZE ≤ handle_size image ∧ image.Contiguous))) :
    ¬Balances (obliging (fun _ => true) 1) image alloc init (.empty []) := by
  obtain ⟨hzero, -⟩ := loadTables_obliging (fun _ => true) 1 haccepted [] fun _ _ => rfl
  have hearly := loadTables_early (obliging (fun _ => true) 1) image (.empty [])
  have hbound : image.sections.length ≤ MAX_REASONABLE_SECTIONS := by
    simp only [Image.tables_accepted, Image.headers_accepted, Bool.and_eq_true,
      decide_eq_true_eq] at haccepted
    exact haccepted.1.1.2
  obtain ⟨l₂, hl₂, h, hdoomed, hsymtab⟩ : ∃ l₂,
      loadSections (obliging (fun _ => true) 1) image alloc init ⟨.empty [], .start⟩ = l₂ ∧
        ∃ h, Doomed alloc l₂ h ∧ l₂.dlthis.local_symtab = 0 := by
    unfold loadSections Loading.proceed
    rw [if_pos hzero, hinit]
    dsimp only
    unfold connectAndAllocate
    rw [if_pos rfl, if_pos (show (obliging (fun _ => true) 1).connect _ = true from rfl)]
    exact ⟨_, rfl, allocate_sections_doomed { hearly with } hsections hbound hnot⟩
  have hdoomed₃ : Doomed alloc (l₂.proceed (dload_symbols (obliging (fun _ => true) 1) image)) h :=
    proceed_rule (P := fun l => Doomed alloc l h) hdoomed fun _ =>
      hdoomed.symbols hsymtab
  refine Doomed.not_balances (h := h) ?_ rfl ?_ rfl
  · unfold loadImage
    rw [hl₂]
    refine proceed_rule (P := fun l => Doomed alloc l h) hdoomed₃ fun _ => ?_
    rw [if_pos hinit]
    exact hdoomed₃.data
  · -- the image packets report an error
    unfold loadImage
    rw [hl₂]
    generalize l₂.proceed (dload_symbols (obliging (fun _ => true) 1) image) = l₃
    unfold Loading.proceed
    split
    · exact succ_ne_zero _
    · assumption

end Doomed

theorem storeSection_symbols (w : World) (p : Ptr) (i : Nat) (info : LDR_SECTION_INFO) :
    (w.storeSection p i info).symbols = w.symbols := by
  unfold World.storeSection
  split
  · rfl
  · split <;> rfl

theorem alloc_symbols (cb : Callbacks) (w : World) (info : LDR_SECTION_INFO) :
    (w.alloc cb info).2.symbols = w.symbols := by
  unfold World.alloc
  split <;> rfl

theorem allocateLoop_symbols (secns : List doff_scnhdr_t) (i : Nat) (l : Loading) :
    (allocateLoop cb image alloc i secns l).w.symbols = l.w.symbols := by
  induction secns generalizing i l with
  | nil => rfl
  | cons shp secns ih =>
    rw [allocateLoop]
    dsimp only
    have hname : (if shp.ds_offset < image.header.df_strtab_size then l
        else l.dload_error).w.symbols = l.w.symbols := by
      split <;> rfl
    split
    · rw [← hname]
      cases alloc with
      | false => exact storeSection_symbols ..
      | true =>
        rw [if_pos rfl]
        have halloc := alloc_symbols cb
          ((if shp.ds_offset < image.header.df_strtab_size then l else l.dload_error).w.storeSection
            (if shp.ds_offset < image.header.df_strtab_size then l
              else l.dload_error).dlthis.myhandle i shp.ldrsec) shp.ldrsec
        split
        · rename_i heq
          rw [heq] at halloc
          exact halloc.trans (storeSection_symbols ..)
        · rename_i heq
          rw [heq] at halloc
          refine (ih _ _).trans ((storeSection_symbols ..).trans ?_)
          exact halloc.trans (storeSection_symbols ..)
    · exact (ih _ _).trans hname

theorem deallocSections_frame (n : Nat) (secns : List (Option LDR_SECTION_INFO)) (w : World) :
    (w.deallocSections n secns).host = w.host ∧
      (w.deallocSections n secns).blocks = w.blocks := by
  induction n generalizing secns w with
  | zero => exact ⟨rfl, rfl⟩
  | succ n ih =>
    match secns with
    | [] => exact ih [] w.fault
    | none :: secns => exact ih secns w.fault
    | some asecs :: secns =>
      have hframe : (w.dealloc asecs).host = w.host ∧ (w.dealloc asecs).blocks = w.blocks := by
        unfold World.dealloc
        split <;> exact ⟨rfl, rfl⟩
      exact ⟨(ih secns _).1.trans hframe.1, (ih secns _).2.trans hframe.2⟩

/-- A module with a root and without a debug record is unloaded. -/
theorem unload_recordless (cb : Callbacks) (alloc init : Bool) {hndl : Ptr} (root : dbg_mirror_root)
    (hin : hndl ∈ w.host) (hne : hndl ≠ 0) (hb : w.blocks hndl = .handle h)
    (hdbthis : h.dm.dbthis = 0) (hroot : w.root? h.dm.hroot = some root) :
    ∃ e w', Dynamic_Unload_Module cb alloc init hndl w = some (e, w') := by
  have hhandle : (w.Purge_Symbol_Table hndl).handle? hndl = some h :=
    handle?_eq_some.mpr ⟨hin, hb⟩
  obtain ⟨w₁, hw₁, hhost, hblocks⟩ : ∃ w₁,
      (if alloc then (w.Purge_Symbol_Table hndl).deallocSections (h.secn_count >>> 1).toNat h.secns
        else w.Purge_Symbol_Table hndl) = w₁ ∧ w₁.host = w.host ∧ w₁.blocks = w.blocks := by
    split
    · exact ⟨_, rfl, deallocSections_frame ..⟩
    · exact ⟨_, rfl, rfl, rfl⟩
  have hroot₁ : w₁.root? h.dm.hroot = some root := by
    obtain ⟨hmem, hblock⟩ := root?_eq_some.mp hroot
    exact root?_eq_some.mpr ⟨hhost ▸ hmem, hblocks ▸ hblock⟩
  unfold Dynamic_Unload_Module World.leaveRoot World.dropRecord
  rw [if_neg hne]
  simp only [bind_eq_bind, hhandle, bind_some, hw₁, if_pos hdbthis, hroot₁]
  split
  · exact ⟨_, _, rfl⟩
  · split <;> exact ⟨_, _, rfl⟩

/-- A module with sections and without a block for its debug record, where the modules header is
known: it gets a root, and a fault. -/
theorem init_module_handle_unbuffered (image : Image) (alloc : Bool)
    (hl : Sited l h) (hdbthis : h.dm.dbthis = 0) (hsymtab : l.dlthis.local_symtab = 0)
    (hcount : l.dlthis.allocated_secn_count ≠ 0) (herrcount : l.dlthis.dload_errcount = 0)
    (hsymbols : l.w.symbols = [⟨LINKER_MODULES_HEADER, .addr 0, 0⟩]) :
    ∃ p l' h', p ≠ 0 ∧
      init_module_handle (obliging readable errs) image alloc l = some l' ∧
      l'.w.host.Perm (l'.dlthis.tables ++ [l'.dlthis.myhandle, p]) ∧
      l'.w.blocks l'.dlthis.myhandle = .handle h' ∧ h'.dm.hroot = p ∧ h'.dm.dbthis = 0 ∧
      (∃ root, l'.w.blocks p = .root root) ∧ 0 < l'.w.faults ∧ l'.dlthis = l.dlthis := by
  obtain ⟨w₁, h₁, hmodify, hhost₁, hblocks₁, hdbthis₁, hsymbols₁⟩ : ∃ w₁ h₁,
      l.w.modifyHandle l.dlthis.myhandle (fun h => { h with
        secn_count := UInt16.ofNat (2 * l.dlthis.allocated_secn_count) +
          (if l.dlthis.big_e_target then 1 else 0) }) = some w₁ ∧ w₁.host = l.w.host ∧
      w₁.blocks l.dlthis.myhandle = .handle h₁ ∧ h₁.dm.dbthis = 0 ∧ w₁.symbols = l.w.symbols :=
    ⟨_, _, modifyHandle_eq_some.mpr ⟨h, handle?_eq_some.mpr ⟨hl.mem_host, hl.handle⟩, rfl⟩, rfl,
      update_self .., hdbthis, rfl⟩
  have hnone : w₁.Find_Matching_Symbol (some LOADER_DLLVIEW_ROOT) = none := by
    unfold World.Find_Matching_Symbol
    rw [hsymbols₁, hsymbols]
    decide
  have hheader : w₁.Find_Matching_Symbol (some LINKER_MODULES_HEADER) =
      some ⟨LINKER_MODULES_HEADER, .addr 0, 0⟩ := by
    unfold World.Find_Matching_Symbol
    rw [hsymbols₁, hsymbols]
    decide
  obtain ⟨p, hp, hnew, hw⟩ := obliging_Allocate readable errs w₁ sizeof_dbg_mirror_root
  have hother : l.dlthis.myhandle ≠ p := fun heq => hnew (hhost₁ ▸ heq ▸ hl.mem_host)
  obtain ⟨w₂, hroot, hhost₂, hblock₂, hblockp₂⟩ : ∃ w₂,
      findRoot (obliging readable errs) ⟨w₁, l.dlthis⟩ = (some (.root p), ⟨w₂, l.dlthis⟩) ∧
        w₂.host = p :: l.w.host ∧ w₂.blocks l.dlthis.myhandle = .handle h₁ ∧
        ∃ root, w₂.blocks p = .root root := by
    unfold findRoot
    simp only [hnone, hheader, hw, if_neg hp]
    refine ⟨_, rfl, congrArg _ hhost₁, ?_, _, update_self ..⟩
    exact (update_of_ne hother ..).trans ((update_of_ne hother ..).trans hblocks₁)
  have hmodify₂ : w₂.modifyHandle l.dlthis.myhandle (fun h =>
      { h with dm := { h.dm with hroot := p } }) = some (w₂.setBlock l.dlthis.myhandle
        (.handle { h₁ with dm := { h₁.dm with hroot := p } })) :=
    modifyHandle_eq_some.mpr ⟨h₁, handle?_eq_some.mpr
      ⟨hhost₂ ▸ mem_cons_of_mem p hl.mem_host, hblock₂⟩, rfl⟩
  refine ⟨p, ⟨(w₂.setBlock l.dlthis.myhandle
      (.handle { h₁ with dm := { h₁.dm with hroot := p } })).fault, l.dlthis⟩, _, hp, ?_, ?_,
    update_self .., rfl, hdbthis₁, ?_, succ_pos _, rfl⟩
  · unfold init_module_handle addRecord
    rw [if_neg hl.given]
    simp only [bind_eq_bind, hmodify, bind_some, herrcount, ne_eq, not_true_eq_false,
      if_false, hroot, if_neg hp, hmodify₂, if_neg hcount, if_pos hsymtab]
  · show w₂.host.Perm _
    rw [hhost₂]
    exact (hl.host.cons p).trans ((perm_append_singleton ..).symm.trans (by simp))
  · obtain ⟨root, hblock⟩ := hblockp₂
    exact ⟨root, (update_of_ne hother.symm ..).trans hblock⟩

/-- Without symbols there is no block to put a debug record together in, and the record is put
together all the same. -/
theorem not_balances_of_unbuffered (haccepted : image.tables_accepted)
    (hfits : MY_HANDLE_SIZE ≤ handle_size image) (hnosyms : image.symbols = [])
    (hnamed : image.Named) (hneeds : ∃ s ∈ image.sections, DS_NEEDS_ALLOCATION s) :
    ¬Balances (obliging (fun _ => true) 0) image true true
      (.empty [⟨LINKER_MODULES_HEADER, .addr 0, 0⟩]) := by
  set cb := obliging (fun _ => true) 0 with hcb
  set w₀ := World.empty [⟨LINKER_MODULES_HEADER, .addr 0, 0⟩] with hw₀
  obtain ⟨hzero, -⟩ := loadTables_obliging (fun _ => true) 0 haccepted
    [⟨LINKER_MODULES_HEADER, .addr 0, 0⟩] fun _ _ => rfl
  rw [← hcb, ← hw₀] at hzero
  have hearly := loadTables_early cb image w₀
  have hsections : image.sections ≠ [] := by
    obtain ⟨s, hs, -⟩ := hneeds
    exact ne_nil_of_mem hs
  -- all sections are granted
  obtain ⟨l₂, h, hl₂, hsited, hroot, hdbthis, hsymtab, hcount, herrcount, hsymbols⟩ : ∃ l₂ h,
      loadSections cb image true true ⟨w₀, .start⟩ = l₂ ∧ Sited l₂ h ∧ h.dm.hroot = 0 ∧
        h.dm.dbthis = 0 ∧ l₂.dlthis.local_symtab = 0 ∧ l₂.dlthis.allocated_secn_count ≠ 0 ∧
        l₂.dlthis.dload_errcount = 0 ∧ l₂.w.symbols = w₀.symbols := by
    unfold loadSections Loading.proceed
    rw [if_pos hzero]
    dsimp only
    unfold connectAndAllocate allocate_sections
    rw [if_pos rfl, if_pos (show cb.connect _ = true from rfl), if_neg hsections,
      if_neg (by simp)]
    generalize loadTables cb image ⟨w₀, .start⟩ = l₁ at hearly hzero
    obtain ⟨p, hp, -, hw⟩ := obliging_Allocate (fun _ => true) 0 l₁.w.called (handle_size image)
    rw [← hcb] at hw
    rw [hw]
    dsimp only
    rw [if_neg hp, if_neg (not_lt.mpr hfits)]
    have hbase := hearly.sited image hp
      (w := { l₁.w.called.called.setBlock p .raw with host := p :: l₁.w.host }) rfl
    obtain ⟨l', table, heq, hsited, -, -, -, hcount, hsymtab, herr⟩ :=
      allocateLoop_granted image 0 image.sections (fun _ => true) 0 (l := ⟨_, { l₁.dlthis with
          myhandle := p, myio := true }⟩) ⟨hbase.host, hbase.given, hbase.handle⟩
    refine ⟨l', _, heq, hsited, rfl, rfl, hsymtab.trans hearly.state.2.1, ?_,
      herr.mpr ⟨hzero, hnamed⟩, ?_⟩
    · obtain ⟨s, hs, hyes⟩ := hneeds
      have hpos := countP_pos_iff.mpr ⟨s, hs, hyes⟩
      rw [hcount]
      omega
    · rw [← heq, allocateLoop_symbols]
      exact hearly.symbols
  have hload : loadImage cb image true true ⟨w₀, .start⟩ = dload_data cb l₂ := by
    have hsyms : dload_symbols cb image l₂ = l₂ := by
      unfold dload_symbols
      rw [if_pos hnosyms]
    unfold loadImage Loading.proceed
    rw [hl₂, if_pos herrcount, hsyms, if_pos herrcount]
    rfl
  obtain ⟨l₃, hl₃, hw₃, hstate₃⟩ : ∃ l₃, dload_data cb l₂ = l₃ ∧
      (l₃.w.host = l₂.w.host ∧ l₃.w.blocks = l₂.w.blocks ∧ l₃.w.symbols = w₀.symbols) ∧
      l₃.dlthis = l₂.dlthis := ⟨_, rfl, ⟨rfl, rfl, hsymbols⟩, rfl⟩
  rw [hl₃] at hload
  have hsited₃ : Sited l₃ h :=
    ⟨by rw [hw₃.1, hstate₃]; exact hsited.host, by rw [hstate₃]; exact hsited.given,
      by rw [hw₃.2.1, hstate₃]; exact hsited.handle⟩
  rw [← hstate₃] at hsymtab hcount herrcount
  obtain ⟨p, l₄, h₄, hp, hinit, hhost₄, hblock₄, rfl, hdbthis₄, hroot₄, hfault₄, hstate₄⟩ :=
    init_module_handle_unbuffered image true hsited₃ hdbthis hsymtab hcount herrcount hw₃.2.2
  rw [← hcb, ← hload] at hinit
  obtain ⟨w₅, hexec, hw₅⟩ : ∃ w₅, executeEntry cb image l₄ = { l₄ with w := w₅ } ∧
      w₅.host = l₄.w.host ∧ w₅.blocks = l₄.w.blocks ∧ w₅.faults = l₄.w.faults := by
    unfold executeEntry
    split
    · rw [show cb.execute l₄.w = true from rfl]
      exact ⟨_, rfl, rfl, rfl, rfl⟩
    · exact ⟨_, rfl, rfl, rfl, rfl⟩
  have hload' : Dynamic_Load_Module cb image true true w₀ =
      some ⟨0, l₄.dlthis.myhandle, freeTables { l₄ with w := w₅ }⟩ := by
    unfold Dynamic_Load_Module
    simp only [hinit, bind_eq_bind, bind_some, hexec, hstate₄, if_pos herrcount]
  obtain ⟨hhost, hfreed, -, hblocks⟩ := freeTables_perm (l := { l₄ with w := w₅ })
    [l₄.dlthis.myhandle, h₄.dm.hroot] (by rw [hw₅.1]; exact hhost₄)
  obtain ⟨root, hroot⟩ := hroot₄
  obtain ⟨e, w', hunload⟩ := unload_recordless cb true true root
    (w := freeTables { l₄ with w := w₅ }) (hhost.symm.subset mem_cons_self)
    (by rw [hstate₄]; exact hsited₃.given) (by rw [hblocks, hw₅.2.1]; exact hblock₄) hdbthis₄
    (root?_eq_some.mpr ⟨hhost.symm.subset (by simp), by
      rw [hblocks, hw₅.2.1]; exact hroot⟩)
  intro hbalances
  have hbalanced := (hbalances _ hload').2 rfl cb e w' hunload
  have hle := faults_le_unload hunload
  rw [hfreed, hbalanced.faults, hw₅.2.2] at hle
  exact absurd hfault₄ (not_lt.mpr hle)

/-- Loads balance exactly for the images that are orderly. -/
theorem balances_iff (image : Image) (alloc init : Bool) :
    (∀ cb w, w.Sound → Balances cb image alloc init w) ↔ image.Orderly alloc init := by
  constructor
  · intro hall
    have hsound : ∀ name, (World.empty [⟨name, .addr 0, 0⟩]).Sound := by
      intro name s hs
      obtain rfl := mem_singleton.mp hs
      exact .inl rfl
    have hfits : image.tables_accepted → init → image.sections ≠ [] →
        (alloc = false ∧ image.header.df_target_scns ≠ 0) ∨
          (MY_HANDLE_SIZE ≤ handle_size image ∧ image.Contiguous) := by
      intro haccepted hinit hsections
      by_contra hnot
      exact not_balances_of_unfit haccepted hinit hsections hnot
        (hall _ _ fun s hs => (nomatch hs))
    refine ⟨fun haccepted hnone => ?_, hfits, ?_⟩
    · by_contra hsome
      exact not_balances_of_handleless haccepted hnone hsome (hall _ _ (hsound _))
    · rintro haccepted rfl rfl hnosyms hnamed s hs
      refine Bool.eq_false_iff.mpr fun hyes => ?_
      obtain ⟨hsize, -⟩ := (hfits haccepted rfl (ne_nil_of_mem hs)).resolve_left fun h =>
        Bool.noConfusion h.1
      exact not_balances_of_unbuffered haccepted hsize hnosyms hnamed ⟨s, hs, hyes⟩
        (hall _ _ (hsound _))
  · exact fun ho cb w hw => ho.balances hw

/-- A section that takes no storage in front of one that does. -/
def scattered : Image where
  header :=
    { df_strtab_size := 4, df_target_scns := 2, df_doff_version := DOFF0, df_target_id := TARGET_ID,
      df_flags := 0, df_entry_secn := DN_UNDEF }
  dv_timdat := 0
  strings := [0, 0, 0, 0]
  sections := [⟨0, 0, 0, 8, 0, 0⟩, ⟨0, 0, 0, 8, 0, 0x10⟩]
  symbols := []
  byte_order_ok := true
  header_checksum_ok := true
  strings_checksum_ok := true
  sections_checksum_ok := true
  symbols_checksum_ok := true

/-- The load succeeds; unloading leaves the storage of the second section behind. -/
theorem scattered_leaks : ∃ r e w',
    Dynamic_Load_Module (obliging (fun _ => true) 0) scattered true true (.empty []) = some r ∧
      r.errcount = 0 ∧
      Dynamic_Unload_Module (obliging (fun _ => true) 0) true true r.mhandle r.w = some (e, w') ∧
      w'.target.length = 1 ∧ ¬Balanced (.empty []) w' := by
  refine ⟨_, _, _, rfl, rfl, rfl, by decide, fun hbalanced => ?_⟩
  exact absurd hbalanced.target.length_eq (by decide)

theorem not_all_balance :
    ¬∀ image alloc init cb w, w.Sound → Balances cb image alloc init w := by
  intro hall
  obtain ⟨r, e, w', hload, herrcount, hunload, -, hnot⟩ := scattered_leaks
  exact hnot ((hall scattered true true _ (.empty []) (fun s hs => (nomatch hs)) r hload).2
    herrcount _ e w' hunload)

end OmapHal.Dynload
