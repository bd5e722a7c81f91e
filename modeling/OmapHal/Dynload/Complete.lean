import OmapHal.Dynload.Acquire

/-!
# Completing a module

The symbols, the data and the handle: after `init_module_handle` the handle records everything
that the module holds.
-/

namespace OmapHal.Dynload

open Function List Option

variable {sym : doff_syment_t} {w' : World}

variable {cb : Callbacks} {image : Image} {alloc init : Bool} {w₀ w : World} {l l' l'' : Loading}
  {grants : List LDR_SECTION_INFO}

/-- What the symbol loop may do: report errors and post symbols of the image under the handle. -/
structure Posted (image : Image) (l l' : Loading) : Prop where
  state : ∃ errs, l'.dlthis = { l.dlthis with dload_errcount := errs }
  host : l'.w.host = l.w.host
  target : l'.w.target = l.w.target
  faults : l'.w.faults = l.w.faults
  blocks : l'.w.blocks = l.w.blocks
  mem : l'.w.mem = l.w.mem
  symbols : ∃ added, l'.w.symbols = added ++ l.w.symbols ∧
    ∀ s ∈ added, s.moduleid = l.dlthis.myhandle ∧ (∃ value, s.value = .addr value) ∧
      ∃ sym ∈ image.symbols, s.name = image.string sym.dn_offset.toNat

theorem Posted.refl (image : Image) (l : Loading) : Posted image l l :=
  ⟨⟨_, rfl⟩, rfl, rfl, rfl, rfl, rfl, [], rfl, fun _ hs => (nomatch hs)⟩

theorem Posted.trans (h : Posted image l l') (h' : Posted image l' l'') : Posted image l l'' := by
  obtain ⟨errs, hstate⟩ := h.state
  obtain ⟨errs', hstate'⟩ := h'.state
  obtain ⟨added, hsymbols, hadded⟩ := h.symbols
  obtain ⟨added', hsymbols', hadded'⟩ := h'.symbols
  refine ⟨⟨errs', by rw [hstate', hstate]⟩, h'.host.trans h.host, h'.target.trans h.target,
    h'.faults.trans h.faults, h'.blocks.trans h.blocks, h'.mem.trans h.mem, added' ++ added,
    by rw [hsymbols', hsymbols, append_assoc], fun s hs => ?_⟩
  rcases mem_append.mp hs with hs | hs
  · obtain ⟨hid, hrest⟩ := hadded' s hs
    refine ⟨hid.trans ?_, hrest⟩
    rw [hstate]
  · exact hadded s hs

theorem posted_error (image : Image) (l : Loading) : Posted image l l.dload_error :=
  ⟨⟨_, rfl⟩, rfl, rfl, rfl, rfl, rfl, [], rfl, fun _ hs => (nomatch hs)⟩

theorem posted_read (image : Image) (l : Loading) : Posted image l (l.read_buffer cb).2 :=
  ⟨⟨_, rfl⟩, rfl, rfl, rfl, rfl, rfl, [], rfl, fun _ hs => (nomatch hs)⟩

theorem symbolName_posted (image : Image) (sym : doff_syment_t) (l : Loading) :
    Posted image l (symbolName image sym l).2 ∧
      ∀ name, (symbolName image sym l).1 = some name → name = image.string sym.dn_offset.toNat := by
  unfold symbolName
  split
  · split
    · exact ⟨Posted.refl image l, fun name hname => (some.inj hname).symm⟩
    · exact ⟨posted_error image l, fun _ hname => (nomatch hname)⟩
  · exact ⟨Posted.refl image l, fun _ hname => (nomatch hname)⟩

theorem post_posted (hsym : sym ∈ image.symbols) {sname : Option (List UInt8)}
    (hname : ∀ name, sname = some name → name = image.string sym.dn_offset.toNat) :
    Posted image l (l.post cb sym sname) := by
  unfold Loading.post
  cases sname with
  | none => exact Posted.refl image l
  | some name =>
    dsimp only
    split
    · unfold World.Add_To_Symbol_Table
      split
      · refine ⟨⟨_, rfl⟩, rfl, rfl, rfl, rfl, rfl, [_], rfl, fun s hs => ?_⟩
        obtain rfl := mem_singleton.mp hs
        exact ⟨rfl, ⟨_, rfl⟩, sym, hsym, hname name rfl⟩
      · exact ⟨⟨_, rfl⟩, rfl, rfl, rfl, rfl, rfl, [], rfl, fun _ hs => (nomatch hs)⟩
    · exact Posted.refl image l

theorem processSymbol_posted (cb : Callbacks) (l : Loading) (hsym : sym ∈ image.symbols) :
    Posted image l (processSymbol cb image sym l).2 := by
  obtain ⟨hposted, hname⟩ := symbolName_posted image sym l
  unfold processSymbol
  generalize symbolName image sym l = found at hposted hname ⊢
  obtain ⟨sname, l₁⟩ := found
  refine hposted.trans ?_
  dsimp only at hname ⊢
  split
  · split
    · exact posted_error image l₁
    · exact Posted.refl image l₁
  · split
    · split
      · split
        · exact Posted.refl image l₁
        · exact posted_error image l₁
      · exact post_posted hsym hname
    · exact post_posted hsym hname

theorem symbolLoop_posted (cb : Callbacks) (image : Image) (n : Nat) (l : Loading)
    {syms : List doff_syment_t} (hsyms : ∀ sym ∈ syms, sym ∈ image.symbols) :
    Posted image l (symbolLoop cb image n syms l) := by
  induction syms generalizing n l with
  | nil =>
    rw [symbolLoop]
    split
    · exact posted_error image l
    · exact Posted.refl image l
  | cons sym syms ih =>
    rw [symbolLoop]
    have hread : Posted image l (if n = 0 then l.read_buffer cb else (true, l)).2 := by
      split
      · exact posted_read image l
      · exact Posted.refl image l
    generalize (if n = 0 then l.read_buffer cb else (true, l)) = read at hread ⊢
    obtain ⟨ok, l₁⟩ := read
    refine hread.trans ?_
    dsimp only
    split
    · exact posted_error image l₁
    · have hone := processSymbol_posted cb l₁ (hsyms sym mem_cons_self)
      generalize processSymbol cb image sym l₁ = processed at hone ⊢
      obtain ⟨goes_on, l₂⟩ := processed
      refine hone.trans ?_
      cases goes_on with
      | false => exact Posted.refl image l₂
      | true => exact ih _ _ fun sym hsym => hsyms sym (mem_cons_of_mem _ hsym)

/-- Symbols posted under a handle do not change what the load holds otherwise. -/
theorem Posted.held (h : Posted image l l') (hheld : Held w₀ alloc grants l)
    (hne : l.dlthis.myhandle ≠ 0) : Held w₀ alloc grants l' := by
  obtain ⟨errs, hstate⟩ := h.state
  obtain ⟨added, hsymbols, hadded⟩ := h.symbols
  obtain ⟨added', hsymbols', hadded'⟩ := hheld.symbols
  have hmyhandle : l'.dlthis.myhandle = l.dlthis.myhandle := by rw [hstate]
  refine ⟨?_, h.target ▸ hheld.target, ⟨added ++ added', ?_, fun s hs => ?_⟩,
    h.faults.trans hheld.faults, ?_, hheld.bound, hheld.allocated, ?_, fun hzero => ?_⟩
  · rw [h.host, hstate]
    exact hheld.host
  · rw [hsymbols, hsymbols', append_assoc]
  · rw [hmyhandle]
    rcases mem_append.mp hs with hs | hs
    · exact ⟨(hadded s hs).1, (hadded s hs).2.1⟩
    · exact hadded' s hs
  · rw [hstate]
    exact hheld.count
  · rw [hmyhandle, h.blocks]
    exact hheld.handle
  · exact absurd (hmyhandle.symm.trans hzero) hne

/-- The symbols of a module with a handle. Unless there was an error, the block of the local
symbols is there. -/
theorem dload_symbols_held (cb : Callbacks) (image : Image) (h : Held w₀ alloc grants l)
    (hsymtab : l.dlthis.local_symtab = 0) (hsymbols : l.dlthis.myhandle = 0 → image.symbols = []) :
    Held w₀ alloc grants (dload_symbols cb image l) ∧
      ((dload_symbols cb image l).dlthis.dload_errcount = 0 →
        image.symbols ≠ [] → (dload_symbols cb image l).dlthis.local_symtab ≠ 0) := by
  unfold dload_symbols
  split
  · rename_i hnone
    exact ⟨h, fun _ hsome => absurd hnone hsome⟩
  rename_i hsome
  have hne : l.dlthis.myhandle ≠ 0 := fun hzero => hsome (hsymbols hzero)
  dsimp only
  generalize max (_ : Nat) _ = siz
  rcases Allocate_cases cb l.w siz with hp | ⟨p, hp, hnew, hw⟩
  · rw [hp]
    exact ⟨h.called.error, fun hzero => absurd hzero (Nat.succ_ne_zero _)⟩
  rw [hw]
  dsimp only
  rw [if_neg hp]
  have hin := h.mem_host hne
  have hother : l.dlthis.myhandle ≠ p := fun heq => hnew (heq ▸ hin)
  obtain ⟨hnew₀, hndl, hb, hhandle⟩ := h.handle hne
  have hheld : Held w₀ alloc grants
      ⟨{ l.w.called.setBlock p .raw with host := p :: l.w.host },
        { l.dlthis with local_symtab := p }⟩ := by
    refine ⟨?_, h.target, h.symbols, h.faults, h.count, h.bound, h.allocated, fun _ =>
      ⟨hnew₀, hndl, ?_, hhandle⟩, fun hzero => absurd hzero hne⟩
    · have hhost := h.host
      rw [dload_state.tables, hsymtab] at hhost
      show (p :: l.w.host).Perm (own p ++ _ ++ _)
      rw [own_of_ne hp]
      exact hhost.cons p
    · exact (update_of_ne hother ..).trans hb
  have hloop := symbolLoop_posted cb image 0
    ⟨{ l.w.called.setBlock p .raw with host := p :: l.w.host },
      { l.dlthis with local_symtab := p }⟩ (fun sym hsym => hsym)
  refine ⟨hloop.held hheld hne, fun _ _ => ?_⟩
  obtain ⟨errs, hstate⟩ := hloop.state
  rw [hstate]
  exact hp

/-- An image that the loader can give back. Where no handle is made, there are no symbols. Where
one is made, its block is large enough and the sections that need storage come first. And a module
without symbols, which has no block to put a debug record together in, has no storage. -/
structure Image.Orderly (image : Image) (alloc init : Bool) : Prop where
  handleless : image.tables_accepted = true → init = false ∨ image.sections = [] →
    image.symbols = []
  fits : image.tables_accepted = true → init = true → image.sections ≠ [] →
    (alloc = false ∧ image.header.df_target_scns ≠ 0) ∨
      (MY_HANDLE_SIZE ≤ handle_size image ∧ image.Contiguous)
  buffered : image.tables_accepted = true → init = true → alloc = true → image.symbols = [] →
    image.Named → ∀ s ∈ image.sections, DS_NEEDS_ALLOCATION s = false

/-- The sections of an orderly image. Unless there was an error, a module without a handle has no
symbols, and one without symbols no section of its own. -/
theorem loadSections_held (cb : Callbacks) (ho : image.Orderly alloc init) (w₀ : World) :
    ∃ grants, Held w₀ alloc grants (loadSections cb image alloc init ⟨w₀, .start⟩) ∧
      (loadSections cb image alloc init ⟨w₀, .start⟩).dlthis.local_symtab = 0 ∧
      ((loadSections cb image alloc init ⟨w₀, .start⟩).dlthis.dload_errcount = 0 →
        ((loadSections cb image alloc init ⟨w₀, .start⟩).dlthis.myhandle = 0 →
          image.symbols = []) ∧ (image.symbols = [] → grants = [])) := by
  unfold loadSections
  have h₁ := loadTables_early cb image w₀
  have hok₁ : (loadTables cb image ⟨w₀, .start⟩).dlthis.dload_errcount = 0 →
    image.tables_accepted := loadTables_ok
  generalize loadTables cb image ⟨w₀, .start⟩ = l₁ at h₁ hok₁ ⊢
  unfold Loading.proceed
  by_cases hzero : l₁.dlthis.dload_errcount = 0
  · rw [if_pos hzero]
    have haccepted := hok₁ hzero
    cases init with
    | false =>
      exact ⟨[], h₁.held alloc, h₁.state.2.1, fun _ =>
        ⟨fun _ => ho.handleless haccepted (.inl rfl), fun _ => rfl⟩⟩
    | true =>
      dsimp only
      rw [if_pos rfl]
      unfold connectAndAllocate
      split
      · have h₂ : Early w₀ ⟨l₁.w.called, { l₁.dlthis with myio := true }⟩ :=
          { h₁ with }
        by_cases hsections : image.sections = []
        · unfold allocate_sections
          rw [if_pos hsections]
          exact ⟨[], h₂.held alloc, h₂.state.2.1, fun _ =>
            ⟨fun _ => ho.handleless haccepted (.inr hsections), fun _ => rfl⟩⟩
        · have hlimit : image.sections.length ≤ MAX_REASONABLE_SECTIONS := by
            simp only [Image.tables_accepted, Image.headers_accepted, Bool.and_eq_true,
              decide_eq_true_eq] at haccepted
            exact haccepted.1.1.2
          obtain ⟨granted, hheld, hsymtab, hok⟩ := allocate_sections_held cb h₂
            (ho.fits haccepted rfl hsections) hlimit hsections
          refine ⟨granted, hheld, hsymtab, fun hzero₂ => ?_⟩
          obtain ⟨hnamed, hneeds, hne⟩ := hok hzero₂
          refine ⟨fun hnone => absurd hnone hne, fun hnosyms => ?_⟩
          cases alloc with
          | false => exact hheld.allocated rfl
          | true =>
            by_contra hgranted
            obtain ⟨s, hs, hyes⟩ := hneeds hgranted
            rw [ho.buffered haccepted rfl rfl hnosyms hnamed s hs] at hyes
            exact Bool.false_ne_true hyes
      · exact ⟨[], (h₁.held alloc).called.error, h₁.state.2.1, fun hzero =>
          absurd hzero (Nat.succ_ne_zero _)⟩
  · rw [if_neg hzero]
    exact ⟨[], h₁.held alloc, h₁.state.2.1, fun h => absurd h hzero⟩

theorem Held.data (h : Held w₀ alloc grants l) : Held w₀ alloc grants (dload_data cb l) :=
  { h with }

/-- What an orderly image has acquired before its handle is complete. Unless there was an error,
a section is granted only if the block of the local symbols is there. -/
theorem loadImage_held (cb : Callbacks) (ho : image.Orderly alloc init) (w₀ : World) :
    ∃ grants, Held w₀ alloc grants (loadImage cb image alloc init ⟨w₀, .start⟩) ∧
      ((loadImage cb image alloc init ⟨w₀, .start⟩).dlthis.dload_errcount = 0 →
        (loadImage cb image alloc init ⟨w₀, .start⟩).dlthis.local_symtab = 0 → grants = []) := by
  obtain ⟨grants, h₂, hsymtab₂, hok₂⟩ := loadSections_held cb ho w₀
  unfold loadImage
  generalize loadSections cb image alloc init ⟨w₀, .start⟩ = l₂ at h₂ hsymtab₂ hok₂ ⊢
  have h₃ : Held w₀ alloc grants (l₂.proceed (dload_symbols cb image)) ∧
      ((l₂.proceed (dload_symbols cb image)).dlthis.dload_errcount = 0 →
        (l₂.proceed (dload_symbols cb image)).dlthis.local_symtab = 0 → grants = []) := by
    unfold Loading.proceed
    split
    · rename_i hzero
      obtain ⟨hhandleless, hnosyms⟩ := hok₂ hzero
      obtain ⟨hheld, hbuffer⟩ :=
        dload_symbols_held cb image h₂ hsymtab₂ hhandleless
      refine ⟨hheld, fun hzero₃ hsymtab₃ => hnosyms ?_⟩
      by_contra hsome
      exact hbuffer hzero₃ hsome hsymtab₃
    · rename_i hzero
      exact ⟨h₂, fun h => absurd h hzero⟩
  generalize l₂.proceed (dload_symbols cb image) = l₃ at h₃ ⊢
  refine ⟨grants, proceed_rule h₃.1 fun _ => ?_, fun hzero hsymtab => ?_⟩
  · split
    · exact h₃.1.data
    · exact h₃.1
  · obtain ⟨hzero₃, heq⟩ := proceed_ok hzero
    refine h₃.2 hzero₃ ?_
    rw [heq] at hsymtab
    split at hsymtab
    · exact hsymtab
    · exact hsymtab

section Handle

variable {hndl mlist : Ptr} {h h' : my_handle} {rest extra : List Ptr}

/-- A change to a handle that the ledger does not show. -/
theorem Recorded.kept (hr : Recorded w₀ w alloc hndl rest extra grants h)
    (hkept : Kept w w') (hb : w'.blocks hndl = .handle h') (hrecord : h'.record = h.record)
    (hdbthis : h'.dm.dbthis = h.dm.dbthis) (hcount : h'.secn_count = h.secn_count)
    (hsecns : h'.secns = h.secns) : Recorded w₀ w' alloc hndl rest extra grants h' where
  new := hr.new
  host := hkept.host ▸ hr.host
  target := by rw [hrecord, hkept.target]; exact hr.target
  symbols := hkept.symbols ▸ hr.symbols
  faults := hkept.faults.trans hr.faults
  handle := hb
  count := by rw [hcount]; exact hr.count
  secns := by rw [hsecns]; exact hr.secns
  allocated := by rw [hdbthis]; exact hr.allocated

theorem Recorded.mem_host (hr : Recorded w₀ w alloc hndl rest extra grants h) : hndl ∈ w.host :=
  hr.host.symm.subset (by simp)

/-- The root that the module has made or found. -/
def RootKnown (w₀ w : World) (extra : List Ptr) (mlist : Ptr) (refcount : UInt16) : Prop :=
  (extra = [mlist] ∧ w.refcount? mlist = some refcount ∧
      w₀.Find_Matching_Symbol (some LOADER_DLLVIEW_ROOT) = none) ∨
    (extra = [] ∧ w₀.Find_Matching_Symbol (some LOADER_DLLVIEW_ROOT) ≠ none)

theorem RootKnown.kept {n : UInt16} (h : RootKnown w₀ w extra mlist n)
    (hkept : Kept w w') : RootKnown w₀ w' extra mlist n :=
  h.imp_left fun hmade => ⟨hmade.1, (hkept.refcount mlist).trans hmade.2.1, hmade.2.2⟩

theorem my_handle.SameHoldings.record (hsame : h.SameHoldings h') : h'.record = h.record := by
  unfold my_handle.record
  rw [hsame.2.1, hsame.2.2.1, hsame.2.2.2.1]

theorem Settled.kept (hs : Settled w₀ w alloc hndl rest extra grants h)
    (hkept : Kept w w') (hb : w'.blocks hndl = .handle h') (hsame : h.SameHoldings h') :
    Settled w₀ w' alloc hndl rest extra grants h' where
  toRecorded := hs.toRecorded.kept hkept hb hsame.record hsame.2.1 hsame.2.2.2.2.1
    hsame.2.2.2.2.2
  rootless := by rw [hsame.1, hsame.2.1]; exact hs.rootless
  root := by rw [hsame.1, hsame.2.1, hkept.refcount]; exact hs.root

/-- The record of a module with storage of its own, after it is written. -/
theorem writeRecord_settled {record : List UInt8} {info : LDR_SECTION_INFO}
    (hwrite : writeRecord cb mlist record info l = some l')
    (hr : Recorded w₀ w alloc hndl rest extra grants h) (hw : l.w = { w with
      target := info.storage :: w.target }) (hmyhandle : l.dlthis.myhandle = hndl)
    (hdbthis : h.dm.dbthis = 0) (hroot : h.dm.hroot = mlist) (hmlist : mlist ≠ 0)
    (hinfo : ({ dllview_info h.dm.dbsiz.toUInt32 with
      load_addr := info.load_addr, context := info.context } : LDR_SECTION_INFO) = info.storage)
    (hplaced : info.load_addr ≠ 0) (halloc : alloc)
    (hknown : RootKnown w₀ w extra mlist 0) :
    (∃ h', Settled w₀ l'.w alloc hndl rest extra grants h') ∧ l'.dlthis = l.dlthis := by
  unfold writeRecord at hwrite
  obtain ⟨w₁, hw₁, hwrite⟩ := bind_eq_some_iff.mp hwrite
  obtain ⟨w₂, hw₂, hwrite⟩ := bind_eq_some_iff.mp hwrite
  rw [hmyhandle] at hw₁ hwrite
  obtain ⟨h₁, hh₁, rfl⟩ := modifyHandle_eq_some.mp hw₁
  obtain rfl : h = h₁ := by
    have hb := (handle?_eq_some.mp hh₁).2
    rw [hw] at hb
    exact Block.handle.inj (hr.handle.symm.trans hb)
  obtain ⟨root, hroot?, rfl⟩ := modifyRoot_eq_some.mp hw₂
  have hne : mlist ≠ hndl := by
    rintro rfl
    rw [root?_of_handle (handle?_setBlock_self (handle?_eq_some.mp hh₁).1)] at hroot?
    cases hroot?
  rw [root?_setBlock_of_ne hne, hw] at hroot?
  have hbase : ∃ h', Settled w₀
      ((l.w.setBlock hndl (.handle { h with
        dm := { h.dm with dbthis := info.load_addr, context := info.context } })).setBlock mlist
        (.root { root with refcount := root.refcount + 1 }))
      alloc hndl rest extra grants h' := by
    rw [hw]
    refine ⟨_, ⟨⟨hr.new, hr.host, ?_, hr.symbols, hr.faults,
      (update_of_ne hne.symm ..).trans (update_self ..), hr.count, hr.secns,
      fun hfalse => ?_⟩, fun hzero => absurd (hroot.symm.trans hzero) hmlist, fun _ => ?_⟩⟩
    · have htarget := hr.target
      rw [my_handle.record, if_pos hdbthis, nil_append] at htarget
      rw [my_handle.record, if_neg hplaced]
      rw [hinfo]
      exact htarget.cons info.storage
    · rw [halloc] at hfalse
      cases hfalse
    · dsimp only
      rw [hroot, if_neg hplaced]
      refine hknown.imp_left fun hmade => ⟨hmade.1, ?_, hmade.2.2⟩
      have hzero : root.refcount = 0 := by
        have hcount := hmade.2.1
        rw [World.refcount?, show w.root? mlist = some root from hroot?] at hcount
        exact some.inj hcount
      exact map_eq_some_iff.mpr ⟨_, root?_eq_some.mpr
        ⟨(root?_eq_some.mp hroot?).1, update_self ..⟩, by rw [hzero]; rfl⟩
  obtain ⟨hA, hbase⟩ := hbase
  generalize (l.w.setBlock hndl _).setBlock mlist _ = w₂ at hbase hwrite
  -- what is left concerns only the contents of target memory and the mirror list
  have hkeep : ∀ w', Kept w₂ w' → (∃ h', w'.blocks hndl = .handle h' ∧ hA.SameHoldings h') →
      ∃ h', Settled w₀ w' alloc hndl rest extra grants h' := by
    rintro w' hkept ⟨h', hb, hsame⟩
    exact ⟨h', hbase.kept hkept hb hsame⟩
  dsimp only at hwrite
  split at hwrite
  · cases hwrite
    exact ⟨hkeep _ kept_writemem ⟨hA, by rw [blocks_writemem]; exact hbase.handle, .refl hA⟩, rfl⟩
  · obtain ⟨root', -, hwrite⟩ := bind_eq_some_iff.mp hwrite
    split at hwrite
    · cases hwrite
      exact ⟨hkeep _ (kept_writemem.trans kept_writemem)
        ⟨hA, by rw [blocks_writemem, blocks_writemem]; exact hbase.handle, .refl hA⟩, rfl⟩
    · obtain ⟨w₄, henqueue, rfl⟩ := map_eq_some_iff.mp hwrite
      exact ⟨hkeep _ ((kept_writemem.trans kept_writemem).trans (kept_enqueue henqueue))
        (holdings_enqueue henqueue (by rw [blocks_writemem, blocks_writemem]; exact hbase.handle)),
        rfl⟩

/-- A module without a debug record whose root is known. -/
theorem Recorded.settled (hr : Recorded w₀ w alloc hndl rest extra grants h)
    (hdbthis : h.dm.dbthis = 0) (hroot : h.dm.hroot = mlist) (hmlist : mlist ≠ 0)
    (hknown : RootKnown w₀ w extra mlist 0) : Settled w₀ w alloc hndl rest extra grants h where
  toRecorded := hr
  rootless hzero := absurd (hroot.symm.trans hzero) hmlist
  root _ := by rw [hroot, if_pos hdbthis]; exact hknown

theorem addRecord_settled (hr : Recorded w₀ l.w alloc hndl rest extra grants h)
    (hmyhandle : l.dlthis.myhandle = hndl) (hdbthis : h.dm.dbthis = 0) (hmlist : mlist ≠ 0)
    (hknown : RootKnown w₀ l.w extra mlist 0)
    (hcount : l.dlthis.allocated_secn_count = grants.length)
    (hbuffer : l.dlthis.local_symtab = 0 → grants = [])
    (hadd : addRecord cb image alloc mlist l = some l') :
    (∃ h', Settled w₀ l'.w alloc hndl rest extra grants h') ∧ l'.dlthis = l.dlthis := by
  unfold addRecord at hadd
  obtain ⟨w₁, hw₁, hadd⟩ := bind_eq_some_iff.mp hadd
  have hkept₁ := kept_modifyHandle hw₁
  obtain ⟨h₁, hh₁, rfl⟩ := modifyHandle_eq_some.mp hw₁
  rw [hmyhandle] at hh₁ hkept₁ hadd
  obtain rfl := Block.handle.inj (hr.handle.symm.trans (handle?_eq_some.mp hh₁).2)
  have hr₁ := hr.kept hkept₁ (update_self ..) (by rfl) rfl rfl rfl
  have hknown₁ := hknown.kept hkept₁
  generalize l.w.setBlock hndl _ = w₁ at hadd hr₁ hknown₁
  split at hadd
  · cases hadd
    exact ⟨⟨_, hr₁.settled hdbthis rfl hmlist hknown₁⟩, rfl⟩
  rename_i hallocated
  split at hadd
  · rename_i hsymtab
    rw [hcount, hbuffer hsymtab] at hallocated
    exact absurd rfl hallocated
  obtain ⟨root, -, hadd⟩ := bind_eq_some_iff.mp hadd
  obtain ⟨link, -, hadd⟩ := bind_eq_some_iff.mp hadd
  obtain ⟨h₂, -, hadd⟩ := bind_eq_some_iff.mp hadd
  obtain ⟨w₂, hw₂, hadd⟩ := bind_eq_some_iff.mp hadd
  have hkept₂ := kept_modifyHandle hw₂
  obtain ⟨h₃, hh₃, rfl⟩ := modifyHandle_eq_some.mp hw₂
  obtain rfl := Block.handle.inj (hr₁.handle.symm.trans (handle?_eq_some.mp hh₃).2)
  have hr₂ := hr₁.kept hkept₂ (update_self ..)
    (by rw [my_handle.record, my_handle.record, if_pos hdbthis, if_pos hdbthis]) rfl rfl rfl
  have hknown₂ := hknown₁.kept hkept₂
  generalize w₁.setBlock hndl _ = w₂ at hadd hr₂ hknown₂
  have hnone : ∃ h', Settled w₀ w₂ alloc hndl rest extra grants h' :=
    ⟨_, hr₂.settled hdbthis rfl hmlist hknown₂⟩
  cases alloc with
  | false =>
    cases hadd
    exact ⟨hnone, rfl⟩
  | true =>
    rw [if_pos rfl] at hadd
    rcases alloc_cases cb w₂ (dllview_info (UInt16.ofNat l.dlthis.recordSize).toUInt32) with
      hrefused | ⟨info, hgranted, hsize, hpage, htype, hplaced⟩
    · rw [hrefused] at hadd
      cases hadd
      obtain ⟨h', hs⟩ := hnone
      exact ⟨⟨h', hs.kept (kept_called w₂) hs.handle (.refl h')⟩, rfl⟩
    · rw [hgranted] at hadd
      have hrcalled := hr₂.kept (kept_called w₂) hr₂.handle rfl rfl rfl rfl
      have hinfo : ({ dllview_info (UInt16.ofNat l.dlthis.recordSize).toUInt32 with
          load_addr := info.load_addr, context := info.context } : LDR_SECTION_INFO) =
          info.storage := by
        unfold LDR_SECTION_INFO.storage
        rw [hsize, hpage, htype]
        rfl
      have hwritten := writeRecord_settled hadd hrcalled rfl hmyhandle hdbthis rfl hmlist hinfo
        (hplaced rfl) rfl (hknown₂.kept (kept_called w₂))
      exact hwritten

/-- The root of the mirror list: found, missing, or made. -/
theorem findRoot_cases (cb : Callbacks) (l : Loading) :
    (∃ sym, l.w.Find_Matching_Symbol (some LOADER_DLLVIEW_ROOT) = some sym ∧
        findRoot cb l = (some sym.value, l)) ∨
      (∃ l', findRoot cb l = (none, l') ∧ l'.w.host = l.w.host ∧ l'.w.target = l.w.target ∧
        l'.w.symbols = l.w.symbols ∧ l'.w.faults = l.w.faults ∧
        (∀ p ∈ l.w.host, l'.w.blocks p = l.w.blocks p) ∧
        ∃ errs, l'.dlthis = { l.dlthis with dload_errcount := errs }) ∨
      (∃ p root w', l.w.Find_Matching_Symbol (some LOADER_DLLVIEW_ROOT) = none ∧ p ≠ 0 ∧
        p ∉ l.w.host ∧ root.refcount = 0 ∧ findRoot cb l = (some (.root p), ⟨w', l.dlthis⟩) ∧
        w'.host = p :: l.w.host ∧ w'.target = l.w.target ∧ w'.faults = l.w.faults ∧
        w'.symbols = ⟨LOADER_DLLVIEW_ROOT, .root p, l.dlthis.myhandle⟩ :: l.w.symbols ∧
        w'.blocks = update l.w.blocks p (.root root)) := by
  unfold findRoot
  cases hroot : l.w.Find_Matching_Symbol (some LOADER_DLLVIEW_ROOT) with
  | some sym => exact .inl ⟨sym, rfl, rfl⟩
  | none =>
    refine .inr ?_
    cases hheader : l.w.Find_Matching_Symbol (some LINKER_MODULES_HEADER) with
    | none => exact .inl ⟨l, rfl, rfl, rfl, rfl, rfl, fun _ _ => rfl, _, rfl⟩
    | some dlmodsym =>
      rcases Allocate_cases cb l.w sizeof_dbg_mirror_root with hp | ⟨p, hp, hnew, hw⟩
      · rw [hp]
        exact .inl ⟨_, rfl, rfl, rfl, rfl, rfl, fun _ _ => rfl, _, rfl⟩
      · rw [hw]
        dsimp only
        rw [if_neg hp]
        unfold World.Add_To_Symbol_Table
        split
        · dsimp only
          rw [if_pos rfl]
          exact .inr ⟨p, _, _, rfl, hp, hnew, rfl, rfl, rfl, rfl, rfl, rfl, update_idem ..⟩
        · dsimp only
          rw [if_neg Bool.false_ne_true, Deallocate_cons l.w.host rfl]
          refine .inl ⟨_, rfl, rfl, rfl, rfl, rfl, fun q hq => ?_, _, rfl⟩
          have hne : q ≠ p := fun heq => hnew (heq ▸ hq)
          exact (update_of_ne hne ..).trans (update_of_ne hne ..)

/-- The section count of a handle, above the byte-order flag. -/
theorem secn_count_shift {n : Nat} (hn : n ≤ MAX_REASONABLE_SECTIONS) (big : Bool) :
    ((UInt16.ofNat (2 * n) + if big then 1 else 0) >>> 1).toNat = n := by
  have hlimit : n ≤ 200 := hn
  cases big <;> simp [UInt16.toNat_shiftRight, UInt16.toNat_add] <;> omega

theorem Held.recorded (h : Held w₀ alloc grants l) (hne : l.dlthis.myhandle ≠ 0) {big : Bool}
    (hw : l.w.modifyHandle l.dlthis.myhandle (fun h => { h with
      secn_count := UInt16.ofNat (2 * l.dlthis.allocated_secn_count) + if big then 1 else 0 }) =
      some w) :
    ∃ hndl, Recorded w₀ w alloc l.dlthis.myhandle l.dlthis.tables [] grants hndl ∧
      hndl.dm.hroot = 0 ∧ hndl.dm.dbthis = 0 := by
  obtain ⟨hnew, hndl, hb, hroot, hdbthis, hsecns⟩ := h.handle hne
  obtain ⟨hndl', hh', rfl⟩ := modifyHandle_eq_some.mp hw
  obtain rfl := Block.handle.inj (hb.symm.trans (handle?_eq_some.mp hh').2)
  obtain ⟨added, hsymbols, hadded⟩ := h.symbols
  refine ⟨_, ⟨⟨hne, hnew⟩, ?_, ?_, ⟨added, hsymbols, fun s hs => (hadded s hs).1⟩, h.faults,
    update_self .., ?_, hsecns, fun halloc => ⟨h.allocated halloc, hdbthis⟩⟩, hroot, hdbthis⟩
  · have hhost := h.host
    rwa [own_of_ne hne] at hhost
  · rw [my_handle.record, if_pos hdbthis]
    exact h.target
  · dsimp only
    rw [h.count]
    exact secn_count_shift h.bound big

/-- The symbol found is the last one of its name in the table before the load, if it is not one of
the image. -/
theorem find_old {added : List Symbol} {name : List UInt8} {sym : Symbol} {p : Ptr}
    (hfind : w.Find_Matching_Symbol (some name) = some sym)
    (hsymbols : w.symbols = added ++ w₀.symbols)
    (hadded : ∀ s ∈ added, ∃ value, s.value = .addr value) (hvalue : sym.value = .root p) :
    w₀.Find_Matching_Symbol (some name) ≠ none := by
  intro hnone
  have hmem := mem_of_find?_eq_some hfind
  have hname := find?_some hfind
  rw [hsymbols, mem_append] at hmem
  rcases hmem with hmem | hmem
  · obtain ⟨value, haddr⟩ := hadded sym hmem
    rw [hvalue] at haddr
    cases haddr
  · exact find?_eq_none.mp hnone sym hmem hname

/-- After `init_module_handle` the handle is complete. -/
theorem init_module_handle_settled (h : Held w₀ alloc grants l) (hne : l.dlthis.myhandle ≠ 0)
    (hbuffer : l.dlthis.dload_errcount = 0 → l.dlthis.local_symtab = 0 → grants = [])
    (hinit : init_module_handle cb image alloc l = some l') :
    (∃ extra hndl, Settled w₀ l'.w alloc l.dlthis.myhandle l.dlthis.tables extra grants hndl) ∧
      ∃ errs, l'.dlthis = { l.dlthis with dload_errcount := errs } := by
  unfold init_module_handle at hinit
  rw [if_neg hne] at hinit
  obtain ⟨w₁, hw₁, hinit⟩ := bind_eq_some_iff.mp hinit
  have hkept := kept_modifyHandle hw₁
  obtain ⟨hndl, hr, hroot, hdbthis⟩ := h.recorded hne hw₁
  have hrootless : ∀ w', Recorded w₀ w' alloc l.dlthis.myhandle l.dlthis.tables [] grants hndl →
      ∃ extra hndl, Settled w₀ w' alloc l.dlthis.myhandle l.dlthis.tables extra grants hndl :=
    fun w' hr' => ⟨[], hndl, hr', fun _ => ⟨rfl, hdbthis⟩, fun hsome => absurd hroot hsome⟩
  dsimp only at hinit
  split at hinit
  · cases hinit
    exact ⟨hrootless w₁ hr, _, rfl⟩
  rename_i hzero
  have hzero : l.dlthis.dload_errcount = 0 := not_not.mp hzero
  obtain ⟨added, hsymbols, hadded⟩ := h.symbols
  rcases findRoot_cases cb ⟨w₁, l.dlthis⟩ with ⟨sym, hfind, heq⟩ |
    ⟨l₂, heq, hhost, htarget, hsymbols₂, hfaults, hblocks, errs, hstate⟩ |
    ⟨p, root, w₂, hfind, hp, hnew, hcount, heq, hhost, htarget, hfaults, hsymbols₂, hblocks⟩
  · rw [heq] at hinit
    cases hvalue : sym.value with
    | addr value =>
      rw [hvalue] at hinit
      dsimp only at hinit
      split at hinit
      · cases hinit
        exact ⟨hrootless w₁ hr, _, rfl⟩
      · cases hinit
    | root mlist =>
      rw [hvalue] at hinit
      dsimp only at hinit
      split at hinit
      · cases hinit
        exact ⟨hrootless w₁ hr, _, rfl⟩
      · rename_i hmlist
        have hold :=
          find_old hfind (hkept.symbols.trans hsymbols) (fun s hs => (hadded s hs).2) hvalue
        obtain ⟨⟨hndl', hs⟩, hstate⟩ :=
          addRecord_settled (l := ⟨w₁, l.dlthis⟩) hr rfl hdbthis hmlist
          (.inr ⟨rfl, hold⟩) h.count (hbuffer hzero) hinit
        exact ⟨⟨[], hndl', hs⟩, _, hstate⟩
  · rw [heq] at hinit
    cases hinit
    refine ⟨hrootless _ ⟨hr.new, ?_, ?_, ?_, hfaults.trans hr.faults, ?_, hr.count, hr.secns,
      hr.allocated⟩, errs, hstate⟩
    · rw [hhost]
      exact hr.host
    · rw [htarget]
      exact hr.target
    · rw [hsymbols₂]
      exact hr.symbols
    · exact (hblocks _ hr.mem_host).trans hr.handle
  · rw [heq] at hinit
    dsimp only at hinit
    rw [if_neg hp] at hinit
    have hother : l.dlthis.myhandle ≠ p := fun heq => hnew (heq ▸ hr.mem_host)
    have hnone : w₀.Find_Matching_Symbol (some LOADER_DLLVIEW_ROOT) = none := by
      have hall := find?_eq_none.mp hfind
      refine find?_eq_none.mpr fun s hs => hall s ?_
      show s ∈ w₁.symbols
      rw [hkept.symbols, hsymbols]
      exact mem_append_right _ hs
    have hr₂ : Recorded w₀ w₂ alloc l.dlthis.myhandle l.dlthis.tables [p] grants hndl := by
      refine ⟨hr.new, ?_, ?_, ?_, hfaults.trans hr.faults, ?_, hr.count, hr.secns, hr.allocated⟩
      · rw [hhost]
        exact (hr.host.cons p).trans perm_middle.symm
      · rw [htarget]
        exact hr.target
      · obtain ⟨posted, hposted, hids⟩ := hr.symbols
        refine ⟨_ :: posted, by rw [hsymbols₂]; exact congrArg _ hposted, fun s hs => ?_⟩
        rcases mem_cons.mp hs with rfl | hs
        · rfl
        · exact hids s hs
      · rw [hblocks]
        exact (update_of_ne hother ..).trans hr.handle
    have hknown : RootKnown w₀ w₂ [p] p 0 := by
      refine .inl
        ⟨rfl, map_eq_some_iff.mpr ⟨root, root?_eq_some.mpr ⟨?_, ?_⟩, hcount⟩, hnone⟩
      · rw [hhost]
        exact mem_cons_self
      · rw [hblocks]
        exact update_self ..
    obtain ⟨⟨hndl', hs⟩, hstate⟩ := addRecord_settled (l := ⟨w₂, l.dlthis⟩) hr₂ rfl hdbthis
      hp hknown
      h.count (hbuffer hzero) hinit
    exact ⟨⟨[p], hndl', hs⟩, _, hstate⟩

end Handle

end OmapHal.Dynload
