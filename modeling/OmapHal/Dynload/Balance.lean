import OmapHal.Dynload.Complete

/-!
# Loads balance

A load that fails gives back everything, and so does unloading a module that was loaded, exactly
for the images that are orderly: whatever the stream, the allocators and the initializer answer,
and whatever was loaded before.
-/

namespace OmapHal.Dynload

open Nat Option List

section Balance

variable {cb : Callbacks} {image : Image} {alloc init : Bool} {w₀ w : World} {l l' : Loading}
  {grants : List LDR_SECTION_INFO}

/-- A load that returns errors leaves the ledger as it was, and so does a load without errors
followed by unloading its handle. -/
def Balances (cb : Callbacks) (image : Image) (alloc init : Bool) (w : World) : Prop :=
  ∀ r, Dynamic_Load_Module cb image alloc init w = some r →
    (r.errcount ≠ 0 → Balanced w r.w) ∧
      (r.errcount = 0 → ∀ cb' errs w',
        Dynamic_Unload_Module cb' alloc init r.mhandle r.w = some (errs, w') → Balanced w w')

theorem executeEntry_cases (cb : Callbacks) (image : Image) (l : Loading) :
    (executeEntry cb image l).w = l.w ∨ (executeEntry cb image l).w = l.w.called := by
  unfold executeEntry
  split
  · dsimp only
    split
    · exact .inr rfl
    · exact .inr rfl
  · exact .inl rfl

theorem executeEntry_state (cb : Callbacks) (image : Image) (l : Loading) :
    ∃ errs, (executeEntry cb image l).dlthis = { l.dlthis with dload_errcount := errs } := by
  unfold executeEntry
  split
  · dsimp only
    split
    · exact ⟨_, rfl⟩
    · exact ⟨_, rfl⟩
  · exact ⟨_, rfl⟩

section Tables

variable {hndl : Ptr} {extra : List Ptr} {h : my_handle}

/-- The tables of a load are given back without a fault. -/
theorem freeTables_perm (rest : List Ptr) (hhost : l.w.host.Perm (l.dlthis.tables ++ rest)) :
    (freeTables l).host.Perm rest ∧ (freeTables l).faults = l.w.faults ∧
      (freeTables l).target = l.w.target ∧ (freeTables l).blocks = l.w.blocks := by
  unfold dload_state.tables at hhost
  rw [append_assoc, append_assoc] at hhost
  have hsymtab : (symbol_table_free l).host.Perm
        (own l.dlthis.sect_hdrs ++ (own l.dlthis.str_head ++ rest)) ∧
      (symbol_table_free l).faults = l.w.faults ∧ (symbol_table_free l).target = l.w.target ∧
      (symbol_table_free l).blocks = l.w.blocks := by
    unfold symbol_table_free
    split
    · rename_i hzero
      rw [hzero] at hhost
      exact ⟨hhost, rfl, rfl, rfl⟩
    · rename_i hne
      rw [own_of_ne hne] at hhost
      rw [Deallocate_target, Deallocate_blocks]
      split
      · have hfree := Deallocate_perm hhost
        exact ⟨hfree.1, hfree.2, rfl, rfl⟩
      · have hfree := Deallocate_perm (w := l.w.Purge_Symbol_Table l.dlthis.myhandle) hhost
        exact ⟨hfree.1, hfree.2, rfl, rfl⟩
  unfold freeTables
  have hsect := free_perm hsymtab.1
  have hstr := free_perm hsect.1
  refine ⟨hstr.1, hstr.2.trans (hsect.2.trans hsymtab.2.1), ?_, ?_⟩
  · rw [free_target, free_target, hsymtab.2.2.1]
  · rw [free_blocks, free_blocks, hsymtab.2.2.2]

/-- A failed load takes its symbols back with the table of the local ones. -/
theorem freeTables_symbols (l : Loading) :
    (freeTables l).symbols = l.w.symbols ∨ l.dlthis.local_symtab ≠ 0 ∧
      (freeTables l).symbols = (l.w.Purge_Symbol_Table l.dlthis.myhandle).symbols := by
  unfold freeTables symbol_table_free
  rw [free_symbols, free_symbols]
  split
  · exact .inl rfl
  · rename_i hne
    rw [Deallocate_symbols]
    split
    · exact .inl rfl
    · exact .inr ⟨hne, rfl⟩

theorem freeTables_settled (hw : w₀.Sound)
    (hs : Settled w₀ l.w alloc hndl l.dlthis.tables extra grants h)
    (hmyhandle : l.dlthis.myhandle = hndl) :
    Settled w₀ (freeTables l) alloc hndl [] extra grants h := by
  obtain ⟨hhost, hfaults, htarget, hblocks⟩ := freeTables_perm _ hs.host
  refine ⟨⟨hs.new, hhost, by rw [htarget]; exact hs.target, ?_, hfaults.trans hs.faults,
    by rw [hblocks]; exact hs.handle, hs.count, hs.secns, hs.allocated⟩, hs.rootless,
    fun hroot => ?_⟩
  · rcases freeTables_symbols l with hsame | ⟨-, hpurged⟩
    · rw [hsame]
      exact hs.symbols
    · obtain ⟨added, hsymbols, hadded⟩ := hs.symbols
      refine ⟨[], ?_, fun _ hs => (nomatch hs)⟩
      rw [hpurged, hmyhandle]
      exact purge_symbols hw hs.new hsymbols hadded
  · refine (hs.root hroot).imp_left fun ⟨hextra, hcount, hnone⟩ => ⟨hextra, ?_, hnone⟩
    obtain ⟨root, hroot?, hrefcount⟩ := map_eq_some_iff.mp hcount
    refine map_eq_some_iff.mpr ⟨root, root?_eq_some.mpr ⟨hhost.symm.subset ?_, ?_⟩,
      hrefcount⟩
    · rw [hextra]
      exact mem_cons_self
    · rw [hblocks]
      exact (root?_eq_some.mp hroot?).2

end Tables

/-- Orderly images balance. -/
theorem Image.Orderly.balances (ho : image.Orderly alloc init) (hw : w₀.Sound) :
    Balances cb image alloc init w₀ := by
  intro r hr
  unfold Dynamic_Load_Module at hr
  obtain ⟨grants, hheld, hbuffer⟩ := loadImage_held cb ho w₀
  obtain ⟨l₁, hinit, hr⟩ := bind_eq_some_iff.mp hr
  generalize loadImage cb image alloc init ⟨w₀, .start⟩ = l at hheld hbuffer hinit
  obtain ⟨errs, hstate⟩ := executeEntry_state cb image l₁
  have hexec := executeEntry_cases cb image l₁
  generalize executeEntry cb image l₁ = l₂ at hr hstate hexec
  dsimp only at hr
  by_cases hne : l.dlthis.myhandle = 0
  · unfold init_module_handle at hinit
    rw [if_pos hne] at hinit
    cases hinit
    obtain ⟨hsymtab, hsymbols, hgrants⟩ := hheld.handleless hne
    have hhost : l₂.w.host.Perm (l₂.dlthis.tables ++ w₀.host) := by
      have hheldHost := hheld.host
      rw [hne] at hheldHost
      rw [hstate]
      rcases hexec with heq | heq <;> rw [heq] <;> exact hheldHost
    obtain ⟨hhost', hfaults', htarget', -⟩ := freeTables_perm _ hhost
    have hbalanced : Balanced w₀ (freeTables l₂) := by
      refine ⟨hhost', ?_, ?_, ?_⟩
      · have htarget := hheld.target
        rw [hgrants] at htarget
        rw [htarget']
        rcases hexec with heq | heq <;> rw [heq] <;> exact htarget
      · rcases freeTables_symbols l₂ with hsame | ⟨hsome, -⟩
        · rw [hsame]
          rcases hexec with heq | heq <;> rw [heq] <;> exact hsymbols
        · rw [hstate] at hsome
          exact absurd hsymtab hsome
      · rw [hfaults']
        rcases hexec with heq | heq <;> rw [heq] <;> exact hheld.faults
    have hmyhandle : l₂.dlthis.myhandle = 0 := by rw [hstate]; exact hne
    rw [hmyhandle] at hr
    split at hr
    · cases hr
      refine ⟨fun h => absurd rfl h, fun _ cb' e w' hunload => ?_⟩
      cases hunload
      exact hbalanced
    · rename_i herrs
      cases hr
      exact ⟨fun _ => hbalanced, fun h => absurd h herrs⟩
  · obtain ⟨⟨extra, hndl, hs⟩, errs₁, hstate₁⟩ := init_module_handle_settled hheld hne hbuffer hinit
    have hmyhandle : l₂.dlthis.myhandle = l.dlthis.myhandle := by rw [hstate, hstate₁]
    have htables : l₂.dlthis.tables = l.dlthis.tables := by rw [hstate, hstate₁]; rfl
    have hs₂ : Settled w₀ l₂.w alloc l.dlthis.myhandle l₂.dlthis.tables extra grants hndl := by
      rw [htables]
      rcases hexec with heq | heq <;> rw [heq]
      · exact hs
      · exact hs.kept (kept_called l₁.w) hs.handle (.refl hndl)
    have hfreed := freeTables_settled hw hs₂ hmyhandle
    rw [hmyhandle] at hr
    split at hr
    · cases hr
      exact ⟨fun h => absurd rfl h, fun _ cb' e w' hunload => unload_balanced hw hfreed hunload⟩
    · rename_i herrs
      obtain ⟨⟨e, w'⟩, hunload, hr⟩ := bind_eq_some_iff.mp hr
      cases hr
      exact ⟨fun _ => unload_balanced hw hfreed hunload, fun h => absurd h herrs⟩

end Balance

/-!
## Loads that are granted everything

Callbacks that grant what they are asked for, and a load with them up to its sections. A fault is
never made good.
-/

section Obliging

variable {cb : Callbacks} {image : Image} {alloc init : Bool} {w₀ w w' : World} {l : Loading}

section Faults

theorem faults_le_Deallocate (w : World) (p : Ptr) : w.faults ≤ (w.Deallocate p).faults := by
  unfold World.Deallocate
  split
  · exact le_refl _
  · exact le_succ _

theorem faults_le_dealloc (w : World) (info : LDR_SECTION_INFO) :
    w.faults ≤ (w.dealloc info).faults := by
  unfold World.dealloc
  split
  · exact le_refl _
  · exact le_succ _

theorem faults_le_deallocSections (n : Nat) (secns : List (Option LDR_SECTION_INFO)) (w : World) :
    w.faults ≤ (w.deallocSections n secns).faults := by
  induction n generalizing secns w with
  | zero => exact le_refl _
  | succ n ih =>
    match secns with
    | [] => exact le_trans (le_succ _) (ih [] w.fault)
    | none :: secns => exact le_trans (le_succ _) (ih secns w.fault)
    | some asecs :: secns => exact le_trans (faults_le_dealloc w asecs) (ih secns _)

/-- A place of the section table that was never written is given back as a fault. -/
theorem written_of_deallocSections {n : Nat} {secns : List (Option LDR_SECTION_INFO)}
    (h : (w.deallocSections n secns).faults ≤ w.faults) :
    ∀ j < n, (secns.getD j none).isSome = true := by
  induction n generalizing secns w with
  | zero => exact fun j hj => absurd hj (not_lt_zero j)
  | succ n ih =>
    match secns with
    | [] =>
      have hle := faults_le_deallocSections n [] w.fault
      have hfault : w.fault.faults = w.faults + 1 := rfl
      exact absurd (le_trans hle h) (by omega)
    | none :: secns =>
      have hle := faults_le_deallocSections n secns w.fault
      have hfault : w.fault.faults = w.faults + 1 := rfl
      exact absurd (le_trans hle h) (by omega)
    | some asecs :: secns =>
      have hrest := ih (show (World.deallocSections n secns (w.dealloc asecs)).faults ≤
        (w.dealloc asecs).faults from le_trans h (faults_le_dealloc w asecs))
      intro j hj
      cases j with
      | zero => rfl
      | succ j => exact hrest j (by omega)

theorem faults_le_leaveRoot {mhandle : Ptr} {h : my_handle} {e : Nat}
    (hleave : w.leaveRoot cb alloc init mhandle h = some (e, w')) : w.faults ≤ w'.faults := by
  unfold World.leaveRoot at hleave
  split at hleave
  · cases hleave
    exact le_refl _
  obtain ⟨⟨e₁, w₁⟩, hdrop, hleave⟩ := bind_eq_some_iff.mp hleave
  obtain ⟨root, -, hleave⟩ := bind_eq_some_iff.mp hleave
  have hle : w.faults ≤ w₁.faults := by
    unfold World.dropRecord at hdrop
    split at hdrop
    · cases hdrop
      exact le_refl _
    obtain ⟨⟨e₂, w₂⟩, hunlist, hdrop⟩ := bind_eq_some_iff.mp hdrop
    obtain ⟨w₃, hmodify, hdrop⟩ := bind_eq_some_iff.mp hdrop
    cases hdrop
    obtain ⟨root', -, rfl⟩ := modifyRoot_eq_some.mp hmodify
    rw [← (kept_unlist hunlist).faults]
    show w₂.faults ≤ (if alloc = true then w₂.dealloc _ else w₂).faults
    split
    · exact faults_le_dealloc ..
    · exact le_refl _
  split at hleave
  · cases hleave
    exact le_trans hle (faults_le_Deallocate _ _)
  · cases hleave
    exact hle

theorem faults_le_unload {mhandle : Ptr} {e : Nat}
    (h : Dynamic_Unload_Module cb alloc init mhandle w = some (e, w')) : w.faults ≤ w'.faults := by
  unfold Dynamic_Unload_Module at h
  split at h
  · cases h
    exact le_refl _
  obtain ⟨hndl, -, h⟩ := bind_eq_some_iff.mp h
  obtain ⟨⟨e₁, w₁⟩, hleave, h⟩ := bind_eq_some_iff.mp h
  cases h
  refine le_trans ?_ (le_trans (faults_le_leaveRoot hleave) (faults_le_Deallocate _ _))
  split
  · exact faults_le_deallocSections _ _ (w.Purge_Symbol_Table mhandle)
  · exact le_refl _

end Faults

theorem lt_fresh {p : Ptr} {host : List Ptr} (h : p ∈ host) : p < host.foldr max 0 + 1 := by
  induction host with
  | nil => cases h
  | cons q host ih =>
    rw [foldr_cons]
    rcases mem_cons.mp h with rfl | h
    · exact lt_succ_of_le (le_max_left ..)
    · exact lt_of_lt_of_le (ih h) (succ_le_succ (le_max_right ..))

/-- Callbacks that grant everything, except reads as `readable` says, and report `errs` errors for
the section data. -/
def obliging (readable : World → Bool) (errs : Nat) : Callbacks where
  read_buffer := readable
  Allocate w _ := w.host.foldr max 0 + 1
  Add_To_Symbol_Table _ _ := true
  alloc _ _ := some (1, 1, 0)
  connect _ := true
  writemem _ := true
  execute _ := true
  dload_data _ := ([], errs)
  fresh w _ _ hin := Nat.lt_irrefl _ (lt_fresh hin)
  placed _ _ _ load _ _ h := by
    obtain rfl : (1 : LDR_ADDR) = load := congrArg (fun answer => answer.2.1) (Option.some.inj h)
    decide

/-- A world in which nothing is in use. -/
def World.empty (symbols : List Symbol) : World where
  host := []
  blocks _ := .raw
  target := []
  symbols := symbols
  mem _ := 0
  calls := 0
  faults := 0

section Obliging

variable {readable : World → Bool} {errs : Nat}

theorem obliging_Allocate (readable : World → Bool) (errs : Nat) (w : World) (siz : Nat) :
    ∃ p, p ≠ 0 ∧ p ∉ w.host ∧ w.Allocate (obliging readable errs) siz =
      (p, { w.called.setBlock p .raw with host := p :: w.host }) := by
  rcases Allocate_cases (obliging readable errs) w siz with hp | h
  · exact absurd (congrArg Prod.fst hp) (succ_ne_zero _)
  · exact h

/-- The blocks of the string table and of the section headers. -/
def Image.tableBlocks (image : Image) : Nat :=
  if DOFF_ALIGN image.header.df_strtab_size.toNat = 0 then 1 else 2

theorem dload_headers_obliging (haccepted : image.headers_accepted)
    (hread : readable l.w) :
    dload_headers (obliging readable errs) image l =
      ⟨l.w.called, { l.dlthis with big_e_target := image.header.df_flags &&& DF_BIG != 0 }⟩ := by
  unfold dload_headers Loading.read_buffer
  dsimp only
  rw [if_neg]
  rw [haccepted, show (obliging readable errs).read_buffer l.w = true from hread]
  decide

theorem dload_strings_obliging (readable : World → Bool) (errs : Nat)
    (hchecksum : DOFF_ALIGN image.header.df_strtab_size.toNat = 0 ∨
      image.strings_checksum_ok)
    (hread : ∀ w : World, w.host.length = l.w.host.length + 1 → readable w) :
    ∃ w' p, dload_strings (obliging readable errs) image l = ⟨w', { l.dlthis with str_head := p }⟩ ∧
      w'.host.length + 1 = l.w.host.length + image.tableBlocks := by
  unfold dload_strings Image.tableBlocks
  dsimp only
  split
  · exact ⟨l.w, l.dlthis.str_head, rfl, rfl⟩
  rename_i hsome
  obtain ⟨p, hp, -, hw⟩ := obliging_Allocate readable errs l.w
    (DOFF_ALIGN image.header.df_strtab_size.toNat)
  rw [hw]
  dsimp only
  rw [if_neg hp]
  unfold Loading.read_buffer
  rw [show (obliging readable errs).read_buffer _ = true from hread _ rfl,
    hchecksum.resolve_left hsome]
  exact ⟨_, p, rfl, rfl⟩

theorem dload_sections_obliging (readable : World → Bool) (errs : Nat)
    (hchecksum : image.sections_checksum_ok)
    (hread : ∀ w : World, w.host.length = l.w.host.length + 1 → readable w) :
    ∃ w' p, dload_sections (obliging readable errs) image l =
        ⟨w', { l.dlthis with sect_hdrs := p, headers := image.sections }⟩ ∧
      w'.host.length = l.w.host.length + 1 := by
  unfold dload_sections
  dsimp only
  obtain ⟨p, hp, -, hw⟩ := obliging_Allocate readable errs l.w
    (image.sections.length * sizeof_doff_scnhdr_t)
  rw [hw]
  dsimp only
  rw [if_neg hp]
  unfold Loading.read_buffer
  rw [show (obliging readable errs).read_buffer _ = true from hread _ rfl, hchecksum]
  exact ⟨_, p, rfl, rfl⟩

/-- The tables of an accepted image are read without an error. -/
theorem loadTables_obliging (readable : World → Bool) (errs : Nat)
    (haccepted : image.tables_accepted) (symbols : List Symbol)
    (hread : ∀ w : World, w.host.length ≤ image.tableBlocks → readable w) :
    (loadTables (obliging readable errs) image ⟨.empty symbols, .start⟩).dlthis.dload_errcount = 0 ∧
      (loadTables (obliging readable errs) image ⟨.empty symbols, .start⟩).w.host.length =
        image.tableBlocks := by
  unfold Image.tables_accepted at haccepted
  obtain ⟨hfirst, hsections⟩ := Bool.and_eq_true_iff.mp haccepted
  obtain ⟨hheaders, hstrings⟩ := Bool.and_eq_true_iff.mp hfirst
  rw [Bool.or_eq_true, beq_iff_eq] at hstrings
  have hsome : 1 ≤ image.tableBlocks := by
    unfold Image.tableBlocks
    split
    · exact le_refl 1
    · exact le_succ 1
  unfold loadTables
  rw [dload_headers_obliging hheaders (hread _ (zero_le _))]
  unfold Loading.proceed
  rw [if_pos (show dload_state.start.dload_errcount = 0 from rfl)]
  obtain ⟨w₁, p, heq, hlen⟩ := dload_strings_obliging readable errs
    (l := ⟨(World.empty symbols).called,
      { dload_state.start with big_e_target := image.header.df_flags &&& DF_BIG != 0 }⟩) hstrings
    fun w hw => hread w (hw.symm ▸ hsome)
  rw [heq, if_pos (show dload_state.start.dload_errcount = 0 from rfl)]
  have hlen₁ : w₁.host.length + 1 = image.tableBlocks := hlen.trans (zero_add _)
  obtain ⟨w₂, q, heq₂, hlen₂⟩ := dload_sections_obliging readable errs
    (l := ⟨w₁, { dload_state.start with
      big_e_target := image.header.df_flags &&& DF_BIG != 0, str_head := p }⟩) hsections
    fun w hw => hread w (le_of_eq (hw.trans hlen₁))
  rw [heq₂]
  exact ⟨rfl, hlen₂.trans hlen₁⟩

end Obliging

/-- A load that has had errors unloads what it has. -/
theorem load_failed {e : Nat}
    (hinit : init_module_handle cb image alloc (loadImage cb image alloc init ⟨w, .start⟩) = some l)
    (herrcount : l.dlthis.dload_errcount ≠ 0)
    (hunload : Dynamic_Unload_Module cb alloc init l.dlthis.myhandle (freeTables l) =
      some (e, w')) :
    Dynamic_Load_Module cb image alloc init w = some ⟨l.dlthis.dload_errcount, 0, w'⟩ := by
  have hexec : executeEntry cb image l = l := by
    unfold executeEntry
    rw [if_neg (by simp [herrcount])]
  unfold Dynamic_Load_Module
  simp only [hinit, bind_eq_bind, bind_some, hexec, if_neg herrcount, hunload]

/-- A load without a handle that fails in its symbols takes back symbols that it did not post. -/
theorem not_balances_of_handleless (haccepted : image.tables_accepted)
    (hnone : init = false ∨ image.sections = []) (hsymbols : image.symbols ≠ []) :
    ¬Balances (obliging (fun w => w.host.length ≤ image.tableBlocks) 0) image alloc init
      (.empty [⟨[], .addr 0, 0⟩]) := by
  set cb := obliging (fun w => w.host.length ≤ image.tableBlocks) 0 with hcb
  set w₀ := World.empty [⟨[], .addr 0, 0⟩] with hw₀
  obtain ⟨hzero, hlen⟩ := loadTables_obliging (fun w => w.host.length ≤ image.tableBlocks) 0
    haccepted
    [⟨[], .addr 0, 0⟩] fun w hw => decide_eq_true hw
  have hearly := loadTables_early cb image w₀
  -- the load up to its symbols
  obtain ⟨l₂, hsections, hearly₂, hzero₂, hlen₂⟩ : ∃ l₂,
      loadSections cb image alloc init ⟨w₀, .start⟩ = l₂ ∧ Early w₀ l₂ ∧
        l₂.dlthis.dload_errcount = 0 ∧ l₂.w.host.length = image.tableBlocks := by
    unfold loadSections Loading.proceed
    rw [← hcb, ← hw₀] at hzero hlen
    rw [if_pos hzero]
    cases init with
    | false => exact ⟨_, rfl, hearly, hzero, hlen⟩
    | true =>
      dsimp only
      unfold connectAndAllocate allocate_sections
      rw [if_pos rfl, if_pos (show cb.connect _ = true from rfl),
        if_pos (hnone.resolve_left (by decide))]
      exact ⟨_, rfl, { hearly with },
        hzero, hlen⟩
  -- the read of the symbols fails
  obtain ⟨l₃, hsyms, hmyhandle, hsymtab, herrcount, hkept⟩ : ∃ l₃, dload_symbols cb image l₂ = l₃ ∧
      l₃.dlthis.myhandle = 0 ∧ l₃.dlthis.local_symtab ≠ 0 ∧ l₃.dlthis.dload_errcount = 1 ∧
        l₃.w.symbols = w₀.symbols := by
    unfold dload_symbols
    rw [if_neg hsymbols]
    dsimp only
    generalize max (_ : Nat) _ = siz
    obtain ⟨p, hp, -, hw⟩ := obliging_Allocate (fun w => w.host.length ≤ image.tableBlocks) 0
      l₂.w siz
    rw [← hcb] at hw
    rw [hw]
    dsimp only
    rw [if_neg hp]
    obtain ⟨sym, syms, hcons⟩ := exists_cons_of_ne_nil hsymbols
    rw [hcons, symbolLoop]
    unfold Loading.read_buffer
    have hunread : cb.read_buffer { l₂.w.called.setBlock p .raw with host := p :: l₂.w.host } =
        false := by
      refine decide_eq_false ?_
      rw [length_cons, hlen₂]
      exact not_succ_le_self _
    rw [if_pos rfl]
    rw [hunread, if_pos rfl]
    refine ⟨_, rfl, hearly₂.state.1, hp, ?_, hearly₂.symbols⟩
    show l₂.dlthis.dload_errcount + 1 = 1
    rw [hzero₂]
  have herr : l₃.dlthis.dload_errcount ≠ 0 := by rw [herrcount]; exact one_ne_zero
  have hload : loadImage cb image alloc init ⟨w₀, .start⟩ = l₃ := by
    unfold loadImage Loading.proceed
    rw [hsections, if_pos hzero₂, hsyms, if_neg herr]
  intro hbalances
  have hinit : init_module_handle cb image alloc (loadImage cb image alloc init ⟨w₀, .start⟩) =
      some l₃ := by
    unfold init_module_handle
    rw [hload, if_pos hmyhandle]
  have hunload : Dynamic_Unload_Module cb alloc init l₃.dlthis.myhandle (freeTables l₃) =
      some (0, freeTables l₃) := by
    rw [hmyhandle]
    rfl
  have hbalanced := (hbalances _ (load_failed hinit herr hunload)).1 herr
  have hsame := hbalanced.symbols
  unfold freeTables symbol_table_free at hsame
  rw [free_symbols, free_symbols, if_neg hsymtab, if_neg herr, Deallocate_symbols,
    hmyhandle] at hsame
  simp [World.Purge_Symbol_Table, hkept, hw₀, World.empty] at hsame

end Obliging

end OmapHal.Dynload
