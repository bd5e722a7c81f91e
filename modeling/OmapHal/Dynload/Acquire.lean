import OmapHal.Dynload.Release

/-!
# Acquiring a module

What each procedure of a load acquires, up to the complete handle.
-/

namespace OmapHal.Dynload

open List Nat Function

variable {f : Loading → Loading} {info : LDR_SECTION_INFO} {back : List doff_scnhdr_t}

variable {cb : Callbacks} {image : Image} {alloc : Bool} {w₀ w : World} {l l' : Loading}
  {grants : List LDR_SECTION_INFO}

/-- A request for host memory: nothing, or a new block. -/
theorem Allocate_cases (cb : Callbacks) (w : World) (siz : Nat) :
    w.Allocate cb siz = (0, w.called) ∨
      ∃ p, p ≠ 0 ∧ p ∉ w.host ∧
        w.Allocate cb siz = (p, { w.called.setBlock p .raw with host := p :: w.host }) := by
  unfold World.Allocate
  by_cases hp : cb.Allocate w siz = 0
  · left
    simp only [hp, if_true]
  · right
    exact ⟨_, hp, cb.fresh w siz hp, by simp only [hp, if_false]⟩

/-- Rule for a procedure that is called unless there has been an error. -/
theorem proceed_rule {P : Loading → Prop} (h : P l)
    (hf : l.dlthis.dload_errcount = 0 → P (f l)) : P (l.proceed f) := by
  unfold Loading.proceed
  split
  · rename_i hok
    exact hf hok
  · exact h

/-- A procedure after which there is no error was called without one. -/
theorem proceed_ok (h : (l.proceed f).dlthis.dload_errcount = 0) :
    l.dlthis.dload_errcount = 0 ∧ l.proceed f = f l := by
  unfold Loading.proceed at h ⊢
  split
  · rename_i hok
    exact ⟨hok, rfl⟩
  · rename_i hok
    rw [if_neg hok] at h
    exact absurd h hok

/-- A load before it has a handle: it holds the string table and the section headers. -/
structure Early (w₀ : World) (l : Loading) : Prop where
  host : l.w.host.Perm (own l.dlthis.sect_hdrs ++ (own l.dlthis.str_head ++ w₀.host))
  target : l.w.target = w₀.target
  symbols : l.w.symbols = w₀.symbols
  faults : l.w.faults = w₀.faults
  state : l.dlthis.myhandle = 0 ∧ l.dlthis.local_symtab = 0 ∧ l.dlthis.allocated_secn_count = 0

theorem Early.start (w₀ : World) : Early w₀ ⟨w₀, .start⟩ :=
  ⟨Perm.refl _, rfl, rfl, rfl, rfl, rfl, rfl⟩

theorem Early.error (h : Early w₀ l) : Early w₀ l.dload_error :=
  { h with }

theorem Early.called (h : Early w₀ l) : Early w₀ { l with w := l.w.called } :=
  { h with }

theorem Early.read (h : Early w₀ l) : Early w₀ (l.read_buffer cb).2 := h.called

/-- The checks of the image that the loader makes before it asks for target memory. -/
def Image.tables_accepted (image : Image) : Bool :=
  image.headers_accepted &&
    (DOFF_ALIGN image.header.df_strtab_size.toNat == 0 || image.strings_checksum_ok) &&
    image.sections_checksum_ok

/-- The tables of an image are read without an error only if they are accepted. -/
theorem loadTables_ok (h : (loadTables cb image l).dlthis.dload_errcount = 0) :
    image.tables_accepted = true := by
  obtain ⟨h₂, hsections⟩ := proceed_ok h
  obtain ⟨h₁, hstrings⟩ := proceed_ok h₂
  rw [loadTables, hsections] at h
  rw [hstrings] at h₂
  have hheaders : image.headers_accepted := by
    by_contra hnot
    unfold dload_headers at h₁
    dsimp only at h₁
    rw [if_pos (by simp [hnot])] at h₁
    exact succ_ne_zero _ h₁
  have hchecksum : (DOFF_ALIGN image.header.df_strtab_size.toNat == 0 ||
      image.strings_checksum_ok) := by
    by_contra hnot
    rw [Bool.or_eq_true, not_or, beq_iff_eq, Bool.not_eq_true] at hnot
    unfold dload_strings at h₂
    dsimp only at h₂
    rw [if_neg hnot.1] at h₂
    split at h₂
    · exact succ_ne_zero _ h₂
    · rw [if_pos (by rw [hnot.2]; rfl)] at h₂
      exact succ_ne_zero _ h₂
  have hsectionsChecksum : image.sections_checksum_ok := by
    by_contra hnot
    unfold dload_sections at h
    dsimp only at h
    split at h
    · exact succ_ne_zero _ h
    · rw [if_pos (by simp [hnot])] at h
      exact succ_ne_zero _ h
  rw [Image.tables_accepted, hheaders, hchecksum, hsectionsChecksum]
  rfl

theorem dload_headers_early (cb : Callbacks) (image : Image) (h : Early w₀ l) :
    Early w₀ (dload_headers cb image l) ∧
      (dload_headers cb image l).dlthis.str_head = l.dlthis.str_head ∧
      (dload_headers cb image l).dlthis.sect_hdrs = l.dlthis.sect_hdrs := by
  unfold dload_headers
  dsimp only
  split
  · exact ⟨h.read.error, rfl, rfl⟩
  · exact ⟨{ h with }, rfl, rfl⟩

theorem dload_strings_early (cb : Callbacks) (image : Image) (h : Early w₀ l)
    (hstr : l.dlthis.str_head = 0) (hsect : l.dlthis.sect_hdrs = 0) :
    Early w₀ (dload_strings cb image l) ∧
      (dload_strings cb image l).dlthis.sect_hdrs = 0 := by
  unfold dload_strings
  dsimp only
  split
  · exact ⟨h, hsect⟩
  rcases Allocate_cases cb l.w (DOFF_ALIGN image.header.df_strtab_size.toNat) with
    hp | ⟨p, hp, -, hw⟩
  · rw [hp]
    exact ⟨h.called.error, hsect⟩
  · rw [hw]
    dsimp only
    rw [if_neg hp]
    have hhost := h.host
    rw [hsect, hstr] at hhost
    have hearly : Early w₀ (Loading.mk
        { (l.w.called.setBlock p .raw).called with host := p :: l.w.host }
        { l.dlthis with str_head := p }) := by
      refine ⟨?_, h.target, h.symbols, h.faults, h.state⟩
      show (p :: l.w.host).Perm (own l.dlthis.sect_hdrs ++ (own p ++ w₀.host))
      rw [hsect, own_of_ne hp]
      exact hhost.cons p
    split <;> split
    · exact ⟨hearly.error.error, hsect⟩
    · exact ⟨hearly.error, hsect⟩
    · exact ⟨hearly.error, hsect⟩
    · exact ⟨hearly, hsect⟩

theorem dload_sections_early (h : Early w₀ l) (hsect : l.dlthis.sect_hdrs = 0) :
    Early w₀ (dload_sections cb image l) := by
  unfold dload_sections
  dsimp only
  rcases Allocate_cases cb l.w (image.sections.length * sizeof_doff_scnhdr_t) with
    hp | ⟨p, hp, -, hw⟩
  · rw [hp]
    exact h.called.error
  · rw [hw]
    dsimp only
    rw [if_neg hp]
    have hhost := h.host
    rw [hsect] at hhost
    have hearly : Early w₀ (Loading.mk
        { (l.w.called.setBlock p .raw).called with host := p :: l.w.host }
        { l.dlthis with sect_hdrs := p }) := by
      refine ⟨?_, h.target, h.symbols, h.faults, h.state⟩
      show (p :: l.w.host).Perm (own p ++ (own l.dlthis.str_head ++ w₀.host))
      rw [own_of_ne hp]
      exact hhost.cons p
    split
    · exact hearly.error
    · exact ⟨hearly.host, h.target, h.symbols, h.faults, h.state⟩

theorem loadTables_early (cb : Callbacks) (image : Image) (w₀ : World) :
    Early w₀ (loadTables cb image ⟨w₀, .start⟩) := by
  obtain ⟨h₁, hstr, hsect⟩ := dload_headers_early cb image (Early.start w₀)
  have h₂ := proceed_rule (P := fun l => Early w₀ l ∧ l.dlthis.sect_hdrs = 0) ⟨h₁, hsect⟩ fun _ =>
    dload_strings_early cb image h₁ hstr hsect
  exact proceed_rule h₂.1 fun _ => dload_sections_early h₂.1 h₂.2

/-- What a load has acquired when its sections have been allocated. -/
structure Held (w₀ : World) (alloc : Bool) (grants : List LDR_SECTION_INFO) (l : Loading) :
    Prop where
  host : l.w.host.Perm (l.dlthis.tables ++ (own l.dlthis.myhandle ++ w₀.host))
  target : l.w.target.Perm (grants.map (·.storage) ++ w₀.target)
  symbols : ∃ added, l.w.symbols = added ++ w₀.symbols ∧
    ∀ s ∈ added, s.moduleid = l.dlthis.myhandle ∧ ∃ value, s.value = .addr value
  faults : l.w.faults = w₀.faults
  count : l.dlthis.allocated_secn_count = grants.length
  bound : grants.length ≤ MAX_REASONABLE_SECTIONS
  allocated : alloc = false → grants = []
  handle : l.dlthis.myhandle ≠ 0 → l.dlthis.myhandle ∉ w₀.host ∧
    ∃ h, l.w.blocks l.dlthis.myhandle = .handle h ∧ h.dm.hroot = 0 ∧ h.dm.dbthis = 0 ∧
      h.secns.take grants.length = grants.map some
  handleless : l.dlthis.myhandle = 0 →
    l.dlthis.local_symtab = 0 ∧ l.w.symbols = w₀.symbols ∧ grants = []

theorem Held.error (h : Held w₀ alloc grants l) : Held w₀ alloc grants l.dload_error :=
  { h with }

theorem Held.called (h : Held w₀ alloc grants l) :
    Held w₀ alloc grants { l with w := l.w.called } :=
  { h with }

theorem Early.held (h : Early w₀ l) (alloc : Bool) : Held w₀ alloc [] l := by
  obtain ⟨hhandle, hsymtab, hcount⟩ := h.state
  refine ⟨?_, Perm.of_eq h.target, ⟨[], h.symbols, fun s hs => (nomatch hs)⟩, h.faults,
    hcount, zero_le _, fun _ => rfl, fun hne => absurd hhandle hne,
    fun _ => ⟨hsymtab, h.symbols, rfl⟩⟩
  rw [dload_state.tables, hsymtab, hhandle]
  exact h.host.trans (by simp)

/-- The handle while the sections are allocated: as many places as fit into its block. -/
structure Allocating (w₀ : World) (alloc : Bool) (room : Nat) (grants : List LDR_SECTION_INFO)
    (l : Loading) : Prop extends Held w₀ alloc grants l where
  given : l.dlthis.myhandle ≠ 0
  symtab : l.dlthis.local_symtab = 0
  room : ∀ h, l.w.blocks l.dlthis.myhandle = .handle h → h.secns.length = room

section Sections

variable {room : Nat}

theorem Allocating.error (h : Allocating w₀ alloc room grants l) :
    Allocating w₀ alloc room grants l.dload_error :=
  ⟨h.toHeld.error, h.given, h.symtab, h.room⟩

theorem Held.mem_host (h : Held w₀ alloc grants l) (hne : l.dlthis.myhandle ≠ 0) :
    l.dlthis.myhandle ∈ l.w.host := by
  refine h.host.symm.subset ?_
  rw [own_of_ne hne]
  simp

theorem storeSection_eq {p : Ptr} {hndl : my_handle} {i : Nat}
    (hp : p ∈ w.host) (hb : w.blocks p = .handle hndl) (hi : i < hndl.secns.length) :
    w.storeSection p i info =
      w.setBlock p (.handle { hndl with secns := hndl.secns.set i (some info) }) := by
  unfold World.storeSection
  rw [handle?_eq_some.mpr ⟨hp, hb⟩]
  exact if_pos hi

/-- The first places of the section table, after a store to the place after the granted ones. -/
theorem take_set_grants {secns : List (Option LDR_SECTION_INFO)}
    (hsecns : secns.take grants.length = grants.map some) (hlen : grants.length < secns.length) :
    (secns.set grants.length (some info)).take grants.length = grants.map some ∧
      (secns.set grants.length (some info)).take (grants ++ [info]).length =
        (grants ++ [info]).map some := by
  have htake : (secns.set grants.length (some info)).take grants.length = grants.map some := by
    rw [take_set_of_le (le_refl _), hsecns]
  refine ⟨htake, ?_⟩
  rw [length_append, length_singleton, take_add_one, htake, getElem?_set_self hlen, map_append]
  rfl

/-- A request for target storage: nothing, or a record filled in. -/
theorem alloc_cases (cb : Callbacks) (w : World) (info : LDR_SECTION_INFO) :
    w.alloc cb info = (none, w.called) ∨
      ∃ info' : LDR_SECTION_INFO,
        w.alloc cb info = (some info', { w.called with target := info'.storage :: w.target }) ∧
        info'.size = info.size ∧ info'.page = info.page ∧ info'.type = info.type ∧
        (info.type = DLOAD_DATA → info'.load_addr ≠ 0) := by
  unfold World.alloc
  cases hanswer : cb.alloc w info with
  | none => exact .inl rfl
  | some answer =>
    obtain ⟨run, load, context⟩ := answer
    exact .inr ⟨_, rfl, rfl, rfl, rfl, fun htype =>
      cb.placed w info run load context htype hanswer⟩

/-- A section that needs storage: the loop ends with an error, or the section gets the place after
those granted so far. -/
theorem Allocating.step (cb : Callbacks) (image : Image) (h : Allocating w₀ alloc room grants l)
    (hroom : grants.length < room)
    (hbound : grants.length < MAX_REASONABLE_SECTIONS) {shp : doff_scnhdr_t}
    (hneeds : DS_NEEDS_ALLOCATION shp) (rest : List doff_scnhdr_t) :
    (Held w₀ alloc grants (allocateLoop cb image alloc grants.length (shp :: rest) l) ∧
        (allocateLoop cb image alloc grants.length (shp :: rest) l).dlthis.dload_errcount ≠ 0) ∨
      ∃ info l', allocateLoop cb image alloc grants.length (shp :: rest) l =
          allocateLoop cb image alloc (grants.length + 1) rest l' ∧
        Allocating w₀ alloc room (grants ++ [info]) l' ∧
        (l'.dlthis.dload_errcount = 0 →
          l.dlthis.dload_errcount = 0 ∧ shp.ds_offset < image.header.df_strtab_size) := by
  rw [allocateLoop]
  generalize hl₁ : (if shp.ds_offset < image.header.df_strtab_size then l else l.dload_error) = l₁
  have h₁ : Allocating w₀ alloc room grants l₁ ∧ (l₁.dlthis.dload_errcount = 0 →
      l.dlthis.dload_errcount = 0 ∧ shp.ds_offset < image.header.df_strtab_size) := by
    subst hl₁
    split
    · rename_i hname
      exact ⟨h, fun hzero => ⟨hzero, hname⟩⟩
    · exact ⟨h.error, fun hzero => absurd hzero (succ_ne_zero _)⟩
  obtain ⟨h₁, hok⟩ := h₁
  obtain ⟨hnew, hndl, hb, hroot, hdbthis, hsecns⟩ := h₁.handle h₁.given
  have hin := h₁.toHeld.mem_host h₁.given
  have hlen : grants.length < hndl.secns.length := (h₁.room hndl hb).symm ▸ hroom
  rw [if_pos hneeds]
  dsimp only
  rw [storeSection_eq hin hb hlen]
  generalize hstored : ({ hndl with secns := hndl.secns.set grants.length (some shp.ldrsec) } :
    my_handle) = hndl₁
  have hlen₁ : hndl₁.secns.length = hndl.secns.length := hstored ▸ length_set ..
  have hsecns₁ : hndl₁.secns.take grants.length = grants.map some :=
    hstored ▸ (take_set_grants hsecns hlen).1
  have hdm : hndl₁.dm.hroot = 0 ∧ hndl₁.dm.dbthis = 0 := hstored ▸ ⟨hroot, hdbthis⟩
  set w₁ := l₁.w.setBlock l₁.dlthis.myhandle (.handle hndl₁) with hw₁
  have hb₁ : w₁.blocks l₁.dlthis.myhandle = .handle hndl₁ := update_self ..
  cases alloc with
  | false =>
    refine .inl ⟨?_, succ_ne_zero _⟩
    exact { h₁ with
      handle := fun _ => ⟨hnew, hndl₁, hb₁, hdm.1, hdm.2, hsecns₁⟩
      handleless := fun hzero => absurd hzero h₁.given }
  | true =>
    rw [if_pos rfl]
    rcases alloc_cases cb w₁ shp.ldrsec with hnone | ⟨info, hsome, -⟩
    · rw [hnone]
      refine .inl ⟨?_, succ_ne_zero _⟩
      exact { h₁ with
        handle := fun _ => ⟨hnew, hndl₁, hb₁, hdm.1, hdm.2, hsecns₁⟩
        handleless := fun hzero => absurd hzero h₁.given }
    · rw [hsome]
      dsimp only
      have hlen₂ : grants.length < hndl₁.secns.length := hlen₁.symm ▸ hlen
      have hb₂ : World.blocks { w₁.called with target := info.storage :: w₁.target }
          l₁.dlthis.myhandle = .handle hndl₁ := hb₁
      rw [storeSection_eq (by exact hin) hb₂ hlen₂]
      refine .inr ⟨info, _, rfl, ⟨⟨h₁.host, ?_, h₁.symbols, h₁.faults, ?_, ?_,
        fun hfalse => (nomatch hfalse), fun _ => ⟨hnew, _, update_self .., hdm.1, hdm.2,
          (take_set_grants hsecns₁ hlen₂).2⟩, fun hzero => absurd hzero h₁.given⟩, h₁.given,
          h₁.symtab, ?_⟩, hok⟩
      · rw [map_append, append_assoc]
        exact (h₁.target.cons info.storage).trans perm_middle.symm
      · rw [length_append, length_singleton, ← h₁.count]
        rfl
      · rw [length_append]
        exact hbound
      · intro hndl₂ hb₃
        have heq := (update_self ..).symm.trans hb₃
        obtain rfl := Block.handle.inj heq
        exact (length_set ..).trans (hlen₁.trans (h₁.room hndl hb))

/-- The sections behind those that need storage. -/
theorem allocateLoop_rest (cb : Callbacks) (image : Image) (i : Nat)
    (hback : ∀ s ∈ back, DS_NEEDS_ALLOCATION s = false) (h : Held w₀ alloc grants l) :
    Held w₀ alloc grants (allocateLoop cb image alloc i back l) ∧
      ((allocateLoop cb image alloc i back l).dlthis.dload_errcount = 0 →
        l.dlthis.dload_errcount = 0 ∧ ∀ s ∈ back, s.ds_offset < image.header.df_strtab_size) := by
  induction back generalizing i l with
  | nil =>
    exact ⟨{ h with }, fun hzero => ⟨hzero, fun s hs => (nomatch hs)⟩⟩
  | cons shp back ih =>
    have hrest : ∀ s ∈ back, DS_NEEDS_ALLOCATION s = false := fun s hs =>
      hback s (mem_cons_of_mem shp hs)
    have hno := hback shp mem_cons_self
    rw [allocateLoop]
    rw [if_neg (by rw [hno]; exact Bool.false_ne_true)]
    by_cases hname : shp.ds_offset < image.header.df_strtab_size
    · rw [if_pos hname]
      obtain ⟨hheld, hok⟩ := ih (i := i + 1) hrest h
      refine ⟨hheld, fun hzero => ⟨(hok hzero).1, fun s hs => ?_⟩⟩
      rcases mem_cons.mp hs with rfl | hs
      · exact hname
      · exact (hok hzero).2 s hs
    · rw [if_neg hname]
      obtain ⟨hheld, hok⟩ := ih (i := i + 1) hrest h.error
      exact ⟨hheld, fun hzero => absurd (hok hzero).1 (succ_ne_zero _)⟩

/-- Sections that need storage come first and fit into the block of the handle: each granted one
has its place, in their order. -/
theorem allocateLoop_held (cb : Callbacks) (image : Image) {front : List doff_scnhdr_t}
    (hfront : ∀ s ∈ front, DS_NEEDS_ALLOCATION s)
    (hback : ∀ s ∈ back, DS_NEEDS_ALLOCATION s = false) (h : Allocating w₀ alloc room grants l)
    (hroom : grants.length + front.length ≤ room)
    (hbound : grants.length + front.length ≤ MAX_REASONABLE_SECTIONS) :
    ∃ granted, Held w₀ alloc granted (allocateLoop cb image alloc grants.length (front ++ back) l) ∧
      ((allocateLoop cb image alloc grants.length (front ++ back) l).dlthis.dload_errcount = 0 →
        l.dlthis.dload_errcount = 0 ∧
          (∀ s ∈ front ++ back, s.ds_offset < image.header.df_strtab_size) ∧
          granted.length = grants.length + front.length) := by
  induction front generalizing grants l with
  | nil =>
    obtain ⟨hheld, hok⟩ :=
      allocateLoop_rest cb image grants.length hback h.toHeld
    exact ⟨grants, hheld, fun hzero => ⟨(hok hzero).1, (hok hzero).2, rfl⟩⟩
  | cons shp front ih =>
    rw [length_cons] at hroom hbound
    rcases h.step cb image (by omega) (by omega)
      (hfront shp mem_cons_self)
      (front ++ back) with ⟨hheld, herror⟩ | ⟨info, l', heq, hnext, hok⟩
    · exact ⟨grants, hheld, fun hzero => absurd hzero herror⟩
    · have hlen : (grants ++ [info]).length = grants.length + 1 := by
        rw [length_append, length_singleton]
      obtain ⟨granted, hheld, hoks⟩ := ih
        (fun s hs => hfront s (mem_cons_of_mem shp hs)) hnext (by omega) (by omega)
      rw [hlen] at hheld hoks
      rw [cons_append, heq]
      refine ⟨granted, hheld, fun hzero => ?_⟩
      obtain ⟨hzero', hnames, hgranted⟩ := hoks hzero
      refine ⟨(hok hzero').1, fun s hs => ?_, ?_⟩
      · rcases mem_cons.mp hs with rfl | hs
        · exact (hok hzero').2
        · exact hnames s hs
      · rw [hgranted, length_cons]
        omega

end Sections

theorem allocateLoop_frame (secns : List doff_scnhdr_t) (i : Nat) (l : Loading) :
    (allocateLoop cb image alloc i secns l).dlthis.myhandle = l.dlthis.myhandle ∧
      (allocateLoop cb image alloc i secns l).dlthis.local_symtab = l.dlthis.local_symtab := by
  induction secns generalizing i l with
  | nil => exact ⟨rfl, rfl⟩
  | cons shp secns ih =>
    rw [allocateLoop]
    dsimp only
    have hname : (if shp.ds_offset < image.header.df_strtab_size then l
          else l.dload_error).dlthis.myhandle = l.dlthis.myhandle ∧
        (if shp.ds_offset < image.header.df_strtab_size then l
          else l.dload_error).dlthis.local_symtab = l.dlthis.local_symtab := by
      split <;> exact ⟨rfl, rfl⟩
    split
    · split
      · exact hname
      · exact ⟨(ih _ _).1.trans hname.1, (ih _ _).2.trans hname.2⟩
    · exact ⟨(ih _ _).1.trans hname.1, (ih _ _).2.trans hname.2⟩

/-- The sections that need target storage come first, and the block of the handle has a place for
each. -/
def Image.Contiguous (image : Image) : Prop :=
  (∀ s ∈ image.sections.dropWhile DS_NEEDS_ALLOCATION, DS_NEEDS_ALLOCATION s = false) ∧
    (image.sections.takeWhile DS_NEEDS_ALLOCATION).length ≤ handle_room image

/-- All sections have names in the string table. -/
def Image.Named (image : Image) : Prop :=
  ∀ s ∈ image.sections, s.ds_offset < image.header.df_strtab_size

/-- With the sections in order, what `allocate_sections` acquires is in its handle. -/
theorem allocate_sections_held (cb : Callbacks) (h : Early w₀ l)
    (hfits : (alloc = false ∧ image.header.df_target_scns ≠ 0) ∨
      (MY_HANDLE_SIZE ≤ handle_size image ∧ image.Contiguous))
    (hbound : image.sections.length ≤ MAX_REASONABLE_SECTIONS) (hsections : image.sections ≠ []) :
    ∃ granted, Held w₀ alloc granted (allocate_sections cb image alloc l) ∧
      (allocate_sections cb image alloc l).dlthis.local_symtab = 0 ∧
      ((allocate_sections cb image alloc l).dlthis.dload_errcount = 0 →
        image.Named ∧ (granted ≠ [] → ∃ s ∈ image.sections, DS_NEEDS_ALLOCATION s) ∧
          (allocate_sections cb image alloc l).dlthis.myhandle ≠ 0) := by
  obtain ⟨hhandle, hsymtab, hcount⟩ := h.state
  unfold allocate_sections
  rw [if_neg hsections]
  split
  · exact ⟨[], (h.held alloc).error, hsymtab, fun hzero => absurd hzero (succ_ne_zero _)⟩
  rename_i hgiven
  obtain ⟨hsize, hback, hroom⟩ : MY_HANDLE_SIZE ≤ handle_size image ∧ image.Contiguous := by
    refine hfits.resolve_left fun hnot => hgiven ?_
    rw [hnot.1]
    simpa using hnot.2
  rcases Allocate_cases cb l.w (handle_size image) with hp | ⟨p, hp, hnew, hw⟩
  · rw [hp]
    exact ⟨[], (h.held alloc).called.error, hsymtab, fun hzero =>
      absurd hzero (succ_ne_zero _)⟩
  rw [hw]
  dsimp only
  rw [if_neg hp, if_neg (not_lt.mpr hsize)]
  have hnew₀ : p ∉ w₀.host := fun hin => hnew (h.host.symm.subset (by simp [hin]))
  have hstart : Allocating w₀ alloc (handle_room image) []
      ⟨World.setBlock { l.w.called.setBlock p .raw with host := p :: l.w.host } p
        (.handle (new_handle image p)), { l.dlthis with myhandle := p }⟩ := by
    refine ⟨⟨?_, Perm.of_eq h.target, ⟨[], h.symbols, fun s hs => (nomatch hs)⟩, h.faults,
      hcount, zero_le _, fun _ => rfl, fun _ => ⟨hnew₀, _, update_self .., rfl, rfl,
        rfl⟩, fun hzero => absurd hzero hp⟩, hp, hsymtab, ?_⟩
    · show (p :: l.w.host).Perm (own l.dlthis.local_symtab ++
        (own l.dlthis.sect_hdrs ++ own l.dlthis.str_head) ++ (own p ++ w₀.host))
      rw [hsymtab, own_of_ne hp]
      refine (h.host.cons p).trans ?_
      simp only [own_zero, nil_append, singleton_append, ← append_assoc]
      exact perm_middle.symm
    · intro hndl hb
      obtain rfl := Block.handle.inj ((update_self ..).symm.trans hb)
      exact length_replicate ..
  have hsplit : image.sections.takeWhile DS_NEEDS_ALLOCATION ++
      image.sections.dropWhile DS_NEEDS_ALLOCATION = image.sections :=
      takeWhile_append_dropWhile
  have hfront : ∀ s ∈ image.sections.takeWhile DS_NEEDS_ALLOCATION, DS_NEEDS_ALLOCATION s :=
    all_eq_true.mp all_takeWhile
  obtain ⟨granted, hheld, hok⟩ := allocateLoop_held cb image hfront hback hstart
    (by simpa using hroom)
    (by rw [length_nil, zero_add]
        exact le_trans ( takeWhile_prefix _).length_le hbound)
  rw [hsplit] at hheld hok
  refine ⟨granted, hheld, (allocateLoop_frame ..).2.trans hsymtab, fun hzero => ?_⟩
  obtain ⟨-, hnames, hlen⟩ := hok hzero
  refine ⟨hnames, fun hne => ?_, ?_⟩
  · cases htake : image.sections.takeWhile DS_NEEDS_ALLOCATION with
    | nil =>
      rw [htake] at hlen
      exact absurd (length_eq_zero_iff.mp hlen) hne
    | cons s front =>
      have hs : s ∈ image.sections.takeWhile DS_NEEDS_ALLOCATION := htake ▸ mem_cons_self
      exact ⟨s, ( takeWhile_prefix _).subset hs, hfront s hs⟩
  · rw [(allocateLoop_frame ..).1]
    exact hp

end OmapHal.Dynload
