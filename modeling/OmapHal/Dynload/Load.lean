import OmapHal.Dynload.Calls

/-!
# Loading a module

`Dynamic_Load_Module` and the procedures that it calls one after the other. Each reports its
errors in the count of the load state; what has been acquired stays recorded there and in the
module handle, and is given back at the end.
-/

namespace OmapHal.Dynload

open OmapHal.Core (encode)

variable (cb : Callbacks) (image : Image)

def Loading.dload_error (l : Loading) : Loading :=
  { l with dlthis := { l.dlthis with dload_errcount := l.dlthis.dload_errcount + 1 } }

/-- `strm->read_buffer` returns all that was asked for. -/
def Loading.read_buffer (l : Loading) : Bool × Loading :=
  (cb.read_buffer l.w, { l with w := l.w.called })

/-- The checks that `dload_headers` makes on what it has read. -/
def Image.headers_accepted : Bool :=
  image.byte_order_ok && image.header_checksum_ok &&
    (image.header.df_target_id == TARGET_ID || image.header.df_target_id == TMS470_ID) &&
    image.header.df_doff_version == DOFF0 &&
    image.header.df_strtab_size ≤ MAX_REASONABLE_STRINGTAB &&
    image.sections.length ≤ MAX_REASONABLE_SECTIONS

def dload_headers (l : Loading) : Loading :=
  let (ok, l) := l.read_buffer cb
  if !ok || !image.headers_accepted then l.dload_error
  else
    { l with dlthis := { l.dlthis with big_e_target := image.header.df_flags &&& DF_BIG != 0 } }

def DOFF_ALIGN (addr : Nat) : Nat := (addr + 3) / 4 * 4

def dload_strings (l : Loading) : Loading :=
  let ssiz := DOFF_ALIGN image.header.df_strtab_size.toNat
  if ssiz = 0 then l
  else
    let (strbuf, w) := l.w.Allocate cb ssiz
    if strbuf = 0 then Loading.dload_error { l with w := w }
    else
      let (ok, l) :=
        Loading.read_buffer cb ⟨w, { l.dlthis with str_head := strbuf }⟩
      let l := if !ok then l.dload_error else l
      if !image.strings_checksum_ok then l.dload_error else l

def dload_sections (l : Loading) : Loading :=
  let siz := image.sections.length * sizeof_doff_scnhdr_t
  let (shp, w) := l.w.Allocate cb siz
  if shp = 0 then Loading.dload_error { l with w := w }
  else
    let (ok, l) := Loading.read_buffer cb ⟨w, { l.dlthis with sect_hdrs := shp }⟩
    if !ok || !image.sections_checksum_ok then l.dload_error
    else { l with dlthis := { l.dlthis with headers := image.sections } }

/-- A store to a place of the section table, which ends with the block of the handle. -/
def World.storeSection (w : World) (hndl : Ptr) (i : Nat) (info : LDR_SECTION_INFO) : World :=
  match w.handle? hndl with
  | none => w.fault
  | some h =>
    if i < h.secns.length then
      w.setBlock hndl (.handle { h with secns := h.secns.set i (some info) })
    else w.fault

/-- The section headers keep the address deltas. -/
def Loading.keepDeltas (l : Loading) (curr_sect : Nat) (shp : doff_scnhdr_t)
    (info : LDR_SECTION_INFO) : Loading :=
  let shp' := { shp with
    ds_vaddr := info.load_addr - shp.ds_vaddr
    ds_paddr := info.run_addr - shp.ds_paddr }
  { l with dlthis := { l.dlthis with
      headers := l.dlthis.headers.set curr_sect shp'
      allocated_secn_count := l.dlthis.allocated_secn_count + 1 } }

/-- The loop of `allocate_sections`. The place in the section table moves on with every
section, whether or not that section takes one. -/
def allocateLoop (alloc : Bool) : Nat → List doff_scnhdr_t → Loading → Loading
  | _, [], l =>
    let size := l.dlthis.debug_string_size
    { l with dlthis := { l.dlthis with
        debug_string_size := size + (image.string size).length + 1 } }
  | curr_sect, shp :: rest, l =>
    let l := if shp.ds_offset < image.header.df_strtab_size then l else l.dload_error
    if DS_NEEDS_ALLOCATION shp then
      let w := l.w.storeSection l.dlthis.myhandle curr_sect shp.ldrsec
      let dlthis := { l.dlthis with debug_string_size := shp.ds_offset.toNat }
      match (if alloc then w.alloc cb shp.ldrsec else (none, w)) with
      | (none, w) => Loading.dload_error ⟨w, dlthis⟩
      | (some info, w) =>
        let w := w.storeSection l.dlthis.myhandle curr_sect info
        allocateLoop alloc (curr_sect + 1) rest (Loading.keepDeltas ⟨w, dlthis⟩ curr_sect shp info)
    else allocateLoop alloc (curr_sect + 1) rest l

/-- Size of the block of the handle, in sixteen bits. -/
def handle_size : Nat :=
  (image.header.df_target_scns.toNat * sizeof_LDR_SECTION_INFO + MY_HANDLE_SIZE) % 2 ^ 16

/-- Places of the section table that are in the block of the handle. -/
def handle_room : Nat := (handle_size image - MY_HANDLE_SIZE) / sizeof_LDR_SECTION_INFO

/-- The handle as `allocate_sections` starts it: in a circular list of its own. -/
def new_handle (hndl : Ptr) : my_handle where
  dm :=
    { dbthis := 0, hnext := hndl, hprev := hndl, hroot := 0, dbsiz := 0, context := 0 }
  secn_count := 0
  secns := List.replicate (handle_room image) none

def allocate_sections (alloc : Bool) (l : Loading) : Loading :=
  if image.sections = [] then l
  else if !alloc && image.header.df_target_scns != 0 then l.dload_error
  else
    let (hndl, w) := l.w.Allocate cb (handle_size image)
    if hndl = 0 then Loading.dload_error { l with w := w }
    else
      let w := if handle_size image < MY_HANDLE_SIZE then w.fault else w
      let w := w.setBlock hndl (.handle (new_handle image hndl))
      allocateLoop cb image alloc 0 image.sections ⟨w, { l.dlthis with myhandle := hndl }⟩

/-- The name of a symbol, and the load state with the error that a bad offset is. -/
def symbolName (sym : doff_syment_t) (l : Loading) : Option (List UInt8) × Loading :=
  if sym.dn_offset > 0 then
    if sym.dn_offset < image.header.df_strtab_size.toNat then
      (some (image.string sym.dn_offset.toNat), l)
    else (none, l.dload_error)
  else (none, l)

/-- The value of a symbol that the module defines: moved with its section, if that section is
taken for allocated. -/
def dload_state.symbolValue (dlthis : dload_state) (sym : doff_syment_t) : LDR_ADDR :=
  if 0 < sym.dn_scnum ∧ sym.dn_scnum ≤ dlthis.allocated_secn_count then
    match dlthis.headers[sym.dn_scnum.toNat - 1]? with
    | some srefp =>
      if sym.dn_sclass = DN_STATLAB ∨ sym.dn_sclass = DN_EXTLAB then
        sym.dn_value + srefp.ds_vaddr
      else sym.dn_value + srefp.ds_paddr
    | none => sym.dn_value
  else sym.dn_value

/-- A global symbol that the module defines is posted, if it has a name. -/
def Loading.post (l : Loading) (sym : doff_syment_t) (sname : Option (List UInt8)) : Loading :=
  match sname with
  | none => l
  | some name =>
    if sym.dn_sclass = DN_EXT ∨ sym.dn_sclass = DN_EXTLAB then
      { l with w := (l.w.Add_To_Symbol_Table cb name l.dlthis.myhandle
          (.addr (l.dlthis.symbolValue sym))).2 }
    else l

/-- One symbol; the flag says whether the symbol loop goes on. -/
def processSymbol (sym : doff_syment_t) (l : Loading) : Bool × Loading :=
  let (sname, l) := symbolName image sym l
  if sym.dn_scnum = DN_UNDEF then
    if sym.dn_sclass = DN_EXT ∧ (l.w.Find_Matching_Symbol sname).isNone then (true, l.dload_error)
    else (true, l)
  else if sym.dn_scnum = DN_ABS ∧ (sym.dn_sclass = DN_EXT ∨ sym.dn_sclass = DN_EXTLAB) then
    match l.w.Find_Matching_Symbol sname with
    | some symp =>
      if symp.value.word = sym.dn_value.toNat then (true, l) else (false, l.dload_error)
    | none => (true, l.post cb sym sname)
  else (true, l.post cb sym sname)

/-- The symbol loop: a read whenever the buffer has been used up. -/
def symbolLoop : Nat → List doff_syment_t → Loading → Loading
  | _, [], l => if !image.symbols_checksum_ok then l.dload_error else l
  | syms_in_buf, sym :: rest, l =>
    let (ok, l) := if syms_in_buf = 0 then l.read_buffer cb else (true, l)
    if !ok then l.dload_error
    else
      let syms_in_buf := if syms_in_buf = 0 then MY_SYM_BUF_SIZ else syms_in_buf
      match processSymbol cb image sym l with
      | (true, l) => symbolLoop (syms_in_buf - 1) rest l
      | (false, l) => l

def dload_symbols (l : Loading) : Loading :=
  if image.symbols = [] then l
  else
    let siz := image.symbols.length * sizeof_Local_Symbol
    let dsiz := DBG_HDR_SIZE + sizeof_dll_sect * l.dlthis.allocated_secn_count +
      (l.dlthis.debug_string_size + 1)
    let (sp, w) := l.w.Allocate cb (max siz dsiz)
    if sp = 0 then Loading.dload_error { l with w := w }
    else symbolLoop cb image 0 image.symbols ⟨w, { l.dlthis with local_symtab := sp }⟩

def dload_data (l : Loading) : Loading where
  w := { l.w.called with
    mem := (cb.dload_data l).1.foldl (fun mem write => mem.write write.1 write.2) l.w.mem }
  dlthis := { l.dlthis with dload_errcount := l.dlthis.dload_errcount + (cb.dload_data l).2 }

/-- The names of the record: the front of the string table, closed with a zero. -/
def copy_tgt_strings (srcp : List UInt8) (charcount : Nat) : List UInt8 :=
  (List.range (max 1 charcount)).map fun i => if i + 1 = max 1 charcount then 0 else srcp.getD i 0

def INIT_VERSION : Nat := 1

def VERIFICATION : Nat := 0x79

/-- A debug record as it stands on the target. -/
def dll_module (link : LDR_ADDR × UInt16) (timestamp : UInt32) (sects : List (LDR_ADDR × LDR_ADDR))
    (names : List UInt8) : List UInt8 :=
  link_bytes link ++ (encode 2 INIT_VERSION ++ encode 2 VERIFICATION ++ encode 2 sects.length ++
    encode 4 timestamp.toNat ++ sects.flatMap (fun s => encode 4 s.1.toNat ++ encode 4 s.2.toNat) ++
    names)

/-- The load and run addresses that a record lists: those in the first places of the section
table. -/
def my_handle.sects (hndl : my_handle) (count : Nat) : List (LDR_ADDR × LDR_ADDR) :=
  (List.range count).map fun i =>
    match hndl.secns.getD i none with
    | some asecs => (asecs.load_addr, asecs.run_addr)
    | none => (0, 0)

/-- The record takes its place after the root of the mirror list. -/
def World.enqueue (w : World) (mlist hndl : Ptr) : Option World := do
  let root ← w.root? mlist
  let w ← w.modifyHandle hndl fun h => { h with dm := { h.dm with hnext := root.hnext } }
  let w ← w.setHprev root.hnext hndl
  let w ← w.setHprev hndl mlist
  w.modifyRoot mlist fun root => { root with hnext := hndl }

/-- The size of the debug record of a module, before it is cut to sixteen bits. -/
def dload_state.recordSize (dlthis : dload_state) : Nat :=
  DBG_HDR_SIZE + sizeof_dll_sect * dlthis.allocated_secn_count + max 1 dlthis.debug_string_size

/-- The record, in storage of its own, is written and linked on the target and then here. -/
def writeRecord (mlist : Ptr) (record : List UInt8) (info : LDR_SECTION_INFO) (l : Loading) :
    Option Loading := do
  let hndl := l.dlthis.myhandle
  let w ← l.w.modifyHandle hndl fun h =>
    { h with dm := { h.dm with dbthis := info.load_addr, context := info.context } }
  let w ← w.modifyRoot mlist fun root => { root with refcount := root.refcount + 1 }
  let written := w.writemem cb (record.take info.size.toNat) info.load_addr
  if !written.1 then some { l with w := written.2 }
  else
    let root ← written.2.root? mlist
    let linked :=
      written.2.writemem cb (link_bytes (info.load_addr, info.size.toUInt16)) root.dbthis
    if !linked.1 then some { l with w := linked.2 }
    else (linked.2.enqueue mlist hndl).map fun w => { l with w := w }

/-- The debug record of a module whose root is known. -/
def addRecord (alloc : Bool) (mlist : Ptr) (l : Loading) : Option Loading := do
  let hndl := l.dlthis.myhandle
  let w ← l.w.modifyHandle hndl fun h => { h with dm := { h.dm with hroot := mlist } }
  if l.dlthis.allocated_secn_count = 0 then some { l with w := w }
  -- the record is put together in the block of the local symbols
  else if l.dlthis.local_symtab = 0 then some { l with w := w.fault }
  else
    let root ← w.root? mlist
    let link ← w.linkTo root.hnext
    let h ← w.handle? hndl
    let record := dll_module link image.dv_timdat (h.sects l.dlthis.allocated_secn_count)
      (copy_tgt_strings image.strings l.dlthis.debug_string_size)
    let dbsiz := UInt16.ofNat l.dlthis.recordSize
    let w ← w.modifyHandle hndl fun h =>
      { h with dm := { h.dm with dbsiz := dbsiz, context := 0 } }
    match (if alloc then w.alloc cb (dllview_info dbsiz.toUInt32) else (none, w)) with
    | (none, w) => some { l with w := w }
    | (some info, w) => writeRecord cb mlist record info { l with w := w }

/-- The root of the mirror list, which the first load after the modules header is known makes;
`none` if there is none. -/
def findRoot (l : Loading) : Option SymValue × Loading :=
  match l.w.Find_Matching_Symbol (some LOADER_DLLVIEW_ROOT) with
  | some debug_mirror_sym => (some debug_mirror_sym.value, l)
  | none =>
    match l.w.Find_Matching_Symbol (some LINKER_MODULES_HEADER) with
    | none => (none, l)
    | some dlmodsym =>
      let (mlst, w) := l.w.Allocate cb sizeof_dbg_mirror_root
      if mlst = 0 then (none, Loading.dload_error { l with w := w })
      else
        let root : dbg_mirror_root :=
          { dbthis := UInt32.ofNat dlmodsym.value.word, hnext := 0, changes := 0, refcount := 0 }
        let (posted, w) := (w.setBlock mlst (.root root)).Add_To_Symbol_Table cb
          LOADER_DLLVIEW_ROOT l.dlthis.myhandle (.root mlst)
        if posted then (some (.root mlst), { l with w := w })
        else (none, { l with w := w.Deallocate mlst })

/-- An address from an image that stands where the root should is followed to nowhere. -/
def init_module_handle (alloc : Bool) (l : Loading) : Option Loading :=
  if l.dlthis.myhandle = 0 then some l
  else do
    let count := UInt16.ofNat (2 * l.dlthis.allocated_secn_count) +
      (if l.dlthis.big_e_target then 1 else 0)
    let w ← l.w.modifyHandle l.dlthis.myhandle fun h => { h with secn_count := count }
    let l : Loading := { l with w := w }
    if l.dlthis.dload_errcount ≠ 0 then some l
    else
      match findRoot cb l with
      | (none, l) => some l
      | (some (.addr value), l) => if value = 0 then some l else none
      | (some (.root mlist), l) => if mlist = 0 then some l else addRecord cb image alloc mlist l

/-- The next procedure of a load is called if there has been no error. -/
def Loading.proceed (l : Loading) (f : Loading → Loading) : Loading :=
  if l.dlthis.dload_errcount = 0 then f l else l

/-- The header, the string table and the section headers. -/
def loadTables (l : Loading) : Loading :=
  ((dload_headers cb image l).proceed (dload_strings cb image)).proceed (dload_sections cb image)

/-- The sections are allocated once `init` is connected. -/
def connectAndAllocate (alloc : Bool) (l : Loading) : Loading :=
  if cb.connect l.w then
    allocate_sections cb image alloc ⟨l.w.called, { l.dlthis with myio := true }⟩
  else Loading.dload_error { l with w := l.w.called }

/-- A load up to its sections. -/
def loadSections (alloc init : Bool) (l : Loading) : Loading :=
  (loadTables cb image l).proceed fun l =>
    if init then connectAndAllocate cb image alloc l else l

/-- The part of a load that comes before the handle is complete. -/
def loadImage (alloc init : Bool) (l : Loading) : Loading :=
  ((loadSections cb image alloc init l).proceed (dload_symbols cb image)).proceed fun l =>
    if init then dload_data cb l else l

/-- The module's entry point is executed, if it has one. -/
def executeEntry (l : Loading) : Loading :=
  if l.dlthis.myio && l.dlthis.dload_errcount = 0 && image.header.df_entry_secn != DN_UNDEF then
    let ok := cb.execute l.w
    let l : Loading := { l with w := l.w.called }
    if ok then l else l.dload_error
  else l

/-- A pointer of the load state is given back, if it is set. -/
def World.free (w : World) (p : Ptr) : World := if p = 0 then w else w.Deallocate p

def symbol_table_free (l : Loading) : World :=
  if l.dlthis.local_symtab = 0 then l.w
  else
    let w :=
      if l.dlthis.dload_errcount = 0 then l.w else l.w.Purge_Symbol_Table l.dlthis.myhandle
    w.Deallocate l.dlthis.local_symtab

/-- `symbol_table_free`, `section_table_free` and `string_table_free`. -/
def freeTables (l : Loading) : World :=
  ((symbol_table_free l).free l.dlthis.sect_hdrs).free l.dlthis.str_head

def dload_state.start : dload_state where
  str_head := 0
  sect_hdrs := 0
  local_symtab := 0
  myhandle := 0
  headers := []
  debug_string_size := 0
  dload_errcount := 0
  allocated_secn_count := 0
  big_e_target := false
  myio := false

/-- What a load gives back: the error count, the handle and the world. -/
structure LoadResult where
  errcount : Nat
  mhandle : Ptr
  w : World

def Dynamic_Load_Module (alloc init : Bool) (w : World) : Option LoadResult := do
  let l ← init_module_handle cb image alloc (loadImage cb image alloc init ⟨w, .start⟩)
  let l := executeEntry cb image l
  let w := freeTables l
  if l.dlthis.dload_errcount = 0 then some ⟨0, l.dlthis.myhandle, w⟩
  else do
    let (_, w) ← Dynamic_Unload_Module cb alloc init l.dlthis.myhandle w
    some ⟨l.dlthis.dload_errcount, 0, w⟩

end OmapHal.Dynload
