import OmapHal.Core.Memory

/-!
# The state of the dynamic loader

The records of `cload.c` for the C6x build (`TMS32060`, eight-bit addressable units on both
sides) and the world that the loader's callbacks act on: the host blocks in use, the target
storage in use, the global symbols and the target memory. Host pointers are numbers, zero is
`NULL`.
-/

namespace OmapHal.Dynload

abbrev Ptr := Nat

abbrev LDR_ADDR := UInt32

/-- A section as the target allocator sees it. The field `name` is left out: no allocator
reads it on release. -/
structure LDR_SECTION_INFO where
  run_addr : LDR_ADDR
  load_addr : LDR_ADDR
  size : LDR_ADDR
  page : UInt16
  type : UInt16
  context : UInt32
  deriving DecidableEq, Repr

/-- What names the storage of a section: the record without its run address. -/
def LDR_SECTION_INFO.storage (info : LDR_SECTION_INFO) : LDR_SECTION_INFO :=
  { info with run_addr := 0 }

structure doff_filehdr_t where
  df_strtab_size : UInt32
  df_target_scns : UInt16
  df_doff_version : UInt16
  df_target_id : UInt16
  df_flags : UInt16
  df_entry_secn : Int
  deriving DecidableEq, Repr

structure doff_scnhdr_t where
  ds_offset : UInt32
  ds_paddr : UInt32
  ds_vaddr : UInt32
  ds_size : UInt32
  ds_page : UInt16
  ds_flags : UInt16
  deriving DecidableEq, Repr

structure doff_syment_t where
  dn_offset : Int
  dn_value : UInt32
  dn_scnum : Int
  dn_sclass : Int
  deriving DecidableEq, Repr

/-- A module image as the stream delivers it. The counts `df_no_scns` and `df_no_syms` are the
lengths of the two lists. The byte order and the checksums are kept as what their checks find. -/
structure Image where
  header : doff_filehdr_t
  dv_timdat : UInt32
  strings : List UInt8
  sections : List doff_scnhdr_t
  symbols : List doff_syment_t
  byte_order_ok : Bool
  header_checksum_ok : Bool
  strings_checksum_ok : Bool
  sections_checksum_ok : Bool
  symbols_checksum_ok : Bool
  deriving DecidableEq, Repr

def MAX_REASONABLE_STRINGTAB : UInt32 := 0x100000

def MAX_REASONABLE_SECTIONS : Nat := 200

def TMS470_ID : UInt16 := 0x97

def TARGET_ID : UInt16 := 0x99

def DOFF0 : UInt16 := 0

def DF_BIG : UInt16 := 0x200

def DN_UNDEF : Int := 0

def DN_ABS : Int := -1

def DN_EXT : Int := 2

def DN_STATLAB : Int := 20

def DN_EXTLAB : Int := 21

def DLOAD_DATA : UInt16 := 1

def DBG_LIST_PAGE : UInt16 := 0

def DS_NEEDS_ALLOCATION (shp : doff_scnhdr_t) : Bool := shp.ds_flags &&& 0x10 != 0

/-- `DOFFSEC_IS_LDRSEC` with the context field zeroed. -/
def doff_scnhdr_t.ldrsec (shp : doff_scnhdr_t) : LDR_SECTION_INFO where
  run_addr := shp.ds_paddr
  load_addr := shp.ds_vaddr
  size := shp.ds_size
  page := shp.ds_page
  type := shp.ds_flags
  context := 0

/-- The text at an offset of the string table. -/
def Image.string (image : Image) (offset : Nat) : List UInt8 :=
  (image.strings.drop offset).takeWhile (· != 0)

def text (s : String) : List UInt8 := s.toList.map fun c => c.toNat.toUInt8

/-- The symbol under which the loader keeps the root of its mirror list. -/
def LOADER_DLLVIEW_ROOT : List UInt8 := text "?DLModules?"

/-- The symbol of the modules header on the target. -/
def LINKER_MODULES_HEADER : List UInt8 := text "__DLModules"

def sizeof_LDR_SECTION_INFO : Nat := 24

def sizeof_doff_scnhdr_t : Nat := 28

def sizeof_Local_Symbol : Nat := 12

def sizeof_dbg_mirror_root : Nat := 12

def sizeof_dll_sect : Nat := 8

def MY_HANDLE_SIZE : Nat := 28

def DBG_HDR_SIZE : Nat := 16

/-- Symbols in one read of the symbol table. -/
def MY_SYM_BUF_SIZ : Nat := 85

/-- The root of a mirror list. -/
structure dbg_mirror_root where
  dbthis : LDR_ADDR
  hnext : Ptr
  changes : UInt16
  refcount : UInt16
  deriving DecidableEq, Repr

/-- The part of a handle that shares its first two fields with a root. -/
structure dbg_mirror_list where
  dbthis : LDR_ADDR
  hnext : Ptr
  hprev : Ptr
  hroot : Ptr
  dbsiz : UInt16
  context : UInt32
  deriving DecidableEq, Repr

/-- A module handle. A place of `secns` that was never written holds `none`. -/
structure my_handle where
  dm : dbg_mirror_list
  secn_count : UInt16
  secns : List (Option LDR_SECTION_INFO)
  deriving DecidableEq, Repr

/-- What a host block is used for. -/
inductive Block
  | raw
  | handle (hndl : my_handle)
  | root (root : dbg_mirror_root)
  deriving DecidableEq, Repr

/-- A symbol's value: an address, or the root that the loader itself posted. An address that is
read from an image names no root. -/
inductive SymValue
  | addr (value : LDR_ADDR)
  | root (root : Ptr)
  deriving DecidableEq, Repr

/-- The number that the word of the symbol holds. -/
def SymValue.word : SymValue → Nat
  | .addr value => value.toNat
  | .root p => p

structure Symbol where
  name : List UInt8
  value : SymValue
  moduleid : Ptr
  deriving DecidableEq, Repr

/-- What the loader's callbacks act on. `faults` counts what no program may do: a store outside
a block, a release of something not in use, a store through `NULL`. -/
structure World where
  host : List Ptr
  blocks : Ptr → Block
  target : List LDR_SECTION_INFO
  symbols : List Symbol
  mem : Core.Memory
  calls : Nat
  faults : Nat

/-- The state of one load. -/
structure dload_state where
  str_head : Ptr
  sect_hdrs : Ptr
  local_symtab : Ptr
  myhandle : Ptr
  /-- the section headers in the block `sect_hdrs`, with their address deltas -/
  headers : List doff_scnhdr_t
  debug_string_size : Nat
  dload_errcount : Nat
  allocated_secn_count : Nat
  big_e_target : Bool
  /-- `init` was given and connected -/
  myio : Bool
  deriving DecidableEq, Repr

/-- The world in the middle of a load. -/
structure Loading where
  w : World
  dlthis : dload_state

/-- The answers of the callbacks. Each may depend on everything that happened before, so that
any pattern of failures is one of them. `dload_data` stands for the image packets: the target
writes they make and the number of errors they report. -/
structure Callbacks where
  read_buffer : World → Bool
  Allocate : World → Nat → Ptr
  Add_To_Symbol_Table : World → List UInt8 → Bool
  alloc : World → LDR_SECTION_INFO → Option (LDR_ADDR × LDR_ADDR × UInt32)
  connect : World → Bool
  writemem : World → Bool
  execute : World → Bool
  dload_data : Loading → List (Nat × List UInt8) × Nat
  /-- host memory in use is not handed out again -/
  fresh : ∀ w siz, Allocate w siz ≠ 0 → Allocate w siz ∉ w.host
  /-- no debug record is put at target address zero, which ends the module list -/
  placed : ∀ w info run load context, info.type = DLOAD_DATA →
    alloc w info = some (run, load, context) → load ≠ 0

end OmapHal.Dynload
