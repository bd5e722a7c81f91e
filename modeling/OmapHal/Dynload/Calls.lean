import OmapHal.Dynload.State

/-!
# The calls of the loader

What each callback does to the world, and the accesses to host blocks. An access through a
pointer that names no block of its kind has no meaning: the result is `none`. Unloading a module
makes these calls only.
-/

namespace OmapHal.Dynload

section Calls

variable {cb : Callbacks} {w : World} {p : Ptr}

/-- One more call has been answered. -/
def World.called (w : World) : World := { w with calls := w.calls + 1 }

def World.fault (w : World) : World := { w with faults := w.faults + 1 }

def World.setBlock (w : World) (p : Ptr) (b : Block) : World :=
  { w with blocks := Function.update w.blocks p b }

/-- `syms->Allocate`; the result `0` is `NULL`. -/
def World.Allocate (cb : Callbacks) (w : World) (siz : Nat) : Ptr × World :=
  let p := cb.Allocate w siz
  (p, if p = 0 then w.called else { w.called.setBlock p .raw with host := p :: w.host })

/-- `syms->Deallocate`. -/
def World.Deallocate (w : World) (p : Ptr) : World :=
  if p ∈ w.host then { w with host := w.host.erase p } else w.fault

/-- `syms->Find_Matching_Symbol`: the symbol of the name that was added last. No symbol has the
name `NULL`. -/
def World.Find_Matching_Symbol (w : World) (name : Option (List UInt8)) : Option Symbol :=
  w.symbols.find? fun s => some s.name == name

/-- `syms->Add_To_Symbol_Table` and the value that the loader then gives the new symbol. -/
def World.Add_To_Symbol_Table (cb : Callbacks) (w : World) (name : List UInt8) (moduleid : Ptr)
    (value : SymValue) : Bool × World :=
  if cb.Add_To_Symbol_Table w name then
    (true, { w.called with symbols := ⟨name, value, moduleid⟩ :: w.symbols })
  else (false, w.called)

/-- `syms->Purge_Symbol_Table`. -/
def World.Purge_Symbol_Table (w : World) (moduleid : Ptr) : World :=
  { w with symbols := w.symbols.filter fun s => s.moduleid != moduleid }

/-- `alloc->Allocate`: the record as the allocator fills it in. -/
def World.alloc (cb : Callbacks) (w : World) (info : LDR_SECTION_INFO) :
    Option LDR_SECTION_INFO × World :=
  match cb.alloc w info with
  | none => (none, w.called)
  | some (run, load, context) =>
    let info := { info with run_addr := run, load_addr := load, context := context }
    (some info, { w.called with target := info.storage :: w.target })

/-- `alloc->Deallocate`. -/
def World.dealloc (w : World) (info : LDR_SECTION_INFO) : World :=
  if info.storage ∈ w.target then { w with target := w.target.erase info.storage } else w.fault

/-- `init->writemem`. -/
def World.writemem (cb : Callbacks) (w : World) (bufr : List UInt8) (locn : LDR_ADDR) :
    Bool × World :=
  if cb.writemem w then (true, { w.called with mem := w.mem.write locn.toNat bufr })
  else (false, w.called)

/-- The handle behind a pointer. -/
def World.handle? (w : World) (p : Ptr) : Option my_handle :=
  if p ∈ w.host then
    match w.blocks p with
    | .handle hndl => some hndl
    | _ => none
  else none

/-- The root behind a pointer. -/
def World.root? (w : World) (p : Ptr) : Option dbg_mirror_root :=
  if p ∈ w.host then
    match w.blocks p with
    | .root root => some root
    | _ => none
  else none

/-- The field `dbthis` of a root or a handle, which stands at the same place in both. -/
def World.dbthis? (w : World) (p : Ptr) : Option LDR_ADDR :=
  ((w.root? p).map (·.dbthis)).or ((w.handle? p).map (·.dm.dbthis))

/-- A change to a handle. -/
def World.modifyHandle (w : World) (p : Ptr) (f : my_handle → my_handle) : Option World :=
  (w.handle? p).map fun hndl => w.setBlock p (.handle (f hndl))

/-- A change to a root. -/
def World.modifyRoot (w : World) (p : Ptr) (f : dbg_mirror_root → dbg_mirror_root) :
    Option World :=
  (w.root? p).map fun root => w.setBlock p (.root (f root))

/-- A store to the field `hnext` of a root or a handle. -/
def World.setHnext (w : World) (p next : Ptr) : Option World :=
  (w.modifyRoot p fun root => { root with hnext := next }).or
    (w.modifyHandle p fun hndl => { hndl with dm := { hndl.dm with hnext := next } })

/-- A store to the field `hprev` of a handle, if there is one. -/
def World.setHprev (w : World) (p prev : Ptr) : Option World :=
  if p = 0 then some w
  else w.modifyHandle p fun hndl => { hndl with dm := { hndl.dm with hprev := prev } }

end Calls

/-!
## Unloading a module

The debug records on the target and `Dynamic_Unload_Module`. A record starts with the address
and the size of the next one, as the modules header does with those of the first.
-/

section Unloading

open OmapHal.Core (encode)

/-- `DLLVIEW_INFO_INIT`, with the size of the record. -/
def dllview_info (size : LDR_ADDR) : LDR_SECTION_INFO where
  run_addr := 0
  load_addr := 0
  size := size
  page := DBG_LIST_PAGE
  type := DLOAD_DATA
  context := 0

/-- The first six bytes of a `modules_header` or a `dll_module`. -/
def link_bytes (link : LDR_ADDR × UInt16) : List UInt8 :=
  encode 4 link.1.toNat ++ encode 2 link.2.toNat

/-- Offset of `update_flag` in a `modules_header`. -/
def UPDATE_FLAG_OFFSET : LDR_ADDR := 6

/-- Turns the words of a record round, each as two halves where the bitmap has a one. A last
half word stands for itself. -/
def swap_words : List UInt8 → Nat → List UInt8
  | a :: b :: c :: d :: rest, bitmap =>
    (if bitmap % 2 = 0 then [d, c, b, a] else [b, a, d, c]) ++ swap_words rest (bitmap / 2)
  | [a, b], _ => [b, a]
  | rest, _ => rest

def MODULES_HEADER_BITMAP : Nat := 2

/-- What the cell before the handle `next` holds on the target. -/
def World.linkTo (w : World) (next : Ptr) : Option (LDR_ADDR × UInt16) :=
  if next = 0 then some (0, 0) else (w.handle? next).map fun hndl => (hndl.dm.dbthis, hndl.dm.dbsiz)

/-- `alloc->Deallocate` for the first `n` places of the section table. -/
def World.deallocSections : Nat → List (Option LDR_SECTION_INFO) → World → World
  | 0, _, w => w
  | n + 1, [], w => World.deallocSections n [] w.fault
  | n + 1, none :: secns, w => World.deallocSections n secns w.fault
  | n + 1, some asecs :: secns, w => World.deallocSections n secns (w.dealloc asecs)

/-- The record leaves the mirror list. -/
def World.dequeue (w : World) (dm : dbg_mirror_list) : Option World := do
  let w ← w.setHnext dm.hprev dm.hnext
  w.setHprev dm.hnext dm.hprev

/-- The links that are written when a record leaves the list, in the byte order of its module. -/
def my_handle.linkBytes (hndl : my_handle) (link : LDR_ADDR × UInt16) : List UInt8 :=
  if hndl.secn_count &&& 1 = 1 then swap_words (link_bytes link) MODULES_HEADER_BITMAP
  else link_bytes link

/-- The record leaves the list on the target; the number of errors. -/
def World.unlink (cb : Callbacks) (hndl : my_handle) (link : LDR_ADDR × UInt16) (w : World) :
    Option (Nat × World) := do
  let before ← w.dbthis? hndl.dm.hprev
  let linked := w.writemem cb (hndl.linkBytes link) before
  let w ← linked.2.modifyRoot hndl.dm.hroot fun root => { root with changes := root.changes + 1 }
  let root ← w.root? hndl.dm.hroot
  let counted :=
    w.writemem cb (encode 2 root.changes.toNat) (root.dbthis + UPDATE_FLAG_OFFSET)
  some ((if linked.1 then 0 else 1) + (if counted.1 then 0 else 1), counted.2)

/-- The record leaves both lists, if it is in them. -/
def World.unlist (cb : Callbacks) (init : Bool) (mhandle : Ptr) (hndl : my_handle) (w : World) :
    Option (Nat × World) :=
  if hndl.dm.hprev = mhandle then some (0, w)
  else do
    let w ← w.dequeue hndl.dm
    let link ← w.linkTo hndl.dm.hnext
    if !init then some (0, w)
    else if !cb.connect w then some (1, w.called)
    else w.called.unlink cb hndl link

/-- The record of a module is given up, if it has one. -/
def World.dropRecord (cb : Callbacks) (alloc init : Bool) (mhandle : Ptr) (hndl : my_handle)
    (w : World) : Option (Nat × World) :=
  if hndl.dm.dbthis = 0 then some (0, w)
  else do
    let (errcount, w) ← w.unlist cb init mhandle hndl
    let info := { dllview_info hndl.dm.dbsiz.toUInt32 with
      load_addr := hndl.dm.dbthis
      context := hndl.dm.context }
    let w := if alloc then w.dealloc info else w
    let w ← w.modifyRoot hndl.dm.hroot fun root => { root with refcount := root.refcount - 1 }
    some (errcount, w)

/-- A module with a root gives up its record and its hold on the root. -/
def World.leaveRoot (cb : Callbacks) (alloc init : Bool) (mhandle : Ptr) (hndl : my_handle)
    (w : World) : Option (Nat × World) :=
  if hndl.dm.hroot = 0 then some (0, w)
  else do
    let (errcount, w) ← w.dropRecord cb alloc init mhandle hndl
    let root ← w.root? hndl.dm.hroot
    if root.refcount = 0 ∧ w.Find_Matching_Symbol (some LOADER_DLLVIEW_ROOT) = none then
      some (errcount, w.Deallocate hndl.dm.hroot)
    else some (errcount, w)

def Dynamic_Unload_Module (cb : Callbacks) (alloc init : Bool) (mhandle : Ptr) (w : World) :
    Option (Nat × World) :=
  if mhandle = 0 then some (0, w)
  else do
    let w := w.Purge_Symbol_Table mhandle
    let hndl ← w.handle? mhandle
    let w := if alloc then w.deallocSections (hndl.secn_count >>> 1).toNat hndl.secns else w
    let (errcount, w) ← w.leaveRoot cb alloc init mhandle hndl
    some (errcount, w.Deallocate mhandle)

end Unloading

end OmapHal.Dynload
