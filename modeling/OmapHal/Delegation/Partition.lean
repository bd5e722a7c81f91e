import Mathlib

/-!
# Partition files of the delegation daemon

`delegation_client.c` keeps each of the 16 partitions in one file and reaches it
through the C library only. What the library and the system below it do with one
file is `Stdio`, a parameter: any result, any `errno` and any effect on that file.
The instructions themselves are the source's functions over it.
-/

namespace OmapHal.Delegation

/-- The `errno` values that `errno2serror` tells apart. -/
inductive Errno where
  | EINVAL | EMFILE | ENOENT | EEXIST | ENOSPC | ENOMEM | EBADF | EACCES | other
  deriving DecidableEq, Repr

/-- The result codes stored in the error state of a partition. -/
inductive TEECResult where
  | success
  | badParameters
  | badState
  | itemNotFound
  | outOfMemory
  | noMoreHandles
  | itemExists
  | storageNoSpace
  | storageUnreachable
  deriving DecidableEq, Repr

/-- The translation of a failed system call into a result code. -/
def errno2serror : Errno → TEECResult
  | .EINVAL => .badParameters
  | .EMFILE => .noMoreHandles
  | .ENOENT => .itemNotFound
  | .EEXIST => .itemExists
  | .ENOSPC => .storageNoSpace
  | .ENOMEM => .outOfMemory
  | .EBADF => .storageUnreachable
  | .EACCES => .storageUnreachable
  | .other => .storageUnreachable

/-- A failed system call never reports success. -/
theorem errno2serror_ne_success (e : Errno) : errno2serror e ≠ .success := by
  cases e <;> exact TEECResult.noConfusion

/-- The two `fopen` modes of the daemon, `"w+b"` and `"r+b"`. -/
inductive OpenMode where
  | create
  | update
  deriving DecidableEq, Repr

/-- The two `fseek` origins of the daemon. -/
inductive Seek where
  | set (offset : Int)
  | toEnd
  deriving DecidableEq, Repr

/-- How `fread` of one item ended. -/
inductive ReadStatus where
  | full
  | eof
  | error (e : Errno)
  deriving DecidableEq, Repr

/-- The C library and the system on one partition file of state `σ`. A call
answers `none` where it succeeds and the `errno` where it fails. -/
structure Stdio (σ : Type) where
  unlink : σ → Option Errno × σ
  fopen : OpenMode → σ → Option Errno × σ
  fclose : σ → σ
  fseek : Seek → σ → Option Errno × σ
  ftell : σ → Int
  /-- The bytes stored in the destination, also where the item is incomplete. -/
  fread : Nat → σ → List UInt8 × ReadStatus × σ
  fwrite : List UInt8 → σ → Option Errno × σ
  fputc : UInt8 → σ → Option Errno × σ
  ftruncate : Nat → σ → Option Errno × σ
  fflush : σ → Option Errno × σ
  fdatasync : σ → Option Errno × σ

/-- One partition: whether `g_pPartitionFiles[id]` is set, and its file. -/
structure Partition (σ : Type) where
  isOpen : Bool
  file : σ
  deriving DecidableEq, Repr

variable {σ : Type} (os : Stdio σ)

/-- An unsigned 32-bit product, as the sector arithmetic computes it. -/
def mul32 (a b : Nat) : Nat := a * b % 2 ^ 32

/-- The `fseek` offset of a sector: the 32-bit product read as a 32-bit `long`. -/
def sectorOffset (nSectorSize nSectorIndex : Nat) : Int :=
  Int.bmod (mul32 nSectorIndex nSectorSize) (2 ^ 32)

/-- The number of sectors: a `long` position divided as an unsigned number. -/
def sectorCount (nSectorSize : Nat) (position : Int) : Nat :=
  (position % 2 ^ 32).toNat / nSectorSize

/-- DESTROY_PARTITION. -/
def partitionDestroy (pt : Partition σ) : TEECResult × Partition σ :=
  if pt.isOpen then (.badState, pt)
  else match os.unlink pt.file with
    | (none, f) => (.success, { pt with file := f })
    | (some e, f) => (errno2serror e, { pt with file := f })

/-- CREATE_PARTITION. -/
def partitionCreate (pt : Partition σ) : TEECResult × Partition σ :=
  if pt.isOpen then (.badState, pt)
  else match os.fopen .create pt.file with
    | (none, f) => (.success, { isOpen := true, file := f })
    | (some e, f) => (errno2serror e, { pt with file := f })

/-- OPEN_PARTITION, with the number of sectors it reports on success. -/
def partitionOpen (nSectorSize : Nat) (pt : Partition σ) : TEECResult × Nat × Partition σ :=
  if pt.isOpen then (.badState, 0, pt)
  else match os.fopen .update pt.file with
    | (some .ENOENT, f) => (.itemNotFound, 0, { pt with file := f })
    | (some e, f) => (errno2serror e, 0, { pt with file := f })
    | (none, f) =>
      -- the result of this seek is not looked at
      let f := (os.fseek .toEnd f).2
      (.success, sectorCount nSectorSize (os.ftell f), { isOpen := true, file := f })

/-- CLOSE_PARTITION. -/
def partitionClose (pt : Partition σ) : TEECResult × Partition σ :=
  if pt.isOpen then (.success, { isOpen := false, file := os.fclose pt.file })
  else (.badState, pt)

/-- READ, with the bytes it stores at the workspace offset. -/
def partitionRead (nSectorSize nSectorIndex : Nat) (pt : Partition σ) :
    TEECResult × List UInt8 × Partition σ :=
  if pt.isOpen then
    match os.fseek (.set (sectorOffset nSectorSize nSectorIndex)) pt.file with
    | (some e, f) => (errno2serror e, [], { pt with file := f })
    | (none, f) => match os.fread nSectorSize f with
      | (bytes, .full, f) => (.success, bytes, { pt with file := f })
      | (bytes, .eof, f) => (.itemNotFound, bytes, { pt with file := f })
      | (bytes, .error e, f) => (errno2serror e, bytes, { pt with file := f })
  else (.badState, [], pt)

/-- WRITE of one sector's bytes. -/
def partitionWrite (nSectorSize nSectorIndex : Nat) (data : List UInt8) (pt : Partition σ) :
    TEECResult × Partition σ :=
  if pt.isOpen then
    match os.fseek (.set (sectorOffset nSectorSize nSectorIndex)) pt.file with
    | (some e, f) => (errno2serror e, { pt with file := f })
    | (none, f) => match os.fwrite data f with
      | (some e, f) => (errno2serror e, { pt with file := f })
      | (none, f) => (.success, { pt with file := f })
  else (.badState, pt)

/-- The `fputc` loop that fills added sectors. -/
def fillSectors : Nat → σ → Option Errno × σ
  | 0, f => (none, f)
  | n + 1, f => match os.fputc 0xA5 f with
    | (some e, f) => (some e, f)
    | (none, f) => fillSectors n f

/-- SET_SIZE. -/
def partitionSetSize (nSectorSize nNewSectorCount : Nat) (pt : Partition σ) :
    TEECResult × Partition σ :=
  if pt.isOpen then
    match os.fseek .toEnd pt.file with
    | (some e, f) => (errno2serror e, { pt with file := f })
    | (none, f) =>
      let nCurrentSectorCount := sectorCount nSectorSize (os.ftell f)
      if nCurrentSectorCount < nNewSectorCount then
        match fillSectors os (mul32 (nNewSectorCount - nCurrentSectorCount) nSectorSize) f with
        | (some e, f) => (errno2serror e, { pt with file := f })
        | (none, f) => (.success, { pt with file := f })
      else if nNewSectorCount < nCurrentSectorCount then
        match os.ftruncate (mul32 nNewSectorCount nSectorSize) f with
        | (some e, f) => (errno2serror e, { pt with file := f })
        | (none, f) => (.success, { pt with file := f })
      else (.success, { pt with file := f })
  else (.badState, pt)

/-- SYNC. -/
def partitionSync (pt : Partition σ) : TEECResult × Partition σ :=
  if pt.isOpen then
    match os.fflush pt.file with
    | (some e, f) => (errno2serror e, { pt with file := f })
    | (none, f) => match os.fdatasync f with
      | (some e, f) => (errno2serror e, { pt with file := f })
      | (none, f) => (.success, { pt with file := f })
  else (.badState, pt)

end OmapHal.Delegation
