import OmapHal.Core.Ring
import OmapHal.Core.Run

/-!
# The ring of timestamps

`VIDDEC_CircBuf_Init`, `_Flush`, `_Add` and `_Remove` of the video decoder: what belongs to an input
buffer is kept for the output buffer that is decoded from it. The mutex is taken in each of them.
-/

namespace OmapHal.VideoDecoder

open OmapHal.Core List Nat

def CBUFFER_ARRAYSIZE : Nat := 1000

def OMX_BUFFERFLAG_STARTTIME : BitVec 32 := 0x00000002
def OMX_BUFFERFLAG_DECODEONLY : BitVec 32 := 0x00000004
def OMX_BUFFERFLAG_CODECCONFIG : BitVec 32 := 0x00000080

/-- A value of 32 bits as an `OMX_S32`. -/
def toS32 (v : Int) : Int := v.bmod (2 ^ 32)

/-- The fields of `OMX_BUFFERHEADERTYPE` that the ring reads and writes. -/
structure BufferHeader where
  nTimeStamp : Int
  nTickCount : Nat
  nFlags : BitVec 32
  nFilledLen : Nat
  hMarkTargetComponent : Nat
  pMarkData : Nat
  deriving DecidableEq, Repr

/-- `OMX_MARKTYPE`. -/
structure Mark where
  hMarkTargetComponent : Nat
  pMarkData : Nat
  deriving DecidableEq, Repr

/-- `VIDDEC_CBUFFER_BUFFERFLAGS`. -/
structure BufferFlags where
  nTimeStamp : Int := 0
  nFlags : BitVec 32 := 0
  nTickCount : Nat := 0
  pMarkData : Nat := 0
  hMarkTargetComponent : Nat := 0
  nBytesConsumed : Int := 0
  deriving DecidableEq, Repr

/-- `VIDDEC_CIRCULAR_BUFFER`. -/
structure CircularBuffer where
  pElements : Nat → BufferFlags
  nTail : Nat
  nHead : Nat
  nCount : Nat

namespace CircularBuffer

variable (pCBuffer : CircularBuffer)

/-- `VIDDEC_CircBuf_Init`. The elements are as they were. -/
def Init : CircularBuffer := { pCBuffer with nCount := 0, nHead := 0, nTail := 0 }

/-- `VIDDEC_CircBuf_Flush`. -/
def Flush : CircularBuffer where
  pElements := Function.update pCBuffer.pElements 0 {}
  nTail := 0
  nHead := 0
  nCount := 0

/-- An index after it was counted up. -/
def wrap (n : Nat) : Nat := if n ≥ CBUFFER_ARRAYSIZE then 0 else n

/-- What is kept of a buffer. -/
def kept (pBufferHeader : BufferHeader) (pMark : Option Mark) : BufferFlags where
  nTimeStamp := pBufferHeader.nTimeStamp
  nTickCount := pBufferHeader.nTickCount
  nFlags := pBufferHeader.nFlags &&& (OMX_BUFFERFLAG_DECODEONLY ||| OMX_BUFFERFLAG_STARTTIME)
  nBytesConsumed := toS32 pBufferHeader.nFilledLen
  hMarkTargetComponent := match pMark with
    | some mark => mark.hMarkTargetComponent
    | none => pBufferHeader.hMarkTargetComponent
  pMarkData := match pMark with
    | some mark => mark.pMarkData
    | none => pBufferHeader.pMarkData

/-- `VIDDEC_CircBuf_Add`, with the header as it is left. -/
def Add (pBufferHeader : BufferHeader) (pMark : Option Mark) : CircularBuffer × BufferHeader :=
  if pBufferHeader.nFlags &&& OMX_BUFFERFLAG_CODECCONFIG ≠ 0 then (pCBuffer, pBufferHeader)
  else
    ({ pElements := Function.update pCBuffer.pElements pCBuffer.nHead (kept pBufferHeader pMark)
       nTail := pCBuffer.nTail
       nHead := wrap (pCBuffer.nHead + 1)
       nCount := pCBuffer.nCount + 1 }, { pBufferHeader with nFlags := 0 })

/-- The element that `Remove` looks at: the one at the tail or, where it takes the ring for empty,
the one that was added last. -/
def shown : BufferFlags :=
  if pCBuffer.nTail ≠ pCBuffer.nHead then pCBuffer.pElements pCBuffer.nTail
  else if pCBuffer.nTail = 0 then pCBuffer.pElements (CBUFFER_ARRAYSIZE - 1)
  else pCBuffer.pElements (pCBuffer.nTail - 1)

/-- What the header of an output buffer gets from an element. -/
def deliver (pBufferHeader : BufferHeader) (pBufferFlags : BufferFlags) : BufferHeader :=
  let nFlags := pBufferHeader.nFlags ||| pBufferFlags.nFlags
  { pBufferHeader with
    nTimeStamp := pBufferFlags.nTimeStamp
    nTickCount := pBufferFlags.nTickCount
    nFlags := if nFlags &&& OMX_BUFFERFLAG_DECODEONLY = 0 then
      nFlags &&& ~~~OMX_BUFFERFLAG_DECODEONLY else nFlags
    hMarkTargetComponent := pBufferFlags.hMarkTargetComponent
    pMarkData := pBufferFlags.pMarkData }

/-- The element at the tail with another count of bytes. -/
def setBytes (nBytesConsumed : Int) : CircularBuffer :=
  { pCBuffer with
    pElements := Function.update pCBuffer.pElements pCBuffer.nTail
      { pCBuffer.pElements pCBuffer.nTail with nBytesConsumed := nBytesConsumed } }

/-- The element at the tail is given up. -/
def dropTail : CircularBuffer :=
  { pCBuffer with nTail := wrap (pCBuffer.nTail + 1), nCount := pCBuffer.nCount - 1 }

/-- The loop of `VIDDEC_CircBuf_Remove` in stream mode, for so many elements. -/
def consumeLoop : Nat → CircularBuffer → Int → Int → CircularBuffer
  | 0, pCBuffer, _, _ => pCBuffer
  | n + 1, pCBuffer, nDiffBytesconsumed, nTempBytesconsumed =>
    let bytes := (pCBuffer.pElements pCBuffer.nTail).nBytesConsumed
    let nDiffBytesconsumed := toS32 (nDiffBytesconsumed - bytes)
    if nDiffBytesconsumed > 0 then
      consumeLoop n pCBuffer.dropTail nDiffBytesconsumed (toS32 (nTempBytesconsumed - bytes))
    else pCBuffer.setBytes (toS32 (bytes - nTempBytesconsumed))

/-- `VIDDEC_CircBuf_Remove`, with the header that is filled. -/
def Remove (pBufferHeader : BufferHeader) (nBytesconsumed ProcessMode : Nat) :
    CircularBuffer × BufferHeader :=
  (if ProcessMode ≠ 0 then
    consumeLoop pCBuffer.nCount pCBuffer (toS32 nBytesconsumed) (toS32 nBytesconsumed)
   else if pCBuffer.nCount > 0 then pCBuffer.dropTail
   else pCBuffer, deliver pBufferHeader pCBuffer.shown)

end CircularBuffer

/-!
## What the ring delivers

The ring holds the buffers that were added last, in their order. When an output buffer gets what
belongs to the right one of them, in frame mode and in stream mode.
-/

/-! ## What is stored -/

/-- A buffer that was added, with the mark that goes with it. -/
structure Added where
  header : BufferHeader
  mark : Option Mark
  deriving DecidableEq, Repr

namespace Added

/-- What is kept of a buffer, of which so many bytes were not consumed. -/
def entry (b : Added) (unread : Int) : BufferFlags :=
  { CircularBuffer.kept b.header b.mark with nBytesConsumed := unread }

theorem entry_toS32 (header : BufferHeader) (mark : Option Mark) :
    Added.entry ⟨header, mark⟩ (toS32 header.nFilledLen) = CircularBuffer.kept header mark := by
  unfold Added.entry CircularBuffer.kept
  rfl

/-- The header of an output buffer with what belongs to the buffer. -/
def delivered (b : Added) (header : BufferHeader) : BufferHeader :=
  { header with
    nTimeStamp := b.header.nTimeStamp
    nTickCount := b.header.nTickCount
    nFlags := header.nFlags |||
      b.header.nFlags &&& (OMX_BUFFERFLAG_DECODEONLY ||| OMX_BUFFERFLAG_STARTTIME)
    hMarkTargetComponent :=
      b.mark.elim b.header.hMarkTargetComponent Mark.hMarkTargetComponent
    pMarkData := b.mark.elim b.header.pMarkData Mark.pMarkData }

end Added

/-- For each byte that is not consumed, the buffer that it is in. -/
def unreadBytes (W : List (Added × Int)) : List Added := W.flatMap fun w => .replicate w.2.toNat w.1

/-- For each byte of the stream, the buffer that it is in. -/
def streamBytes (added : List Added) : List Added :=
  added.flatMap fun b => .replicate b.header.nFilledLen b

/-- The ring holds these buffers, each with so many bytes that are not consumed. -/
structure CircularBuffer.Stores (pCBuffer : CircularBuffer) (W : List (Added × Int)) : Prop where
  tail : pCBuffer.nTail < CBUFFER_ARRAYSIZE
  head : pCBuffer.nHead = (pCBuffer.nTail + pCBuffer.nCount) % CBUFFER_ARRAYSIZE
  count : pCBuffer.nCount = W.length
  room : W.length ≤ CBUFFER_ARRAYSIZE
  held : held CBUFFER_ARRAYSIZE pCBuffer.pElements pCBuffer.nTail pCBuffer.nCount =
    W.map fun w => w.1.entry w.2

private theorem wrap_eq {n : Nat} (h : n < CBUFFER_ARRAYSIZE) :
    CircularBuffer.wrap (n + 1) = (n + 1) % CBUFFER_ARRAYSIZE :=
  (succ_mod h).symm

theorem deliver_entry (header : BufferHeader) (b : Added) (unread : Int) :
    CircularBuffer.deliver header (b.entry unread) = b.delivered header := by
  have hflags (x : BitVec 32) : (if x &&& OMX_BUFFERFLAG_DECODEONLY = 0 then
      x &&& ~~~OMX_BUFFERFLAG_DECODEONLY else x) = x := by
    split
    next hclear =>
      calc x &&& ~~~OMX_BUFFERFLAG_DECODEONLY
          = x &&& OMX_BUFFERFLAG_DECODEONLY ||| x &&& ~~~OMX_BUFFERFLAG_DECODEONLY := by
            rw [hclear]
            exact BitVec.zero_or.symm
        _ = x := by
          rw [← BitVec.and_or_distrib_left, BitVec.or_not_self, BitVec.and_allOnes]
    next => rfl
  unfold CircularBuffer.deliver Added.delivered
  dsimp only
  rw [hflags]
  cases hmark : b.mark <;>
    simp [Added.entry, CircularBuffer.kept, hmark]

namespace CircularBuffer

namespace Stores

variable {pCBuffer : CircularBuffer} {W : List (Added × Int)} {b : Added} {r : Int}

theorem init (pCBuffer : CircularBuffer) : pCBuffer.Init.Stores [] where
  tail := zero_lt_succ 999
  head := rfl
  count := rfl
  room := zero_le _
  held := rfl

theorem flush (pCBuffer : CircularBuffer) : pCBuffer.Flush.Stores [] where
  tail := zero_lt_succ 999
  head := rfl
  count := rfl
  room := zero_le _
  held := rfl

/-- A buffer is put behind the others. -/
theorem add (h : pCBuffer.Stores W) (hroom : pCBuffer.nCount < CBUFFER_ARRAYSIZE)
    {header : BufferHeader} (hplain : header.nFlags &&& OMX_BUFFERFLAG_CODECCONFIG = 0)
    (mark : Option Mark) :
    (pCBuffer.Add header mark).1.Stores (W ++ [(⟨header, mark⟩, toS32 header.nFilledLen)]) := by
  have hhead : pCBuffer.nHead < CBUFFER_ARRAYSIZE := by
    rw [h.head]
    exact mod_lt _ (by decide)
  unfold Add
  rw [if_neg (not_not.mpr hplain)]
  refine ⟨h.tail, ?_, ?_, ?_, ?_⟩
  · show wrap (pCBuffer.nHead + 1) = (pCBuffer.nTail + (pCBuffer.nCount + 1)) % CBUFFER_ARRAYSIZE
    rw [wrap_eq hhead, h.head, mod_add_mod, add_assoc]
  · rw [length_append, ← h.count, length_singleton]
  · rw [length_append, ← h.count, length_singleton]
    exact hroom
  · show Core.held _ (Function.update pCBuffer.pElements pCBuffer.nHead _) pCBuffer.nTail
      (pCBuffer.nCount + 1) = _
    rw [h.head, held_push hroom, h.held, map_append, map_singleton, Added.entry_toS32]

/-- The element at the tail is that of the first buffer. -/
theorem first (h : pCBuffer.Stores ((b, r) :: W)) :
    pCBuffer.pElements pCBuffer.nTail = b.entry r ∧
      Core.held CBUFFER_ARRAYSIZE pCBuffer.pElements ((pCBuffer.nTail + 1) % CBUFFER_ARRAYSIZE)
        W.length = W.map fun w => w.1.entry w.2 := by
  have hheld := h.held
  rw [h.count, length_cons, held_pop h.tail, map_cons] at hheld
  exact ⟨(cons.inj hheld).1, (cons.inj hheld).2⟩

theorem dropTail (h : pCBuffer.Stores ((b, r) :: W)) : pCBuffer.dropTail.Stores W := by
  have hcount : pCBuffer.nCount = W.length + 1 := h.count
  have htail : pCBuffer.dropTail.nTail = (pCBuffer.nTail + 1) % CBUFFER_ARRAYSIZE := wrap_eq h.tail
  have hleft : pCBuffer.dropTail.nCount = W.length := by
    show pCBuffer.nCount - 1 = W.length
    omega
  refine ⟨?_, ?_, hleft, le_of_succ_le h.room, ?_⟩
  · rw [htail]
    exact mod_lt _ (by decide)
  · show pCBuffer.nHead = _
    rw [h.head, htail, hleft, hcount, mod_add_mod, add_assoc, add_comm W.length 1]
  · rw [htail, hleft]
    exact h.first.2

theorem setBytes (h : pCBuffer.Stores ((b, r) :: W)) (unread : Int) :
    (pCBuffer.setBytes unread).Stores ((b, unread) :: W) := by
  have hcount : pCBuffer.nCount = W.length + 1 := h.count
  refine ⟨h.tail, h.head, h.count, h.room, ?_⟩
  show Core.held _ (Function.update pCBuffer.pElements pCBuffer.nTail
    { pCBuffer.pElements pCBuffer.nTail with nBytesConsumed := unread }) pCBuffer.nTail
      pCBuffer.nCount = _
  rw [hcount, held_update_tail h.tail h.room, h.first.1, h.first.2]
  rfl

/-- Where the ring is not full, the first buffer is shown. -/
theorem shown_eq (h : pCBuffer.Stores ((b, r) :: W)) (hroom : pCBuffer.nCount < CBUFFER_ARRAYSIZE) :
    pCBuffer.shown = b.entry r := by
  have hcount : pCBuffer.nCount = W.length + 1 := h.count
  have hne : pCBuffer.nTail ≠ pCBuffer.nHead := by
    have hless : pCBuffer.nTail + pCBuffer.nCount < pCBuffer.nTail + CBUFFER_ARRAYSIZE :=
      Nat.add_lt_add_left hroom _
    have hmod := mod_ne_mod (show pCBuffer.nTail < pCBuffer.nTail + pCBuffer.nCount by omega) hless
    rwa [mod_eq_of_lt h.tail, ← h.head] at hmod
  unfold shown
  rw [if_pos hne, h.first.1]

/-- Whatever the loop takes off, it leaves the last ones of the buffers. -/
theorem consumeLoop_suffix {n : Nat} (h : pCBuffer.Stores W) (hn : W.length = n)
    (nDiffBytesconsumed nTempBytesconsumed : Int) :
    ∃ W', (consumeLoop n pCBuffer nDiffBytesconsumed nTempBytesconsumed).Stores W' ∧
      W'.map Prod.fst <:+ W.map Prod.fst := by
  induction n generalizing pCBuffer W nDiffBytesconsumed nTempBytesconsumed with
  | zero => exact ⟨W, h, suffix_rfl⟩
  | succ n ih =>
    obtain ⟨⟨b, r⟩, W, rfl⟩ := exists_cons_of_length_eq_add_one hn
    rw [consumeLoop]
    split
    · obtain ⟨W', hW', hsuffix⟩ := ih h.dropTail (succ.inj hn)
        (toS32 (nDiffBytesconsumed - (pCBuffer.pElements pCBuffer.nTail).nBytesConsumed))
        (toS32 (nTempBytesconsumed - (pCBuffer.pElements pCBuffer.nTail).nBytesConsumed))
      exact ⟨W', hW', hsuffix.trans (suffix_cons b _)⟩
    · exact ⟨_, h.setBytes _, suffix_rfl⟩

end Stores

end CircularBuffer

/-! ## Taking bytes off -/

theorem toS32_of_nonneg {v : Int} (h0 : 0 ≤ v) (hv : v < 2 ^ 31) : toS32 v = v :=
  Int.bmod_eq_of_le (by omega) (by omega)

private theorem toS32_of_neg {v : Int} (h0 : v < 0) (hv : -2 ^ 31 < v) : toS32 v = v :=
  Int.bmod_eq_of_le (by omega) (by omega)

/-- The buffers without so many bytes. The last one that is reached stays, also with none left. -/
def consume (n : Int) : List (Added × Int) → List (Added × Int)
  | [] => []
  | (b, r) :: W => if n - r > 0 then consume (n - r) W else (b, r - n) :: W

/-- Counts of bytes that an `OMX_S32` holds. -/
def Counts (W : List (Added × Int)) : Prop := ∀ w ∈ W, 0 ≤ w.2 ∧ w.2 < 2 ^ 31

/-- The loop consumes the stored entries. -/
theorem CircularBuffer.Stores.consumeLoop {pCBuffer : CircularBuffer} {W : List (Added × Int)}
    {n : Int} (h : pCBuffer.Stores W) (hcounts : Counts W) (h0 : 0 ≤ n) (hn : n < 2 ^ 31) :
    (CircularBuffer.consumeLoop W.length pCBuffer n n).Stores (consume n W) := by
  induction W generalizing pCBuffer n with
  | nil => exact h
  | cons w W ih =>
    obtain ⟨b, r⟩ := w
    obtain ⟨hr0, hr⟩ := hcounts _ mem_cons_self
    have hbytes : (pCBuffer.pElements pCBuffer.nTail).nBytesConsumed = r := by
      rw [h.first.1]
      rfl
    have hdiff : toS32 (n - r) = n - r := by
      by_cases hneg : n - r < 0
      · exact toS32_of_neg hneg (by omega)
      · exact toS32_of_nonneg (by omega) (by omega)
    rw [length_cons, CircularBuffer.consumeLoop, consume, hbytes, hdiff]
    split
    · exact ih h.dropTail (fun w hw => hcounts w (mem_cons_of_mem _ hw)) (by omega) (by omega)
    · rw [toS32_of_nonneg (v := r - n) (by omega) (by omega)]
      exact h.setBytes (r - n)

theorem Counts.consume {n : Int} {W : List (Added × Int)} (h : Counts W) (h0 : 0 ≤ n) :
    Counts (VideoDecoder.consume n W) := by
  induction W generalizing n with
  | nil => exact h
  | cons w W ih =>
    obtain ⟨b, r⟩ := w
    have hrest : Counts W := fun w hw => h w (mem_cons_of_mem _ hw)
    have hfirst : 0 ≤ r ∧ r < 2 ^ 31 := h _ mem_cons_self
    rw [VideoDecoder.consume]
    split
    · exact ih hrest (by omega)
    · intro w hw
      rcases mem_cons.mp hw with rfl | hw
      · exact ⟨by dsimp only; omega, by dsimp only; omega⟩
      · exact hrest w hw

theorem unreadBytes_cons (b : Added) (r : Int) (W : List (Added × Int)) :
    unreadBytes ((b, r) :: W) = .replicate r.toNat b ++ unreadBytes W := rfl

/-- The bytes that are left. -/
theorem unreadBytes_consume {n : Int} {W : List (Added × Int)} (hcounts : Counts W) (h0 : 0 ≤ n) :
    unreadBytes (consume n W) = (unreadBytes W).drop n.toNat := by
  induction W generalizing n with
  | nil => exact drop_nil.symm
  | cons w W ih =>
    obtain ⟨b, r⟩ := w
    have hrest : Counts W := fun w hw => hcounts w (mem_cons_of_mem _ hw)
    have hfirst : 0 ≤ r ∧ r < 2 ^ 31 := hcounts _ mem_cons_self
    rw [consume, unreadBytes_cons, drop_append, length_replicate, drop_replicate]
    split
    next hover =>
      have hall : r.toNat - n.toNat = 0 := by omega
      have hleft : (n - r).toNat = n.toNat - r.toNat := by omega
      rw [ih hrest (by omega), hall, hleft]
      rfl
    next hinside =>
      have hnone : n.toNat - r.toNat = 0 := by omega
      have hleft : (r - n).toNat = r.toNat - n.toNat := by omega
      rw [unreadBytes_cons, hnone, hleft, drop_zero]

theorem suffix_consume (n : Int) (W : List (Added × Int)) :
    (consume n W).map Prod.fst <:+ W.map Prod.fst := by
  induction W generalizing n with
  | nil => exact suffix_rfl
  | cons w W ih =>
    rw [consume]
    split
    · exact (ih _).trans (suffix_cons _ _)
    · exact suffix_rfl

end OmapHal.VideoDecoder
