import OmapHal.VideoDecoder.HeaderBits
import OmapHal.VideoDecoder.ParseHeader
import OmapHal.Core.NalSyntax

/-!
# The sequence parameter set of AVC

`VIDDEC_ParseVideo_H264` looks for the sequence parameter set of a buffer, by start codes or by the
lengths in front of the units, copies it without the emulation prevention and reads the size from
the copy. Allocations succeed. The bytes of a fresh allocation are whatever stands there.
-/

namespace OmapHal.VideoDecoder

open OmapHal.Core List Nat

/-! ## The function -/

/-- The component as far as it is used, with the counter that the function keeps. -/
structure AvcComponent where
  H264BitStreamFormat : Nat
  bIsNALBigEndian : Bool
  nBufferSize : Nat
  bConfigBufferCompleteAVC : Bool
  pInternalConfigBufferAVC : Option Memory
  nInternalConfigBufferFilledAVC : Nat
  nConfigBufferCounter : Nat

/-- A buffer header. -/
structure ConfigBuffer where
  pBuffer : Memory
  nFilledLen : Nat

/-- The size of the pictures and what is cropped from it. -/
structure AvcSize where
  size : FrameSize
  crop : FrameSize
  deriving DecidableEq, Repr

/-- The loop of `VIDDEC_ScanConfigBufferAVC`. -/
def countStartCodes (nTotalInBytes : Nat) : Nat → Nat → Nat → HeaderReader Nat
  | 0, _, _ => HeaderReader.unfinished
  | turns + 1, nInBytePosition, nPatternCounter =>
    if nInBytePosition < (nTotalInBytes + 2 ^ 32 - 3) % 2 ^ 32 then do
      let code ← VIDDEC_GetBits 24 false
      if code ≠ 0x000001 then
        advance 8
        countStartCodes nTotalInBytes turns (nInBytePosition + 1) nPatternCounter
      else
        advance 24
        countStartCodes nTotalInBytes turns ((nInBytePosition + 3) % 2 ^ 32) (nPatternCounter + 1)
    else pure nPatternCounter

def VIDDEC_ScanConfigBufferAVC (turns nFilledLen : Nat) : HeaderReader Nat :=
  countStartCodes nFilledLen turns 0 0

/-- The first byte of a unit; its type is the value. -/
def nalHeader : HeaderReader Nat := do
  skipBits 1
  skipBits 2
  getBits 5

/-- The end of the unit is looked for from a position that is kept. -/
def findNalEnd (nTotalInBytes turns nInBytePosition : Nat) : HeaderReader (Bool × Nat) := do
  let nBitPosition ← HeaderReader.position
  let r ← findStartCode nTotalInBytes turns nInBytePosition
  HeaderReader.setPosition nBitPosition
  pure r

/-- `nInBytePosition` behind the first byte of the parameter set, and `nNumBytesInNALunit`. -/
def locateByStartCode (nTotalInBytes scanTurns : Nat) :
    Nat → Nat → HeaderReader (Except OMX_ERRORTYPE (Nat × Nat))
  | 0, _ => HeaderReader.unfinished
  | turns + 1, nInBytePosition => do
    let start ← findStartCode nTotalInBytes scanTurns nInBytePosition
    let stop ← findNalEnd nTotalInBytes scanTurns start.2
    if stop.1 = false then pure (.error .OMX_ErrorStreamCorrupt)
    else
      let nNalUnitType ← nalHeader
      if nNalUnitType ≠ 7 then
        locateByStartCode nTotalInBytes scanTurns turns ((start.2 + 1) % 2 ^ 32)
      else pure (.ok ((start.2 + 1) % 2 ^ 32, stop.2))

/-- The length in front of a unit. -/
def nalLength (H264BitStreamFormat : Nat) (bIsNALBigEndian : Bool) (nInBytePosition : Nat) :
    HeaderReader Nat := do
  let first ← byteAt nInBytePosition
  if H264BitStreamFormat = 1 then pure first.toNat
  else
    let second ← byteAt (nInBytePosition + 1)
    if H264BitStreamFormat = 2 then
      if bIsNALBigEndian then pure (first.toNat <<< 8 ||| second.toNat)
      else pure (first.toNat ||| second.toNat <<< 8)
    else
      let third ← byteAt (nInBytePosition + 2)
      let fourth ← byteAt (nInBytePosition + 3)
      if bIsNALBigEndian then
        pure (first.toNat <<< 24 ||| second.toNat <<< 16 ||| third.toNat <<< 8 ||| fourth.toNat)
      else
        pure (first.toNat ||| second.toNat <<< 8 ||| third.toNat <<< 16 ||| fourth.toNat <<< 24)

/-- The same from the lengths; `nInPositionTemp` is where the next length stands. -/
def locateByLength (H264BitStreamFormat : Nat) (bIsNALBigEndian : Bool) (nTotalInBytes : Nat) :
    Nat → Nat → HeaderReader (Except OMX_ERRORTYPE (Nat × Nat))
  | 0, _ => HeaderReader.unfinished
  | turns + 1, nInPositionTemp =>
    if H264BitStreamFormat ≠ 1 ∧ H264BitStreamFormat ≠ 2 ∧ H264BitStreamFormat ≠ 4 then
      pure (.error .OMX_ErrorBadParameter)
    else do
      let nNumBytesInNALunit ← nalLength H264BitStreamFormat bIsNALBigEndian nInPositionTemp
      HeaderReader.setPosition ((nInPositionTemp + H264BitStreamFormat) * 8)
      let nInBytePosition := (nInPositionTemp + H264BitStreamFormat) % 2 ^ 32
      if nTotalInBytes < nInBytePosition then pure (.error .OMX_ErrorBadParameter)
      else
        let nNalUnitType ← nalHeader
        if nNalUnitType ≠ 7 then
          let nInPositionTemp :=
            (nInPositionTemp + (nNumBytesInNALunit + H264BitStreamFormat)) % 2 ^ 32
          HeaderReader.setPosition (nInPositionTemp * 8)
          locateByLength H264BitStreamFormat bIsNALBigEndian nTotalInBytes turns nInPositionTemp
        else
          -- eight more than the unit has, and three are taken off again
          pure (.ok ((nInBytePosition + 1) % 2 ^ 32,
            (nNumBytesInNALunit + 8 + (nInBytePosition + 1)) % 2 ^ 32))

/-- The bytes that may be an escape, where they are all before the end. -/
def peekEscape (stop nInBytePosition : Nat) : HeaderReader Nat :=
  if nInBytePosition + 2 < stop then VIDDEC_GetBits 24 false else pure 0

/-- The bytes that are copied to `nRbspByte`. -/
def copyRbsp (nNumBytesInNALunit : Nat) : Nat → Nat → HeaderReader (List UInt8)
  | 0, _ => HeaderReader.unfinished
  | turns + 1, nInBytePosition =>
    let stop := (nNumBytesInNALunit + 2 ^ 32 - 3) % 2 ^ 32
    if nInBytePosition < stop then do
      let code ← peekEscape stop nInBytePosition
      if code = 0x000003 then
        let first ← byteAt nInBytePosition
        let second ← byteAt (nInBytePosition + 1)
        advance 24
        let rest ← copyRbsp nNumBytesInNALunit turns (nInBytePosition + 3)
        pure (first :: second :: rest)
      else
        let first ← byteAt nInBytePosition
        advance 8
        let rest ← copyRbsp nNumBytesInNALunit turns (nInBytePosition + 1)
        pure (first :: rest)
    else pure []

/-- The loop over `offset_for_ref_frame`. -/
def skipOffsets (turns : Nat) : Nat → HeaderReader Unit
  | 0 => pure ()
  | n + 1 => do
    let _ ← VIDDEC_UVLC_dec turns
    skipOffsets turns n

def skipUVLC (turns : Nat) : HeaderReader Unit := do
  let _ ← VIDDEC_UVLC_dec turns
  pure ()

def picOrderCnt (turns : Nat) : HeaderReader Unit := do
  let nPicOrderCntType ← VIDDEC_UVLC_dec turns
  if nPicOrderCntType = 0 then skipUVLC turns
  else if nPicOrderCntType = 1 then
    skipBits 1
    skipUVLC turns
    skipUVLC turns
    let nNumRefFramesInPicOrderCntCycle ← VIDDEC_UVLC_dec turns
    skipOffsets turns nNumRefFramesInPicOrderCntCycle
  else pure ()

/-- The size that is cropped, where there is one. -/
def frameCropping (turns : Nat) : HeaderReader (Option FrameSize) := do
  let nFrameCroppingFlag ← getBits 1
  if nFrameCroppingFlag ≠ 0 then
    let nFrameCropLeftOffset ← VIDDEC_UVLC_dec turns
    let nFrameCropRightOffset ← VIDDEC_UVLC_dec turns
    let nFrameCropTopOffset ← VIDDEC_UVLC_dec turns
    let nFrameCropBottomOffset ← VIDDEC_UVLC_dec turns
    pure (some ⟨(2 * nFrameCropLeftOffset + 2 * nFrameCropRightOffset) % 2 ^ 32,
      (2 * nFrameCropTopOffset + 2 * nFrameCropBottomOffset) % 2 ^ 32⟩)
  else pure none

/-- The parameter set in `nRbspByte`. -/
def parseRbsp (turns : Nat) : HeaderReader (FrameSize × Option FrameSize) := do
  -- the profile, the constraints and the level
  skipBits 8
  skipBits 1
  skipBits 1
  skipBits 1
  skipBits 5
  skipBits 8
  skipUVLC turns
  skipUVLC turns
  picOrderCnt turns
  skipUVLC turns
  skipBits 1
  let nPicWidthInMbsMinus1 ← VIDDEC_UVLC_dec turns
  let nPicHeightInMapUnitsMinus1 ← VIDDEC_UVLC_dec turns
  let nFrameMbsOnlyFlag ← getBits 1
  skipBitsIf (nFrameMbsOnlyFlag == 0) 1
  skipBits 1
  let crop ← frameCropping turns
  pure (⟨(nPicWidthInMbsMinus1 + 1) * 16 % 2 ^ 32, (nPicHeightInMapUnitsMinus1 + 1) * 16 % 2 ^ 32⟩,
    crop)

/-- The bytes from `nRbspByte` on: what was copied, the zeros up to the end and what stands behind
it. -/
def rbspMemory (heap : Memory) (nTotalInBytes : Nat) (copied : List UInt8) : Memory :=
  fun i => if h : i < copied.length then copied.get ⟨i, h⟩
    else if i < nTotalInBytes then 0 else heap i

/-- What the function does: its result, the component and the buffer afterwards, how far the buffer
was read as it came and as it was parsed, how many bytes were written to the copy and how far that
was read. -/
structure AvcRun where
  eError : OMX_ERRORTYPE
  size : AvcSize
  component : AvcComponent
  buffer : ConfigBuffer
  scanEnd : Nat
  bufferEnd : Nat
  rbspWritten : Nat
  rbspEnd : Nat

/-- From the place of the parameter set on. -/
def parseUnit (turns : Nat) (heap : Memory) (buffer : ConfigBuffer) (before : AvcSize)
    (place : Except OMX_ERRORTYPE (Nat × Nat)) (c : Cursor) :
    Option (OMX_ERRORTYPE × AvcSize × Nat × Nat × Nat) :=
  match place with
  | .error eError => some (eError, before, c.readEnd, 0, 0)
  | .ok (nInBytePosition, nNumBytesInNALunit) =>
    (copyRbsp nNumBytesInNALunit turns nInBytePosition buffer.pBuffer c).bind fun copied =>
      (parseRbsp turns (rbspMemory heap buffer.nFilledLen copied.1) ⟨0, 0⟩).map fun parsed =>
        (.OMX_ErrorNone, ⟨parsed.1.1, parsed.1.2.getD before.crop⟩, copied.2.readEnd,
          copied.1.length, parsed.2.readEnd)

/-- The buffer is kept until there is more of it, in an allocation of its own. -/
def storeFragment (fresh : Memory) (s : AvcComponent) (buffer : ConfigBuffer) :
    OMX_ERRORTYPE × AvcComponent :=
  let s := { s with bConfigBufferCompleteAVC := false, pInternalConfigBufferAVC := some fresh }
  if (s.nInternalConfigBufferFilledAVC + buffer.nFilledLen) % 2 ^ 32 ≤ s.nBufferSize then
    (.OMX_ErrorNone, { s with
      pInternalConfigBufferAVC := some (fresh.write s.nInternalConfigBufferFilledAVC
        (buffer.pBuffer.read 0 buffer.nFilledLen))
      nInternalConfigBufferFilledAVC :=
        (s.nInternalConfigBufferFilledAVC + buffer.nFilledLen) % 2 ^ 32 })
  else (.OMX_ErrorInsufficientResources, s)

/-- What was kept is put in front of the buffer; without room there is an error. -/
def assemble (s : AvcComponent) (buffer : ConfigBuffer) :
    Option (AvcComponent × ConfigBuffer) :=
  let s := { s with bConfigBufferCompleteAVC := true }
  match s.pInternalConfigBufferAVC with
  | none => some (s, buffer)
  | some kept =>
    let nFilledLen := (s.nInternalConfigBufferFilledAVC + buffer.nFilledLen) % 2 ^ 32
    if nFilledLen ≤ s.nBufferSize then
      let moved := buffer.pBuffer.write s.nInternalConfigBufferFilledAVC
        (buffer.pBuffer.read 0 buffer.nFilledLen)
      some ({ s with
          pInternalConfigBufferAVC := none
          nInternalConfigBufferFilledAVC := 0
          nConfigBufferCounter := 0 },
        ⟨moved.write 0 (kept.read 0 s.nInternalConfigBufferFilledAVC), nFilledLen⟩)
    else none

/-- The units are separated by start codes. -/
def parseByStartCode (turns : Nat) (fresh heap : Memory) (s : AvcComponent) (buffer : ConfigBuffer)
    (before : AvcSize) : Option AvcRun :=
  (VIDDEC_ScanConfigBufferAVC turns buffer.nFilledLen buffer.pBuffer ⟨0, 0⟩).bind fun scan =>
    let s := { s with nConfigBufferCounter := (s.nConfigBufferCounter + scan.1) % 2 ^ 32 }
    if s.nConfigBufferCounter < 2 then
      let stored := storeFragment fresh s buffer
      let copied := if stored.1 = .OMX_ErrorNone then buffer.nFilledLen else 0
      some ⟨stored.1, before, stored.2, buffer, max scan.2.readEnd copied, 0, 0, 0⟩
    else
      match assemble s buffer with
      | none => some ⟨.OMX_ErrorInsufficientResources, before,
          { s with bConfigBufferCompleteAVC := true }, buffer, scan.2.readEnd, 0, 0, 0⟩
      | some (t, whole) =>
        let copied := if s.pInternalConfigBufferAVC.isSome then buffer.nFilledLen else 0
        (locateByStartCode whole.nFilledLen turns turns 0 whole.pBuffer ⟨0, 0⟩).bind fun place =>
          (parseUnit turns heap whole before place.1 place.2).map fun r =>
            ⟨r.1, r.2.1, t, whole, max scan.2.readEnd copied, r.2.2.1, r.2.2.2.1, r.2.2.2.2⟩

/-- The units have lengths in front of them. -/
def parseByLength (turns : Nat) (heap : Memory) (s : AvcComponent) (buffer : ConfigBuffer)
    (before : AvcSize) : Option AvcRun :=
  let complete := s.H264BitStreamFormat = 1 ∨ s.H264BitStreamFormat = 2 ∨ s.H264BitStreamFormat = 4
  let s := { s with bConfigBufferCompleteAVC := decide complete || s.bConfigBufferCompleteAVC }
  (locateByLength s.H264BitStreamFormat s.bIsNALBigEndian buffer.nFilledLen turns 0
      buffer.pBuffer ⟨0, 0⟩).bind fun place =>
    (parseUnit turns heap buffer before place.1 place.2).map fun r =>
      ⟨r.1, r.2.1, s, buffer, 0, r.2.2.1, r.2.2.2.1, r.2.2.2.2⟩

/-- `nType` is the format of the component. `fresh` and `heap` are what stands in new memory. -/
def VIDDEC_ParseVideo_H264 (turns : Nat) (fresh heap : Memory) (s : AvcComponent)
    (buffer : ConfigBuffer) (before : AvcSize) : Option AvcRun :=
  if s.H264BitStreamFormat = 0 then parseByStartCode turns fresh heap s buffer before
  else parseByLength turns heap s buffer before

/-! ## Parameter sets -/

inductive AvcProfile where
  | baseline | main | extended

def AvcProfile.idc : AvcProfile → Nat
  | baseline => 66
  | main => 77
  | extended => 88

/-- A sequence parameter set of 4:2:0 pictures, up to the flag for usability information. -/
structure SeqParameterSet where
  profile : AvcProfile
  constraint_set0_flag : Bool
  constraint_set1_flag : Bool
  constraint_set2_flag : Bool
  /-- The other constraint flags and the reserved bits. -/
  reserved : BitVec 5
  level_idc : BitVec 8
  seq_parameter_set_id : Nat
  log2_max_frame_num_minus4 : Nat
  pic_order_cnt : PicOrderCnt
  num_ref_frames : Nat
  gaps_in_frame_num_value_allowed_flag : Bool
  pic_width_in_mbs_minus1 : Nat
  pic_height_in_map_units_minus1 : Nat
  frame_mbs_only_flag : Bool
  mb_adaptive_frame_field_flag : Bool
  direct_8x8_inference_flag : Bool
  frame_cropping : Option Cropping

/-- The values that an element can have. -/
def Coded.InRange : Element → Prop
  | .u n value => n ≤ 25 ∧ value < 2 ^ n
  | .ue value => value + 1 < 2 ^ 32
  | .se value => signedPlace value + 1 < 2 ^ 32

instance : DecidablePred Coded.InRange
  | .u n value => inferInstanceAs (Decidable (n ≤ 25 ∧ value < 2 ^ n))
  | .ue value => inferInstanceAs (Decidable (value + 1 < 2 ^ 32))
  | .se value => inferInstanceAs (Decidable (signedPlace value + 1 < 2 ^ 32))

namespace SeqParameterSet

def head (sps : SeqParameterSet) : List Element :=
  [.u 8 sps.profile.idc, .u 1 sps.constraint_set0_flag.toNat, .u 1 sps.constraint_set1_flag.toNat,
    .u 1 sps.constraint_set2_flag.toNat, .u 5 sps.reserved.toNat, .u 8 sps.level_idc.toNat,
    .ue sps.seq_parameter_set_id, .ue sps.log2_max_frame_num_minus4]

def frames (sps : SeqParameterSet) : List Element :=
  [.ue sps.num_ref_frames, .u 1 sps.gaps_in_frame_num_value_allowed_flag.toNat,
    .ue sps.pic_width_in_mbs_minus1, .ue sps.pic_height_in_map_units_minus1,
    .u 1 sps.frame_mbs_only_flag.toNat]

def fields (sps : SeqParameterSet) : List Element :=
  if sps.frame_mbs_only_flag then [] else [.u 1 sps.mb_adaptive_frame_field_flag.toNat]

def elements (sps : SeqParameterSet) : List Element :=
  sps.head ++ (sps.pic_order_cnt.elements ++ (sps.frames ++ (sps.fields ++
    ([.u 1 sps.direct_8x8_inference_flag.toNat] ++ croppingElements sps.frame_cropping))))

/-- How many fields a map unit of a frame stands for. -/
def fieldFactor (sps : SeqParameterSet) : Nat := if sps.frame_mbs_only_flag then 1 else 2

/-- The size of the coded frames. -/
def size (sps : SeqParameterSet) : FrameSize :=
  ⟨16 * (sps.pic_width_in_mbs_minus1 + 1),
    16 * (sps.fieldFactor * (sps.pic_height_in_map_units_minus1 + 1))⟩

/-- What is cropped, in luma samples. -/
def crop (sps : SeqParameterSet) : FrameSize :=
  match sps.frame_cropping with
  | none => ⟨0, 0⟩
  | some crop => ⟨2 * (crop.left + crop.right), 2 * sps.fieldFactor * (crop.top + crop.bottom)⟩

/-- The elements are in their ranges, the size is one of 32 bits and more than what is cropped. -/
structure Valid (sps : SeqParameterSet) : Prop where
  inRange : ∀ e ∈ sps.elements, Coded.InRange e
  width : sps.size.nWidth < 2 ^ 32
  height : sps.size.nHeight < 2 ^ 32
  cropWidth : sps.crop.nWidth < sps.size.nWidth
  cropHeight : sps.crop.nHeight < sps.size.nHeight

end SeqParameterSet

/-! ## Reading a parameter set -/

section Rbsp

variable {nRbspByte : Memory} {p turns : Nat} {sps : SeqParameterSet} {α β : Type}

private theorem leadingZeros_lt {v : Nat} (h : v + 1 < 2 ^ 32) : leadingZeros v < 32 :=
  (Nat.pow_lt_pow_iff_right (Nat.lt_succ_self 1)).mp
    ((log2_self_le (succ_ne_zero v)).trans_lt h)

/-- An element is read before the others. -/
theorem ReadsAt.element {e : Element} {es : List Element} {m : HeaderReader α}
    {k : α → HeaderReader β} {a : α} {b : β} (hm : ∀ p, ReadsAt nRbspByte p m e.code a)
    (hk : ∀ p, ReadsAt nRbspByte p (k a) (encodeElements es) b) :
    ∀ p, ReadsAt nRbspByte p (m >>= k) (encodeElements (e :: es)) b :=
  fun p => (hm p).bind (hk _)

theorem u_reads {n value : Nat} (h : Coded.InRange (.u n value)) (p : Nat) :
    ReadsAt nRbspByte p (skipBits n) (Element.u n value).code () := by
  obtain ⟨hn, hvalue⟩ := h
  exact (ReadsAt.getBits (by omega) hvalue).skip

theorem ue_reads (hturns : 32 ≤ turns) {value : Nat} (h : Coded.InRange (.ue value)) (p : Nat) :
    ReadsAt nRbspByte p (VIDDEC_UVLC_dec turns) (Element.ue value).code value :=
  ReadsAt.uvlc ((leadingZeros_lt h).trans_le hturns) h

theorem skipUVLC_reads (hturns : 32 ≤ turns) {v : Nat} (h : v + 1 < 2 ^ 32) (p : Nat) :
    ReadsAt nRbspByte p (skipUVLC turns) (golomb v) () := by
  exact (ReadsAt.uvlc ((leadingZeros_lt h).trans_le hturns) h).map fun _ => ()

/-- Some elements are read before the others. -/
theorem ReadsAt.elements {es es' : List Element} {m : HeaderReader α} {k : α → HeaderReader β}
    {a : α} {b : β} (hm : ∀ p, ReadsAt nRbspByte p m (encodeElements es) a)
    (hk : ∀ p, ReadsAt nRbspByte p (k a) (encodeElements es') b) :
    ∀ p, ReadsAt nRbspByte p (m >>= k) (encodeElements (es ++ es')) b := by
  intro p
  rw [encodeElements_append]
  exact (hm p).bind (hk _)

theorem skipOffsets_reads (hturns : 32 ≤ turns) (offsets : List Int)
    (h : ∀ offset ∈ offsets, Coded.InRange (.se offset)) (p : Nat) :
    ReadsAt nRbspByte p (skipOffsets turns offsets.length) (encodeElements (offsets.map .se))
      () := by
  induction offsets generalizing p with
  | nil => exact ReadsAt.pure ()
  | cons offset offsets ih =>
    obtain ⟨hfirst, hrest⟩ := forall_mem_cons.mp h
    exact (ReadsAt.uvlc ((leadingZeros_lt hfirst).trans_le hturns) hfirst).bind (ih hrest _)

theorem picOrderCnt_reads (hturns : 32 ≤ turns) (poc : PicOrderCnt)
    (h : ∀ e ∈ poc.elements, Coded.InRange e) (p : Nat) :
    ReadsAt nRbspByte p (picOrderCnt turns) (encodeElements poc.elements) () := by
  cases poc with
  | lsb log2_max =>
    obtain ⟨htype, hlog, -⟩ := forall_mem_cons.mp h |>.imp id forall_mem_cons.mp
    refine ReadsAt.element (ue_reads hturns htype) (fun p => ?_) p
    have hlast : ReadsAt nRbspByte p (skipUVLC turns) (golomb log2_max ++ []) () := by
      rw [append_nil]
      exact skipUVLC_reads hturns hlog p
    rw [if_pos rfl]
    exact hlast
  | cycle zero nonRef topToBottom refFrame =>
    obtain ⟨hlist, hoffsets⟩ := forall_mem_append.mp h
    obtain ⟨htype, hlist⟩ := forall_mem_cons.mp hlist
    obtain ⟨hzero, hlist⟩ := forall_mem_cons.mp hlist
    obtain ⟨hnonRef, hlist⟩ := forall_mem_cons.mp hlist
    obtain ⟨htop, hlist⟩ := forall_mem_cons.mp hlist
    obtain ⟨hcount, -⟩ := forall_mem_cons.mp hlist
    refine ReadsAt.element (ue_reads hturns htype) (fun p => ?_) p
    rw [if_neg (by omega), if_pos rfl]
    refine ReadsAt.element (u_reads hzero) ?_ p
    refine ReadsAt.element (skipUVLC_reads hturns hnonRef) ?_
    refine ReadsAt.element (skipUVLC_reads hturns htop) ?_
    refine ReadsAt.element (ue_reads hturns hcount) ?_
    refine skipOffsets_reads hturns refFrame fun offset hmem => ?_
    exact hoffsets _ (mem_map_of_mem hmem)
  | output =>
    obtain ⟨htype, -⟩ := forall_mem_cons.mp h
    refine ReadsAt.element (ue_reads hturns htype) (fun p => ?_) p
    rw [if_neg (by omega), if_neg (by omega)]
    exact ReadsAt.pure ()

/-- The two sums of the cropping as the parser leaves them. -/
def foundCrop : Option Cropping → Option FrameSize
  | none => none
  | some crop => some ⟨(2 * crop.left + 2 * crop.right) % 2 ^ 32,
      (2 * crop.top + 2 * crop.bottom) % 2 ^ 32⟩

theorem frameCropping_reads (hturns : 32 ≤ turns) (crop : Option Cropping)
    (h : ∀ e ∈ croppingElements crop, Coded.InRange e) (p : Nat) :
    ReadsAt nRbspByte p (frameCropping turns) (encodeElements (croppingElements crop))
      (foundCrop crop) := by
  cases crop with
  | none => exact (ReadsAt.flag false).bind (ReadsAt.pure none)
  | some crop =>
    obtain ⟨-, hlist⟩ := forall_mem_cons.mp h
    obtain ⟨hleft, hlist⟩ := forall_mem_cons.mp hlist
    obtain ⟨hright, hlist⟩ := forall_mem_cons.mp hlist
    obtain ⟨htop, hlist⟩ := forall_mem_cons.mp hlist
    obtain ⟨hbottom, -⟩ := forall_mem_cons.mp hlist
    refine (ReadsAt.flag true).bind ?_
    refine ReadsAt.element (ue_reads hturns hleft) ?_ _
    refine ReadsAt.element (ue_reads hturns hright) ?_
    refine ReadsAt.element (ue_reads hturns htop) ?_
    refine ReadsAt.element (ue_reads hturns hbottom) ?_
    exact fun _ => ReadsAt.pure _

/-- The size that the parser finds, a frame counted as a field has it. -/
def SeqParameterSet.foundSize (sps : SeqParameterSet) : FrameSize :=
  ⟨(sps.pic_width_in_mbs_minus1 + 1) * 16 % 2 ^ 32,
    (sps.pic_height_in_map_units_minus1 + 1) * 16 % 2 ^ 32⟩

theorem fields_reads (h : ∀ e ∈ sps.fields, Coded.InRange e) (p : Nat) :
    ReadsAt nRbspByte p (skipBitsIf (sps.frame_mbs_only_flag.toNat == 0) 1)
      (encodeElements sps.fields) () := by
  unfold SeqParameterSet.fields at *
  cases hfmo : sps.frame_mbs_only_flag with
  | false =>
    rw [hfmo, if_neg Bool.false_ne_true] at h
    obtain ⟨hfield, -⟩ := forall_mem_cons.mp h
    have hread : ReadsAt nRbspByte p (skipBits 1)
        ((Element.u 1 sps.mb_adaptive_frame_field_flag.toNat).code ++ []) () := by
      rw [append_nil]
      exact u_reads hfield p
    exact hread
  | true => exact ReadsAt.pure ()

/-- The elements of a parameter set. -/
theorem parseRbsp_reads (hturns : 32 ≤ turns) (h : ∀ e ∈ sps.elements, Coded.InRange e) :
    ∀ p, ReadsAt nRbspByte p (parseRbsp turns) (encodeElements sps.elements)
      (sps.foundSize, foundCrop sps.frame_cropping) := by
  obtain ⟨hhead, hrest⟩ := forall_mem_append.mp h
  obtain ⟨hpoc, hrest⟩ := forall_mem_append.mp hrest
  obtain ⟨hframes, hrest⟩ := forall_mem_append.mp hrest
  obtain ⟨hfields, hrest⟩ := forall_mem_append.mp hrest
  obtain ⟨hdirect, hcrop⟩ := forall_mem_append.mp hrest
  obtain ⟨hidc, hhead⟩ := forall_mem_cons.mp hhead
  obtain ⟨hset0, hhead⟩ := forall_mem_cons.mp hhead
  obtain ⟨hset1, hhead⟩ := forall_mem_cons.mp hhead
  obtain ⟨hset2, hhead⟩ := forall_mem_cons.mp hhead
  obtain ⟨hreserved, hhead⟩ := forall_mem_cons.mp hhead
  obtain ⟨hlevel, hhead⟩ := forall_mem_cons.mp hhead
  obtain ⟨hid, hhead⟩ := forall_mem_cons.mp hhead
  obtain ⟨hlog, -⟩ := forall_mem_cons.mp hhead
  obtain ⟨hrefs, hframes⟩ := forall_mem_cons.mp hframes
  obtain ⟨hgaps, hframes⟩ := forall_mem_cons.mp hframes
  obtain ⟨hwidth, hframes⟩ := forall_mem_cons.mp hframes
  obtain ⟨hheight, -⟩ := forall_mem_cons.mp hframes
  obtain ⟨hdirect, -⟩ := forall_mem_cons.mp hdirect
  refine ReadsAt.element (u_reads hidc) ?_
  refine ReadsAt.element (u_reads hset0) ?_
  refine ReadsAt.element (u_reads hset1) ?_
  refine ReadsAt.element (u_reads hset2) ?_
  refine ReadsAt.element (u_reads hreserved) ?_
  refine ReadsAt.element (u_reads hlevel) ?_
  refine ReadsAt.element (skipUVLC_reads hturns hid) ?_
  refine ReadsAt.element (skipUVLC_reads hturns hlog) ?_
  change ∀ p, ReadsAt nRbspByte p _ (encodeElements (sps.pic_order_cnt.elements ++ _)) _
  refine ReadsAt.elements (picOrderCnt_reads hturns sps.pic_order_cnt hpoc) ?_
  refine ReadsAt.element (skipUVLC_reads hturns hrefs) ?_
  refine ReadsAt.element (u_reads hgaps) ?_
  refine ReadsAt.element (ue_reads hturns hwidth) ?_
  refine ReadsAt.element (ue_reads hturns hheight) ?_
  have hflag (p : Nat) : ReadsAt nRbspByte p (getBits 1)
      (Element.u 1 sps.frame_mbs_only_flag.toNat).code sps.frame_mbs_only_flag.toNat :=
    ReadsAt.getBits (by omega) (Bool.toNat_lt sps.frame_mbs_only_flag)
  refine ReadsAt.element hflag ?_
  change ∀ p, ReadsAt nRbspByte p _ (encodeElements (sps.fields ++ _)) _
  refine ReadsAt.elements (fields_reads hfields) ?_
  refine ReadsAt.element (u_reads hdirect) fun p => ?_
  exact (frameCropping_reads hturns sps.frame_cropping hcrop p).map fun crop =>
    (sps.foundSize, crop)

end Rbsp

/-! ## The copy without the emulation prevention -/

section Copy

variable {pBuffer : Memory} {nNumBytesInNALunit turns i : Nat}

theorem advance_eq {n : Nat} (c : Cursor) (h : c.nPosition + n < 2 ^ 32) :
    advance n pBuffer c = some ((), ⟨c.nPosition + n, c.readEnd⟩) := by
  change some ((), Cursor.mk ((c.nPosition + n) % 2 ^ 32) c.readEnd) = _
  rw [mod_eq_of_lt h]

theorem advance_bytes (n k readEnd : Nat) (h : 8 * (k + n) < 2 ^ 32) :
    advance (8 * n) pBuffer ⟨8 * k, readEnd⟩ = some ((), ⟨8 * (k + n), readEnd⟩) := by
  rw [advance_eq _ (by dsimp only; omega), ← mul_add]

/-- Three bytes are read, and the position stays. -/
theorem peek_eq (pBuffer : Memory) (k readEnd : Nat) :
    VIDDEC_GetBits 24 false pBuffer ⟨8 * k, readEnd⟩ =
      some (bits (byteBits pBuffer) (8 * k) 24, ⟨8 * k, max readEnd (k + 3)⟩) := by
  have haligned : 8 * k % 8 = 0 := mul_mod_right 8 k
  have hbyte : 8 * k / 8 = k := Nat.mul_div_cancel_left k (by omega)
  unfold VIDDEC_GetBits
  rw [bitsAt_eq pBuffer (by omega), if_neg Bool.false_ne_true, haligned, hbyte]
  rfl

theorem copyRbsp_ends (hturns : (nNumBytesInNALunit + 2 ^ 32 - 3) % 2 ^ 32 - i < turns) :
    (copyRbsp nNumBytesInNALunit turns i).Ends := by
  induction turns generalizing i with
  | zero => omega
  | succ turns ih =>
    have hbyte (k : Nat) : (byteAt k).Ends := fun _ _ => ⟨_, rfl⟩
    have hadvance (n : Nat) : (advance n).Ends := fun _ _ => ⟨_, rfl⟩
    rw [copyRbsp]
    split_ifs with hi
    · have hpeek : (peekEscape ((nNumBytesInNALunit + 2 ^ 32 - 3) % 2 ^ 32) i).Ends := by
        unfold peekEscape
        split_ifs
        · exact fun _ _ => ⟨_, rfl⟩
        · exact HeaderReader.Ends.pure 0
      refine hpeek.bind fun code => ?_
      split_ifs
      · exact (hbyte _).bind fun _ => (hbyte _).bind fun _ => (hadvance _).bind fun _ =>
          (ih (by omega)).bind fun _ => HeaderReader.Ends.pure _
      · exact (hbyte _).bind fun _ => (hadvance _).bind fun _ =>
          (ih (by omega)).bind fun _ => HeaderReader.Ends.pure _
    · exact HeaderReader.Ends.pure []

/-- The prefix of an escape stands there. -/
def EscapeAt (pBuffer : Memory) (i : Nat) : Prop :=
  pBuffer i = 0 ∧ pBuffer (i + 1) = 0 ∧ pBuffer (i + 2) = 3

/-- A plain byte is copied. -/
theorem copyRbsp_byte (nNumBytesInNALunit turns : Nat)
    (hi : i < (nNumBytesInNALunit + 2 ^ 32 - 3) % 2 ^ 32)
    (hplain : ¬EscapeAt pBuffer i) (hend : 8 * (i + 1) < 2 ^ 32) (readEnd : Nat) :
    ∃ readEnd', ∀ rest c,
      copyRbsp nNumBytesInNALunit turns (i + 1) pBuffer ⟨8 * (i + 1), readEnd'⟩ = some (rest, c) →
      copyRbsp nNumBytesInNALunit (turns + 1) i pBuffer ⟨8 * i, readEnd⟩ =
        some (pBuffer i :: rest, c) := by
  have hcode : ¬bits (byteBits pBuffer) (8 * i) 24 = 3 :=
    fun h => hplain ((bits_code pBuffer i).mp h)
  have hpeek : ∃ code readEnd', ¬code = 3 ∧
      peekEscape ((nNumBytesInNALunit + 2 ^ 32 - 3) % 2 ^ 32) i pBuffer ⟨8 * i, readEnd⟩ =
        some (code, ⟨8 * i, readEnd'⟩) := by
    unfold peekEscape
    split_ifs
    · exact ⟨_, _, hcode, peek_eq pBuffer i readEnd⟩
    · exact ⟨0, readEnd, by omega, rfl⟩
  obtain ⟨code, readEnd₁, hne, hread⟩ := hpeek
  have hbyte : byteAt i pBuffer ⟨8 * i, readEnd₁⟩ =
      some (pBuffer i, ⟨8 * i, max readEnd₁ (i + 1)⟩) := rfl
  refine ⟨max readEnd₁ (i + 1), fun rest c hrun => ?_⟩
  rw [copyRbsp, if_pos hi, HeaderReader.bind_some hread, if_neg hne, HeaderReader.bind_some hbyte,
    HeaderReader.bind_some (advance_bytes 1 i _ hend), HeaderReader.bind_some hrun]
  rfl

/-- An escape byte is left out. -/
theorem copyRbsp_escape (nNumBytesInNALunit turns : Nat)
    (hi : i + 2 < (nNumBytesInNALunit + 2 ^ 32 - 3) % 2 ^ 32)
    (hescape : EscapeAt pBuffer i) (hend : 8 * (i + 3) < 2 ^ 32) (readEnd : Nat) :
    ∃ readEnd', ∀ rest c,
      copyRbsp nNumBytesInNALunit turns (i + 3) pBuffer ⟨8 * (i + 3), readEnd'⟩ = some (rest, c) →
      copyRbsp nNumBytesInNALunit (turns + 1) i pBuffer ⟨8 * i, readEnd⟩ =
        some (0 :: 0 :: rest, c) := by
  have hcode : bits (byteBits pBuffer) (8 * i) 24 = 3 := (bits_code pBuffer i).mpr hescape
  have hread : peekEscape ((nNumBytesInNALunit + 2 ^ 32 - 3) % 2 ^ 32) i pBuffer
      ⟨8 * i, readEnd⟩ =
        some (bits (byteBits pBuffer) (8 * i) 24, ⟨8 * i, max readEnd (i + 3)⟩) := by
    rw [peekEscape, if_pos hi]
    exact peek_eq pBuffer i readEnd
  have hfirst (r : Nat) : byteAt i pBuffer ⟨8 * i, r⟩ =
      some (0, ⟨8 * i, max r (i + 1)⟩) := by rw [← hescape.1]; rfl
  have hsecond (r : Nat) : byteAt (i + 1) pBuffer ⟨8 * i, r⟩ =
      some (0, ⟨8 * i, max r (i + 1 + 1)⟩) := by rw [← hescape.2.1]; rfl
  refine ⟨max (max (max readEnd (i + 3)) (i + 1)) (i + 1 + 1), fun rest c hrun => ?_⟩
  rw [copyRbsp, if_pos (by omega), HeaderReader.bind_some hread, if_pos hcode,
    HeaderReader.bind_some (hfirst _), HeaderReader.bind_some (hsecond _),
    HeaderReader.bind_some (advance_bytes 3 i _ hend), HeaderReader.bind_some hrun]
  rfl

end Copy

section Payload

variable {pBuffer : Memory} {nNumBytesInNALunit i : Nat} {b : UInt8} {s : List UInt8}

theorem escape_cons_of_ne_zero (hb : b ≠ 0) : escape 0 (b :: s) = b :: escape 0 s := by
  rw [escape, if_neg (by simp), zeros, if_pos hb]

theorem escape_cons_zero (hb : b ≠ 0) : escape 0 (0 :: b :: s) = 0 :: escape 0 (b :: s) := by
  rw [escape, if_neg (by simp), zeros, if_neg (by simp), escape, if_neg (by simp), zeros,
    if_pos hb, escape_cons_of_ne_zero hb]

theorem escape_zero_zero (hb : b ≤ 3) :
    escape 0 (0 :: 0 :: b :: s) = 0 :: 0 :: 3 :: escape 0 (b :: s) := by
  have hrest : escape 0 (b :: s) = b :: escape (zeros 0 b) s := by rw [escape, if_neg (by simp)]
  rw [escape, if_neg (by simp), zeros, if_neg (by simp), escape, if_neg (by simp), zeros,
    if_neg (by simp), escape, if_pos ⟨rfl, hb⟩, hrest]

theorem escape_zero_zero_of_gt (hb : ¬b ≤ 3) :
    escape 0 (0 :: 0 :: b :: s) = 0 :: 0 :: escape 0 (b :: s) := by
  have hne : b ≠ 0 := fun h => hb (h ▸ by decide)
  have hnot : ¬(2 = 2 ∧ b ≤ 3) := fun h => hb h.2
  rw [escape_cons_of_ne_zero hne, escape, if_neg (by simp), zeros, if_neg (by simp), escape,
    if_neg (by simp), zeros, if_neg (by simp), escape, if_neg hnot, zeros, if_pos hne]

theorem read_cons_iff {m : Memory} {bs : List UInt8} :
    m.read i (b :: bs).length = b :: bs ↔ m i = b ∧ m.read (i + 1) bs.length = bs := by
  rw [length_cons, Memory.read, cons.injEq]

/-- No zero is at the end. -/
def EndsNonzero (s : List UInt8) : Prop := ∀ init, s ≠ init ++ [0]

theorem EndsNonzero.tail (h : EndsNonzero (b :: s)) : EndsNonzero s :=
  fun init hs => h (b :: init) (by rw [hs]; rfl)

theorem endsNonzero_of_getLast? (h : s.getLast? ≠ some 0) : EndsNonzero s := fun init hs =>
  h (by rw [hs, getLast?_concat])

/-- The payload is copied, and some bytes behind it. -/
theorem copyRbsp_payload (n : Nat) : ∀ (s : List UInt8) (i turns : Nat), s.length ≤ n →
    EndsNonzero s → pBuffer.read i (escape 0 s).length = escape 0 s →
    i + (escape 0 s).length ≤ (nNumBytesInNALunit + 2 ^ 32 - 3) % 2 ^ 32 →
    8 * (i + (escape 0 s).length) < 2 ^ 32 →
    (nNumBytesInNALunit + 2 ^ 32 - 3) % 2 ^ 32 - i < turns → ∀ readEnd,
    ∃ extra c, copyRbsp nNumBytesInNALunit turns i pBuffer ⟨8 * i, readEnd⟩ =
      some (s ++ extra, c) := by
  induction n with
  | zero =>
    intro s i turns hs _ _ _ _ hturns readEnd
    obtain ⟨r, hrun⟩ := copyRbsp_ends hturns pBuffer ⟨8 * i, readEnd⟩
    rw [length_eq_zero_iff.mp (le_zero.mp hs)]
    exact ⟨r.1, r.2, hrun⟩
  | succ n ih =>
    intro s i turns hs hnonzero hread hstop hend hturns readEnd
    -- one byte is copied and the rest is another payload
    have hbyte {b : UInt8} {s' : List UInt8} (hcons : s = b :: s')
        (hescape : escape 0 s = b :: escape 0 s') (hplain : ¬EscapeAt pBuffer i) :
        ∃ extra c, copyRbsp nNumBytesInNALunit turns i pBuffer ⟨8 * i, readEnd⟩ =
          some (s ++ extra, c) := by
      obtain ⟨turns, rfl⟩ : ∃ t, turns = t + 1 := ⟨turns - 1, by omega⟩
      rw [hescape, read_cons_iff] at hread
      rw [hescape, length_cons] at hstop hend
      rw [hcons] at hs hnonzero ⊢
      rw [length_cons] at hs
      obtain ⟨readEnd₁, hstep⟩ := copyRbsp_byte nNumBytesInNALunit turns (by omega) hplain
        (by omega) readEnd
      obtain ⟨extra, c, hrun⟩ := ih s' (i + 1) turns (by omega) hnonzero.tail hread.2 (by omega)
        (by omega) (by omega) readEnd₁
      refine ⟨extra, c, ?_⟩
      rw [hstep _ _ hrun, hread.1]
      rfl
    cases s with
    | nil =>
      obtain ⟨r, hrun⟩ := copyRbsp_ends hturns pBuffer ⟨8 * i, readEnd⟩
      exact ⟨r.1, r.2, hrun⟩
    | cons b s =>
      by_cases hb : b = 0
      swap
      · have hescape := escape_cons_of_ne_zero (s := s) hb
        refine hbyte rfl hescape fun hat => hb ?_
        rw [hescape, read_cons_iff] at hread
        exact hread.1.symm.trans hat.1
      subst hb
      cases s with
      | nil => exact absurd rfl (hnonzero [])
      | cons b s =>
        by_cases hb : b = 0
        swap
        · have hescape := escape_cons_zero (s := s) hb
          refine hbyte rfl hescape fun hat => hb ?_
          rw [hescape, read_cons_iff, escape_cons_of_ne_zero hb, read_cons_iff] at hread
          exact hread.2.1.symm.trans hat.2.1
        subst hb
        cases s with
        | nil => exact absurd rfl (hnonzero [0])
        | cons b s =>
          by_cases hb : b ≤ 3
          · obtain ⟨turns, rfl⟩ : ∃ t, turns = t + 1 := ⟨turns - 1, by omega⟩
            rw [escape_zero_zero hb, read_cons_iff, read_cons_iff, read_cons_iff] at hread
            rw [escape_zero_zero hb, length_cons, length_cons,
              length_cons] at hstop hend
            rw [length_cons, length_cons] at hs
            obtain ⟨hfirst, hsecond, hthird, hrest⟩ := hread
            have hlength : 0 < (escape 0 (b :: s)).length := by
              rw [escape, if_neg (by simp)]
              exact succ_pos _
            obtain ⟨readEnd₁, hstep⟩ := copyRbsp_escape nNumBytesInNALunit turns (by omega)
              ⟨hfirst, hsecond, hthird⟩ (by omega) readEnd
            obtain ⟨extra, c, hrun⟩ := ih (b :: s) (i + 3) turns (by omega) hnonzero.tail.tail
              hrest (by omega) (by omega) (by omega) readEnd₁
            exact ⟨extra, c, hstep _ _ hrun⟩
          · have hne : b ≠ 0 := fun h => hb (h ▸ by decide)
            have hescape : escape 0 (0 :: 0 :: b :: s) = 0 :: escape 0 (0 :: b :: s) := by
              rw [escape_zero_zero_of_gt hb, escape_cons_zero hne]
            refine hbyte rfl hescape fun hat => hb ?_
            rw [hescape, escape_cons_zero hne, escape_cons_of_ne_zero hne, read_cons_iff,
              read_cons_iff, read_cons_iff] at hread
            have hthree : b = 3 := hread.2.2.1.symm.trans hat.2.2
            rw [hthree]
            decide

/-- No start code begins in the bytes. -/
def Plain (data : List UInt8) : Prop := ∀ i, ¬PrefixAt data i

theorem plain_nil : Plain [] := fun i h => by simp [PrefixAt] at h

theorem plain_cons {data : List UInt8} (hfirst : ¬PrefixAt (b :: data) 0) (hdata : Plain data) :
    Plain (b :: data) := fun i => by
  cases i with
  | zero => exact hfirst
  | succ i => exact hdata i

theorem plain_cons_of_ne_zero {data : List UInt8} (hb : b ≠ 0) (hdata : Plain data) :
    Plain (b :: data) :=
  plain_cons (fun h => hb (Option.some.inj h.1)) hdata

/-- An escaped payload is plain, also behind zeros that were counted. -/
theorem plain_escape (s : List UInt8) :
    Plain (escape 0 s) ∧ Plain (0 :: escape 1 s) ∧ Plain (0 :: 0 :: escape 2 s) := by
  induction s with
  | nil =>
    have hthree : Plain (3 :: []) := plain_cons_of_ne_zero (by decide) plain_nil
    refine ⟨plain_nil, plain_cons (by simp [PrefixAt, escape]) plain_nil, ?_⟩
    exact plain_cons (by simp [PrefixAt, escape]) (plain_cons (by simp [PrefixAt, escape]) hthree)
  | cons b s ih =>
    obtain ⟨hzero, hone, htwo⟩ := ih
    have hstart : Plain (escape 0 (b :: s)) := by
      rw [escape, if_neg (by simp), zeros]
      split_ifs with hb
      · exact plain_cons_of_ne_zero hb hzero
      · rw [not_not.mp hb]
        exact hone
    refine ⟨hstart, ?_, ?_⟩
    · rw [escape, if_neg (by simp), zeros]
      split_ifs with hb
      · exact plain_cons (by simp [PrefixAt, hb]) (plain_cons_of_ne_zero hb hzero)
      · rw [not_not.mp hb]
        exact htwo
    · rw [escape]
      split_ifs with hb
      · have hrest : b :: escape (zeros 0 b) s = escape 0 (b :: s) := by
          rw [escape, if_neg (by simp)]
        rw [hrest]
        refine plain_cons (by simp [PrefixAt]) (plain_cons (by simp [PrefixAt]) ?_)
        exact plain_cons_of_ne_zero (by decide) hstart
      · have hgt : ¬b ≤ 3 := fun h => hb ⟨rfl, h⟩
        have hne : b ≠ 0 := fun h => hgt (h ▸ by decide)
        have hne' : b ≠ 1 := fun h => hgt (h ▸ by decide)
        rw [zeros, if_pos hne]
        refine plain_cons (by simp [PrefixAt, hne']) (plain_cons (by simp [PrefixAt, hne]) ?_)
        exact plain_cons_of_ne_zero hne hzero

end Payload

end OmapHal.VideoDecoder
