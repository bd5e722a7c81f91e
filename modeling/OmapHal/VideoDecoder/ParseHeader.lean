import Mathlib

/-!
# The sizes of a header

`VIDDEC_ParseHeader` compares the size that a header announces with the definitions of both ports,
stores it there and tells the client of a change. What a codec's own parser finds in the header is
given. The component is the one that is built with `ANDROID` and without `VIDDEC_SPARK_CODE`; what
it does with an incomplete configuration buffer is left out.
-/

namespace OmapHal.VideoDecoder

open Nat List

inductive OMX_ERRORTYPE where
  | OMX_ErrorNone | OMX_ErrorUndefined | OMX_ErrorBadParameter | OMX_ErrorStreamCorrupt
  | OMX_ErrorUnsupportedSetting | OMX_ErrorInsufficientResources
  deriving DecidableEq, Repr

inductive OMX_VIDEO_CODINGTYPE where
  | OMX_VIDEO_CodingUnused | OMX_VIDEO_CodingMPEG2 | OMX_VIDEO_CodingH263
  | OMX_VIDEO_CodingMPEG4 | OMX_VIDEO_CodingWMV | OMX_VIDEO_CodingAVC
  deriving DecidableEq, Repr

inductive OMX_COLOR_FORMATTYPE where
  | OMX_COLOR_FormatUnused | OMX_COLOR_FormatYUV420Planar | OMX_COLOR_FormatCbYCrY
  deriving DecidableEq, Repr

def VIDDEC_COLORFORMAT422 : OMX_COLOR_FORMATTYPE := .OMX_COLOR_FormatCbYCrY
def VIDDEC_COLORFORMAT420 : OMX_COLOR_FORMATTYPE := .OMX_COLOR_FormatYUV420Planar

def VIDDEC_INPUT_PORT : Nat := 0
def VIDDEC_OUTPUT_PORT : Nat := 1

def VIDDEC_WMV_ELEMSTREAM : Nat := 0

def VIDDEC_WVGA_WIDTH : Nat := 864
def VIDDEC_WVGA_HEIGHT : Nat := 480
def VIDDEC_MAX_RESOLUTION_SIZE : Nat := VIDDEC_WVGA_WIDTH * VIDDEC_WVGA_HEIGHT

def VIDDEC_MIN_H264_WIDTH : Nat := 32
def VIDDEC_MIN_H264_HEIGHT : Nat := 32
def VIDDEC_MIN_WMV_WIDTH : Nat := 32
def VIDDEC_MIN_WMV_HEIGHT : Nat := 32
def VIDDEC_MIN_MPEG4_WIDTH : Nat := 16
def VIDDEC_MIN_MPEG4_HEIGHT : Nat := 16

def VIDDEC_MULTIPLE16 (x : Nat) : Nat := (x + 15) % 2 ^ 32 &&& 0xFFFFFFF0

def VIDDEC_MULTIPLE32 (x : Nat) : Nat := (x + 31) % 2 ^ 32 &&& 0xFFFFFFE0

/-- The parsers of the codecs. -/
inductive HeaderParser where
  | VIDDEC_ParseVideo_H264 | VIDDEC_ParseVideo_MPEG4 | VIDDEC_ParseVideo_MPEG2
  | VIDDEC_ParseVideo_WMV9_VC1 | VIDDEC_ParseVideo_WMV9_RCV
  deriving DecidableEq, Repr

/-- What a parser leaves, with the flag of the component that the one for AVC sets. -/
structure ParsedHeader where
  eError : OMX_ERRORTYPE
  nWidth : Nat
  nHeight : Nat
  nCropWidth : Nat
  nCropHeight : Nat
  bConfigBufferCompleteAVC : Bool
  deriving DecidableEq, Repr

/-- The definition of a port, as far as it is used. -/
structure PortDefinition where
  nFrameWidth : Nat
  nFrameHeight : Nat
  nBufferSize : Nat
  eColorFormat : OMX_COLOR_FORMATTYPE
  deriving DecidableEq, Repr

/-- The component. `nAllocLen` belongs to the first buffer of the output port. -/
structure HeaderState where
  eCompressionFormat : OMX_VIDEO_CODINGTYPE
  nWMVFileType : Nat
  ProcessMode : Nat
  H264BitStreamFormat : Nat
  pInPortDef : PortDefinition
  pOutPortDef : PortDefinition
  pOutPortFormat : OMX_COLOR_FORMATTYPE
  nAllocLen : Nat
  bUseThumbnail : Bool
  nDisplayWidth : Nat
  nCropWidth : Nat
  nCropHeight : Nat
  bInPortSettingsChanged : Bool
  bOutPortSettingsChanged : Bool
  bDynamicConfigurationInProgress : Bool
  bUsePortReconfigForCrop : Bool
  deriving DecidableEq, Repr

/-- The events that the client is told, with the port or the error. -/
inductive ClientEvent where
  | OMX_EventError (eError : OMX_ERRORTYPE)
  | OMX_EventPortSettingsChanged (port : Nat)
  deriving DecidableEq, Repr

/-! ## The function -/

def IsResolutionSupported (nWidth nHeight : Nat) (eCompressionFormat : OMX_VIDEO_CODINGTYPE) :
    OMX_ERRORTYPE :=
  if nWidth > VIDDEC_WVGA_WIDTH ∨ nHeight > VIDDEC_WVGA_WIDTH ∨
      nWidth * nHeight % 2 ^ 32 > VIDDEC_MAX_RESOLUTION_SIZE then .OMX_ErrorUnsupportedSetting
  else
    let atLeast (minWidth minHeight : Nat) : OMX_ERRORTYPE :=
      if nWidth < minWidth ∨ nHeight < minHeight then .OMX_ErrorUnsupportedSetting
      else .OMX_ErrorNone
    match eCompressionFormat with
    | .OMX_VIDEO_CodingMPEG4 | .OMX_VIDEO_CodingH263 =>
      atLeast VIDDEC_MIN_MPEG4_WIDTH VIDDEC_MIN_MPEG4_HEIGHT
    | .OMX_VIDEO_CodingAVC => atLeast VIDDEC_MIN_H264_WIDTH VIDDEC_MIN_H264_HEIGHT
    | .OMX_VIDEO_CodingWMV => atLeast VIDDEC_MIN_WMV_WIDTH VIDDEC_MIN_WMV_HEIGHT
    | .OMX_VIDEO_CodingUnused | .OMX_VIDEO_CodingMPEG2 => .OMX_ErrorUnsupportedSetting

/-- What the parser of the codec finds; without one nothing is found. -/
def parsedBy (header : HeaderParser → ParsedHeader) (s : HeaderState) : ParsedHeader :=
  match s.eCompressionFormat with
  | .OMX_VIDEO_CodingAVC => header .VIDDEC_ParseVideo_H264
  | .OMX_VIDEO_CodingMPEG4 | .OMX_VIDEO_CodingH263 => header .VIDDEC_ParseVideo_MPEG4
  | .OMX_VIDEO_CodingMPEG2 => header .VIDDEC_ParseVideo_MPEG2
  | .OMX_VIDEO_CodingWMV =>
    if s.nWMVFileType = VIDDEC_WMV_ELEMSTREAM then header .VIDDEC_ParseVideo_WMV9_VC1
    else header .VIDDEC_ParseVideo_WMV9_RCV
  | .OMX_VIDEO_CodingUnused => ⟨.OMX_ErrorNone, 0, 0, 0, 0, true⟩

/-- `OMX_VIDEO_CodingMPEG4` or `OMX_VIDEO_CodingH263`. -/
def isMPEG4 : OMX_VIDEO_CODINGTYPE → Bool
  | .OMX_VIDEO_CodingMPEG4 | .OMX_VIDEO_CodingH263 => true
  | _ => false

structure FrameSize where
  nWidth : Nat
  nHeight : Nat
  deriving DecidableEq, Repr

def PortDefinition.size (d : PortDefinition) : FrameSize := ⟨d.nFrameWidth, d.nFrameHeight⟩

def PortDefinition.setSize (d : PortDefinition) (size : FrameSize) : PortDefinition :=
  { d with nFrameWidth := size.nWidth, nFrameHeight := size.nHeight }

def FrameSize.pad (size : FrameSize) : FrameSize :=
  ⟨VIDDEC_MULTIPLE16 size.nWidth, VIDDEC_MULTIPLE16 size.nHeight⟩

/-- The size, where 864 becomes 854 for MPEG4, and the padded size. -/
def padSizes (eCompressionFormat : OMX_VIDEO_CODINGTYPE) (size : FrameSize) :
    FrameSize × FrameSize :=
  if isMPEG4 eCompressionFormat then
    if size.nWidth = 864 ∨ size.nHeight = 864 then (size, size)
    else
      let (nWidth, nPadWidth) :=
        if size.pad.nWidth = 864 then (854, 854) else (size.nWidth, size.pad.nWidth)
      let (nHeight, nPadHeight) :=
        if size.pad.nHeight = 864 then (854, 854) else (size.nHeight, size.pad.nHeight)
      (⟨nWidth, nHeight⟩, ⟨nPadWidth, nPadHeight⟩)
  else (size, size.pad)

/-- `nWidth` and `nHeight`, and `bOutPortSettingsChanged`, as they are changed on the way. -/
structure Sizing where
  size : FrameSize
  changed : Bool
  state : HeaderState

/-- The input port. -/
def setInPort (pad : FrameSize) (z : Sizing) : Sizing :=
  if z.state.pInPortDef.size ≠ z.size then
    { z with changed := true, state :=
      { z.state with pInPortDef := z.state.pInPortDef.setSize pad } }
  else z

/-- A size for the output port. -/
def setOutPort (size : FrameSize) (z : Sizing) : Sizing :=
  if z.state.pOutPortDef.size ≠ size then
    { z with changed := true, state :=
      { z.state with pOutPortDef := z.state.pOutPortDef.setSize size } }
  else z

/-- `nWidth` and `nHeight`, rounded for a portrait. -/
def FrameSize.portrait (size : FrameSize) : FrameSize :=
  if size.nWidth < size.nHeight then size.pad else size

def setOutPortMPEG4 (z : Sizing) : Sizing :=
  if z.state.pOutPortDef.size ≠ z.size then
    { z with size := z.size.portrait, changed := true, state :=
      { z.state with pOutPortDef := z.state.pOutPortDef.setSize z.size.portrait } }
  else z

/-- The size without what is cropped, by the color format. -/
def croppedSize (eColorFormat : OMX_COLOR_FORMATTYPE) (size crop : FrameSize) : FrameSize :=
  if eColorFormat = VIDDEC_COLORFORMAT422 then
    ⟨(size.nWidth + 2 ^ 32 - crop.nWidth) % 2 ^ 32, (size.nHeight + 2 ^ 32 - crop.nHeight) % 2 ^ 32⟩
  else if eColorFormat = VIDDEC_COLORFORMAT420 then size
  else ⟨0, 0⟩

def setOutPortAVC (crop : FrameSize) (z : Sizing) : Sizing :=
  let z := { z with size := z.size.pad }
  let z :=
    if z.state.pOutPortDef.eColorFormat = VIDDEC_COLORFORMAT422 then
      { z with state :=
        { z.state with nCropWidth := crop.nWidth, nCropHeight := crop.nHeight } }
    else z
  setOutPort (croppedSize z.state.pOutPortDef.eColorFormat z.size crop) z

def setOutPortByCodec (pad crop : FrameSize) (z : Sizing) : Sizing :=
  if z.state.eCompressionFormat = .OMX_VIDEO_CodingAVC then setOutPortAVC crop z
  else if isMPEG4 z.state.eCompressionFormat then setOutPortMPEG4 z
  else setOutPort pad z

/-- The thumbnail, whose width is a multiple of 32. -/
def setThumbnail (z : Sizing) : Sizing :=
  if (isMPEG4 z.state.eCompressionFormat ∨ z.state.eCompressionFormat = .OMX_VIDEO_CodingAVC) ∧
      z.state.bUseThumbnail then
    let z := { z with size := { z.size with nWidth := VIDDEC_MULTIPLE32 z.size.nWidth } }
    if z.state.pOutPortDef.size ≠ z.size then
      { z with changed := true, state :=
        { z.state with
          pOutPortDef := z.state.pOutPortDef.setSize z.size
          nDisplayWidth := z.size.nWidth
          bUseThumbnail := false } }
    else z
  else z

/-- The product with the factor is a floating-point number, whose conversion saturates. -/
def nOutMinBufferSize (size : FrameSize) (eColorFormat : OMX_COLOR_FORMATTYPE) : Nat :=
  let pixels := size.nWidth * size.nHeight % 2 ^ 32
  min (if eColorFormat = VIDDEC_COLORFORMAT420 then pixels * 3 / 2 else pixels * 2) (2 ^ 32 - 1)

def setBufferSize (z : Sizing) : Sizing :=
  let minimum := nOutMinBufferSize z.state.pOutPortDef.size z.state.pOutPortFormat
  if z.state.nAllocLen < minimum ∨ z.state.pOutPortDef.nBufferSize < minimum then
    { z with changed := true, state :=
      { z.state with pOutPortDef := { z.state.pOutPortDef with nBufferSize := minimum } } }
  else z

/-- The error, the events, the flag `OMX_BUFFERFLAG_DATACORRUPT` and the component. -/
structure HeaderResult where
  eError : OMX_ERRORTYPE
  events : List ClientEvent
  bDataCorrupt : Bool
  state : HeaderState

/-- The flags and the events at the end; on Android only the output port is changed here. -/
def reportChange (z : Sizing) : HeaderResult :=
  let bInPortSettingsChanged := z.state.bInPortSettingsChanged
  let s := { z.state with
    bOutPortSettingsChanged := z.state.bOutPortSettingsChanged || z.changed }
  if z.changed ∨ bInPortSettingsChanged then
    let s := { s with bDynamicConfigurationInProgress := true }
    if z.changed ∧ bInPortSettingsChanged then
      ⟨.OMX_ErrorBadParameter, [.OMX_EventPortSettingsChanged VIDDEC_INPUT_PORT,
        .OMX_EventPortSettingsChanged VIDDEC_OUTPUT_PORT], false, s⟩
    else
      ⟨.OMX_ErrorBadParameter, [.OMX_EventPortSettingsChanged
        (if z.changed then VIDDEC_OUTPUT_PORT else VIDDEC_INPUT_PORT)], false,
        { s with bUsePortReconfigForCrop := true }⟩
  else ⟨.OMX_ErrorNone, [], false, s⟩

/-- All that a supported size changes. -/
def applySizes (p : ParsedHeader) (s : HeaderState) : Sizing :=
  let (size, pad) := padSizes s.eCompressionFormat ⟨p.nWidth, p.nHeight⟩
  setBufferSize (setThumbnail (setOutPortByCodec pad ⟨p.nCropWidth, p.nCropHeight⟩
    (setInPort pad ⟨size, s.bOutPortSettingsChanged, s⟩)))

/-- The configuration buffer of a stream with start codes is not complete. -/
def incomplete (p : ParsedHeader) (s : HeaderState) : Bool :=
  s.eCompressionFormat = .OMX_VIDEO_CodingAVC ∧ p.bConfigBufferCompleteAVC = false ∧
    s.ProcessMode = 0 ∧ s.H264BitStreamFormat = 0

def VIDDEC_ParseHeader (header : HeaderParser → ParsedHeader) (s : HeaderState) : HeaderResult :=
  let p := parsedBy header s
  if incomplete p s then ⟨.OMX_ErrorNone, [], false, s⟩
  else if p.eError ≠ .OMX_ErrorNone ∨ p.nWidth = 0 ∨ p.nHeight = 0 then
    let bDataCorrupt := p.nWidth = 0 ∨ p.nHeight = 0
    let eError := if bDataCorrupt then .OMX_ErrorStreamCorrupt else p.eError
    ⟨eError, [.OMX_EventError eError], bDataCorrupt, s⟩
  else if IsResolutionSupported p.nWidth p.nHeight s.eCompressionFormat ≠ .OMX_ErrorNone then
    ⟨IsResolutionSupported p.nWidth p.nHeight s.eCompressionFormat, [], false, s⟩
  else reportChange (applySizes p s)

/-! ## What is right -/

/-- The client is told of a change. -/
def HeaderResult.Reports (r : HeaderResult) : Prop :=
  ∃ port, ClientEvent.OMX_EventPortSettingsChanged port ∈ r.events

/-- The client has given buffers of the size that is announced. -/
def HeaderState.honour (s : HeaderState) : HeaderState :=
  { s with
    nAllocLen := s.pOutPortDef.nBufferSize
    bInPortSettingsChanged := false
    bOutPortSettingsChanged := false
    bDynamicConfigurationInProgress := false }

/-- The component, when the client has honoured what the header changed. -/
def afterChange (header : HeaderParser → ParsedHeader) (s : HeaderState) : HeaderState :=
  (VIDDEC_ParseHeader header s).state.honour

/-- The same header changes nothing a second time. -/
structure Settles (header : HeaderParser → ParsedHeader) (s : HeaderState) : Prop where
  quiet : ¬(VIDDEC_ParseHeader header (afterChange header s)).Reports
  inPort : (VIDDEC_ParseHeader header (afterChange header s)).state.pInPortDef =
    (afterChange header s).pInPortDef
  outPort : (VIDDEC_ParseHeader header (afterChange header s)).state.pOutPortDef =
    (afterChange header s).pOutPortDef

/-- The size that the header announces, where 864 becomes 854 for MPEG4. -/
def announced (header : HeaderParser → ParsedHeader) (s : HeaderState) : FrameSize :=
  (padSizes s.eCompressionFormat ⟨(parsedBy header s).nWidth, (parsedBy header s).nHeight⟩).1

/-- What the input port is set to. -/
def announcedPad (header : HeaderParser → ParsedHeader) (s : HeaderState) : FrameSize :=
  (padSizes s.eCompressionFormat ⟨(parsedBy header s).nWidth, (parsedBy header s).nHeight⟩).2

/-- The condition: each size that is stored is the one that is compared. -/
structure Stable (header : HeaderParser → ParsedHeader) (s : HeaderState) : Prop where
  input : s.pInPortDef.size = announced header s ∨ announcedPad header s = announced header s
  portrait : isMPEG4 s.eCompressionFormat → s.pOutPortDef.size = announced header s ∨
    (announced header s).portrait = announced header s
  thumbnailMPEG4 : isMPEG4 s.eCompressionFormat → s.bUseThumbnail →
    VIDDEC_MULTIPLE32 (announced header s).nWidth = (announced header s).nWidth
  thumbnailAVC : s.eCompressionFormat = .OMX_VIDEO_CodingAVC → s.bUseThumbnail →
    croppedSize s.pOutPortDef.eColorFormat (announced header s).pad
        ⟨(parsedBy header s).nCropWidth, (parsedBy header s).nCropHeight⟩ =
      ⟨VIDDEC_MULTIPLE32 (announced header s).pad.nWidth, (announced header s).pad.nHeight⟩

/-! ## Rounding -/

/-- Bits above the lowest `k` of a number of 32 bits. -/
theorem and_high_bits {x k : Nat} (hx : x < 2 ^ 32) (hk : k ≤ 32) :
    x &&& (2 ^ (32 - k) - 1) * 2 ^ k = x / 2 ^ k * 2 ^ k := by
  rw [← shiftLeft_eq, ← shiftLeft_eq, ← shiftRight_eq_div_pow]
  have hhigh : x >>> k < 2 ^ (32 - k) := by
    rw [shiftRight_eq_div_pow]
    exact Nat.div_lt_of_lt_mul (by rwa [← Nat.pow_add, Nat.add_sub_cancel' hk])
  refine eq_of_testBit_eq fun i => ?_
  rw [testBit_and, testBit_shiftLeft, testBit_shiftLeft, testBit_two_pow_sub_one,
    testBit_shiftRight]
  by_cases hi : k ≤ i
  · rw [Nat.add_sub_cancel' hi]
    by_cases hlt : i - k < 32 - k
    · simp [hi, hlt]
    · have hzero : x.testBit i = false :=
        Nat.testBit_lt_two_pow (hx.trans_le (Nat.pow_le_pow_right two_pos (by omega)))
      simp [hzero]
  · simp [hi]

theorem VIDDEC_MULTIPLE16_eq (x : Nat) : VIDDEC_MULTIPLE16 x = (x + 15) % 2 ^ 32 / 16 * 16 :=
  and_high_bits (k := 4) (mod_lt _ (by norm_num)) (by norm_num)

theorem VIDDEC_MULTIPLE32_eq (x : Nat) : VIDDEC_MULTIPLE32 x = (x + 31) % 2 ^ 32 / 32 * 32 :=
  and_high_bits (k := 5) (mod_lt _ (by norm_num)) (by norm_num)

/-- A multiple of 32 is not rounded any more. -/
theorem multiple_of_multiple32 (x : Nat) :
    VIDDEC_MULTIPLE16 (VIDDEC_MULTIPLE32 x) = VIDDEC_MULTIPLE32 x ∧
      VIDDEC_MULTIPLE32 (VIDDEC_MULTIPLE32 x) = VIDDEC_MULTIPLE32 x := by
  rw [VIDDEC_MULTIPLE16_eq, VIDDEC_MULTIPLE32_eq, VIDDEC_MULTIPLE32_eq]
  omega

/-! ## One step -/

/-- What no step touches. -/
structure SameSetup (s s' : HeaderState) : Prop where
  eCompressionFormat : s'.eCompressionFormat = s.eCompressionFormat
  nWMVFileType : s'.nWMVFileType = s.nWMVFileType
  ProcessMode : s'.ProcessMode = s.ProcessMode
  H264BitStreamFormat : s'.H264BitStreamFormat = s.H264BitStreamFormat
  bInPortSettingsChanged : s'.bInPortSettingsChanged = s.bInPortSettingsChanged
  pOutPortFormat : s'.pOutPortFormat = s.pOutPortFormat
  eColorFormat : s'.pOutPortDef.eColorFormat = s.pOutPortDef.eColorFormat
  nAllocLen : s'.nAllocLen = s.nAllocLen

theorem SameSetup.refl (s : HeaderState) : SameSetup s s := ⟨rfl, rfl, rfl, rfl, rfl, rfl, rfl, rfl⟩

theorem SameSetup.trans {s t u : HeaderState} (h : SameSetup s t) (h' : SameSetup t u) :
    SameSetup s u :=
  ⟨h'.1.trans h.1, h'.2.trans h.2, h'.3.trans h.3, h'.4.trans h.4, h'.5.trans h.5, h'.6.trans h.6,
    h'.7.trans h.7, h'.8.trans h.8⟩

/-- The input port is set to the padded size unless it has the size that is announced. -/
theorem setInPort_spec (pad : FrameSize) (z : Sizing) :
    SameSetup z.state (setInPort pad z).state ∧ (setInPort pad z).size = z.size ∧
      (setInPort pad z).state.pOutPortDef = z.state.pOutPortDef ∧
      (setInPort pad z).state.bUseThumbnail = z.state.bUseThumbnail ∧
      ((z.state.pInPortDef.size = z.size → setInPort pad z = z) ∧
        (z.state.pInPortDef.size ≠ z.size → (setInPort pad z).changed ∧
          (setInPort pad z).state.pInPortDef.size = pad)) := by
  by_cases h : z.state.pInPortDef.size = z.size
  · have hsame : setInPort pad z = z := if_neg (not_not.mpr h)
    rw [hsame]
    exact ⟨SameSetup.refl _, rfl, rfl, rfl, fun _ => rfl, fun hno => absurd h hno⟩
  · have hset : setInPort pad z = { z with changed := true, state :=
        { z.state with pInPortDef := z.state.pInPortDef.setSize pad } } := if_pos h
    rw [hset]
    exact ⟨⟨rfl, rfl, rfl, rfl, rfl, rfl, rfl, rfl⟩, rfl, rfl, rfl, fun hno => absurd hno h,
      fun _ => ⟨rfl, rfl⟩⟩

/-- What a step for the output port does that compares with `target` and stores `stored`. -/
structure SetsOut (z z' : Sizing) (target stored : FrameSize) : Prop where
  setup : SameSetup z.state z'.state
  inPort : z'.state.pInPortDef = z.state.pInPortDef
  thumbnail : z'.state.bUseThumbnail = z.state.bUseThumbnail
  same : z.state.pOutPortDef.size = target →
    z'.changed = z.changed ∧ z'.state.pOutPortDef = z.state.pOutPortDef
  set : z.state.pOutPortDef.size ≠ target →
    z'.changed = true ∧ z'.state.pOutPortDef.size = stored

/-- The output port of a plain codec. -/
theorem setOutPort_spec (size : FrameSize) (z : Sizing) :
    SetsOut z (setOutPort size z) size size ∧ (setOutPort size z).size = z.size := by
  by_cases h : z.state.pOutPortDef.size = size
  · have hsame : setOutPort size z = z := if_neg (not_not.mpr h)
    rw [hsame]
    exact ⟨⟨SameSetup.refl _, rfl, rfl, fun _ => ⟨rfl, rfl⟩, fun hno => absurd h hno⟩, rfl⟩
  · have hset : setOutPort size z = { z with changed := true, state :=
        { z.state with pOutPortDef := z.state.pOutPortDef.setSize size } } := if_pos h
    rw [hset]
    exact ⟨⟨⟨rfl, rfl, rfl, rfl, rfl, rfl, rfl, rfl⟩, rfl, rfl, fun hno => absurd hno h,
      fun _ => ⟨rfl, rfl⟩⟩, rfl⟩

theorem setOutPortMPEG4_spec (z : Sizing) :
    SetsOut z (setOutPortMPEG4 z) z.size z.size.portrait ∧
      (setOutPortMPEG4 z).size =
        if z.state.pOutPortDef.size = z.size then z.size else z.size.portrait := by
  by_cases h : z.state.pOutPortDef.size = z.size
  · have hsame : setOutPortMPEG4 z = z := if_neg (not_not.mpr h)
    rw [hsame, if_pos h]
    exact ⟨⟨SameSetup.refl _, rfl, rfl, fun _ => ⟨rfl, rfl⟩, fun hno => absurd h hno⟩, rfl⟩
  · have hset : setOutPortMPEG4 z = { z with size := z.size.portrait, changed := true, state :=
        { z.state with pOutPortDef := z.state.pOutPortDef.setSize z.size.portrait } } := if_pos h
    rw [hset, if_neg h]
    exact ⟨⟨⟨rfl, rfl, rfl, rfl, rfl, rfl, rfl, rfl⟩, rfl, rfl, fun hno => absurd hno h,
      fun _ => ⟨rfl, rfl⟩⟩, rfl⟩

/-- The output port of AVC. -/
theorem setOutPortAVC_spec (crop : FrameSize) (z : Sizing) :
    SetsOut z (setOutPortAVC crop z) (croppedSize z.state.pOutPortDef.eColorFormat z.size.pad crop)
        (croppedSize z.state.pOutPortDef.eColorFormat z.size.pad crop) ∧
      (setOutPortAVC crop z).size = z.size.pad := by
  by_cases h422 : z.state.pOutPortDef.eColorFormat = VIDDEC_COLORFORMAT422
  · have hcrop : setOutPortAVC crop z =
        setOutPort (croppedSize z.state.pOutPortDef.eColorFormat z.size.pad crop)
          { z with size := z.size.pad, state :=
            { z.state with nCropWidth := crop.nWidth, nCropHeight := crop.nHeight } } := by
      unfold setOutPortAVC
      simp only [h422, if_true]
    rw [hcrop]
    obtain ⟨hout, hsize⟩ := setOutPort_spec
      (croppedSize z.state.pOutPortDef.eColorFormat z.size.pad crop)
      { z with size := z.size.pad, state :=
        { z.state with nCropWidth := crop.nWidth, nCropHeight := crop.nHeight } }
    have hcropped : SameSetup z.state
        { z.state with nCropWidth := crop.nWidth, nCropHeight := crop.nHeight } :=
      ⟨rfl, rfl, rfl, rfl, rfl, rfl, rfl, rfl⟩
    exact ⟨⟨hcropped.trans hout.setup, hout.inPort, hout.thumbnail, hout.same, hout.set⟩, hsize⟩
  · have hplain : setOutPortAVC crop z =
        setOutPort (croppedSize z.state.pOutPortDef.eColorFormat z.size.pad crop)
          { z with size := z.size.pad } := by
      unfold setOutPortAVC
      simp only [h422, if_false]
    rw [hplain]
    obtain ⟨hout, hsize⟩ := setOutPort_spec
      (croppedSize z.state.pOutPortDef.eColorFormat z.size.pad crop) { z with size := z.size.pad }
    exact ⟨{ hout with }, hsize⟩

/-- The thumbnail is used once. -/
def Thumbnail (s : HeaderState) : Prop :=
  (isMPEG4 s.eCompressionFormat ∨ s.eCompressionFormat = .OMX_VIDEO_CodingAVC) ∧ s.bUseThumbnail

def FrameSize.thumbnail (size : FrameSize) : FrameSize :=
  { size with nWidth := VIDDEC_MULTIPLE32 size.nWidth }

theorem setThumbnail_spec (z : Sizing) :
    SameSetup z.state (setThumbnail z).state ∧
      (setThumbnail z).state.pInPortDef = z.state.pInPortDef ∧
      ((Thumbnail z.state → z.state.pOutPortDef.size = z.size.thumbnail) →
        (setThumbnail z).changed = z.changed ∧ (setThumbnail z).state = z.state) ∧
      (¬(Thumbnail z.state → z.state.pOutPortDef.size = z.size.thumbnail) →
        (setThumbnail z).changed ∧
          (setThumbnail z).state.pOutPortDef.size = z.size.thumbnail ∧
          (setThumbnail z).state.bUseThumbnail = false) := by
  by_cases hthumb : Thumbnail z.state
  swap
  · have hsame : setThumbnail z = z := if_neg hthumb
    rw [hsame]
    exact ⟨SameSetup.refl _, rfl, fun _ => ⟨rfl, rfl⟩,
      fun hno => absurd (fun hyes => absurd hyes hthumb) hno⟩
  by_cases h : z.state.pOutPortDef.size = z.size.thumbnail
  · have hsame : setThumbnail z = { z with size := z.size.thumbnail } :=
      (if_pos hthumb).trans (if_neg (not_not.mpr h))
    rw [hsame]
    exact ⟨SameSetup.refl _, rfl, fun _ => ⟨rfl, rfl⟩, fun hno => absurd (fun _ => h) hno⟩
  · have hset : setThumbnail z = { z with size := z.size.thumbnail, changed := true, state :=
        { z.state with
          pOutPortDef := z.state.pOutPortDef.setSize z.size.thumbnail
          nDisplayWidth := z.size.thumbnail.nWidth
          bUseThumbnail := false } } := (if_pos hthumb).trans (if_pos h)
    rw [hset]
    exact ⟨⟨rfl, rfl, rfl, rfl, rfl, rfl, rfl, rfl⟩, rfl, fun hyes => absurd (hyes hthumb) h,
      fun _ => ⟨rfl, rfl, rfl⟩⟩

/-- The buffers of the output port are large enough. -/
def Roomy (s : HeaderState) : Prop :=
  nOutMinBufferSize s.pOutPortDef.size s.pOutPortFormat ≤ s.nAllocLen ∧
    nOutMinBufferSize s.pOutPortDef.size s.pOutPortFormat ≤ s.pOutPortDef.nBufferSize

/-- The output buffers are made large enough. -/
theorem setBufferSize_spec (z : Sizing) :
    SameSetup z.state (setBufferSize z).state ∧
      (setBufferSize z).state.pInPortDef = z.state.pInPortDef ∧
      (setBufferSize z).state.bUseThumbnail = z.state.bUseThumbnail ∧
      (setBufferSize z).state.pOutPortDef.size = z.state.pOutPortDef.size ∧
      (Roomy z.state → setBufferSize z = z) ∧
      (¬Roomy z.state → (setBufferSize z).changed) ∧
      nOutMinBufferSize z.state.pOutPortDef.size z.state.pOutPortFormat ≤
        (setBufferSize z).state.pOutPortDef.nBufferSize := by
  have hroomy : Roomy z.state ↔
      ¬(z.state.nAllocLen < nOutMinBufferSize z.state.pOutPortDef.size z.state.pOutPortFormat ∨
        z.state.pOutPortDef.nBufferSize <
          nOutMinBufferSize z.state.pOutPortDef.size z.state.pOutPortFormat) := by
    unfold Roomy
    omega
  by_cases h : Roomy z.state
  · have hsame : setBufferSize z = z := if_neg (hroomy.mp h)
    rw [hsame]
    exact ⟨SameSetup.refl _, rfl, rfl, rfl, fun _ => rfl, fun hno => absurd h hno, h.2⟩
  · have hset : setBufferSize z = { z with changed := true, state :=
        { z.state with pOutPortDef := { z.state.pOutPortDef with
          nBufferSize := nOutMinBufferSize z.state.pOutPortDef.size z.state.pOutPortFormat } } } :=
      if_pos (not_not.mp (mt hroomy.mpr h))
    rw [hset]
    exact ⟨⟨rfl, rfl, rfl, rfl, rfl, rfl, rfl, rfl⟩, rfl, rfl, rfl, fun hno => absurd hno h,
      fun _ => rfl, le_rfl⟩

/-! ## All steps -/

/-- The size that the output port is compared with. -/
def outTarget (pad crop : FrameSize) (z : Sizing) : FrameSize :=
  if z.state.eCompressionFormat = .OMX_VIDEO_CodingAVC then
    croppedSize z.state.pOutPortDef.eColorFormat z.size.pad crop
  else if isMPEG4 z.state.eCompressionFormat then z.size
  else pad

/-- The size that it is set to. -/
def outStored (pad crop : FrameSize) (z : Sizing) : FrameSize :=
  if z.state.eCompressionFormat ≠ .OMX_VIDEO_CodingAVC ∧ isMPEG4 z.state.eCompressionFormat then
    z.size.portrait
  else outTarget pad crop z

/-- `nWidth` and `nHeight` afterwards. -/
def outSize (pad crop : FrameSize) (z : Sizing) : FrameSize :=
  if z.state.eCompressionFormat = .OMX_VIDEO_CodingAVC then z.size.pad
  else if isMPEG4 z.state.eCompressionFormat ∧
      z.state.pOutPortDef.size ≠ outTarget pad crop z then z.size.portrait
  else z.size

theorem setOutPortByCodec_spec (pad crop : FrameSize) (z : Sizing) :
    SetsOut z (setOutPortByCodec pad crop z) (outTarget pad crop z) (outStored pad crop z) ∧
      (setOutPortByCodec pad crop z).size = outSize pad crop z := by
  unfold setOutPortByCodec outSize outStored outTarget
  by_cases havc : z.state.eCompressionFormat = .OMX_VIDEO_CodingAVC
  · simp only [havc, if_true, ne_eq, not_true_eq_false, false_and, if_false]
    exact setOutPortAVC_spec crop z
  by_cases hmpeg4 : isMPEG4 z.state.eCompressionFormat
  · simp only [havc, hmpeg4, if_true, if_false, ne_eq, not_false_eq_true, true_and, ite_not]
    exact setOutPortMPEG4_spec z
  · simp only [havc, hmpeg4, Bool.false_eq_true, if_false, and_false, false_and]
    exact setOutPort_spec pad z

section

variable (p : ParsedHeader) (s : HeaderState)

/-- Where the steps start. -/
def startSizes : Sizing :=
  ⟨(padSizes s.eCompressionFormat ⟨p.nWidth, p.nHeight⟩).1, s.bOutPortSettingsChanged, s⟩

def paddedSize : FrameSize := (padSizes s.eCompressionFormat ⟨p.nWidth, p.nHeight⟩).2

def ParsedHeader.crop : FrameSize := ⟨p.nCropWidth, p.nCropHeight⟩

/-- Nothing is to be changed. -/
structure Quiet : Prop where
  input : s.pInPortDef.size = (startSizes p s).size
  output : s.pOutPortDef.size = outTarget (paddedSize p s) p.crop (startSizes p s)
  thumbnail : Thumbnail s →
    s.pOutPortDef.size = (outSize (paddedSize p s) p.crop (startSizes p s)).thumbnail
  roomy : Roomy s

private theorem applySizes_eq : applySizes p s = setBufferSize (setThumbnail
    (setOutPortByCodec (paddedSize p s) p.crop
      (setInPort (paddedSize p s) (startSizes p s)))) := rfl

variable {p s}

/-- Where nothing is to be changed, no definition of a port is. -/
theorem applySizes_of_quiet (h : Quiet p s) :
    (applySizes p s).changed = s.bOutPortSettingsChanged ∧
      (applySizes p s).state.pInPortDef = s.pInPortDef ∧
      (applySizes p s).state.pOutPortDef = s.pOutPortDef := by
  obtain ⟨hinput, houtput, hthumb, hroomy⟩ := h
  have hin : setInPort (paddedSize p s) (startSizes p s) = startSizes p s :=
    (setInPort_spec _ _).2.2.2.2.1 hinput
  obtain ⟨hout, hsize⟩ := setOutPortByCodec_spec (paddedSize p s) p.crop (startSizes p s)
  obtain ⟨hchanged, hdef⟩ := hout.same houtput
  obtain ⟨_, hin', hkeep, _⟩ :=
    setThumbnail_spec (setOutPortByCodec (paddedSize p s) p.crop (startSizes p s))
  have hcodec := hout.setup.eCompressionFormat
  obtain ⟨hchanged', hstate'⟩ := hkeep fun hyes => by
    rw [hdef, hsize]
    unfold Thumbnail at hyes hthumb
    rw [hcodec, hout.thumbnail] at hyes
    exact hthumb hyes
  rw [applySizes_eq, hin]
  have hroomy' : Roomy
      (setThumbnail (setOutPortByCodec (paddedSize p s) p.crop (startSizes p s))).state := by
    rw [hstate', Roomy, hdef, hout.setup.pOutPortFormat, hout.setup.nAllocLen]
    exact hroomy
  rw [(setBufferSize_spec _).2.2.2.2.1 hroomy', hchanged', hchanged, hstate', hdef, hout.inPort]
  exact ⟨rfl, rfl, rfl⟩

/-- A step that changes something is not taken back. -/
theorem changed_of_not_quiet (h : ¬Quiet p s) : (applySizes p s).changed = true := by
  obtain ⟨hsetup₁, hsize₁, houtdef₁, hthumb₁, hin, hin'⟩ :=
    setInPort_spec (paddedSize p s) (startSizes p s)
  rw [applySizes_eq]
  generalize hz₁ : setInPort (paddedSize p s) (startSizes p s) = z₁ at *
  obtain ⟨hout, hsize₂⟩ := setOutPortByCodec_spec (paddedSize p s) p.crop z₁
  generalize hz₂ : setOutPortByCodec (paddedSize p s) p.crop z₁ = z₂ at *
  obtain ⟨hsetup₃, hin₃, hkeep₃, hset₃⟩ := setThumbnail_spec z₂
  generalize hz₃ : setThumbnail z₂ = z₃ at *
  obtain ⟨hsetup₄, hin₄, hthumb₄, hsize₄, hkeep₄, hset₄, -⟩ := setBufferSize_spec z₃
  have hmono₄ (h₃ : z₃.changed) : (setBufferSize z₃).changed := by
    by_cases hroomy : Roomy z₃.state
    · rw [hkeep₄ hroomy, h₃]
    · exact hset₄ hroomy
  have hmono₃ (h₂ : z₂.changed) : z₃.changed := by
    by_cases hyes : Thumbnail z₂.state → z₂.state.pOutPortDef.size = z₂.size.thumbnail
    · rw [(hkeep₃ hyes).1, h₂]
    · exact (hset₃ hyes).1
  have hmono₂ (h₁ : z₁.changed) : z₂.changed := by
    by_cases hyes : z₁.state.pOutPortDef.size = outTarget (paddedSize p s) p.crop z₁
    · rw [(hout.same hyes).1, h₁]
    · exact (hout.set hyes).1
  by_contra hquiet
  have hinput : s.pInPortDef.size = (startSizes p s).size := by
    by_contra hno
    exact hquiet (hmono₄ (hmono₃ (hmono₂ (hin' hno).1)))
  obtain rfl : z₁ = startSizes p s := hin hinput
  have houtput : s.pOutPortDef.size = outTarget (paddedSize p s) p.crop (startSizes p s) := by
    by_contra hno
    exact hquiet (hmono₄ (hmono₃ (hout.set hno).1))
  have hdef := (hout.same houtput).2
  have hthumb : Thumbnail s →
      s.pOutPortDef.size = (outSize (paddedSize p s) p.crop (startSizes p s)).thumbnail := by
    by_contra hno
    refine hquiet (hmono₄ (hset₃ fun hyes => hno fun hs => ?_).1)
    rw [← hsize₂]
    have hsame := hyes (by
      rw [Thumbnail, hout.setup.eCompressionFormat, hout.thumbnail]
      exact hs)
    rwa [hdef] at hsame
  have hroomy : Roomy s := by
    by_contra hno
    refine hquiet (hset₄ fun hyes => hno ?_)
    have hstate : z₃.state = z₂.state := by
      refine (hkeep₃ fun hs => ?_).2
      rw [Thumbnail, hout.setup.eCompressionFormat, hout.thumbnail] at hs
      rw [hdef, hsize₂]
      exact hthumb hs
    rwa [hstate, Roomy, hdef, hout.setup.pOutPortFormat, hout.setup.nAllocLen] at hyes
  exact h ⟨hinput, houtput, hthumb, hroomy⟩

variable (p s)

/-- The output port before the thumbnail. -/
def outFirst : FrameSize :=
  if s.pOutPortDef.size = outTarget (paddedSize p s) p.crop (startSizes p s) then
    s.pOutPortDef.size
  else outStored (paddedSize p s) p.crop (startSizes p s)

def thumbFirst : FrameSize :=
  (outSize (paddedSize p s) p.crop (startSizes p s)).thumbnail

/-- What all the steps leave. -/
theorem applySizes_spec :
    SameSetup s (applySizes p s).state ∧
      (applySizes p s).state.pInPortDef.size =
        (if s.pInPortDef.size = (startSizes p s).size then s.pInPortDef.size
          else paddedSize p s) ∧
      ((Thumbnail s → outFirst p s = thumbFirst p s) →
        (applySizes p s).state.pOutPortDef.size = outFirst p s ∧
          (applySizes p s).state.bUseThumbnail = s.bUseThumbnail) ∧
      (¬(Thumbnail s → outFirst p s = thumbFirst p s) →
        (applySizes p s).state.pOutPortDef.size = thumbFirst p s ∧
          (applySizes p s).state.bUseThumbnail = false) ∧
      nOutMinBufferSize (applySizes p s).state.pOutPortDef.size
        (applySizes p s).state.pOutPortFormat ≤ (applySizes p s).state.pOutPortDef.nBufferSize := by
  obtain ⟨hsetup₁, hsize₁, houtdef₁, hthumb₁, hin, hin'⟩ :=
    setInPort_spec (paddedSize p s) (startSizes p s)
  rw [applySizes_eq]
  generalize hz₁ : setInPort (paddedSize p s) (startSizes p s) = z₁ at *
  have htarget : outTarget (paddedSize p s) p.crop z₁ =
      outTarget (paddedSize p s) p.crop (startSizes p s) := by
    unfold outTarget
    rw [hsize₁, hsetup₁.eCompressionFormat, houtdef₁]
  have hstored : outStored (paddedSize p s) p.crop z₁ =
      outStored (paddedSize p s) p.crop (startSizes p s) := by
    unfold outStored
    rw [htarget, hsize₁, hsetup₁.eCompressionFormat]
  have houtsize : outSize (paddedSize p s) p.crop z₁ =
      outSize (paddedSize p s) p.crop (startSizes p s) := by
    unfold outSize
    rw [htarget, hsize₁, hsetup₁.eCompressionFormat, houtdef₁]
  obtain ⟨hout, hsize₂⟩ := setOutPortByCodec_spec (paddedSize p s) p.crop z₁
  rw [htarget, hstored] at hout
  rw [houtsize] at hsize₂
  generalize hz₂ : setOutPortByCodec (paddedSize p s) p.crop z₁ = z₂ at *
  obtain ⟨hsetup₃, hin₃, hkeep₃, hset₃⟩ := setThumbnail_spec z₂
  generalize hz₃ : setThumbnail z₂ = z₃ at *
  obtain ⟨hsetup₄, hin₄, hthumb₄, hsize₄, hkeep₄, hset₄, hroomy⟩ := setBufferSize_spec z₃
  have hsetup : SameSetup s (setBufferSize z₃).state :=
    hsetup₁.trans (hout.setup.trans (hsetup₃.trans hsetup₄))
  have hfirst : z₂.state.pOutPortDef.size = outFirst p s := by
    rw [outFirst]
    by_cases hsame : s.pOutPortDef.size = outTarget (paddedSize p s) p.crop (startSizes p s)
    · rw [if_pos hsame, (hout.same (by rw [houtdef₁]; exact hsame)).2, houtdef₁]
      rfl
    · rw [if_neg hsame, (hout.set (by rw [houtdef₁]; exact hsame)).2]
  have hthumb : Thumbnail z₂.state ↔ Thumbnail s := by
    rw [Thumbnail, hout.setup.eCompressionFormat, hsetup₁.eCompressionFormat, hout.thumbnail,
      hthumb₁]
    rfl
  have hguard : (Thumbnail z₂.state → z₂.state.pOutPortDef.size = z₂.size.thumbnail) ↔
      (Thumbnail s → outFirst p s = thumbFirst p s) := by
    rw [hthumb, hfirst, hsize₂]
    rfl
  rw [hguard] at hkeep₃ hset₃
  refine ⟨hsetup, ?_, fun hyes => ?_, fun hno => ?_, ?_⟩
  · rw [hin₄, hin₃, hout.inPort]
    by_cases hsame : s.pInPortDef.size = (startSizes p s).size
    · rw [if_pos hsame, hin hsame]
      rfl
    · rw [if_neg hsame, (hin' hsame).2]
  · rw [hsize₄, hthumb₄, (hkeep₃ hyes).2, hfirst, hout.thumbnail, hthumb₁]
    exact ⟨rfl, rfl⟩
  · rw [hsize₄, hthumb₄, (hset₃ hno).2.1, (hset₃ hno).2.2, hsize₂]
    exact ⟨rfl, rfl⟩
  · rw [hsize₄, hsetup₄.pOutPortFormat]
    exact hroomy

/-- Rounding to 32 and back to the size that is announced needs no rounding. -/
theorem eq_of_thumbnail_eq {size r : FrameSize} (hr : r = size ∨ r = size.portrait)
    (h : r.thumbnail = size) : r = size := by
  rcases hr with rfl | rfl
  · rfl
  unfold FrameSize.portrait at h ⊢
  split_ifs at h ⊢ with hportrait
  · obtain ⟨width, height⟩ := size
    have hwidth : VIDDEC_MULTIPLE32 (VIDDEC_MULTIPLE16 width) = width := congrArg FrameSize.nWidth h
    have hheight : VIDDEC_MULTIPLE16 height = height := congrArg FrameSize.nHeight h
    have hmultiple : VIDDEC_MULTIPLE16 width = width := by
      rw [← hwidth]
      exact (multiple_of_multiple32 _).1
    rw [FrameSize.pad, FrameSize.mk.injEq]
    exact ⟨hmultiple, hheight⟩
  · rfl

variable {p s}

theorem startSizes_congr {s' : HeaderState} (h : s'.eCompressionFormat = s.eCompressionFormat) :
    (startSizes p s').size = (startSizes p s).size ∧ paddedSize p s' = paddedSize p s := by
  unfold startSizes paddedSize
  rw [h]
  exact ⟨rfl, rfl⟩

@[simp] theorem startSizes_state (p : ParsedHeader) (s : HeaderState) :
    (startSizes p s).state = s := rfl

/-- The size that stays when the output port is right. -/
def runningSize (p : ParsedHeader) (s : HeaderState) : FrameSize :=
  if s.eCompressionFormat = .OMX_VIDEO_CodingAVC then (startSizes p s).size.pad
  else (startSizes p s).size

/-- The state that the client leaves, as the next header finds it. -/
theorem quiet_honour {t : HeaderState} (hsetup : SameSetup s t)
    (hroomy : nOutMinBufferSize t.pOutPortDef.size t.pOutPortFormat ≤ t.pOutPortDef.nBufferSize) :
    Quiet p t.honour ↔ t.pInPortDef.size = (startSizes p s).size ∧
      t.pOutPortDef.size = outTarget (paddedSize p s) p.crop (startSizes p s) ∧
      (Thumbnail t → outTarget (paddedSize p s) p.crop (startSizes p s) =
        (runningSize p s).thumbnail) := by
  have hcodec : t.honour.eCompressionFormat = s.eCompressionFormat := hsetup.eCompressionFormat
  have hcolor : t.honour.pOutPortDef.eColorFormat = s.pOutPortDef.eColorFormat :=
    hsetup.eColorFormat
  obtain ⟨hsize, hpad⟩ := startSizes_congr (p := p) hcodec
  have htarget : outTarget (paddedSize p t.honour) p.crop (startSizes p t.honour) =
      outTarget (paddedSize p s) p.crop (startSizes p s) := by
    simp only [outTarget, startSizes_state, hcodec, hcolor, hsize, hpad]
    rfl
  have hrunning (hout : t.pOutPortDef.size = outTarget (paddedSize p s) p.crop (startSizes p s)) :
      outSize (paddedSize p t.honour) p.crop (startSizes p t.honour) = runningSize p s := by
    have hsame : t.honour.pOutPortDef.size =
        outTarget (paddedSize p t.honour) p.crop (startSizes p t.honour) := hout.trans htarget.symm
    simp only [outSize, runningSize, startSizes_state, hcodec, hsize, hsame, ne_eq,
      not_true_eq_false,
      and_false, if_false]
  constructor
  · rintro ⟨hinput, houtput, hthumb, -⟩
    have hout : t.pOutPortDef.size = outTarget (paddedSize p s) p.crop (startSizes p s) :=
      houtput.trans htarget
    refine ⟨hinput.trans hsize, hout, fun hyes => ?_⟩
    rw [← hout, ← hrunning hout]
    exact hthumb hyes
  · rintro ⟨hinput, hout, hthumb⟩
    refine ⟨hinput.trans hsize.symm, hout.trans htarget.symm, fun hyes => ?_, hroomy, hroomy⟩
    rw [hrunning hout, ← hthumb hyes]
    exact hout

/-! Where the three kinds of codecs look at the output port. -/

private theorem isMPEG4_ne_avc {c : OMX_VIDEO_CODINGTYPE} (h : isMPEG4 c) :
    c ≠ .OMX_VIDEO_CodingAVC := by
  rintro rfl
  exact absurd h (by decide)

theorem sizes_of_avc (h : s.eCompressionFormat = .OMX_VIDEO_CodingAVC) :
    outTarget (paddedSize p s) p.crop (startSizes p s) =
        croppedSize s.pOutPortDef.eColorFormat (startSizes p s).size.pad p.crop ∧
      outFirst p s = outTarget (paddedSize p s) p.crop (startSizes p s) ∧
      thumbFirst p s = (runningSize p s).thumbnail ∧
      (Thumbnail s ↔ s.bUseThumbnail) := by
  refine ⟨if_pos h, ?_, ?_, fun hs => hs.2, fun hs => ⟨.inr h, hs⟩⟩
  · have hstored : outStored (paddedSize p s) p.crop (startSizes p s) =
        outTarget (paddedSize p s) p.crop (startSizes p s) := if_neg fun hno => hno.1 h
    rw [outFirst, hstored, ite_eq_right_iff]
    exact id
  · have hsize : outSize (paddedSize p s) p.crop (startSizes p s) = (startSizes p s).size.pad :=
      if_pos h
    rw [thumbFirst, runningSize, if_pos h, hsize]

theorem sizes_of_mpeg4 (h : isMPEG4 s.eCompressionFormat) :
    outTarget (paddedSize p s) p.crop (startSizes p s) = (startSizes p s).size ∧
      runningSize p s = (startSizes p s).size ∧
      outFirst p s = (if s.pOutPortDef.size = (startSizes p s).size then (startSizes p s).size
        else (startSizes p s).size.portrait) ∧
      thumbFirst p s = (outFirst p s).thumbnail ∧
      (Thumbnail s ↔ s.bUseThumbnail) := by
  have havc := isMPEG4_ne_avc h
  have htarget : outTarget (paddedSize p s) p.crop (startSizes p s) = (startSizes p s).size :=
    (if_neg havc).trans (if_pos h)
  have hstored : outStored (paddedSize p s) p.crop (startSizes p s) =
      (startSizes p s).size.portrait := if_pos ⟨havc, h⟩
  have hsize : outSize (paddedSize p s) p.crop (startSizes p s) =
      if s.pOutPortDef.size = (startSizes p s).size then (startSizes p s).size
        else (startSizes p s).size.portrait := by
    unfold outSize
    simp only [startSizes_state, havc, h, htarget, if_false, true_and, ne_eq, ite_not]
  have hfirst : outFirst p s = (if s.pOutPortDef.size = (startSizes p s).size then
      (startSizes p s).size else (startSizes p s).size.portrait) := by
    rw [outFirst, hstored, htarget]
    split_ifs with hsame
    · exact hsame
    · rfl
  refine ⟨htarget, if_neg havc, hfirst, ?_, fun hs => hs.2, fun hs => ⟨.inl h, hs⟩⟩
  rw [thumbFirst, hsize, hfirst]

theorem sizes_of_other (havc : s.eCompressionFormat ≠ .OMX_VIDEO_CodingAVC)
    (h : ¬isMPEG4 s.eCompressionFormat) :
    outTarget (paddedSize p s) p.crop (startSizes p s) = paddedSize p s ∧
      outFirst p s = paddedSize p s := by
  have htarget : outTarget (paddedSize p s) p.crop (startSizes p s) = paddedSize p s :=
    (if_neg havc).trans (if_neg h)
  have hstored : outStored (paddedSize p s) p.crop (startSizes p s) = paddedSize p s :=
    (if_neg fun hno => h hno.2).trans htarget
  refine ⟨htarget, ?_⟩
  rw [outFirst, hstored, htarget, ite_eq_right_iff]
  exact id

private theorem thumbnail_eq_iff (size : FrameSize) :
    size = size.thumbnail ↔ VIDDEC_MULTIPLE32 size.nWidth = size.nWidth := by
  obtain ⟨width, height⟩ := size
  rw [FrameSize.thumbnail, FrameSize.mk.injEq]
  exact ⟨fun h => h.1.symm, fun h => ⟨h.symm, rfl⟩⟩

/-- The condition, in the sizes of the steps. -/
theorem stable_iff (header : HeaderParser → ParsedHeader) (s : HeaderState) :
    Stable header s ↔
      (s.pInPortDef.size = (startSizes (parsedBy header s) s).size ∨
        paddedSize (parsedBy header s) s = (startSizes (parsedBy header s) s).size) ∧
      (isMPEG4 s.eCompressionFormat → s.pOutPortDef.size = (startSizes (parsedBy header s) s).size ∨
        (startSizes (parsedBy header s) s).size.portrait =
          (startSizes (parsedBy header s) s).size) ∧
      (isMPEG4 s.eCompressionFormat → s.bUseThumbnail → (startSizes (parsedBy header s) s).size =
          (startSizes (parsedBy header s) s).size.thumbnail) ∧
      (s.eCompressionFormat = .OMX_VIDEO_CodingAVC → s.bUseThumbnail →
        croppedSize s.pOutPortDef.eColorFormat (startSizes (parsedBy header s) s).size.pad
          (parsedBy header s).crop = (startSizes (parsedBy header s) s).size.pad.thumbnail) :=
  ⟨fun h => ⟨h.1, h.2, fun hc hs => (thumbnail_eq_iff _).mpr (h.3 hc hs), h.4⟩,
    fun h => ⟨h.1, h.2.1, fun hc hs => (thumbnail_eq_iff _).mp (h.2.2.1 hc hs), h.2.2.2⟩⟩

/-- The second time nothing is to be changed, under the condition on the first. -/
theorem quiet_iff_stable (header : HeaderParser → ParsedHeader) (s : HeaderState) :
    Quiet (parsedBy header s) (applySizes (parsedBy header s) s).state.honour ↔
      Stable header s := by
  rw [stable_iff]
  generalize parsedBy header s = p
  obtain ⟨hsetup, hin, hyes, hno, hroomy⟩ := applySizes_spec p s
  rw [quiet_honour hsetup hroomy]
  generalize (applySizes p s).state = t at *
  have hcodec := hsetup.eCompressionFormat
  have hinput : t.pInPortDef.size = (startSizes p s).size ↔
      (s.pInPortDef.size = (startSizes p s).size ∨ paddedSize p s = (startSizes p s).size) := by
    rw [hin]
    by_cases hsame : s.pInPortDef.size = (startSizes p s).size
    · rw [if_pos hsame]
      exact iff_of_true hsame (.inl hsame)
    · rw [if_neg hsame]
      exact ⟨.inr, fun h => h.resolve_left hsame⟩
  rw [hinput]
  refine and_congr_right fun _ => ?_
  -- a thumbnail that is kept is the same question again
  have hkept (huse : t.bUseThumbnail = s.bUseThumbnail) : Thumbnail t ↔ Thumbnail s := by
    rw [Thumbnail, hcodec, huse]
    rfl
  by_cases havc : s.eCompressionFormat = .OMX_VIDEO_CodingAVC
  · obtain ⟨htarget, hfirst, hthumbs, hthumb⟩ := sizes_of_avc (p := p) havc
    have hmpeg4 : ¬isMPEG4 s.eCompressionFormat := fun h => isMPEG4_ne_avc h havc
    have hrunning : runningSize p s = (startSizes p s).size.pad := if_pos havc
    by_cases hguard : Thumbnail s → outFirst p s = thumbFirst p s
    · obtain ⟨hout, huse⟩ := hyes hguard
      rw [hkept huse, hout, hfirst, hthumb, hrunning, htarget]
      exact ⟨fun h => ⟨fun h' => absurd h' hmpeg4, fun h' => absurd h' hmpeg4, fun _ => h.2⟩,
        fun h => ⟨rfl, h.2.2 havc⟩⟩
    · obtain ⟨hout, -⟩ := hno hguard
      obtain ⟨hs, hne⟩ := Classical.not_imp.mp hguard
      rw [hfirst, hthumbs, htarget] at hne
      rw [hout, hthumbs, htarget]
      exact ⟨fun h => absurd h.1.symm hne,
        fun h => absurd ((h.2.2 havc (hthumb.mp hs)).trans (by rw [hrunning])) hne⟩
  by_cases hmpeg4 : isMPEG4 s.eCompressionFormat
  · obtain ⟨htarget, hrunning, hfirst, hthumbs, hthumb⟩ := sizes_of_mpeg4 (p := p) hmpeg4
    have hcases : outFirst p s = (startSizes p s).size ∨
        outFirst p s = (startSizes p s).size.portrait := by
      rw [hfirst]
      exact (ite_eq_or_eq _ _ _)
    have hportrait : outFirst p s = (startSizes p s).size ↔
        (s.pOutPortDef.size = (startSizes p s).size ∨
          (startSizes p s).size.portrait = (startSizes p s).size) := by
      rw [hfirst, ite_eq_left_iff, or_iff_not_imp_left]
    rw [htarget, hrunning, ← hportrait]
    by_cases hguard : Thumbnail s → outFirst p s = thumbFirst p s
    · obtain ⟨hout, huse⟩ := hyes hguard
      rw [hkept huse, hout, hthumb]
      exact ⟨fun h => ⟨fun _ => h.1, fun _ => h.2, fun h' => absurd h' havc⟩,
        fun h => ⟨h.1 hmpeg4, h.2.1 hmpeg4⟩⟩
    · obtain ⟨hout, -⟩ := hno hguard
      obtain ⟨hs, hne⟩ := Classical.not_imp.mp hguard
      rw [hthumbs] at hne hout
      rw [hout]
      constructor
      · rintro ⟨hback, -⟩
        have hsame := eq_of_thumbnail_eq hcases hback
        exact absurd (hsame.trans hback.symm) hne
      · rintro ⟨hsame, hthumb32, -⟩
        refine absurd ?_ hne
        rw [hsame hmpeg4]
        exact hthumb32 hmpeg4 (hthumb.mp hs)
  · obtain ⟨htarget, hfirst⟩ := sizes_of_other (p := p) havc hmpeg4
    have hthumb (u : HeaderState) (hu : u.eCompressionFormat = s.eCompressionFormat) :
        ¬Thumbnail u := by
      rintro ⟨hcodec' | hcodec', -⟩
      · exact hmpeg4 (hu ▸ hcodec')
      · exact havc (hu ▸ hcodec')
    obtain ⟨hout, -⟩ := hyes fun hs => absurd hs (hthumb s rfl)
    rw [hout, hfirst, htarget]
    exact ⟨fun _ => ⟨fun h => absurd h hmpeg4, fun h => absurd h hmpeg4, fun h => absurd h havc⟩,
      fun _ => ⟨rfl, fun h => absurd h (hthumb t hcodec)⟩⟩

end

/-! ## The header again -/

theorem reports_reportChange (z : Sizing) :
    (reportChange z).Reports ↔ z.changed ∨ z.state.bInPortSettingsChanged = true := by
  unfold reportChange HeaderResult.Reports
  by_cases hany : z.changed ∨ z.state.bInPortSettingsChanged
  · rw [if_pos hany]
    refine iff_of_true ?_ hany
    by_cases hboth : z.changed ∧ z.state.bInPortSettingsChanged
    · rw [if_pos hboth]
      exact ⟨_, mem_cons_self⟩
    · rw [if_neg hboth]
      exact ⟨_, mem_cons_self⟩
  · rw [if_neg hany]
    refine iff_of_false ?_ hany
    rintro ⟨port, hmem⟩
    exact absurd hmem not_mem_nil

/-- The report changes flags only. -/
theorem state_reportChange (z : Sizing) :
    (reportChange z).state.pInPortDef = z.state.pInPortDef ∧
      (reportChange z).state.pOutPortDef = z.state.pOutPortDef ∧
      ∃ crop, (reportChange z).state.honour =
        { z.state.honour with bUsePortReconfigForCrop := crop } := by
  unfold reportChange
  dsimp only
  split_ifs <;> exact ⟨rfl, rfl, _, rfl⟩

/-- A header that is complete and announces a size that is supported. -/
def Accepted (header : HeaderParser → ParsedHeader) (s : HeaderState) : Prop :=
  incomplete (parsedBy header s) s = false ∧ (parsedBy header s).eError = .OMX_ErrorNone ∧
    (parsedBy header s).nWidth ≠ 0 ∧ (parsedBy header s).nHeight ≠ 0 ∧
    IsResolutionSupported (parsedBy header s).nWidth (parsedBy header s).nHeight
      s.eCompressionFormat = .OMX_ErrorNone

section

variable {header : HeaderParser → ParsedHeader} {s t : HeaderState}

theorem parseHeader_of_accepted (h : Accepted header s) :
    VIDDEC_ParseHeader header s = reportChange (applySizes (parsedBy header s) s) := by
  obtain ⟨hcomplete, herror, hwidth, hheight, hsupported⟩ := h
  unfold VIDDEC_ParseHeader
  rw [if_neg (Bool.eq_false_iff.mp hcomplete), if_neg (not_or.mpr ⟨not_not.mpr herror,
    not_or.mpr ⟨hwidth, hheight⟩⟩), if_neg (not_not.mpr hsupported)]

/-- Only a header that was accepted is reported. -/
theorem accepted_of_reports (h : (VIDDEC_ParseHeader header s).Reports) : Accepted header s := by
  unfold VIDDEC_ParseHeader at h
  by_cases hincomplete : incomplete (parsedBy header s) s
  · rw [if_pos hincomplete] at h
    obtain ⟨port, hmem⟩ := h
    exact absurd hmem not_mem_nil
  rw [if_neg hincomplete] at h
  by_cases herror : (parsedBy header s).eError ≠ .OMX_ErrorNone ∨
      (parsedBy header s).nWidth = 0 ∨ (parsedBy header s).nHeight = 0
  · rw [if_pos herror] at h
    obtain ⟨port, hmem⟩ := h
    exact absurd (mem_singleton.mp hmem) (by simp)
  rw [if_neg herror] at h
  by_cases hsupported : IsResolutionSupported (parsedBy header s).nWidth
      (parsedBy header s).nHeight s.eCompressionFormat = .OMX_ErrorNone
  swap
  · rw [if_pos hsupported] at h
    obtain ⟨port, hmem⟩ := h
    exact absurd hmem not_mem_nil
  obtain ⟨hnone, hsize⟩ := not_or.mp herror
  obtain ⟨hwidth, hheight⟩ := not_or.mp hsize
  exact ⟨Bool.eq_false_iff.mpr hincomplete, not_not.mp hnone, hwidth, hheight, hsupported⟩

theorem parsedBy_congr (h : SameSetup s t) : parsedBy header t = parsedBy header s := by
  unfold parsedBy
  rw [h.eCompressionFormat, h.nWMVFileType]

theorem Accepted.congr (h : SameSetup s t) (haccepted : Accepted header s) :
    Accepted header t := by
  unfold Accepted at haccepted ⊢
  rw [parsedBy_congr h, h.eCompressionFormat]
  have hincomplete : incomplete (parsedBy header s) t = incomplete (parsedBy header s) s := by
    unfold incomplete
    rw [h.eCompressionFormat, h.ProcessMode, h.H264BitStreamFormat]
  rwa [hincomplete]

theorem quiet_congr_crop {p : ParsedHeader} (crop : Bool) :
    Quiet p { t with bUsePortReconfigForCrop := crop } ↔ Quiet p t :=
  ⟨fun h => ⟨h.1, h.2, h.3, h.4⟩, fun h => ⟨h.1, h.2, h.3, h.4⟩⟩

end

/-- A component for MPEG4, with the ports at 176x144. -/
def qcifDecoder : HeaderState :=
  { eCompressionFormat := .OMX_VIDEO_CodingMPEG4
    nWMVFileType := 1
    ProcessMode := 0
    H264BitStreamFormat := 0
    pInPortDef := ⟨176, 144, 20000, .OMX_COLOR_FormatUnused⟩
    pOutPortDef := ⟨176, 144, 38016, VIDDEC_COLORFORMAT420⟩
    pOutPortFormat := VIDDEC_COLORFORMAT420
    nAllocLen := 38016
    bUseThumbnail := false
    nDisplayWidth := 176
    nCropWidth := 0
    nCropHeight := 0
    bInPortSettingsChanged := false
    bOutPortSettingsChanged := false
    bDynamicConfigurationInProgress := false
    bUsePortReconfigForCrop := false }

/-- A header of a size. -/
def headerOf (nWidth nHeight : Nat) : HeaderParser → ParsedHeader :=
  fun _ => ⟨.OMX_ErrorNone, nWidth, nHeight, 0, 0, true⟩

end OmapHal.VideoDecoder
