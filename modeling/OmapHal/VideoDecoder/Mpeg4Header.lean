import OmapHal.VideoDecoder.HeaderBits
import OmapHal.VideoDecoder.ParseHeader

/-!
# The headers of MPEG-4 and H.263

`VIDDEC_ParseVideo_MPEG4` goes over the headers in front of a video object layer, or reads one short
header, and leaves the size. Fields that only fill the local structures are read and dropped.
-/

namespace OmapHal.VideoDecoder

open OmapHal.Core List Nat

/-! ## The function -/

/-- The loop of `GET_NUM_BIT_REQ` over the places of the number. -/
def highestBit : Nat → Nat → Nat
  | 0, _ => 0
  | i + 1, num => if num.testBit i then i + 1 else highestBit i num

def GET_NUM_BIT_REQ (num : Nat) : Nat := if num ≠ 0 then highestBit 32 (num - 1) else 0

/-- The loop over the bits up to the next byte; eight turns are enough for it. -/
def discardAlignBits : Nat → HeaderReader Unit
  | 0 => HeaderReader.unfinished
  | turns + 1 => do
    if (← HeaderReader.position) % 8 ≠ 0 then
      skipBits 1
      discardAlignBits turns
    else pure ()

/-- `nProfile` and `nLevel`. -/
def visualObjectSequence : HeaderReader Unit := do
  skipBits 4
  skipBits 4

def colorDescription : HeaderReader Unit := ifFlag (skipBits 24)

def videoSignalType : HeaderReader Unit := ifFlag do
  skipBits 3
  skipBits 1
  colorDescription

def visualObjectType : HeaderReader Unit := do
  let nVisualObjectType ← getBits 4
  if nVisualObjectType = 1 ∨ nVisualObjectType = 2 then videoSignalType else pure ()

/-- `NBitZero` and what is discarded behind it. -/
def nextStartCode : HeaderReader Unit := do
  skipBits 1
  discardAlignBits 8

def visualObject : HeaderReader Unit := do
  ifFlag (skipBits 7)
  visualObjectType
  nextStartCode

def groupOfVop : HeaderReader Unit := do
  skipBits 20
  nextStartCode

/-- The search for the next start code, which is read once more afterwards. -/
def userData : Nat → HeaderReader Unit
  | 0 => HeaderReader.unfinished
  | turns + 1 => do
    let code ← getBits 24
    if code ≠ 0x1 then
      goBack 16
      userData turns
    else goBack 24

/-- `nLayerVerId`. -/
def layerIdentifier : HeaderReader Nat := do
  let nIsVisualObjectLayerIdentifier ← getBits 1
  if nIsVisualObjectLayerIdentifier ≠ 0 then
    let nLayerVerId ← getBits 4
    skipBits 3
    pure nLayerVerId
  else pure 0

/-- `nParWidth` and `nParHeight` behind the extended ratio. -/
def aspectRadio : HeaderReader Unit := do
  let nAspectRadio ← getBits 4
  if nAspectRadio = 0xf then
    skipBits 8
    skipBits 8
  else pure ()

/-- The rate, the buffer size and the occupancy, with the markers. -/
def vbvParameters : HeaderReader Unit := ifFlag do
  skipBits 15
  skipBits 1
  skipBits 15
  skipBits 1
  skipBits 15
  skipBits 1
  skipBits 3
  skipBits 11
  skipBits 1
  skipBits 15
  skipBits 1

def controlParameters : HeaderReader Unit := ifFlag do
  skipBits 2
  skipBits 1
  vbvParameters

def timeIncrement : HeaderReader Unit := do
  let nTimeIncrementResolution ← getBits 16
  skipBits 1
  ifFlag (skipBits (GET_NUM_BIT_REQ nTimeIncrementResolution))

def layerSize : HeaderReader FrameSize := do
  skipBits 1
  let nWidth ← getBits 13
  skipBits 1
  let nHeight ← getBits 13
  pure ⟨nWidth, nHeight⟩

/-- What is read behind the size. -/
def layerTools (nLayerVerId : Nat) : HeaderReader Unit := do
  skipBits 1
  skipBits 1
  skipBits 1
  -- `NSpriteNotSupported`
  skipBits (if nLayerVerId ≠ 0 then 1 else 2)
  -- `nNot8Bit`
  ifFlag do
    skipBits 4
    skipBits 4
  skipBits 1
  skipBitsIf (nLayerVerId != 1) 1
  skipBits 1
  skipBits 1
  -- `nIsDataPartitioned`
  ifFlag (skipBits 1)
  skipBitsIf (nLayerVerId != 1) 2
  skipBits 1

def videoObjectLayer : HeaderReader FrameSize := do
  skipBits 1
  skipBits 8
  let nLayerVerId ← layerIdentifier
  aspectRadio
  controlParameters
  skipBits 2
  skipBits 1
  timeIncrement
  let size ← layerSize
  layerTools nLayerVerId
  pure size

/-- The sizes of the source formats; the others have none. -/
def sourceFormatSize : Nat → Option FrameSize
  | 1 => some ⟨128, 96⟩
  | 2 => some ⟨176, 144⟩
  | 3 => some ⟨352, 288⟩
  | 4 => some ⟨704, 576⟩
  | 5 => some ⟨1408, 1152⟩
  | _ => none

def customSize : HeaderReader FrameSize := do
  skipBits 24
  -- `nCPM`
  ifFlag (skipBits 2)
  skipBits 4
  let nPWI ← getBits 9
  skipBits 1
  let nPHI ← getBits 9
  pure ⟨(nPWI + 1) * 4, nPHI * 4⟩

def extendedFormat : HeaderReader (OMX_ERRORTYPE × Option FrameSize) := do
  let nSourceFormat ← getBits 3
  match sourceFormatSize nSourceFormat with
  | some size => pure (.OMX_ErrorNone, some size)
  | none =>
    if nSourceFormat = 0x6 then
      let size ← customSize
      pure (.OMX_ErrorNone, some size)
    else if nSourceFormat = 0x7 then
      skipBits 3
      pure (.OMX_ErrorNone, some ⟨1408, 1152⟩)
    else pure (.OMX_ErrorUnsupportedSetting, none)

/-- The error, and the size where one is stored. -/
def shortHeader : HeaderReader (OMX_ERRORTYPE × Option FrameSize) := do
  skipBits 3
  let nSourceFormat ← getBits 3
  match sourceFormatSize nSourceFormat with
  | some size => pure (.OMX_ErrorNone, some size)
  | none =>
    if nSourceFormat = 0x7 then
      let nUFEP ← getBits 3
      if nUFEP = 1 then extendedFormat
      else pure (.OMX_ErrorNone, none)
    else pure (.OMX_ErrorUnsupportedSetting, none)

/-- The loop over the headers. -/
def mpeg4Headers : Nat → HeaderReader (OMX_ERRORTYPE × Option FrameSize)
  | 0 => HeaderReader.unfinished
  | turns + 1 => do
    let nSartCode ← getBits 32
    if nSartCode = 0x1B0 then
      visualObjectSequence
      mpeg4Headers turns
    else if nSartCode = 0x1B5 then
      visualObject
      mpeg4Headers turns
    else if 0x100 ≤ nSartCode ∧ nSartCode ≤ 0x11F then mpeg4Headers turns
    else if nSartCode = 0x1B3 then
      groupOfVop
      mpeg4Headers turns
    else if nSartCode = 0x1B2 then
      userData turns
      mpeg4Headers turns
    else if 0x120 ≤ nSartCode ∧ nSartCode ≤ 0x12F then
      let size ← videoObjectLayer
      pure (.OMX_ErrorNone, some size)
    else if nSartCode &&& 0xfffffc00 = 0x00008000 then shortHeader
    else pure (.OMX_ErrorUnsupportedSetting, none)

/-- The size that is not stored is the one before. -/
def VIDDEC_ParseVideo_MPEG4 (turns : Nat) (pBuffer : Memory) (size : FrameSize) :
    Option (OMX_ERRORTYPE × FrameSize) :=
  (mpeg4Headers turns pBuffer ⟨0, 0⟩).map fun r => (r.1.1, r.1.2.getD size)

/-! ## The syntax -/

/-- At least one bit, up to the next byte. -/
def stuffed (xs : List Bool) : List Bool :=
  xs ++ false :: List.replicate (7 - xs.length % 8) true

structure VideoSignal where
  video_format : BitVec 3
  video_range : Bool
  colour_description : Option (BitVec 24)

def VideoSignal.code (signal : VideoSignal) : List Bool :=
  bitVec signal.video_format ++ ([signal.video_range] ++ flagged bitVec signal.colour_description)

/-- A visual object; the signal is coded for the types of a video and of a still texture. -/
structure VisualObject where
  identifier : Option (BitVec 7)
  visual_object_type : BitVec 4
  video_signal_type : Option VideoSignal

def VisualObject.code (object : VisualObject) : List Bool :=
  flagged bitVec object.identifier ++ (bitVec object.visual_object_type ++
    if object.visual_object_type.toNat = 1 ∨ object.visual_object_type.toNat = 2 then
      flagged VideoSignal.code object.video_signal_type
    else [])

/-- The headers in front of a video object layer. User data hold no start code. -/
inductive Mpeg4Unit where
  | visualObjectSequence (profile level : BitVec 4)
  | visualObject (object : VisualObject)
  | videoObject (id : BitVec 5)
  | userData (data : List UInt8) (plain : ∀ i, ¬PrefixAt data i)
  | groupOfVop (time : BitVec 20)

namespace Mpeg4Unit

/-- The last byte of the start code. -/
def suffix : Mpeg4Unit → Nat
  | visualObjectSequence _ _ => 0xB0
  | visualObject _ => 0xB5
  | videoObject id => id.toNat
  | userData _ _ => 0xB2
  | groupOfVop _ => 0xB3

def body : Mpeg4Unit → List Bool
  | visualObjectSequence profile level => bitVec profile ++ bitVec level
  | visualObject object => stuffed object.code
  | videoObject _ => []
  | userData data _ => byteCode data
  | groupOfVop time => stuffed (bitVec time)

def code (unit : Mpeg4Unit) : List Bool := unsigned 32 (0x100 + unit.suffix) ++ unit.body

end Mpeg4Unit

structure VbvParameters where
  first_half_bit_rate : BitVec 15
  latter_half_bit_rate : BitVec 15
  first_half_vbv_buffer_size : BitVec 15
  latter_half_vbv_buffer_size : BitVec 3
  first_half_vbv_occupancy : BitVec 11
  latter_half_vbv_occupancy : BitVec 15

def VbvParameters.code (vbv : VbvParameters) : List Bool :=
  bitVec vbv.first_half_bit_rate ++ ([true] ++ (bitVec vbv.latter_half_bit_rate ++ ([true] ++
  (bitVec vbv.first_half_vbv_buffer_size ++ ([true] ++ (bitVec vbv.latter_half_vbv_buffer_size ++
  (bitVec vbv.first_half_vbv_occupancy ++ ([true] ++ (bitVec vbv.latter_half_vbv_occupancy ++
  [true])))))))))

structure VolControl where
  chroma_format : BitVec 2
  low_delay : Bool
  vbv : Option VbvParameters

def VolControl.code (control : VolControl) : List Bool :=
  bitVec control.chroma_format ++ ([control.low_delay] ++ flagged VbvParameters.code control.vbv)

inductive AspectRatio where
  | ratio (aspect_ratio_info : BitVec 4) (h : aspect_ratio_info.toNat ≠ 15)
  | extended (par_width par_height : BitVec 8)

def AspectRatio.code : AspectRatio → List Bool
  | ratio aspect_ratio_info _ => bitVec aspect_ratio_info
  | extended par_width par_height => unsigned 4 15 ++ (bitVec par_width ++ bitVec par_height)

/-- A rectangular layer, up to its size. The verid and the priority are the identifier. -/
structure VideoObjectLayer where
  id : BitVec 4
  random_accessible_vol : Bool
  video_object_type_indication : BitVec 8
  identifier : Option (BitVec 4 × BitVec 3)
  aspect_ratio : AspectRatio
  control : Option VolControl
  vop_time_increment_resolution : BitVec 16
  positive : 0 < vop_time_increment_resolution.toNat
  fixed_vop_time_increment : Option (Fin vop_time_increment_resolution.toNat)
  width : BitVec 13
  height : BitVec 13

namespace VideoObjectLayer

/-- The least number of bits for the values below the resolution, and at least one. -/
def incrementBits (resolution : Nat) : Nat := max 1 (resolution - 1).size

def sizeCode (layer : VideoObjectLayer) : List Bool :=
  [true] ++ (bitVec layer.width ++ ([true] ++ bitVec layer.height))

def incrementCode (layer : VideoObjectLayer) : List Bool :=
  bitVec layer.vop_time_increment_resolution ++ ([true] ++
    flagged (fun increment => unsigned
      (incrementBits layer.vop_time_increment_resolution.toNat) increment.val)
      layer.fixed_vop_time_increment)

def headCode (layer : VideoObjectLayer) : List Bool :=
  [layer.random_accessible_vol] ++ (bitVec layer.video_object_type_indication ++
    (flagged (fun ids => bitVec ids.1 ++ bitVec ids.2) layer.identifier ++
    (layer.aspect_ratio.code ++ (flagged VolControl.code layer.control ++
    -- the rectangular shape
    (unsigned 2 0 ++ [true])))))

def code (layer : VideoObjectLayer) : List Bool :=
  unsigned 32 (0x120 + layer.id.toNat) ++
    (layer.headCode ++ (layer.incrementCode ++ layer.sizeCode))

end VideoObjectLayer

/-- The source formats of a short header that have a size of their own. -/
inductive PictureFormat where
  | subQcif | qcif | cif | cif4 | cif16

def PictureFormat.source_format : PictureFormat → Nat
  | subQcif => 1
  | qcif => 2
  | cif => 3
  | cif4 => 4
  | cif16 => 5

def PictureFormat.size : PictureFormat → FrameSize
  | subQcif => ⟨128, 96⟩
  | qcif => ⟨176, 144⟩
  | cif => ⟨352, 288⟩
  | cif4 => ⟨704, 576⟩
  | cif16 => ⟨1408, 1152⟩

/-- The size of a short header. A custom one has the other modes before it. -/
inductive ShortSize where
  | standard (format : PictureFormat)
  | extended (format : PictureFormat)
  | custom (modes : BitVec 24) (cpm : Option (BitVec 2)) (aspect_ratio : BitVec 4)
      (pwi : BitVec 9) (phi : BitVec 9)

namespace ShortSize

def code : ShortSize → List Bool
  | standard format => unsigned 3 format.source_format
  | extended format => unsigned 3 7 ++ (unsigned 3 1 ++ unsigned 3 format.source_format)
  | custom modes cpm aspect_ratio pwi phi =>
    unsigned 3 7 ++ (unsigned 3 1 ++ (unsigned 3 6 ++ (bitVec modes ++ (flagged bitVec cpm ++
      (bitVec aspect_ratio ++ (bitVec pwi ++ ([true] ++ bitVec phi)))))))

def size : ShortSize → FrameSize
  | standard format => format.size
  | extended format => format.size
  | custom _ _ _ pwi phi => ⟨(pwi.toNat + 1) * 4, phi.toNat * 4⟩

end ShortSize

/-- A stream: headers and a layer, or a short header. -/
inductive Mpeg4Stream where
  | object (units : List Mpeg4Unit) (layer : VideoObjectLayer)
  | short (temporal_reference : BitVec 8) (indicators : BitVec 3) (format : ShortSize)

namespace Mpeg4Stream

def code : Mpeg4Stream → List Bool
  | object units layer => units.flatMap Mpeg4Unit.code ++ layer.code
  | short temporal_reference indicators format =>
    unsigned 22 0x20 ++ (bitVec temporal_reference ++ ([true, false] ++
      (bitVec indicators ++ format.code)))

def size : Mpeg4Stream → FrameSize
  | object _ layer => ⟨layer.width.toNat, layer.height.toNat⟩
  | short _ _ format => format.size

end Mpeg4Stream

/-! ## Reading the syntax -/

section Fields

variable {pBuffer : Memory} {p : Nat}

theorem videoSignalType_reads (signal : Option VideoSignal) :
    ReadsAt pBuffer p videoSignalType (flagged VideoSignal.code signal) () :=
  ReadsAt.ifFlag signal fun signal _ =>
    (ReadsAt.skipVec (by omega) signal.video_format).bind <|
    (ReadsAt.skipFlag signal.video_range).bind <|
    ReadsAt.ifFlag signal.colour_description fun colours _ => ReadsAt.skipVec (by omega) colours

theorem visualObjectType_reads (object : VisualObject) :
    ReadsAt pBuffer p visualObjectType (bitVec object.visual_object_type ++
      if object.visual_object_type.toNat = 1 ∨ object.visual_object_type.toNat = 2 then
        flagged VideoSignal.code object.video_signal_type
      else []) () := by
  refine (ReadsAt.bitVec (by omega) object.visual_object_type).bind ?_
  split_ifs
  · exact videoSignalType_reads object.video_signal_type
  · exact ReadsAt.pure ()

/-- As many bits are discarded as are missing to the next byte. -/
theorem discardAlignBits_reads {turns k : Nat} (hk : (p + k) % 8 = 0) (hsmall : k < 8)
    (hturns : k < turns) :
    ReadsAt pBuffer p (discardAlignBits turns) (List.replicate k true) () := by
  induction turns generalizing p k with
  | zero => omega
  | succ turns ih =>
    intro hstands hp readEnd
    have hposition : HeaderReader.position pBuffer ⟨p, readEnd⟩ = some (p, ⟨p, readEnd⟩) := rfl
    rw [discardAlignBits, HeaderReader.bind_some hposition]
    cases k with
    | zero =>
      have haligned : ¬p % 8 ≠ 0 := not_not.mpr hk
      rw [if_neg haligned]
      exact ReadsAt.pure () hstands hp readEnd
    | succ k =>
      have hmore : p % 8 ≠ 0 := by omega
      rw [if_pos hmore]
      have hrest := ih (p := p + 1) (k := k) (by omega) (by omega) (by omega)
      exact (ReadsAt.skipFlag true).bind hrest hstands hp readEnd

theorem nextStartCode_reads (xs : List Bool) (hp : p % 8 = 0) :
    ReadsAt pBuffer (p + xs.length) nextStartCode
      (false :: List.replicate (7 - xs.length % 8) true) () :=
  (ReadsAt.skipFlag false).bind <|
    discardAlignBits_reads (by rw [length_singleton]; omega) (by omega) (by omega)

theorem visualObject_reads (object : VisualObject) (hp : p % 8 = 0) :
    ReadsAt pBuffer p visualObject (stuffed object.code) () := by
  have hcode : stuffed object.code = flagged bitVec object.identifier ++
      ((bitVec object.visual_object_type ++
        if object.visual_object_type.toNat = 1 ∨ object.visual_object_type.toNat = 2 then
          flagged VideoSignal.code object.video_signal_type
        else []) ++ (false :: replicate (7 - object.code.length % 8) true)) := by
    rw [stuffed, ← append_assoc]
    rfl
  rw [hcode]
  refine (ReadsAt.ifFlag object.identifier fun ids _ => ReadsAt.skipVec (by omega) ids).bind ?_
  refine (visualObjectType_reads object).bind ?_
  rw [add_assoc, ← length_append]
  exact nextStartCode_reads object.code hp

theorem groupOfVop_reads (time : BitVec 20) (hp : p % 8 = 0) :
    ReadsAt pBuffer p groupOfVop (stuffed (bitVec time)) () :=
  (ReadsAt.skipVec (by omega) time).bind (nextStartCode_reads (bitVec time) hp)

theorem layerIdentifier_reads (ids : Option (BitVec 4 × BitVec 3)) :
    ∃ nLayerVerId, ReadsAt pBuffer p layerIdentifier
      (flagged (fun ids => bitVec ids.1 ++ bitVec ids.2) ids) nLayerVerId := by
  cases ids with
  | none => exact ⟨0, (ReadsAt.flag false).bind (ReadsAt.pure 0)⟩
  | some ids =>
    refine ⟨ids.1.toNat, (ReadsAt.flag true).bind ?_⟩
    refine (ReadsAt.bitVec (by omega) ids.1).bind ?_
    exact (ReadsAt.skipVec (by omega) ids.2).map fun _ => ids.1.toNat

theorem aspectRadio_reads (aspect_ratio : AspectRatio) :
    ReadsAt pBuffer p aspectRadio aspect_ratio.code () := by
  cases aspect_ratio with
  | ratio aspect_ratio_info h =>
    rw [AspectRatio.code, ← append_nil (bitVec _)]
    refine (ReadsAt.bitVec (by omega) aspect_ratio_info).bind ?_
    rw [if_neg h]
    exact ReadsAt.pure ()
  | extended par_width par_height =>
    refine (ReadsAt.getBits (n := 4) (v := 15) (by omega) (by omega)).bind ?_
    exact (ReadsAt.skipVec (by omega) par_width).bind (ReadsAt.skipVec (by omega) par_height)

theorem controlParameters_reads (control : Option VolControl) :
    ReadsAt pBuffer p controlParameters (flagged VolControl.code control) () :=
  ReadsAt.ifFlag control fun control _ =>
    (ReadsAt.skipVec (by omega) control.chroma_format).bind <|
    (ReadsAt.skipFlag control.low_delay).bind <|
    ReadsAt.ifFlag control.vbv fun vbv _ =>
      (ReadsAt.skipVec (by omega) vbv.first_half_bit_rate).bind <|
      (ReadsAt.skipFlag true).bind <|
      (ReadsAt.skipVec (by omega) vbv.latter_half_bit_rate).bind <|
      (ReadsAt.skipFlag true).bind <|
      (ReadsAt.skipVec (by omega) vbv.first_half_vbv_buffer_size).bind <|
      (ReadsAt.skipFlag true).bind <|
      (ReadsAt.skipVec (by omega) vbv.latter_half_vbv_buffer_size).bind <|
      (ReadsAt.skipVec (by omega) vbv.first_half_vbv_occupancy).bind <|
      (ReadsAt.skipFlag true).bind <|
      (ReadsAt.skipVec (by omega) vbv.latter_half_vbv_occupancy).bind <|
      ReadsAt.skipFlag true

end Fields

/-! ## The layer -/

section Layer

variable {pBuffer : Memory} {p : Nat} {layer : VideoObjectLayer}

theorem highestBit_eq {n num : Nat} (h : num < 2 ^ n) : highestBit n num = num.size := by
  induction n with
  | zero =>
    have hzero : num = 0 := by omega
    rw [hzero]
    rfl
  | succ n ih =>
    rw [highestBit]
    split_ifs with hbit
    · have hlow : 2 ^ n ≤ num := ge_two_pow_of_testBit hbit
      exact (le_antisymm (size_le.mpr h) (lt_size.mpr hlow)).symm
    · have hlow : num < 2 ^ n := by
        by_contra hge
        have hone : num / 2 ^ n = 1 := by
          rw [pow_succ] at h
          exact Nat.div_eq_of_lt_le (by omega) (by omega)
        rw [testBit_eq_decide_div_mod_eq, hone] at hbit
        exact hbit rfl
      exact ih hlow

/-- The width of the increment, but for the resolution of one. -/
theorem numBitReq_eq {resolution : Nat} (hlow : 2 ≤ resolution) (hhigh : resolution < 2 ^ 16) :
    GET_NUM_BIT_REQ resolution = VideoObjectLayer.incrementBits resolution := by
  have hpos : 1 ≤ (resolution - 1).size := lt_size.mpr (by omega)
  rw [GET_NUM_BIT_REQ, if_pos (by omega), highestBit_eq (by omega), VideoObjectLayer.incrementBits,
    max_eq_right hpos]

theorem incrementBits_le {resolution : Nat} (hhigh : resolution < 2 ^ 16) :
    VideoObjectLayer.incrementBits resolution ≤ 16 :=
  max_le (by omega) (size_le.mpr (by omega))

/-- The width of an increment that the parser does not know. -/
def VideoObjectLayer.Unmeasured (layer : VideoObjectLayer) : Prop :=
  layer.fixed_vop_time_increment.isSome ∧ layer.vop_time_increment_resolution.toNat = 1

/-- The time increment is skipped. -/
theorem timeIncrement_reads (h : ¬layer.Unmeasured) :
    ReadsAt pBuffer p timeIncrement layer.incrementCode () := by
  have hhigh := layer.vop_time_increment_resolution.isLt
  have hbits := incrementBits_le hhigh
  refine (ReadsAt.bitVec (by omega) layer.vop_time_increment_resolution).bind ?_
  refine (ReadsAt.skipFlag true).bind ?_
  refine ReadsAt.ifFlag layer.fixed_vop_time_increment fun increment hfixed => ?_
  have hsome : layer.fixed_vop_time_increment.isSome := by rw [hfixed]; rfl
  have hlow : 2 ≤ layer.vop_time_increment_resolution.toNat := by
    have hone : layer.vop_time_increment_resolution.toNat ≠ 1 := fun hone => h ⟨hsome, hone⟩
    have hpos := layer.positive
    omega
  rw [numBitReq_eq hlow hhigh]
  refine (ReadsAt.getBits (by omega) ?_).skip
  have hsize := lt_size_self (layer.vop_time_increment_resolution.toNat - 1)
  have hmax : 2 ^ (layer.vop_time_increment_resolution.toNat - 1).size ≤
      2 ^ VideoObjectLayer.incrementBits layer.vop_time_increment_resolution.toNat :=
    Nat.pow_le_pow_right two_pos (le_max_right _ _)
  have hincrement := increment.isLt
  omega

theorem layerSize_reads {w h : Nat} (b b' : Bool) (hw : w < 2 ^ 13) (hh : h < 2 ^ 13) :
    ReadsAt pBuffer p layerSize ([b] ++ (unsigned 13 w ++ ([b'] ++ unsigned 13 h))) ⟨w, h⟩ := by
  refine (ReadsAt.skipFlag b).bind ?_
  refine (ReadsAt.getBits (by omega) hw).bind ?_
  refine (ReadsAt.skipFlag b').bind ?_
  exact (ReadsAt.getBits (by omega) hh).map fun nHeight => FrameSize.mk w nHeight

theorem layerTools_ends (nLayerVerId : Nat) : (layerTools nLayerVerId).Ends := by
  refine (skipBits_ends 1).bind fun _ => (skipBits_ends 1).bind fun _ =>
    (skipBits_ends 1).bind fun _ => (skipBits_ends _).bind fun _ => ?_
  refine (ifFlag_ends ((skipBits_ends 4).bind fun _ => skipBits_ends 4)).bind fun _ =>
    (skipBits_ends 1).bind fun _ => ?_
  exact (skipBitsIf_ends _ 1).bind fun _ => (skipBits_ends 1).bind fun _ =>
    (skipBits_ends 1).bind fun _ =>
    (ifFlag_ends (skipBits_ends 1)).bind fun _ => (skipBitsIf_ends _ 2).bind fun _ =>
      skipBits_ends 1

/-- The layer is found as its increment and its size are read. -/
theorem videoObjectLayer_finds (layer : VideoObjectLayer) {ts ss : List Bool} {size : FrameSize}
    (htime : ∀ p, ReadsAt pBuffer p timeIncrement ts ())
    (hsize : ∀ p, ReadsAt pBuffer p layerSize ss size) :
    Finds pBuffer p videoObjectLayer (layer.headCode ++ (ts ++ ss)) size := by
  obtain ⟨nLayerVerId, hids⟩ : ∃ nLayerVerId, ReadsAt pBuffer (p + 1 + 8) layerIdentifier
      (flagged (fun ids => bitVec ids.1 ++ bitVec ids.2) layer.identifier) nLayerVerId :=
    layerIdentifier_reads layer.identifier
  have hcode : layer.headCode ++ (ts ++ ss) = [layer.random_accessible_vol] ++
      (bitVec layer.video_object_type_indication ++
      (flagged (fun ids => bitVec ids.1 ++ bitVec ids.2) layer.identifier ++
      (layer.aspect_ratio.code ++ (flagged VolControl.code layer.control ++
      (unsigned 2 0 ++ ([true] ++ (ts ++ (ss ++ []))))))))  := by
    unfold VideoObjectLayer.headCode
    simp only [append_assoc, append_nil]
  rw [hcode]
  refine (ReadsAt.skipFlag layer.random_accessible_vol).then_finds ?_
  refine (ReadsAt.skipVec (by omega) layer.video_object_type_indication).then_finds ?_
  rw [length_singleton, bitVec, length_unsigned]
  refine hids.then_finds ?_
  refine (aspectRadio_reads layer.aspect_ratio).then_finds ?_
  refine (controlParameters_reads layer.control).then_finds ?_
  refine (ReadsAt.getBits (n := 2) (by omega) (by omega)).skip.then_finds ?_
  refine (ReadsAt.skipFlag true).then_finds ?_
  refine (htime _).then_finds ?_
  refine (hsize _).then_finds ?_
  exact (layerTools_ends nLayerVerId).finds size

theorem layer_finds (h : ¬layer.Unmeasured) :
    Finds pBuffer p videoObjectLayer (layer.headCode ++ (layer.incrementCode ++ layer.sizeCode))
      ⟨layer.width.toNat, layer.height.toNat⟩ :=
  videoObjectLayer_finds layer (fun _ => timeIncrement_reads h)
    fun _ => layerSize_reads true true layer.width.isLt layer.height.isLt

/-- A number behind a marker, read one bit too early. -/
private theorem marker_append (v : BitVec 13) : [true] ++ bitVec v =
    unsigned 13 (2 ^ 12 + v.toNat / 2) ++ [decide (v.toNat % 2 = 1)] := by
  have hv := v.isLt
  have hhigh := unsigned_append 1 12 1 (v.toNat / 2) (by omega)
  rw [one_mul] at hhigh
  rw [hhigh, append_assoc]
  rfl

/-- The bit of the increment is taken for the marker before the width. -/
theorem unmeasured_finds (h : layer.Unmeasured) :
    Finds pBuffer p videoObjectLayer (layer.headCode ++ (layer.incrementCode ++ layer.sizeCode))
      ⟨2 ^ 12 + layer.width.toNat / 2, 2 ^ 12 + layer.height.toNat / 2⟩ := by
  obtain ⟨hsome, hone⟩ := h
  obtain ⟨increment, hfixed⟩ := Option.isSome_iff_exists.mp hsome
  have hzero : increment.val = 0 := by
    have hlt := increment.isLt
    omega
  have hwidth := layer.width.isLt
  have hheight := layer.height.isLt
  have hincrement : layer.incrementCode =
      bitVec layer.vop_time_increment_resolution ++ ([true] ++ [true]) ++ [false] := by
    rw [VideoObjectLayer.incrementCode, hfixed, flagged, hzero, hone, append_assoc]
    rfl
  have hsize : [false] ++ layer.sizeCode = [false] ++
      (unsigned 13 (2 ^ 12 + layer.width.toNat / 2) ++ ([decide (layer.width.toNat % 2 = 1)] ++
          unsigned 13 (2 ^ 12 + layer.height.toNat / 2))) ++
        [decide (layer.height.toNat % 2 = 1)] := by
    rw [VideoObjectLayer.sizeCode, marker_append layer.height, ← append_assoc [true],
      marker_append layer.width]
    simp only [append_assoc]
  have htime (p : Nat) : ReadsAt pBuffer p timeIncrement
      (bitVec layer.vop_time_increment_resolution ++ ([true] ++ [true])) () := by
    refine (ReadsAt.bitVec (by omega) layer.vop_time_increment_resolution).bind ?_
    refine (ReadsAt.skipFlag true).bind ?_
    change ReadsAt pBuffer _ _ (flagged (fun _ : Unit => []) (some ())) ()
    refine ReadsAt.ifFlag (some ()) fun _ _ => ?_
    rw [hone]
    exact (ReadsAt.getBits (n := 0) (v := 0) (by omega) (by omega)).skip
  have hsizes (p : Nat) : ReadsAt pBuffer p layerSize ([false] ++
      (unsigned 13 (2 ^ 12 + layer.width.toNat / 2) ++ ([decide (layer.width.toNat % 2 = 1)] ++
          unsigned 13 (2 ^ 12 + layer.height.toNat / 2))))
      ⟨2 ^ 12 + layer.width.toNat / 2, 2 ^ 12 + layer.height.toNat / 2⟩ :=
    layerSize_reads false _ (by omega) (by omega)
  have hfind := videoObjectLayer_finds (p := p) layer htime hsizes
  have hall := hfind.append [decide (layer.height.toNat % 2 = 1)]
  rw [hincrement, append_assoc, hsize]
  simp only [append_assoc] at hall ⊢
  exact hall

end Layer

/-! ## User data -/

section UserData

variable {pBuffer : Memory} {k : Nat} {data : List UInt8}

/-- The search ends at the first start code. -/
theorem userData_eq {turns n : Nat} (hturns : n < turns)
    (hplain : ∀ i < n, bits (byteBits pBuffer) (8 * (k + i)) 24 ≠ 1)
    (hnext : bits (byteBits pBuffer) (8 * (k + n)) 24 = 1) (hk : 8 * (k + n) + 24 < 2 ^ 32)
    (readEnd : Nat) :
    ∃ readEnd', userData turns pBuffer ⟨8 * k, readEnd⟩ = some ((), ⟨8 * (k + n), readEnd'⟩) := by
  induction turns generalizing k n readEnd with
  | zero => omega
  | succ turns ih =>
    have hread := getBits_eq pBuffer (n := 24) ⟨8 * k, readEnd⟩ (by dsimp only; omega)
      (by dsimp only; omega)
    rw [userData, HeaderReader.bind_some hread]
    generalize max readEnd (8 * k / 8 + bytesRead (8 * k % 8) 24) = readEnd₁
    cases n with
    | zero =>
      rw [add_zero] at hnext
      rw [if_neg (not_not.mpr hnext), goBack_eq _ (by dsimp only; omega) (by dsimp only; omega)]
      exact ⟨readEnd₁, rfl⟩
    | succ n =>
      have hfirst := hplain 0 (succ_pos _)
      rw [add_zero] at hfirst
      have hback : 8 * k + 24 - 16 = 8 * (k + 1) := by omega
      rw [if_pos hfirst, HeaderReader.bind_some
        (goBack_eq _ (by dsimp only; omega) (by dsimp only; omega))]
      rw [hback]
      have hshift (i : Nat) : k + 1 + i = k + (i + 1) := by omega
      obtain ⟨readEnd₂, hloop⟩ := ih (k := k + 1) (n := n) (by omega)
        (fun i hi => by rw [hshift]; exact hplain (i + 1) (by omega))
        (by rwa [hshift]) (by omega) readEnd₁
      rw [hshift] at hloop
      exact ⟨readEnd₂, hloop⟩

theorem userData_reads {turns p : Nat} (hp : p % 8 = 0) (hplain : ∀ i, ¬PrefixAt data i)
    (hturns : data.length < turns)
    (hnext : bits (byteBits pBuffer) (p + (byteCode data).length) 24 = 1)
    (hend : p + (byteCode data).length + 24 < 2 ^ 32) :
    ReadsAt pBuffer p (userData turns) (byteCode data) () := by
  intro hstands _ readEnd
  have hplace : p = 8 * (p / 8) := by omega
  rw [length_byteCode] at hnext hend ⊢
  rw [hplace] at hstands hnext hend ⊢
  rw [← mul_add] at hnext hend ⊢
  have hdata := stands_byteCode.mp hstands
  exact userData_eq hturns (fun i hi => no_code_in_data hplain hdata hnext hi) hnext hend readEnd

end UserData

/-! ## The loop over the headers -/

-- a code of 32 bits is not to be unfolded bit by bit
attribute [local irreducible] Stands

section Units

variable {pBuffer : Memory} {p : Nat}

private theorem length_stuffed (xs : List Bool) : (stuffed xs).length % 8 = 0 := by
  rw [stuffed, length_append, length_cons, length_replicate]
  omega

theorem Mpeg4Unit.length_body (unit : Mpeg4Unit) : unit.body.length % 8 = 0 := by
  cases unit with
  | visualObjectSequence profile level =>
    rw [body, bitVec, bitVec, length_append, length_unsigned, length_unsigned]
  | visualObject object => exact length_stuffed object.code
  | videoObject id => rfl
  | userData data plain =>
    rw [body, length_byteCode, mul_mod_right]
  | groupOfVop time => exact length_stuffed (bitVec time)

theorem Mpeg4Unit.length_code (unit : Mpeg4Unit) :
    unit.code.length = 32 + unit.body.length := by
  rw [code, length_append, length_unsigned]

theorem Mpeg4Unit.suffix_lt (unit : Mpeg4Unit) : unit.suffix < 2 ^ 8 := by
  cases unit with
  | visualObjectSequence profile level => exact Nat.lt_of_sub_eq_succ rfl
  | visualObject object => exact Nat.lt_of_sub_eq_succ rfl
  | videoObject id => exact id.isLt.trans (by norm_num)
  | userData data plain => exact Nat.lt_of_sub_eq_succ rfl
  | groupOfVop time => exact Nat.lt_of_sub_eq_succ rfl

/-- What begins with a start code. -/
def Coded (xs : List Bool) : Prop := ∃ ys, xs = unsigned 24 1 ++ ys

theorem coded_of_code {v : Nat} (h : v < 2 ^ 8) (ys : List Bool) :
    Coded (unsigned 32 (0x100 + v) ++ ys) :=
  ⟨unsigned 8 v ++ ys, by rw [← append_assoc, ← unsigned_append 24 8 1 v h, one_mul]; rfl⟩

theorem Coded.bits {xs : List Bool} (h : Coded xs) (hstands : Stands (byteBits pBuffer) p xs) :
    Core.bits (byteBits pBuffer) p 24 = 1 := by
  obtain ⟨ys, rfl⟩ := h
  exact (stands_append.mp hstands).1.bits_unsigned

theorem startCode_reads {v : Nat} (hp : p % 8 = 0) (hv : v < 2 ^ 8) :
    ReadsAt pBuffer p (getBits 32) (unsigned 32 (0x100 + v)) (0x100 + v) :=
  ReadsAt.getBits (by omega) (by omega)

/-- A header is passed in one turn. -/
theorem mpeg4Headers_unit (unit : Mpeg4Unit) (turns : Nat) (hp : p % 8 = 0)
    (hturns : unit.code.length < turns) (hstands : Stands (byteBits pBuffer) p unit.code)
    (hnext : bits (byteBits pBuffer) (p + unit.code.length) 24 = 1)
    (hend : p + unit.code.length + 24 < 2 ^ 32) (readEnd : Nat) :
    ∃ readEnd', mpeg4Headers (turns + 1) pBuffer ⟨p, readEnd⟩ =
      mpeg4Headers turns pBuffer ⟨p + unit.code.length, readEnd'⟩ := by
  rw [unit.length_code] at hturns hnext hend ⊢
  rw [Mpeg4Unit.code, stands_append, length_unsigned] at hstands
  obtain ⟨hfirst, hrest⟩ := hstands
  have hfits : p + (unsigned 32 (0x100 + unit.suffix)).length < 2 ^ 32 := by
    rw [length_unsigned]
    omega
  obtain ⟨readEnd₁, hcode⟩ := startCode_reads hp unit.suffix_lt hfirst hfits readEnd
  rw [length_unsigned] at hcode
  rw [mpeg4Headers, HeaderReader.bind_some hcode]
  -- what a header's reader does is what follows
  have hpass {m : HeaderReader Unit} (hm : ReadsAt pBuffer (p + 32) m unit.body ()) :
      ∃ readEnd', (m >>= fun _ => mpeg4Headers turns) pBuffer ⟨p + 32, readEnd₁⟩ =
        mpeg4Headers turns pBuffer ⟨p + (32 + unit.body.length), readEnd'⟩ := by
    obtain ⟨readEnd₂, hbody⟩ := hm hrest (by omega) readEnd₁
    rw [HeaderReader.bind_some hbody, add_assoc]
    exact ⟨readEnd₂, rfl⟩
  have haligned : (p + 32) % 8 = 0 := by omega
  generalize hvalue : 0x100 + unit.suffix = nSartCode
  cases unit with
  | visualObjectSequence profile level =>
    have hstart : nSartCode = 0x1B0 := hvalue.symm
    rw [if_pos hstart]
    exact hpass ((ReadsAt.skipVec (by omega) profile).bind (ReadsAt.skipVec (by omega) level))
  | visualObject object =>
    have hstart : nSartCode = 0x1B5 := hvalue.symm
    rw [if_neg (by omega), if_pos hstart]
    exact hpass (visualObject_reads object haligned)
  | videoObject id =>
    have hid := id.isLt
    have hstart : nSartCode = 0x100 + id.toNat := hvalue.symm
    rw [if_neg (by omega), if_neg (by omega), if_pos (by omega)]
    exact ⟨readEnd₁, rfl⟩
  | userData data plain =>
    have hstart : nSartCode = 0x1B2 := hvalue.symm
    have hbytes : (Mpeg4Unit.userData data plain).body.length = 8 * data.length :=
      length_byteCode data
    rw [← add_assoc] at hnext hend
    rw [if_neg (by omega), if_neg (by omega), if_neg (by omega), if_neg (by omega), if_pos hstart]
    exact hpass (userData_reads haligned plain (by omega) hnext hend)
  | groupOfVop time =>
    have hstart : nSartCode = 0x1B3 := hvalue.symm
    rw [if_neg (by omega), if_neg (by omega), if_neg (by omega), if_pos hstart]
    exact hpass (groupOfVop_reads time haligned)

theorem length_units (units : List Mpeg4Unit) :
    (units.flatMap Mpeg4Unit.code).length % 8 = 0 := by
  induction units with
  | nil => rfl
  | cons unit units ih =>
    have hcode := unit.length_code
    have hbody := unit.length_body
    rw [flatMap_cons, length_append]
    omega

theorem coded_units (units : List Mpeg4Unit) {last : List Bool} (hlast : Coded last) :
    Coded (units.flatMap Mpeg4Unit.code ++ last) := by
  cases units with
  | nil => exact hlast
  | cons unit units =>
    rw [flatMap_cons, Mpeg4Unit.code, append_assoc, append_assoc]
    exact coded_of_code unit.suffix_lt _

/-- All the headers are passed, and the loop goes on behind them. -/
theorem mpeg4Headers_units (units : List Mpeg4Unit) (turns : Nat) {last : List Bool}
    (hlast : Coded last) (hp : p % 8 = 0)
    (hturns : (units.flatMap Mpeg4Unit.code).length + 1 < turns)
    (hstands : Stands (byteBits pBuffer) p (units.flatMap Mpeg4Unit.code ++ last))
    (hend : p + (units.flatMap Mpeg4Unit.code).length + 24 < 2 ^ 32) (readEnd : Nat) :
    ∃ turns' readEnd', mpeg4Headers turns pBuffer ⟨p, readEnd⟩ = mpeg4Headers (turns' + 1) pBuffer
      ⟨p + (units.flatMap Mpeg4Unit.code).length, readEnd'⟩ := by
  induction units generalizing p turns readEnd with
  | nil => exact ⟨turns - 1, readEnd, by rw [Nat.sub_add_cancel (by omega)]; rfl⟩
  | cons unit units ih =>
    rw [flatMap_cons, append_assoc, stands_append] at hstands
    rw [flatMap_cons, length_append] at hturns hend ⊢
    obtain ⟨hunit, hrest⟩ := hstands
    have hlength := unit.length_code
    have hbody := unit.length_body
    obtain ⟨turns, rfl⟩ : ∃ t, turns = t + 1 := ⟨turns - 1, by omega⟩
    obtain ⟨readEnd₁, hstep⟩ := mpeg4Headers_unit unit turns hp
      (by omega) hunit
      ((coded_units units hlast).bits hrest) (by omega) readEnd
    rw [hstep, ← add_assoc]
    exact ih turns (by omega) (by omega) hrest (by omega) readEnd₁

end Units

/-! ## Streams -/

section Streams

variable {pBuffer : Memory} {p : Nat}

theorem mpeg4Headers_layer (turns : Nat) {layer : VideoObjectLayer} {size : FrameSize}
    (hp : p % 8 = 0) (h : Finds pBuffer (p + 32) videoObjectLayer
      (layer.headCode ++ (layer.incrementCode ++ layer.sizeCode)) size) :
    Finds pBuffer p (mpeg4Headers (turns + 1)) layer.code (.OMX_ErrorNone, some size) := by
  have hid := layer.id.isLt
  have hstart : ReadsAt pBuffer p (getBits 32) (unsigned 32 (0x120 + layer.id.toNat))
      (0x120 + layer.id.toNat) := ReadsAt.getBits (by omega) (by omega)
  rw [mpeg4Headers]
  refine hstart.then_finds ?_
  rw [length_unsigned, if_neg (by omega), if_neg (by omega), if_neg (by omega), if_neg (by omega),
    if_neg (by omega), if_pos (by omega)]
  exact h.map fun size => (OMX_ERRORTYPE.OMX_ErrorNone, some size)

theorem sourceFormatSize_eq (format : PictureFormat) :
    sourceFormatSize format.source_format = some format.size := by
  cases format <;> rfl

theorem PictureFormat.source_format_lt (format : PictureFormat) :
    format.source_format < 2 ^ 3 := by
  cases format <;> decide

theorem customSize_finds (modes : BitVec 24) (cpm : Option (BitVec 2)) (aspect_ratio : BitVec 4)
    (pwi phi : BitVec 9) :
    Finds pBuffer p customSize (bitVec modes ++ (flagged bitVec cpm ++ (bitVec aspect_ratio ++
      (bitVec pwi ++ ([true] ++ bitVec phi))))) ⟨(pwi.toNat + 1) * 4, phi.toNat * 4⟩ := by
  refine (ReadsAt.skipVec (by omega) modes).then_finds ?_
  refine (ReadsAt.ifFlag cpm fun sub _ => ReadsAt.skipVec (by omega) sub).then_finds ?_
  refine (ReadsAt.skipVec (by omega) aspect_ratio).then_finds ?_
  refine (ReadsAt.bitVec (by omega) pwi).then_finds ?_
  refine (ReadsAt.skipFlag true).then_finds ?_
  exact (ReadsAt.bitVec (by omega) phi).finds.map fun nPHI =>
    FrameSize.mk ((pwi.toNat + 1) * 4) (nPHI * 4)

private theorem getBits_three {v : Nat} (h : v < 2 ^ 3) :
    ReadsAt pBuffer p (getBits 3) (unsigned 3 v) v :=
  ReadsAt.getBits (by omega) h

theorem shortHeader_finds (indicators : BitVec 3) (format : ShortSize) :
    Finds pBuffer p shortHeader (bitVec indicators ++ format.code)
      (.OMX_ErrorNone, some format.size) := by
  refine (ReadsAt.skipVec (by omega) indicators).then_finds ?_
  cases format with
  | standard format =>
    refine (getBits_three format.source_format_lt).last_finds ?_
    rw [sourceFormatSize_eq]
    rfl
  | extended format =>
    refine (getBits_three (by omega)).then_finds ?_
    refine (getBits_three (by omega)).then_finds ?_
    refine (getBits_three format.source_format_lt).last_finds ?_
    rw [sourceFormatSize_eq]
    rfl
  | custom modes cpm aspect_ratio pwi phi =>
    refine (getBits_three (by omega)).then_finds ?_
    refine (getBits_three (by omega)).then_finds ?_
    refine (getBits_three (by omega)).then_finds ?_
    exact (customSize_finds modes cpm aspect_ratio pwi phi).map fun size =>
      (OMX_ERRORTYPE.OMX_ErrorNone, some size)

/-- The first word of a short header. -/
theorem shortCode_eq (temporal_reference : BitVec 8) :
    unsigned 22 0x20 ++ (bitVec temporal_reference ++ [true, false]) =
      unsigned 32 (0x8000 + (temporal_reference.toNat * 4 + 2)) := by
  have href := temporal_reference.isLt
  have hlow : bitVec temporal_reference ++ [true, false] =
      unsigned 10 (temporal_reference.toNat * 4 + 2) :=
    (unsigned_append 8 2 temporal_reference.toNat 2 (by omega)).symm
  rw [hlow]
  exact (unsigned_append 22 10 0x20 _ (by omega)).symm

/-- A short header gives its size. -/
theorem mpeg4Headers_short (turns : Nat) (temporal_reference : BitVec 8) (indicators : BitVec 3)
    (format : ShortSize) (hp : p % 8 = 0) :
    Finds pBuffer p (mpeg4Headers (turns + 1))
      (Mpeg4Stream.short temporal_reference indicators format).code
      (.OMX_ErrorNone, some format.size) := by
  have href := temporal_reference.isLt
  have hcode : (Mpeg4Stream.short temporal_reference indicators format).code =
      unsigned 32 (0x8000 + (temporal_reference.toNat * 4 + 2)) ++
        (bitVec indicators ++ format.code) := by
    rw [← shortCode_eq, Mpeg4Stream.code]
    simp only [append_assoc]
  have hmask : 0x8000 + (temporal_reference.toNat * 4 + 2) &&& 0xfffffc00 = 0x8000 := by
    have hhigh := and_high_bits (x := 0x8000 + (temporal_reference.toNat * 4 + 2)) (k := 10)
      (by omega) (by omega)
    have hdiv : (0x8000 + (temporal_reference.toNat * 4 + 2)) / 2 ^ 10 = 0x20 := by omega
    rw [hdiv] at hhigh
    exact hhigh
  have hstart : ReadsAt pBuffer p (getBits 32)
      (unsigned 32 (0x8000 + (temporal_reference.toNat * 4 + 2)))
      (0x8000 + (temporal_reference.toNat * 4 + 2)) := ReadsAt.getBits (by omega) (by omega)
  rw [hcode, mpeg4Headers]
  refine hstart.then_finds ?_
  rw [if_neg (by omega), if_neg (by omega), if_neg (by omega), if_neg (by omega),
    if_neg (by omega), if_neg (by omega), if_pos hmask]
  exact shortHeader_finds indicators format

/-- What is found in the layer is the result. -/
theorem parse_object {units : List Mpeg4Unit} {layer : VideoObjectLayer} {size : FrameSize}
    (before : FrameSize)
    (hstands : Stands (byteBits pBuffer) 0 (Mpeg4Stream.object units layer).code)
    (hlength : (Mpeg4Stream.object units layer).code.length < 2 ^ 32)
    (h : ∀ p, Finds pBuffer p videoObjectLayer
      (layer.headCode ++ (layer.incrementCode ++ layer.sizeCode)) size) {turns : Nat}
    (hturns : (Mpeg4Stream.object units layer).code.length ≤ turns) :
    VIDDEC_ParseVideo_MPEG4 turns pBuffer before = some (.OMX_ErrorNone, size) := by
  have hid := layer.id.isLt
  have hlayer : 32 ≤ layer.code.length := by
    rw [VideoObjectLayer.code, length_append, length_unsigned]
    exact le_add_right _ _
  have hcoded : Coded layer.code := by
    have hstart : 0x120 + layer.id.toNat = 0x100 + (0x20 + layer.id.toNat) := by omega
    rw [VideoObjectLayer.code, hstart]
    exact coded_of_code (by omega) _
  rw [Mpeg4Stream.code, length_append] at hlength hturns
  rw [Mpeg4Stream.code] at hstands
  obtain ⟨turns', readEnd, hunits⟩ := mpeg4Headers_units units turns hcoded
    (zero_mod 8) (by omega) hstands (by omega) 0
  rw [stands_append] at hstands
  have haligned : (0 + (units.flatMap Mpeg4Unit.code).length) % 8 = 0 := by
    rw [zero_add, length_units]
  obtain ⟨c, hfound⟩ := mpeg4Headers_layer turns' haligned (h _) hstands.2
    (by omega) readEnd
  rw [VIDDEC_ParseVideo_MPEG4, hunits, hfound]
  rfl

theorem parse_short {temporal_reference : BitVec 8} {indicators : BitVec 3} {format : ShortSize}
    (before : FrameSize)
    (hstands : Stands (byteBits pBuffer) 0
      (Mpeg4Stream.short temporal_reference indicators format).code)
    (hlength : (Mpeg4Stream.short temporal_reference indicators format).code.length < 2 ^ 32)
    {turns : Nat} (hturns : 0 < turns) :
    VIDDEC_ParseVideo_MPEG4 turns pBuffer before = some (.OMX_ErrorNone, format.size) := by
  obtain ⟨turns, rfl⟩ : ∃ t, turns = t + 1 := ⟨turns - 1, by omega⟩
  obtain ⟨c, hfound⟩ := mpeg4Headers_short turns temporal_reference indicators format
    (zero_mod 8) hstands (by rwa [zero_add]) 0
  rw [VIDDEC_ParseVideo_MPEG4, hfound]
  rfl

/-- The increment of a layer, if it has one, has a width that the parser knows, or the size is the
one that is found nevertheless. -/
def Mpeg4Stream.Measured : Mpeg4Stream → Prop
  | object _ layer =>
    ¬layer.Unmeasured ∨ layer.width.toNat = 8191 ∧ layer.height.toNat = 8191
  | short _ _ _ => True

/-- The size of a stream is found just where the increment is measured. -/
theorem mpeg4_size_iff (stream : Mpeg4Stream) (pBuffer : Memory) (before : FrameSize)
    (hstands : Stands (byteBits pBuffer) 0 stream.code) (hlength : stream.code.length < 2 ^ 32) :
    (∃ n, ∀ turns, n ≤ turns →
      VIDDEC_ParseVideo_MPEG4 turns pBuffer before = some (.OMX_ErrorNone, stream.size)) ↔
    stream.Measured := by
  cases stream with
  | short temporal_reference indicators format =>
    refine iff_of_true ⟨1, fun turns hturns => ?_⟩ trivial
    exact parse_short before hstands hlength hturns
  | object units layer =>
    by_cases hunmeasured : layer.Unmeasured
    · have hwidth := layer.width.isLt
      have hheight := layer.height.isLt
      have hparse (turns : Nat)
          (hturns : (Mpeg4Stream.object units layer).code.length ≤ turns) :=
        parse_object before hstands hlength (fun _ => unmeasured_finds hunmeasured) hturns
      constructor
      · rintro ⟨n, hn⟩
        have hfound := hn (max n (Mpeg4Stream.object units layer).code.length) (le_max_left _ _)
        rw [hparse _ (le_max_right _ _), Option.some.injEq, Prod.mk.injEq, Mpeg4Stream.size,
          FrameSize.mk.injEq] at hfound
        exact .inr ⟨by omega, by omega⟩
      · rintro (hmeasured | ⟨hw, hh⟩)
        · exact absurd hunmeasured hmeasured
        · refine ⟨(Mpeg4Stream.object units layer).code.length, fun turns hturns => ?_⟩
          rw [hparse turns hturns, Mpeg4Stream.size, hw, hh]
          rfl
    · refine iff_of_true ⟨(Mpeg4Stream.object units layer).code.length,
        fun turns hturns => ?_⟩ (.inl hunmeasured)
      exact parse_object before hstands hlength (fun _ => layer_finds hunmeasured) hturns

def qcifLayer : VideoObjectLayer where
  id := 0
  random_accessible_vol := false
  video_object_type_indication := 1
  identifier := none
  aspect_ratio := .ratio 1 (by decide)
  control := none
  vop_time_increment_resolution := 30
  positive := by decide
  fixed_vop_time_increment := none
  width := 176
  height := 144

/-- A layer behind all other headers but user data. -/
def qcifStream : Mpeg4Stream :=
  .object [.visualObjectSequence 0 1, .visualObject ⟨some 0x09, 1, none⟩, .groupOfVop 0,
    .videoObject 0] qcifLayer

def qcifBytes : List UInt8 :=
  [0, 0, 1, 176, 1, 0, 0, 1, 181, 137, 19, 0, 0, 1, 179, 0, 0, 7, 0, 0, 1, 0, 0, 0, 1, 32, 0, 132,
    64, 7, 168, 44, 32, 144]

theorem qcif_size : ∃ n, ∀ turns, n ≤ turns →
    VIDDEC_ParseVideo_MPEG4 turns (bufferOf qcifBytes) ⟨0, 0⟩ =
      some (.OMX_ErrorNone, ⟨176, 144⟩) :=
  (mpeg4_size_iff qcifStream (bufferOf qcifBytes) ⟨0, 0⟩ (by decide +kernel)
    (by decide +kernel)).mpr (.inl fun h => absurd h.2 (by decide))

/-- One tick a second, each with a picture: the increment is coded by one bit. -/
def oneTickLayer : VideoObjectLayer :=
  { qcifLayer with
    vop_time_increment_resolution := 1
    positive := by decide
    fixed_vop_time_increment := some ⟨0, by decide⟩ }

theorem one_tick_misread : ¬∀ (stream : Mpeg4Stream) (pBuffer : Memory) (before : FrameSize),
    Stands (byteBits pBuffer) 0 stream.code → stream.code.length < 2 ^ 32 →
    ∃ n, ∀ turns, n ≤ turns →
      VIDDEC_ParseVideo_MPEG4 turns pBuffer before = some (.OMX_ErrorNone, stream.size) := by
  intro h
  have hstands : Stands
      (byteBits (bufferOf [0, 0, 1, 32, 0, 132, 64, 0, 116, 22, 16, 72])) 0
      (Mpeg4Stream.object [] oneTickLayer).code := by decide +kernel
  have hlength : (Mpeg4Stream.object [] oneTickLayer).code.length < 2 ^ 32 := by decide +kernel
  obtain ⟨n, hn⟩ := h _ _ ⟨0, 0⟩ hstands hlength
  have hright := hn (max n 97) (le_max_left _ _)
  have hturns : (Mpeg4Stream.object [] oneTickLayer).code.length ≤ 97 := by decide +kernel
  have hwrong := parse_object ⟨0, 0⟩ hstands hlength (fun _ => unmeasured_finds ⟨rfl, rfl⟩)
    (hturns.trans (le_max_right n 97))
  rw [hright] at hwrong
  exact absurd hwrong (by decide)

end Streams

end OmapHal.VideoDecoder
