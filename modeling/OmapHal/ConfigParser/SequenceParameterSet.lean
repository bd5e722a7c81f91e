import Mathlib.Data.Int.Init
import OmapHal.ConfigParser.Stream

/-!
# Decoders

The functions of the configuration parsers that read one value after the other from a stream,
ignore the status of the reads and leave with a status of their own when a value is not supported.
-/

namespace OmapHal.ConfigParser

section Decoders

def MP4_INVALID_VOL_PARAM : Int := -1

/-- An `int32` variable that a `uint32` value is stored in. -/
def int32 (x : Int) : Int := x.bmod (2 ^ 32)

/-- The stream, and what the pointers among the function's parameters point to. -/
structure DecoderState (Out : Type) where
  psBits : Mp4StreamType
  parameters : Out

/-- Steps of a function, which may leave it with a status. -/
abbrev Decoder (Out : Type) := ExceptT Int (StateM (DecoderState Out))

namespace Decoder

variable {Out α : Type}

def onStream (f : Mp4StreamType → Mp4StreamType × α) : Decoder Out α :=
  fun st => (.ok (f st.psBits).2, { st with psBits := (f st.psBits).1 })

def store (f : Out → Out) : Decoder Out Unit :=
  fun st => (.ok (), { st with parameters := f st.parameters })

/-- `ReadBits`, whose status is ignored. -/
def readBits (ucNBits : Nat) : Decoder Out Nat :=
  onStream fun psBits => ((ReadBits psBits ucNBits).1, (ReadBits psBits ucNBits).2.2)

/-- The function returns the status unless the condition holds. -/
def require (c : Prop) [Decidable c] (status : Int) : Decoder Out Unit :=
  if c then pure () else throw status

def whenever (c : Prop) [Decidable c] (m : Decoder Out Unit) : Decoder Out Unit :=
  if c then m else pure ()

/-- What a function returns. -/
def returned : Except Int Unit → Int
  | .ok () => 0
  | .error status => status

end Decoder

end Decoders

/-!
## Sequence parameter sets

`DecodeSPS` reads the profile, the level and the size of the pictures from a sequence parameter
set, and skips what stands between them.
-/

section Sets

def H264_PROFILE_IDC_HIGH : Int := 100

/-- The loop of `PV_CLZ` for values of 16 bits, which ends after so many rounds. -/
def PV_CLZ : Nat → Nat → Nat → Nat
  | 0, A, _ => A
  | rounds + 1, A, B => if B &&& 0x8000 = 0 then PV_CLZ rounds (A + 1) (shl32 B 1) else A

/-- `ue_v`: the stream and `*codeNum`. -/
def ue_v (psBits : Mp4StreamType) : Mp4StreamType × Nat :=
  let (psBits, temp) := ShowBits psBits 16
  let leading_zeros := PV_CLZ 16 0 (temp ||| 1)
  if leading_zeros < 8 then
    ((FlushBits psBits (leading_zeros <<< 1 + 1)).1,
      sub32 (temp >>> (15 - leading_zeros <<< 1)) 1)
  else
    let (psBits, _, temp) := ReadBits psBits (leading_zeros <<< 1 + 1)
    (psBits, sub32 temp 1)

/-- The loop of `se_v` after a zero: the stream and `leadingZeros`. A read fails at the end of the
buffer. -/
def skipZeroBits : Nat → Nat → Mp4StreamType → Mp4StreamType × Nat
  | 0, leadingZeros, psBits => (psBits, leadingZeros)
  | rounds + 1, leadingZeros, psBits =>
    let (psBits, status, temp) := ReadBits psBits 1
    if status ≠ 0 ∨ temp ≠ 0 then (psBits, leadingZeros + 1)
    else skipZeroBits rounds (leadingZeros + 1) psBits

/-- `se_v`. Nothing is stored in `*value`. -/
def se_v (psBits : Mp4StreamType) : Mp4StreamType :=
  let (psBits, _, temp) := ReadBits psBits 1
  let (psBits, leadingZeros) :=
    if temp = 0 then skipZeroBits (psBits.limit + 1) 0 psBits else (psBits, 0)
  (ReadBits psBits (leadingZeros % 2 ^ 8)).1

/-- What the pointers of `DecodeSPS` point to. -/
structure SpsParameters where
  width : Int
  height : Int
  display_width : Int
  display_height : Int
  profile_idc : Int
  level_idc : Int
  frame_mb_only_flag : Nat
  deriving DecidableEq

/-- Steps of `DecodeSPS`. -/
abbrev SpsDecoder := Decoder SpsParameters

open Decoder

def ue : SpsDecoder Nat := onStream ue_v

def se : SpsDecoder Unit := onStream fun psBits => (se_v psBits, ())

/-- The loop of `scaling_list_h264`. -/
def scalingLoop (i4_delta_scale : Int) : Nat → Int → Int → SpsDecoder Unit
  | 0, _, _ => pure ()
  | n + 1, i4_lastScale, i4_nextScale =>
    if i4_nextScale = 0 then scalingLoop i4_delta_scale n i4_lastScale i4_nextScale
    else do
      se
      let i4_nextScale := (i4_lastScale + i4_delta_scale + 256) % 256
      scalingLoop i4_delta_scale n (if i4_nextScale = 0 then i4_lastScale else i4_nextScale)
        i4_nextScale

/-- `i4_delta_scale` keeps the value that it is declared with. -/
def scaling_list_h264 (i4_list_size : Nat) : SpsDecoder Unit := scalingLoop 0 i4_list_size 8 8

/-- How many elements a scaling list has. -/
def listSize (i4_i : Nat) : Nat := if i4_i < 6 then 16 else 64

/-- The loop over the scaling lists from one on. -/
def scalingLists : List Nat → SpsDecoder Unit
  | [] => pure ()
  | i4_i :: rest => do
    let i4_scaling_list_present ← readBits 1
    whenever (i4_scaling_list_present ≠ 0) (scaling_list_h264 (listSize i4_i))
    scalingLists rest

/-- The parameters that only the high profile has. -/
def highProfileParameters (profile_idc : Int) : SpsDecoder Unit :=
  if profile_idc = H264_PROFILE_IDC_HIGH then do
    let i4_chroma_format_idc ← ue
    require (i4_chroma_format_idc = 1) (-1)
    let i4_bit_depth_luma_minus8 ← ue
    require (i4_bit_depth_luma_minus8 = 0) (-1)
    let i4_bit_depth_chroma_minus8 ← ue
    require (i4_bit_depth_chroma_minus8 = 0) (-1)
    let i4_qpprime_y_zero_transform_bypass_flag ← readBits 1
    require (i4_qpprime_y_zero_transform_bypass_flag = 0) (-1)
    let i4_seq_scaling_matrix_present_flag ← readBits 1
    whenever (i4_seq_scaling_matrix_present_flag ≠ 0) (scalingLists (List.range 8))
  else pure ()

/-- `se_v` so many times. -/
def repeatSe : Nat → SpsDecoder Unit
  | 0 => pure ()
  | n + 1 => do
    se
    repeatSe n

/-- The type of the picture order count and the parameters that it has. -/
def picOrderCntParameters : SpsDecoder Unit := do
  let temp ← ue
  if temp = 0 then do
    let _ ← ue
  else if temp = 1 then do
    let _ ← readBits 1
    se
    se
    let temp ← ue
    repeatSe temp
  else pure ()

/-- The flag for cropping and the parameters behind it. -/
def croppingParameters : SpsDecoder Unit := do
  let temp ← readBits 1
  if temp ≠ 0 then do
    let left_offset ← ue
    let right_offset ← ue
    let top_offset ← ue
    let bottom_offset ← ue
    store fun out => { out with
      display_width := int32 (out.width - 2 * (right_offset + left_offset))
      display_height := int32 (out.height - 2 * (top_offset + bottom_offset)) }
  else pure ()

/-- `DecodeSPS`, built without `TARGET_OMAP4`: it returns 0 or leaves with another status. -/
def DecodeSPS : SpsDecoder Unit := do
  let temp ← readBits 8
  require (temp &&& 0x1F = 7) MP4_INVALID_VOL_PARAM
  let profile_idc ← readBits 8
  store fun out => { out with profile_idc := profile_idc }
  let _ ← readBits 1
  let _ ← readBits 1
  let _ ← readBits 1
  let _ ← readBits 5
  let level_idc ← readBits 8
  store fun out => { out with level_idc := level_idc }
  require (level_idc ≤ 51) MP4_INVALID_VOL_PARAM
  let _ ← ue
  highProfileParameters profile_idc
  let _ ← ue
  picOrderCntParameters
  let _ ← ue
  let _ ← readBits 1
  let temp ← ue
  let width := int32 ((temp + 1) <<< 4)
  store fun out => { out with width := width, display_width := width }
  let temp ← ue
  let height := int32 ((temp + 1) <<< 4)
  store fun out => { out with height := height, display_height := height }
  let frame_mbs_only_flag ← readBits 1
  require (frame_mbs_only_flag ≠ 0) MP4_INVALID_VOL_PARAM
  store fun out => { out with frame_mb_only_flag := 1 }
  let _ ← readBits 1
  croppingParameters

end Sets

end OmapHal.ConfigParser
