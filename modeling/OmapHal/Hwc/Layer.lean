import OmapHal.Core.Box

/-!
# Composition layers

The fields of `hwc_layer_1_t` and of the graphics handle behind it that the
hardware composer and its regionizer read, with the bits and codes they test.
-/

namespace OmapHal.Hwc

/-- `hwc_rect_t` and `blit_rect_t`. -/
abbrev Rect := Core.Box Int

/-- `WIDTH` and `HEIGHT`. -/
def WIDTH (r : Rect) : Int := r.right - r.left
def HEIGHT (r : Rect) : Int := r.bottom - r.top

/-- The pixel formats that either module names. -/
inductive PixelFormat where
  | RGBA_8888
  | RGBX_8888
  | RGB_565
  | BGRA_8888
  | BGRX_8888
  | TI_NV12
  | TI_NV12_PADDED
  | TI_NV12_1D
  | YV12
  | unknown
  deriving DecidableEq, Repr

/-- `IMG_native_handle_t`. -/
structure NativeHandle where
  iWidth : Int
  iHeight : Int
  iFormat : PixelFormat
  /-- `GRALLOC_USAGE_PROTECTED`. -/
  usageProtected : Bool
  /-- `GRALLOC_USAGE_EXTERNAL_DISP`. -/
  usageExternalDisp : Bool
  deriving DecidableEq, Repr

/-- A `buffer_handle_t`: null, the dummy `(void *) 0x1`, or a buffer at an address. -/
inductive BufferHandle where
  | null
  | dummy
  | img (address : Nat) (handle : NativeHandle)
  deriving DecidableEq, Repr

/-- The pointer value, by which handles are compared. -/
def BufferHandle.address : BufferHandle → Nat
  | .null => 0
  | .dummy => 1
  | .img address _ => address

/-- What the pointer leads to, if it leads to a buffer. -/
def BufferHandle.deref? : BufferHandle → Option NativeHandle
  | .img _ handle => some handle
  | _ => none

/-- `compositionType`. -/
inductive CompositionType where
  | framebuffer
  | overlay
  deriving DecidableEq, Repr

/-- `HWC_BLENDING_NONE` and `HWC_BLENDING_PREMULT`. -/
def HWC_BLENDING_NONE : Nat := 0x0100
def HWC_BLENDING_PREMULT : Nat := 0x0105

/-- The transform bits `HWC_TRANSFORM_FLIP_H`, `_FLIP_V` and `_ROT_90`. -/
def flipH (transform : Nat) : Bool := transform.testBit 0
def flipV (transform : Nat) : Bool := transform.testBit 1
def rot90 (transform : Nat) : Bool := transform.testBit 2

/-- `hwc_layer_1_t`. -/
structure HwcLayer where
  compositionType : CompositionType
  /-- `HWC_HINT_CLEAR_FB`. -/
  hintClearFb : Bool
  /-- `HWC_HINT_TRIPLE_BUFFER`. -/
  hintTripleBuffer : Bool
  /-- `HWC_SKIP_LAYER`. -/
  skip : Bool
  handle : BufferHandle
  transform : Nat
  blending : Nat
  sourceCrop : Rect
  displayFrame : Rect
  deriving DecidableEq, Repr

/-- The screen, as `bvsurfgeom` describes it. -/
structure ScreenGeom where
  width : Nat
  height : Nat
  deriving DecidableEq, Repr

/-- The pixels of the screen. -/
def ScreenGeom.rect (g : ScreenGeom) : Rect := ⟨0, 0, g.width, g.height⟩

end OmapHal.Hwc
