import Webapp.Data.Words

namespace Webapp.Images

open Webapp.Data

/-! The sizes of the buffers that hold an image as rows of RGBA pixels.

For PNG files `checkDepth` is part of `png_check_IHDR`, `pngTransformations` are
the calls of `Image::load`, `pixelDepth` is `png_read_transform_info` and
`rowbytes` is `PNG_ROWBYTES`.
-/

structure ColorType where
  palette : Bool
  color : Bool
  alpha : Bool
deriving DecidableEq, Repr

namespace ColorType

def gray : ColorType := ⟨false, false, false⟩
def rgb : ColorType := ⟨false, true, false⟩
def paletted : ColorType := ⟨true, true, false⟩
def grayAlpha : ColorType := ⟨false, false, true⟩
def rgbAlpha : ColorType := ⟨false, true, true⟩

def all : List ColorType := [gray, rgb, paletted, grayAlpha, rgbAlpha]

end ColorType

def checkDepth (colorType : ColorType) (bitDepth : Nat) : Bool :=
  !(colorType == .paletted && decide (8 < bitDepth) ||
    (colorType == .rgb || colorType == .grayAlpha || colorType == .rgbAlpha) && decide (bitDepth < 8))

/-- A file whose header libpng has accepted.  `trns` is a `tRNS` chunk with at
least one entry, for which both `PNG_INFO_tRNS` and `num_trans` are set. -/
structure Png where
  width : Nat
  height : Nat
  bitDepth : Nat
  colorType : ColorType
  trns : Bool
  width_range : 0 < width ∧ width ≤ 2147483647
  height_range : 0 < height ∧ height ≤ 2147483647
  bitDepth_known : bitDepth ∈ [1, 2, 4, 8, 16]
  colorType_known : colorType ∈ ColorType.all
  depth : checkDepth colorType bitDepth = true

/-- The transformations that `Image::load` may ask for.  `PNG_16_TO_8` is always
set. -/
structure Transformations where
  expand : Bool
  expandTrns : Bool
  grayToRgb : Bool
  filler : Bool
deriving DecidableEq, Repr

namespace Transformations

def none : Transformations := ⟨false, false, false, false⟩

def setExpand (transformations : Transformations) : Transformations :=
  { transformations with expand := true, expandTrns := true }

def setFiller (transformations : Transformations) : Transformations :=
  { transformations with filler := true }

def setGrayToRgb (transformations : Transformations) : Transformations :=
  { transformations with expand := true, grayToRgb := true }

end Transformations

section

variable (colorType : ColorType) (bitDepth : Nat) (trns : Bool)

def pngTransformations : Transformations :=
  let asked := Transformations.none
  let asked := if colorType = .rgb then asked.setFiller else asked
  let asked := if colorType = .paletted then asked.setExpand.setFiller else asked
  let asked := if colorType = .gray ∧ bitDepth < 8 then asked.setExpand else asked
  let asked := if trns then asked.setExpand else asked
  if colorType = .gray ∨ colorType = .grayAlpha then asked.setGrayToRgb.setFiller else asked

def pixelDepth : Nat :=
  let transformations := pngTransformations colorType bitDepth trns
  let (colorType, bitDepth) :=
    if transformations.expand then
      if colorType = .paletted then (if trns then .rgbAlpha else .rgb, 8)
      else
        (if trns && transformations.expandTrns then { colorType with alpha := true } else colorType,
          if bitDepth < 8 then 8 else bitDepth)
    else (colorType, bitDepth)
  -- PNG_16_TO_8
  let bitDepth := if bitDepth = 16 then 8 else bitDepth
  let colorType := if transformations.grayToRgb then { colorType with color := true } else colorType
  let channels := if colorType = .paletted then 1 else if colorType.color then 3 else 1
  let channels := if colorType.alpha then channels + 1 else channels
  let channels :=
    if transformations.filler && (colorType == .rgb || colorType == .gray) then channels + 1 else channels
  uint8 (channels * bitDepth)

end

def rowbytes (pixelBits width : Nat) : Nat :=
  if 8 ≤ pixelBits then width * (pixelBits >>> 3) else (width * pixelBits + 7) >>> 3

def Png.rowbytes (png : Png) : Nat :=
  Images.rowbytes (pixelDepth png.colorType png.bitDepth png.trns) png.width

theorem pixelDepth_rgba : ∀ colorType ∈ ColorType.all, ∀ bitDepth ∈ [1, 2, 4, 8, 16],
    ∀ trns, checkDepth colorType bitDepth = true → pixelDepth colorType bitDepth trns = 32 := by
  decide

theorem Png.rowbytes_eq (png : Png) : png.rowbytes = 4 * png.width := by
  rw [rowbytes, pixelDepth_rgba _ png.colorType_known _ png.bitDepth_known _ png.depth]
  exact Nat.mul_comm png.width 4

/-- A place at which a pixel buffer is allocated, with what the file or the
script gives there. -/
inductive PixelBuffer where
  | jpeg (imageWidth imageHeight : Nat)
  | png (file : Png)
  | gif (sWidth sHeight : Int)
  | resized (width height oldWidth oldHeight : Int)

def rgbaSize (width height : Int) : Int := int32 (int32 (width * height) * 4)

theorem rgbaSize_eq (width height : Int) : rgbaSize width height = int32 (4 * width * height) := by
  rw [rgbaSize, int32_mul_right, show width * height * 4 = 4 * width * height by ring]

structure HoldsRows (bytes width height : Int) : Prop where
  enough : 4 * width * height ≤ bytes
  rows : ∀ i, 0 ≤ i → i < height →
    ∀ byte, 4 * width * i ≤ byte → byte < 4 * width * (i + 1) → 0 ≤ byte ∧ byte < bytes

theorem holdsRows_iff {bytes width height : Int} :
    HoldsRows bytes width height ↔ 4 * width * height ≤ bytes := by
  constructor
  · exact HoldsRows.enough
  · intro enough
    refine ⟨enough, ?_⟩
    intro i first last byte above below
    -- Rows of a negative width are empty.
    have positive : 0 < 4 * width := by nlinarith
    have start : 0 ≤ 4 * width * i := mul_nonneg positive.le first
    have stop : 4 * width * (i + 1) ≤ 4 * width * height := mul_le_mul_of_nonneg_left (by omega) positive.le
    omega

def regenRowPointers (width height : Int) : List Int :=
  (List.range height.toNat).map fun (i : Nat) => int32 (int32 (i * width) * 4)

def scanlines (outputWidth outputHeight : Nat) : List Nat :=
  (List.range outputHeight).map fun (i : Nat) => uint32 (i * uint32 (outputWidth * 4))

/-- Rows begin within a bound exactly when the last one does. -/
theorem rows_lt_iff {width height bound : Nat} (positive : 0 < bound) :
    (∀ i ∈ List.range height, 4 * width * i < bound) ↔ 4 * width * (height - 1) < bound := by
  simp only [List.mem_range]
  constructor
  · intro each
    cases height with
    | zero => simpa using positive
    | succ height => exact each height (Nat.lt_succ_self height)
  · intro last i inside
    exact (Nat.mul_le_mul_left (4 * width) (Nat.le_sub_one_of_lt inside)).trans_lt last

theorem regenRowPointers_eq_iff (width height : Nat) :
    regenRowPointers width height = (List.range height).map (fun i => ((4 * width * i : Nat) : Int)) ↔
      4 * width * (height - 1) < 2147483648 := by
  rw [regenRowPointers, Int.toNat_natCast, List.map_inj_left, ← rows_lt_iff (by decide)]
  refine forall₂_congr fun i _ => ?_
  rw [int32_mul_right, show (i : Int) * width * 4 = ((4 * width * i : Nat) : Int) by push_cast; ring]
  exact int32_eq_iff _

theorem scanlines_eq_iff (width height : Nat) :
    scanlines width height = (List.range height).map (fun i => 4 * width * i) ↔
      4 * width * (height - 1) < 4294967296 := by
  rw [scanlines, List.map_inj_left, ← rows_lt_iff (by decide)]
  refine forall₂_congr fun i _ => ?_
  rw [uint32_mul_left, show (i : Int) * (width * 4) = ((4 * width * i : Nat) : Int) by push_cast; ring]
  exact uint32_eq_iff _

theorem regenRowPointers_eq {width height : Nat} (small : 4 * width * height < 2147483648) :
    regenRowPointers width height = (List.range height).map fun i => ((4 * width * i : Nat) : Int) :=
  (regenRowPointers_eq_iff width height).mpr
    ((Nat.mul_le_mul_left (4 * width) (Nat.sub_le height 1)).trans_lt small)

theorem scanlines_eq {width height : Nat} (small : 4 * width * height < 2147483648) :
    scanlines width height = (List.range height).map fun i => 4 * width * i :=
  (scanlines_eq_iff width height).mpr
    ((Nat.mul_le_mul_left (4 * width) (Nat.sub_le height 1)).trans_lt (small.trans (by decide)))

namespace PixelBuffer

def width : PixelBuffer → Int
  | .jpeg imageWidth _ => imageWidth
  | .png file => file.width
  | .gif sWidth _ => sWidth
  | .resized width _ _ _ => width

def height : PixelBuffer → Int
  | .jpeg _ imageHeight => imageHeight
  | .png file => file.height
  | .gif _ sHeight => sHeight
  | .resized _ height _ _ => height

/-- The operand of `new unsigned char[..]`.  The sizes of a file are assigned to
`int` first; an image that keeps its size keeps its buffer. -/
def allocated : PixelBuffer → Option Int
  | .jpeg imageWidth imageHeight => some (rgbaSize (int32 imageWidth) (int32 imageHeight))
  | .png file => some (int32 (int32 file.height * int32 file.rowbytes))
  | .gif sWidth sHeight => some (rgbaSize sWidth sHeight)
  | .resized width height oldWidth oldHeight =>
      if width = oldWidth ∧ height = oldHeight then none
      else some (int32 (rgbaSize width height + 4))

def Sufficient (buffer : PixelBuffer) : Prop :=
  ∀ bytes ∈ buffer.allocated, HoldsRows bytes buffer.width buffer.height

def Small : PixelBuffer → Prop
  | .resized width height oldWidth oldHeight =>
      (width = oldWidth ∧ height = oldHeight) ∨ 4 * width * height + 4 < 2147483648
  | buffer => 4 * buffer.width * buffer.height < 2147483648

theorem sufficient_iff_of_allocated {buffer : PixelBuffer} {bytes : Int} (found : buffer.allocated = some bytes) :
    buffer.Sufficient ↔ 4 * buffer.width * buffer.height ≤ bytes := by
  rw [Sufficient, found]
  simp only [Option.mem_some_iff, forall_eq']
  exact holdsRows_iff

theorem sufficient_iff_of_wrapped {buffer : PixelBuffer}
    (found : buffer.allocated = some (int32 (4 * buffer.width * buffer.height))) :
    buffer.Sufficient ↔ 4 * buffer.width * buffer.height < 2147483648 :=
  (sufficient_iff_of_allocated found).trans (le_int32_iff _)

end PixelBuffer

/-- The rows of an image lie inside its buffer exactly when the size of the buffer
does not leave the range of `int`. -/
theorem pixelBuffer_sufficient_iff (buffer : PixelBuffer) : buffer.Sufficient ↔ buffer.Small := by
  cases buffer with
  | jpeg imageWidth imageHeight =>
      apply PixelBuffer.sufficient_iff_of_wrapped
      rw [PixelBuffer.allocated, rgbaSize, int32_mul, int32_mul_right,
        show (imageWidth : Int) * imageHeight * 4 = 4 * imageWidth * imageHeight by ring]
      rfl
  | png file =>
      apply PixelBuffer.sufficient_iff_of_wrapped
      rw [PixelBuffer.allocated, file.rowbytes_eq, int32_mul,
        show (file.height : Int) * ((4 * file.width : Nat) : Int) = 4 * file.width * file.height by push_cast; ring]
      rfl
  | gif sWidth sHeight =>
      apply PixelBuffer.sufficient_iff_of_wrapped
      rw [PixelBuffer.allocated, rgbaSize_eq]
      rfl
  | resized width height oldWidth oldHeight =>
      by_cases same : width = oldWidth ∧ height = oldHeight
      · simp [PixelBuffer.Sufficient, PixelBuffer.Small, PixelBuffer.allocated, same]
      · have bytes : (PixelBuffer.resized width height oldWidth oldHeight).allocated =
            some (int32 (4 * width * height + 4)) := by
          rw [PixelBuffer.allocated, if_neg same, rgbaSize_eq, int32_add_right]
        rw [PixelBuffer.sufficient_iff_of_allocated bytes, PixelBuffer.Small, or_iff_right same,
          PixelBuffer.width, PixelBuffer.height]
        -- The four extra bytes may wrap on their own.
        generalize 4 * width * height = size
        simp only [int32]
        omega

/-- A size of 2^32 wraps to zero: the buffer is empty and every row lies outside. -/
theorem pixelBuffer_wraps :
    (PixelBuffer.jpeg 32768 32768).allocated = some 0 ∧ (PixelBuffer.gif 32768 32768).allocated = some 0 ∧
      (PixelBuffer.resized 32768 32768 1 1).allocated = some 4 := by
  decide

end Webapp.Images
