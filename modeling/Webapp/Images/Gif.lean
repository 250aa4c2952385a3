import Webapp.Data.Memory
import Webapp.Data.Runs
import Webapp.Images.PixelBuffers

namespace Webapp.Images

open Webapp.Data

/-! A GIF file as `DGifSlurp` leaves it, and the drawing of one of its images. -/

structure Color where
  red : UInt8
  green : UInt8
  blue : UInt8
deriving DecidableEq, Repr

/-- `GifImageDesc`.  `DGifGetWord` reads each of the four numbers from two bytes. -/
structure ImageDesc where
  left : Nat
  top : Nat
  width : Nat
  height : Nat
  colorMap : Option (List Color)
  left_lt : left < 65536
  top_lt : top < 65536
  width_lt : width < 65536
  height_lt : height < 65536

structure ExtensionBlock where
  function : Nat
  bytes : List UInt8

/-- `SavedImage`.  `DGifSlurp` takes the product of the sizes as an `int`; where it
is negative `malloc` fails and the file is not accepted. -/
structure SavedImage where
  desc : ImageDesc
  rasterBits : List UInt8
  extensionBlocks : List ExtensionBlock
  raster_length : rasterBits.length = desc.width * desc.height
  raster_int : desc.width * desc.height < 2147483648

def SavedImage.onePixel (index : UInt8) (extensionBlocks : List ExtensionBlock) : SavedImage where
  desc := ⟨0, 0, 1, 1, none, by decide, by decide, by decide, by decide⟩
  rasterBits := [index]
  extensionBlocks := extensionBlocks
  raster_length := rfl
  raster_int := by decide

/-- Two pixels in a row, the second of which is outside a canvas two pixels wide. -/
def SavedImage.overhanging (first second : UInt8) : SavedImage where
  desc := ⟨1, 0, 2, 1, none, by decide, by decide, by decide, by decide⟩
  rasterBits := [first, second]
  extensionBlocks := []
  raster_length := rfl
  raster_int := by decide

theorem twoPixels_fit : 4 * 2 * 1 < 2147483648 := by decide

structure GifFile where
  sWidth : Nat
  sHeight : Nat
  sBackGroundColor : UInt8
  sColorMap : Option (List Color)
  savedImages : List SavedImage

def GifFile.rastersize (gif : GifFile) : Int := rgbaSize gif.sWidth gif.sHeight

theorem rastersize_eq {gif : GifFile} (fits : 4 * gif.sWidth * gif.sHeight < 2147483648) :
    gif.rastersize = ((4 * gif.sWidth * gif.sHeight : Nat) : Int) := by
  rw [GifFile.rastersize, rgbaSize_eq]
  exact int32_of_small fits

structure GraphicsControlBlock where
  disposalMode : Nat
  transparentColor : Int
deriving DecidableEq, Repr

def disposeDoNot : Nat := 1
def disposeBackground : Nat := 2
def disposePrevious : Nat := 3

def extensionToGCB : List UInt8 → Option GraphicsControlBlock
  | [flags, _, _, index] => some {
      disposalMode := (flags.toNat >>> 2) &&& 7
      transparentColor := if flags.toNat &&& 1 ≠ 0 then index.toNat else -1 }
  | _ => none

/-- `DGifSavedExtensionToGCB`: the first block of its kind counts, even when it is
malformed. -/
def SavedImage.gcb (image : SavedImage) : GraphicsControlBlock :=
  ((image.extensionBlocks.find? fun block => block.function = 0xf9).bind fun block =>
    extensionToGCB block.bytes).getD { disposalMode := 0, transparentColor := -1 }

def GifFile.colorMap (gif : GifFile) (image : SavedImage) : Option (List Color) :=
  image.desc.colorMap.or gif.sColorMap

def GifFile.bgcolor (gif : GifFile) (alpha : Int) : Nat :=
  if gif.sColorMap.isSome then gif.sBackGroundColor.toNat
  else if 0 ≤ alpha then uint8 alpha
  else 0

/-- The values of `source_x` and `dest_x` in the turns of the inner loop. -/
def rowVisits (width height : Int) (img : ImageDesc) (i : Nat) : List (Int × Int) :=
  let pixelRowNumber := int32 (i + img.top)
  if pixelRowNumber < height then
    let k := int32 (pixelRowNumber * width)
    let destX := int32 (k + img.left)
    let dlim := int32 (destX + img.width)
    let dlim := if int32 (k + width) < dlim then int32 (k + width) else dlim
    let sourceX := int32 (i * img.width)
    (List.range (dlim - destX).toNat).map fun (turn : Nat) => (int32 (sourceX + turn), int32 (destX + turn))
  else []

def visits (width height : Int) (img : ImageDesc) : List (Int × Int) :=
  (List.range img.height).flatMap (rowVisits width height img)

def solid (colors : List Color) (indexInColourTable : UInt8) : List UInt8 :=
  match colors[indexInColourTable.toNat]? with
  | some color => [color.red, color.green, color.blue, 255]
  | none => [0, 0, 0, 255]

/-- The four bytes for a raster index.  `none` is the use of a null map. -/
def rgba (map : Option (List Color)) (alpha : Int) (indexInColourTable : UInt8) : Option (List UInt8) :=
  if 0 < alpha ∧ (indexInColourTable.toNat : Int) = alpha then some [0, 0, 0, 0]
  else map.map fun colors => solid colors indexInColourTable

/-- A turn of the inner loop.  `none` is an access outside the raster or before
the canvas, or the use of a null map. -/
def drawPixel (map : Option (List Color)) (alpha : Int) (rasterBits : List UInt8) (framePixels : Memory UInt8)
    (visit : Int × Int) : Option (Memory UInt8) :=
  if visit.1 < 0 ∨ int32 (visit.2 * 4) < 0 then none
  else do
    let indexInColourTable ← rasterBits[visit.1.toNat]?
    let bytes ← rgba map alpha indexInColourTable
    some (framePixels.store (int32 (visit.2 * 4)).toNat bytes)

def draw (width height : Int) (map : Option (List Color)) (image : SavedImage) (framePixels : Memory UInt8) :
    Option (Memory UInt8) :=
  run (drawPixel map image.gcb.transparentColor image.rasterBits) framePixels (visits width height image.desc)

structure ImageDesc.Shows (img : ImageDesc) (width height x y : Nat) : Prop where
  column : x < width
  row : y < height
  left : img.left ≤ x
  right : x < img.left + img.width
  top : img.top ≤ y
  bottom : y < img.top + img.height

def ImageDesc.rasterIndex (img : ImageDesc) (x y : Nat) : Nat := (y - img.top) * img.width + (x - img.left)

theorem ImageDesc.Shows.rasterIndex_lt {img : ImageDesc} {width height x y : Nat}
    (shows : img.Shows width height x y) : img.rasterIndex x y < img.width * img.height := by
  have row : y - img.top + 1 ≤ img.height := by
    have := shows.top
    have := shows.bottom
    omega
  have column : x - img.left < img.width := by
    have := shows.left
    have := shows.right
    omega
  calc img.rasterIndex x y < (y - img.top) * img.width + img.width := Nat.add_lt_add_left column _
    _ = (y - img.top + 1) * img.width := by ring
    _ ≤ img.height * img.width := Nat.mul_le_mul_right _ row
    _ = img.width * img.height := Nat.mul_comm _ _

theorem place_unique {width x y x' y' : Nat} (column : x < width) (column' : x' < width)
    (same : y * width + x = y' * width + x') : x = x' ∧ y = y' := by
  have rows : y = y' := by
    have divided := congrArg (· / width) same
    have positive : 0 < width := by omega
    simpa [Nat.mul_comm _ width, Nat.mul_add_div positive, Nat.div_eq_of_lt column, Nat.div_eq_of_lt column']
      using divided
  subst rows
  exact ⟨by omega, rfl⟩

theorem place_lt {width height x y : Nat} (column : x < width) (row : y < height) :
    y * width + x < width * height := by
  calc y * width + x < y * width + width := Nat.add_lt_add_left column _
    _ = (y + 1) * width := by ring
    _ ≤ height * width := Nat.mul_le_mul_right _ row
    _ = width * height := Nat.mul_comm _ _

/-- The turns of a row whose first place on the canvas is `k` and whose first place
in the raster is `first`. -/
theorem turns_eq {k first left imgWidth width : Nat} (canvas : k + left + imgWidth < 2147483648)
    (edge : k + width < 2147483648) (raster : first + imgWidth < 2147483648) :
    let destX := int32 (k + left)
    let dlim := int32 (destX + imgWidth)
    let dlim := if int32 (k + width) < dlim then int32 (k + width) else dlim
    ((List.range (dlim - destX).toNat).map fun (turn : Nat) => (int32 (first + turn), int32 (destX + turn))) =
      (List.range (min imgWidth (width - left))).map fun turn =>
        (((first + turn : Nat) : Int), ((k + (left + turn) : Nat) : Int)) := by
  intro destX reach dlim
  have start : destX = ((k + left : Nat) : Int) := int32_of_small (by omega)
  have border : int32 (k + width) = ((k + width : Nat) : Int) := int32_of_small edge
  have limit : reach = ((k + left + imgWidth : Nat) : Int) := by
    simp only [reach, start]
    exact int32_of_small canvas
  have count : (dlim - destX).toNat = min imgWidth (width - left) := by
    simp only [dlim, border]
    clear_value reach destX
    subst start limit
    split <;> omega
  rw [count]
  apply List.map_congr_left
  intro turn member
  have inside := List.mem_range.mp member
  have source : int32 ((first : Int) + turn) = ((first + turn : Nat) : Int) := int32_of_small (by omega)
  have dest : int32 (destX + turn) = ((k + (left + turn) : Nat) : Int) := by
    rw [start, ← Nat.add_assoc]
    exact int32_of_small (by omega)
  rw [source, dest]

section

variable {width height : Nat} {img : ImageDesc}

/-- With a canvas whose size is an `int`, no index of the loops leaves its range. -/
theorem rowVisits_eq (fits : 4 * width * height < 2147483648) (raster : img.width * img.height < 2147483648)
    {i : Nat} (row : i < img.height) :
    rowVisits width height img i =
      if i + img.top < height then
        (List.range (min img.width (width - img.left))).map fun turn =>
          (((i * img.width + turn : Nat) : Int), (((i + img.top) * width + (img.left + turn) : Nat) : Int))
      else [] := by
  have tops := img.top_lt
  have lefts := img.left_lt
  have widths := img.width_lt
  have heights := img.height_lt
  have small : i + img.top < 2147483648 := by omega
  have rowNumber : int32 ((i : Int) + img.top) = ((i + img.top : Nat) : Int) := int32_of_small small
  rw [rowVisits]
  simp only [rowNumber, Nat.cast_lt]
  clear rowNumber
  by_cases inside : i + img.top < height
  · rw [if_pos inside, if_pos inside]
    have area : (i + img.top) * width + width ≤ width * height := by
      calc (i + img.top) * width + width = (i + img.top + 1) * width := by ring
        _ ≤ height * width := Nat.mul_le_mul_right _ inside
        _ = width * height := Nat.mul_comm _ _
    have source : i * img.width + img.width ≤ img.width * img.height := by
      calc i * img.width + img.width = (i + 1) * img.width := by ring
        _ ≤ img.height * img.width := Nat.mul_le_mul_right _ row
        _ = img.width * img.height := Nat.mul_comm _ _
    have bound : 4 * (width * height) < 2147483648 := by
      rw [← Nat.mul_assoc]
      exact fits
    have canvasRoom : (i + img.top) * width + img.left + img.width < 2147483648 := by omega
    have edgeRoom : (i + img.top) * width + width < 2147483648 := by omega
    have rasterRoom : i * img.width + img.width < 2147483648 := by omega
    have start : int32 (((i + img.top : Nat) : Int) * width) = (((i + img.top) * width : Nat) : Int) := by
      rw [← Nat.cast_mul]
      exact int32_of_small (Nat.lt_of_le_of_lt (Nat.le_add_right _ _) edgeRoom)
    have sourceStart : int32 ((i : Int) * img.width) = ((i * img.width : Nat) : Int) := by
      rw [← Nat.cast_mul]
      exact int32_of_small (Nat.lt_of_le_of_lt (Nat.le_add_right _ _) rasterRoom)
    rw [start, sourceStart]
    exact turns_eq canvasRoom edgeRoom rasterRoom
  · rw [if_neg inside, if_neg inside]

/-- The loops visit exactly the pixels that the image has on the canvas. -/
theorem mem_visits (fits : 4 * width * height < 2147483648) (raster : img.width * img.height < 2147483648)
    {visit : Int × Int} :
    visit ∈ visits width height img ↔
      ∃ x y, img.Shows width height x y ∧ visit = ((img.rasterIndex x y : Int), ((y * width + x : Nat) : Int)) := by
  rw [visits, List.mem_flatMap]
  constructor
  · intro visited
    obtain ⟨i, member, visited⟩ := visited
    have row : i < img.height := List.mem_range.mp member
    rw [rowVisits_eq fits raster row] at visited
    split at visited
    · rename_i inside
      obtain ⟨turn, turns, rfl⟩ := List.mem_map.mp visited
      have within := List.mem_range.mp turns
      refine ⟨img.left + turn, i + img.top, ⟨by omega, inside, by omega, by omega, by omega, by omega⟩, ?_⟩
      rw [ImageDesc.rasterIndex, Nat.add_sub_cancel, Nat.add_sub_cancel_left]
    · exact absurd visited List.not_mem_nil
  · intro shown
    obtain ⟨x, y, shows, rfl⟩ := shown
    obtain ⟨column, row, left, right, top, bottom⟩ := shows
    have inImage : y - img.top < img.height := by omega
    have inCanvas : y - img.top + img.top < height := by omega
    refine ⟨y - img.top, List.mem_range.mpr inImage, ?_⟩
    rw [rowVisits_eq fits raster inImage, if_pos inCanvas]
    refine List.mem_map.mpr ⟨x - img.left, List.mem_range.mpr (by omega), ?_⟩
    rw [Nat.sub_add_cancel top, Nat.add_sub_cancel' left, ImageDesc.rasterIndex]

end

end Webapp.Images
