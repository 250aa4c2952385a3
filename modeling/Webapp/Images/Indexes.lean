import Webapp.Images.Gif

namespace Webapp.Images

open Webapp.Data

/-! The indexes that `gifInsertFrame` uses for one image, in the order of the
source.  `framePixels` and `nextFrame` are buffers of one size.
-/

inductive FrameAccess where
  | canvas (index : Int)
  | raster (index : Int)
  | colorCount
  | colors (index : Int)
deriving DecidableEq, Repr

def pixelBytes (start : Int) : List FrameAccess :=
  (List.range 4).map fun (byte : Nat) => .canvas (start + byte)

def fillAccesses (rastersize : Int) : List FrameAccess :=
  -- for(int i = 0; i < rastersize; i += 4)
  (List.range ((rastersize + 3) / 4).toNat).flatMap fun (turn : Nat) => pixelBytes (4 * turn)

def blockAccesses (rastersize : Int) : List FrameAccess :=
  (List.range rastersize.toNat).map fun (index : Nat) => .canvas index

section

variable (map : Option (List Color)) (alpha : Int)

/-- A null map has no count; what is done after its use is not listed. -/
def colourAccesses (indexInColourTable : UInt8) : List FrameAccess :=
  if 0 < alpha ∧ (indexInColourTable.toNat : Int) = alpha then []
  else .colorCount ::
    if indexInColourTable.toNat < (map.getD []).length then [.colors indexInColourTable.toNat] else []

def pixelAccesses (rasterBits : List UInt8) (visit : Int × Int) : List FrameAccess :=
  .raster visit.1 ::
    (colourAccesses map alpha (rasterBits.getD visit.1.toNat 0) ++ pixelBytes (int32 (visit.2 * 4)))

end

namespace GifFile

variable (gif : GifFile) (frame : Nat) (image : SavedImage)

def firstFrameAccesses : List FrameAccess :=
  if frame = 0 then .colors (gif.bgcolor image.gcb.transparentColor) :: fillAccesses gif.rastersize else []

def drawAccesses : List FrameAccess :=
  (visits gif.sWidth gif.sHeight image.desc).flatMap
    (pixelAccesses (gif.colorMap image) image.gcb.transparentColor image.rasterBits)

def nextFrameAccesses : List FrameAccess :=
  if frame + 1 < gif.savedImages.length then
    if image.gcb.disposalMode = disposeDoNot then blockAccesses gif.rastersize
    else if image.gcb.disposalMode = disposeBackground then
      if (gif.bgcolor image.gcb.transparentColor : Int) = image.gcb.transparentColor then
        blockAccesses gif.rastersize
      else .colors (gif.bgcolor image.gcb.transparentColor) :: fillAccesses gif.rastersize
    -- DISPOSE_PREVIOUS and all other modes copy or clear the whole frame.
    else blockAccesses gif.rastersize
  else []

def frameAccesses : List FrameAccess :=
  gif.firstFrameAccesses frame image ++ gif.drawAccesses image ++ gif.nextFrameAccesses frame image

end GifFile

def FrameAccess.InRange (gif : GifFile) (image : SavedImage) : FrameAccess → Prop
  | .canvas index => 0 ≤ index ∧ index < 4 * gif.sWidth * gif.sHeight
  | .raster index => 0 ≤ index ∧ index < image.desc.width * image.desc.height
  | .colorCount => gif.colorMap image ≠ none
  | .colors index => ∃ colors, gif.colorMap image = some colors ∧ 0 ≤ index ∧ index < colors.length

namespace GifFile

variable (gif : GifFile) (frame : Nat) (image : SavedImage)

/-- The background colour is looked up for the first image, and where an image is
replaced by the background. -/
def PaintsBackground : Prop :=
  frame = 0 ∨ (frame + 1 < gif.savedImages.length ∧ image.gcb.disposalMode = disposeBackground ∧
    (gif.bgcolor image.gcb.transparentColor : Int) ≠ image.gcb.transparentColor)

structure Backed : Prop where
  background : gif.PaintsBackground frame image →
    ∃ colors, gif.colorMap image = some colors ∧ gif.bgcolor image.gcb.transparentColor < colors.length
  pixels : gif.colorMap image = none → ∀ x y, image.desc.Shows gif.sWidth gif.sHeight x y →
    0 < image.gcb.transparentColor ∧
      ((image.rasterBits.getD (image.desc.rasterIndex x y) 0).toNat : Int) = image.gcb.transparentColor

end GifFile

section

variable {gif : GifFile} {frame : Nat} {image : SavedImage}

theorem pixelBytes_inRange {place : Nat} (inside : place < gif.sWidth * gif.sHeight) :
    ∀ access ∈ pixelBytes (4 * place), access.InRange gif image := by
  intro access used
  obtain ⟨byte, member, rfl⟩ := List.mem_map.mp used
  have last := List.mem_range.mp member
  rw [FrameAccess.InRange, Int.mul_assoc]
  generalize size : gif.sWidth * gif.sHeight = size at inside
  rw [← Nat.cast_mul, size]
  omega

theorem fillAccesses_inRange (fits : 4 * gif.sWidth * gif.sHeight < 2147483648) :
    ∀ access ∈ fillAccesses gif.rastersize, access.InRange gif image := by
  intro access used
  rw [rastersize_eq fits, Nat.mul_assoc] at used
  obtain ⟨turn, member, bytes⟩ := List.mem_flatMap.mp used
  have turns := List.mem_range.mp member
  exact pixelBytes_inRange (by omega) access bytes

theorem blockAccesses_inRange (fits : 4 * gif.sWidth * gif.sHeight < 2147483648) :
    ∀ access ∈ blockAccesses gif.rastersize, access.InRange gif image := by
  intro access used
  rw [rastersize_eq fits, blockAccesses, Int.toNat_natCast] at used
  obtain ⟨index, member, rfl⟩ := List.mem_map.mp used
  have inside := List.mem_range.mp member
  refine ⟨Int.natCast_nonneg index, ?_⟩
  exact_mod_cast inside

theorem background_inRange_iff (fits : 4 * gif.sWidth * gif.sHeight < 2147483648) {bgcolor : Nat} :
    (∀ access ∈ FrameAccess.colors bgcolor :: fillAccesses gif.rastersize, access.InRange gif image) ↔
      ∃ colors, gif.colorMap image = some colors ∧ bgcolor < colors.length := by
  rw [List.forall_mem_cons, and_iff_left (fillAccesses_inRange fits), FrameAccess.InRange]
  simp

theorem firstFrame_inRange_iff (fits : 4 * gif.sWidth * gif.sHeight < 2147483648) :
    (∀ access ∈ gif.firstFrameAccesses frame image, access.InRange gif image) ↔
      (frame = 0 →
        ∃ colors, gif.colorMap image = some colors ∧ gif.bgcolor image.gcb.transparentColor < colors.length) := by
  rw [GifFile.firstFrameAccesses]
  split
  · rename_i first
    rw [background_inRange_iff fits, forall_prop_of_true first]
  · rename_i later
    simp [later]

theorem nextFrame_inRange_iff (fits : 4 * gif.sWidth * gif.sHeight < 2147483648) :
    (∀ access ∈ gif.nextFrameAccesses frame image, access.InRange gif image) ↔
      (frame + 1 < gif.savedImages.length ∧ image.gcb.disposalMode = disposeBackground ∧
          (gif.bgcolor image.gcb.transparentColor : Int) ≠ image.gcb.transparentColor →
        ∃ colors, gif.colorMap image = some colors ∧ gif.bgcolor image.gcb.transparentColor < colors.length) := by
  have block : ∀ access ∈ blockAccesses gif.rastersize, access.InRange gif image := blockAccesses_inRange fits
  rw [GifFile.nextFrameAccesses]
  by_cases next : frame + 1 < gif.savedImages.length
  · rw [if_pos next]
    by_cases background : image.gcb.disposalMode = disposeBackground
    · rw [if_neg (by rw [background]; decide), if_pos background]
      by_cases clear : (gif.bgcolor image.gcb.transparentColor : Int) = image.gcb.transparentColor
      · rw [if_pos clear, iff_true_left block]
        intro painted
        exact absurd clear painted.2.2
      · rw [if_neg clear, background_inRange_iff fits, forall_prop_of_true ⟨next, background, clear⟩]
    · rw [if_neg background, ite_self, iff_true_left block]
      intro painted
      exact absurd painted.2.1 background
  · rw [if_neg next]
    simp [next]

theorem colourAccesses_inRange_iff {indexInColourTable : UInt8} :
    (∀ access ∈ colourAccesses (gif.colorMap image) image.gcb.transparentColor indexInColourTable,
        access.InRange gif image) ↔
      (gif.colorMap image = none →
        0 < image.gcb.transparentColor ∧ (indexInColourTable.toNat : Int) = image.gcb.transparentColor) := by
  rw [colourAccesses]
  split
  · rename_i transparent
    simp [transparent]
  · rename_i coloured
    rw [List.forall_mem_cons, FrameAccess.InRange]
    cases found : gif.colorMap image with
    | none => simp [coloured]
    | some colors =>
        simp only [ne_eq, reduceCtorEq, not_false_eq_true, Option.getD_some, true_and, false_implies, iff_true]
        intro access used
        split at used
        · rename_i inside
          obtain rfl := List.mem_singleton.mp used
          refine ⟨colors, found, Int.natCast_nonneg _, ?_⟩
          exact_mod_cast inside
        · exact absurd used List.not_mem_nil

theorem pixelAccesses_inRange_iff (fits : 4 * gif.sWidth * gif.sHeight < 2147483648) {x y : Nat}
    (shows : image.desc.Shows gif.sWidth gif.sHeight x y) :
    (∀ access ∈ pixelAccesses (gif.colorMap image) image.gcb.transparentColor image.rasterBits
        ((image.desc.rasterIndex x y : Int), ((y * gif.sWidth + x : Nat) : Int)), access.InRange gif image) ↔
      (gif.colorMap image = none → 0 < image.gcb.transparentColor ∧
        ((image.rasterBits.getD (image.desc.rasterIndex x y) 0).toNat : Int) = image.gcb.transparentColor) := by
  have place : y * gif.sWidth + x < gif.sWidth * gif.sHeight := place_lt shows.column shows.row
  have raster : (FrameAccess.raster (image.desc.rasterIndex x y)).InRange gif image := by
    refine ⟨Int.natCast_nonneg _, ?_⟩
    exact_mod_cast shows.rasterIndex_lt
  have small : (y * gif.sWidth + x) * 4 < 2147483648 := by
    rw [Nat.mul_assoc] at fits
    omega
  have start : int32 (((y * gif.sWidth + x : Nat) : Int) * 4) = 4 * ((y * gif.sWidth + x : Nat) : Int) := by
    rw [Int.mul_comm 4]
    exact int32_of_small small
  rw [pixelAccesses, start, List.forall_mem_cons, and_iff_right raster, List.forall_mem_append,
    and_iff_left (pixelBytes_inRange place), Int.toNat_natCast]
  exact colourAccesses_inRange_iff

theorem draw_inRange_iff (fits : 4 * gif.sWidth * gif.sHeight < 2147483648) :
    (∀ access ∈ gif.drawAccesses image, access.InRange gif image) ↔
      (gif.colorMap image = none → ∀ x y, image.desc.Shows gif.sWidth gif.sHeight x y →
        0 < image.gcb.transparentColor ∧
          ((image.rasterBits.getD (image.desc.rasterIndex x y) 0).toNat : Int) = image.gcb.transparentColor) := by
  rw [GifFile.drawAccesses, List.forall_mem_flatMap]
  constructor
  · intro ranges null x y shows
    have visited := (mem_visits fits image.raster_int).mpr ⟨x, y, shows, rfl⟩
    exact (pixelAccesses_inRange_iff fits shows).mp (ranges _ visited) null
  · intro transparent visit visited
    obtain ⟨x, y, shows, rfl⟩ := (mem_visits fits image.raster_int).mp visited
    exact (pixelAccesses_inRange_iff fits shows).mpr fun null => transparent null x y shows

theorem frame_inRange_iff (fits : 4 * gif.sWidth * gif.sHeight < 2147483648) :
    (∀ access ∈ gif.frameAccesses frame image, access.InRange gif image) ↔ gif.Backed frame image := by
  rw [GifFile.frameAccesses, List.forall_mem_append, List.forall_mem_append, firstFrame_inRange_iff fits,
    draw_inRange_iff fits, nextFrame_inRange_iff fits]
  constructor
  · intro ranges
    obtain ⟨⟨first, drawn⟩, next⟩ := ranges
    exact ⟨fun paints => paints.elim first next, drawn⟩
  · intro backed
    exact ⟨⟨fun first => backed.background (Or.inl first), backed.pixels⟩,
      fun next => backed.background (Or.inr next)⟩

theorem drawPixel_of_inRange {visit : Int × Int}
    (ranges : ∀ access ∈ pixelAccesses (gif.colorMap image) image.gcb.transparentColor image.rasterBits visit,
      access.InRange gif image) (pixels : Memory UInt8) :
    ∃ next, drawPixel (gif.colorMap image) image.gcb.transparentColor image.rasterBits pixels visit = some next := by
  rw [pixelAccesses, List.forall_mem_cons, List.forall_mem_append, colourAccesses_inRange_iff] at ranges
  obtain ⟨⟨lower, upper⟩, coloured, bytes⟩ := ranges
  have start := (bytes (.canvas (int32 (visit.2 * 4))) (by simp [pixelBytes])).1
  have inside : visit.1.toNat < image.rasterBits.length := by
    rw [image.raster_length, Int.toNat_lt lower]
    exact_mod_cast upper
  rw [List.getD_eq_getElem?_getD, List.getElem?_eq_getElem inside, Option.getD_some] at coloured
  have colour : ∃ four, rgba (gif.colorMap image) image.gcb.transparentColor
      (image.rasterBits[visit.1.toNat]) = some four := by
    rw [rgba]
    split
    · exact ⟨_, rfl⟩
    · rename_i visible
      obtain ⟨colors, found⟩ := Option.ne_none_iff_exists'.mp fun null => visible (coloured null)
      exact ⟨_, by rw [found, Option.map_some]⟩
  obtain ⟨four, colour⟩ := colour
  rw [drawPixel, if_neg (not_or.mpr ⟨not_lt.mpr lower, not_lt.mpr start⟩), List.getElem?_eq_getElem inside]
  refine ⟨pixels.store (int32 (visit.2 * 4)).toNat four, ?_⟩
  simp only [bind, Option.bind, colour]

theorem draw_of_inRange (ranges : ∀ access ∈ gif.drawAccesses image, access.InRange gif image)
    (pixels : Memory UInt8) :
    ∃ after, draw gif.sWidth gif.sHeight (gif.colorMap image) image pixels = some after := by
  apply run_exists
  intro visit visited before
  apply drawPixel_of_inRange
  intro access used
  exact ranges access (List.mem_flatMap.mpr ⟨visit, visited, used⟩)

end

def GifFile.IndexesInRange (gif : GifFile) : Prop :=
  ∀ frame image, gif.savedImages[frame]? = some image →
    ∀ access ∈ gif.frameAccesses frame image, access.InRange gif image

/-- All indexes are in range exactly when every image finds its background colour,
where it needs one, and a map for the pixels that are not transparent. -/
theorem gifInsertFrame_inRange_iff (gif : GifFile) (fits : 4 * gif.sWidth * gif.sHeight < 2147483648) :
    gif.IndexesInRange ↔ ∀ frame image, gif.savedImages[frame]? = some image → gif.Backed frame image := by
  constructor
  · intro ranges frame image found
    exact (frame_inRange_iff fits).mp (ranges frame image found)
  · intro backed frame image found
    exact (frame_inRange_iff fits).mpr (backed frame image found)

def oneImage (sBackGroundColor : UInt8) (sColorMap : Option (List Color)) : GifFile where
  sWidth := 1
  sHeight := 1
  sBackGroundColor := sBackGroundColor
  sColorMap := sColorMap
  savedImages := [.onePixel 0 []]

/-- The first image is painted over with the background, and the second hangs over the
right edge. -/
def twoImages : GifFile where
  sWidth := 2
  sHeight := 1
  sBackGroundColor := 1
  sColorMap := some [⟨0, 0, 0⟩, ⟨255, 255, 255⟩]
  savedImages := [.onePixel 0 [⟨0xf9, [8, 0, 0, 0]⟩], .overhanging 1 200]

theorem gifInsertFrame_inRange_twoImages :
    (twoImages.savedImages.map fun image => (visits 2 1 image.desc).length) = [1, 1] ∧ twoImages.IndexesInRange := by
  refine ⟨by decide, (gifInsertFrame_inRange_iff twoImages (by decide)).mpr ?_⟩
  intro frame image found
  have member := List.mem_of_getElem? found
  have mapped : twoImages.colorMap image = some [⟨0, 0, 0⟩, ⟨255, 255, 255⟩] := by
    simp only [twoImages, List.mem_cons, List.not_mem_nil, or_false] at member
    rcases member with rfl | rfl
    · rfl
    · rfl
  refine ⟨fun _ => ⟨_, mapped, by simp [GifFile.bgcolor, twoImages]⟩, ?_⟩
  intro null
  rw [mapped] at null
  cases null

/-- A background index that the map does not have, and a file without any map. -/
theorem gifInsertFrame_outOfRange :
    (FrameAccess.colors 200 ∈ (oneImage 200 (some [⟨0, 0, 0⟩, ⟨255, 255, 255⟩])).frameAccesses 0 (.onePixel 0 []) ∧
      ((oneImage 200 (some [⟨0, 0, 0⟩, ⟨255, 255, 255⟩])).colorMap (.onePixel 0 [])).map List.length = some 2) ∧
    FrameAccess.colors 0 ∈ (oneImage 0 none).frameAccesses 0 (.onePixel 0 []) ∧
      (oneImage 0 none).colorMap (.onePixel 0 []) = none := by
  decide

end Webapp.Images
