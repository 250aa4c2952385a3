import Webapp.Data.Runs
import Webapp.Images.PixelBuffers

namespace Webapp.Images

open Webapp.Data

/-! JPEG and PNG images between a `load` and the encoders of `save`.  An address is
the number of a buffer and a place in it; buffers are numbered as they are
allocated.
-/

inductive ImageType where
  | jpeg
  | png
  | gif
deriving DecidableEq, Repr

/-- `tolower` of the C locale. -/
def toLower (byte : UInt8) : UInt8 := if 0x41 ≤ byte ∧ byte ≤ 0x5a then byte + 0x20 else byte

def endsWith (name other : List UInt8) : Bool := other.isSuffixOf name

/-- ".jpg", ".jpeg" -/
def thumbExtensionsJpeg : List (List UInt8) := [[0x2e, 0x6a, 0x70, 0x67], [0x2e, 0x6a, 0x70, 0x65, 0x67]]

/-- ".png" -/
def pngExtension : List UInt8 := [0x2e, 0x70, 0x6e, 0x67]

/-- ".gif" -/
def gifExtension : List UInt8 := [0x2e, 0x67, 0x69, 0x66]

/-- The type a file name asks for. -/
def namedType (filename : List UInt8) : Option ImageType :=
  let f := filename.map toLower
  if endsWith f gifExtension then some .gif
  else if endsWith f pngExtension then some .png
  else if thumbExtensionsJpeg.any (endsWith f) then some .jpeg
  else none

/-- `JPEG_MAX_DIMENSION` -/
def jpegMaxDimension : Nat := 65500

structure Jpeg where
  width : Nat
  height : Nat
  width_range : 0 < width ∧ width ≤ jpegMaxDimension
  height_range : 0 < height ∧ height ≤ jpegMaxDimension

/-- The fields of `Image` that the encoders read.  `imageType` is `none` for -1, and
`bytes` is the size of the buffer `pixels`. -/
structure Image where
  imageType : Option ImageType
  width : Nat
  height : Nat
  bitdepth : Nat
  pixels : Nat
  bytes : Int
  rowPointers : Option (List (Nat × Int))
deriving DecidableEq, Repr

namespace Image

/-- The addresses that `regenRowPointers` writes to a new table. -/
def table (image : Image) : List (Nat × Int) :=
  (Images.regenRowPointers image.width image.height).map fun row => (image.pixels, row)

def regenRowPointers (image : Image) : Image := { image with rowPointers := some image.table }

/-- A new buffer for the pixels.  `new` throws for a negative size. -/
def allocate (image : Image) (buffer : PixelBuffer) : Option Image :=
  match buffer.allocated with
  | none => some image
  | some bytes => if bytes < 0 then none else some { image with pixels := image.pixels + 1, bytes := bytes }

def loadJpeg (file : Jpeg) : Option Image :=
  allocate { imageType := some .jpeg, width := file.width, height := file.height, bitdepth := 8, pixels := 0,
             bytes := 0, rowPointers := none } (.jpeg file.width file.height)

def loadPng (file : Png) : Option Image := do
  let image ← allocate { imageType := some .png, width := file.width, height := file.height,
                         bitdepth := file.bitDepth, pixels := 0, bytes := 0, rowPointers := none } (.png file)
  some image.regenRowPointers

def changeType (image : Image) (filename : List UInt8) : Image :=
  let f := filename.map toLower
  let image := if thumbExtensionsJpeg.any (endsWith f) then { image with imageType := some .jpeg } else image
  let image :=
    if endsWith f pngExtension then
      { (if image.imageType.isSome ∧ image.imageType ≠ some .png then image.regenRowPointers else image) with
        imageType := some .png }
    else image
  if endsWith f gifExtension then { image with imageType := some .gif } else image

/-- `Image::resize` for an image that is not a GIF file.  `cv::resize` does not
return for a size that is not positive. -/
def resize (image : Image) (width height : Int) : Option Image :=
  if image.imageType = some .gif ∨ width ≤ 0 ∨ height ≤ 0 then none
  else do
    let image ← image.allocate (.resized width height image.width image.height)
    let image := { image with width := width.toNat, height := height.toNat }
    some (if image.imageType = some .png then image.regenRowPointers else image)

/-- `Image::save` with the addresses that its encoder is given; `fails` is an error
of the encoder.  libjpeg then ends the process, while the other two come to
`finish`.  An image that was not a GIF file has no colour map to encode one. -/
def save (image : Image) (filename : List UInt8) (fails : Bool) : Option (List (Nat × Int) × Image) :=
  let oldType := image.imageType
  let image := image.changeType filename
  let finish := { image with imageType := oldType }
  match image.imageType with
  | some .jpeg =>
      if fails = true ∨ jpegMaxDimension < image.width ∨ jpegMaxDimension < image.height then none
      else some ((scanlines image.width image.height).map (fun (row : Nat) => (image.pixels, (row : Int))), finish)
  | some .png => some (image.rowPointers.getD [], finish)
  | some .gif => if fails then some ([], finish) else none
  | none => some ([], finish)

def rows (image : Image) : List (Nat × Int) :=
  (List.range image.height).map fun i => (image.pixels, ((4 * image.width * i : Nat) : Int))

end Image

inductive ImageFile where
  | jpeg (file : Jpeg)
  | png (file : Png)

def load : ImageFile → Option Image
  | .jpeg file => Image.loadJpeg file
  | .png file => Image.loadPng file

inductive ImageCall where
  | resize (width height : Int)
  | save (filename : List UInt8) (fails : Bool)

def call (image : Image) : ImageCall → Option Image
  | .resize width height => image.resize width height
  | .save filename fails => (image.save filename fails).map Prod.snd

/-- The type that `save` encodes. -/
def Image.encoded (image : Image) (filename : List UInt8) : Option ImageType := (namedType filename).or image.imageType

/-- The table of rows is kept or written anew; a PNG is never encoded with the one
that another type has left. -/
theorem changeType_eq {image : Image} {imageType : ImageType} (typed : image.imageType = some imageType)
    (filename : List UInt8) :
    ∃ rows, image.changeType filename =
        { image with imageType := image.encoded filename, rowPointers := rows } ∧
      (rows = image.rowPointers ∨ rows = some image.table) ∧
      (image.encoded filename = some .png → imageType = .png ∨ rows = some image.table) := by
  rw [Image.changeType, Image.encoded, namedType, typed]
  generalize endsWith (filename.map toLower) gifExtension = gif
  generalize endsWith (filename.map toLower) pngExtension = png
  generalize thumbExtensionsJpeg.any (endsWith (filename.map toLower)) = jpeg
  cases png with
  | false =>
      refine ⟨image.rowPointers, ?_, Or.inl rfl, ?_⟩
      · cases gif <;> cases jpeg <;> simp [← typed]
      · cases gif <;> cases jpeg <;> simp +contextual
  | true =>
      cases jpeg with
      | true =>
          refine ⟨some image.table, ?_, Or.inr rfl, fun _ => Or.inr rfl⟩
          cases gif <;> simp [Image.regenRowPointers, Image.table]
      | false =>
          by_cases same : imageType = .png
          · refine ⟨image.rowPointers, ?_, Or.inl rfl, fun _ => Or.inl same⟩
            cases gif <;> simp [typed, same]
          · refine ⟨some image.table, ?_, Or.inr rfl, fun _ => Or.inr rfl⟩
            cases gif <;> simp [typed, same, Image.regenRowPointers, Image.table]

/-- A JPEG or PNG image; the table of a PNG is the one of its pixels. -/
structure Current (image : Image) : Prop where
  width : 0 < image.width
  height : 0 < image.height
  type : image.imageType = some .jpeg ∨ image.imageType = some .png
  table : image.imageType = some .png → image.rowPointers = some image.table

def SavesCurrent (image : Image) : ImageCall → Prop
  | .resize _ _ => True
  | .save filename fails => ∃ rows next, image.save filename fails = some (rows, next) ∧
      (image.encoded filename ≠ some .gif → rows = image.rows) ∧ next.imageType = image.imageType

/-- The last row begins within the range of the type that its place is computed in,
and an encoder that cannot fail or cannot succeed does not. -/
def Fits (image : Image) : ImageCall → Prop
  | .resize _ _ => True
  | .save filename fails =>
      match image.encoded filename with
      | some .jpeg => fails = false ∧ image.width ≤ jpegMaxDimension ∧ image.height ≤ jpegMaxDimension ∧
          4 * image.width * (image.height - 1) < 4294967296
      | some .png => 4 * image.width * (image.height - 1) < 2147483648
      | _ => fails = true

section

variable {image : Image}

theorem table_eq_rows_iff : image.table = image.rows ↔ 4 * image.width * (image.height - 1) < 2147483648 := by
  have split : image.rows = ((List.range image.height).map fun i => ((4 * image.width * i : Nat) : Int)).map
      fun row => (image.pixels, row) := by
    rw [Image.rows, List.map_map]
    rfl
  rw [split, Image.table, (List.map_injective_iff.mpr (Prod.mk_right_injective image.pixels)).eq_iff]
  exact regenRowPointers_eq_iff _ _

theorem scanlines_eq_rows_iff :
    (scanlines image.width image.height).map (fun (row : Nat) => (image.pixels, (row : Int))) = image.rows ↔
      4 * image.width * (image.height - 1) < 4294967296 := by
  have split : image.rows = ((List.range image.height).map fun i => 4 * image.width * i).map
      fun (row : Nat) => (image.pixels, (row : Int)) := by
    rw [Image.rows, List.map_map]
    rfl
  have injective : Function.Injective fun (row : Nat) => (image.pixels, (row : Int)) :=
    (Prod.mk_right_injective image.pixels).comp Nat.cast_injective
  rw [split, (List.map_injective_iff.mpr injective).eq_iff]
  exact scanlines_eq_iff _ _

/-- What `save` does to a current image: the table may be written anew, the rest
stays. -/
theorem Current.save_eq (current : Current image) (filename : List UInt8) (fails : Bool) :
    ∃ next, Current next ∧ (∃ rows, next = { image with rowPointers := rows }) ∧ image.save filename fails =
      match image.encoded filename with
      | some .jpeg =>
          if fails = true ∨ jpegMaxDimension < image.width ∨ jpegMaxDimension < image.height then none
          else some ((scanlines image.width image.height).map (fun (row : Nat) => (image.pixels, (row : Int))), next)
      | some .png => some (image.table, next)
      | some .gif => if fails then some ([], next) else none
      | none => some ([], next) := by
  obtain ⟨imageType, typed⟩ : ∃ imageType, image.imageType = some imageType := by
    rcases current.type with jpeg | png
    · exact ⟨_, jpeg⟩
    · exact ⟨_, png⟩
  obtain ⟨rows, changed, kept, anew⟩ := changeType_eq typed filename
  refine ⟨{ image with rowPointers := rows }, ⟨current.width, current.height, current.type, ?_⟩, ⟨rows, rfl⟩, ?_⟩
  · intro png
    rcases kept with same | written
    · exact same.trans (current.table png)
    · exact written
  · rw [Image.save, changed]
    cases encoded : image.encoded filename with
    | none => rfl
    | some encoding =>
        cases encoding with
        | jpeg => rfl
        | gif => rfl
        | png =>
            have written : rows = some image.table := by
              rcases anew encoded with png | written
              · rcases kept with same | written
                · exact same.trans (current.table (typed.trans (congrArg some png)))
                · exact written
              · exact written
            simp only [written]
            rfl

theorem Current.encoded (current : Current image) (filename : List UInt8) : image.encoded filename ≠ none := by
  rw [Image.encoded]
  rcases current.type with typed | typed <;> cases namedType filename <;> simp [typed]

theorem Current.savesCurrent_iff (current : Current image) (event : ImageCall) :
    SavesCurrent image event ↔ Fits image event := by
  cases event with
  | resize width height => exact Iff.rfl
  | save filename fails =>
      obtain ⟨next, _, ⟨rows, rfl⟩, saved⟩ := current.save_eq filename fails
      rw [SavesCurrent, Fits, saved]
      cases encoded : image.encoded filename with
      | none => exact absurd encoded (current.encoded filename)
      | some encoding =>
          cases encoding with
          | gif => cases fails <;> simp
          | png => simp [table_eq_rows_iff]
          | jpeg =>
              simp only [← scanlines_eq_rows_iff]
              cases fails with
              | true => simp
              | false =>
                  by_cases large : jpegMaxDimension < image.width ∨ jpegMaxDimension < image.height
                  · constructor
                    · intro saves
                      obtain ⟨_, _, returned, _⟩ := saves
                      simp [large] at returned
                    · intro fits
                      omega
                  · simp only [Bool.false_eq_true, false_or, if_neg large]
                    have small : image.width ≤ jpegMaxDimension ∧ image.height ≤ jpegMaxDimension := by omega
                    simp [small]

theorem allocate_eq {next : Image} {buffer : PixelBuffer} (allocated : image.allocate buffer = some next) :
    ∃ pixels bytes, next = { image with pixels := pixels, bytes := bytes } ∧
      (buffer.allocated = none ∧ bytes = image.bytes ∨ buffer.allocated = some bytes ∧ 0 ≤ bytes) := by
  rw [Image.allocate] at allocated
  cases size : buffer.allocated with
  | none =>
      simp only [size] at allocated
      cases allocated
      exact ⟨image.pixels, image.bytes, rfl, Or.inl ⟨rfl, rfl⟩⟩
  | some bytes =>
      simp only [size] at allocated
      split at allocated
      · contradiction
      · cases allocated
        exact ⟨_, bytes, rfl, Or.inr ⟨rfl, by omega⟩⟩

structure Resized (image next : Image) (width height : Int) : Prop where
  widths : 0 < width ∧ (next.width : Int) = width
  heights : 0 < height ∧ (next.height : Int) = height
  type : next.imageType = image.imageType
  bitdepth : next.bitdepth = image.bitdepth
  table : image.imageType = some .png → next.rowPointers = some next.table
  bytes : ((PixelBuffer.resized width height image.width image.height).allocated = none ∧ next.bytes = image.bytes) ∨
    ((PixelBuffer.resized width height image.width image.height).allocated = some next.bytes ∧ 0 ≤ next.bytes)

theorem resize_eq {next : Image} {width height : Int} (resized : image.resize width height = some next) :
    Resized image next width height := by
  rw [Image.resize] at resized
  split at resized
  · contradiction
  · rename_i accepted
    push Not at accepted
    obtain ⟨_, positiveWidth, positiveHeight⟩ := accepted
    obtain ⟨between, allocated, resized⟩ := Option.bind_eq_some_iff.mp resized
    obtain ⟨pixels, bytes, rfl, size⟩ := allocate_eq allocated
    have sizes : ((width.toNat : Nat) : Int) = width ∧ ((height.toNat : Nat) : Int) = height := by omega
    dsimp only at resized
    split at resized
    · cases resized
      exact ⟨⟨positiveWidth, sizes.1⟩, ⟨positiveHeight, sizes.2⟩, rfl, rfl, fun _ => rfl, size⟩
    · rename_i other
      cases resized
      exact ⟨⟨positiveWidth, sizes.1⟩, ⟨positiveHeight, sizes.2⟩, rfl, rfl, fun png => absurd png other, size⟩

theorem Current.saved {next : Image} {filename : List UInt8} {fails : Bool} (current : Current image)
    (taken : call image (.save filename fails) = some next) :
    Current next ∧ ∃ rows, next = { image with rowPointers := rows } := by
  obtain ⟨after, later, kept, saved⟩ := current.save_eq filename fails
  have returned : after = next := by
    rw [call, saved] at taken
    split at taken
    · split at taken <;> simp_all
    · simpa using taken
    · split at taken <;> simp_all
    · simpa using taken
  rw [← returned]
  exact ⟨later, kept⟩

theorem Current.call {next : Image} {event : ImageCall} (current : Current image)
    (taken : call image event = some next) : Current next := by
  cases event with
  | resize width height =>
      have resized := resize_eq taken
      have widths := resized.widths
      have heights := resized.heights
      refine ⟨by omega, by omega, ?_, ?_⟩
      · rw [resized.type]
        exact current.type
      · rw [resized.type]
        exact resized.table
  | save filename fails => exact (current.saved taken).1

theorem load_current {file : ImageFile} (loaded : load file = some image) : Current image := by
  cases file with
  | jpeg file =>
      rw [load, Image.loadJpeg] at loaded
      obtain ⟨pixels, bytes, rfl, _⟩ := allocate_eq loaded
      exact ⟨file.width_range.1, file.height_range.1, Or.inl rfl, by simp⟩
  | png file =>
      rw [load, Image.loadPng] at loaded
      obtain ⟨between, allocated, loaded⟩ := Option.bind_eq_some_iff.mp loaded
      obtain ⟨pixels, bytes, rfl, _⟩ := allocate_eq allocated
      cases loaded
      exact ⟨file.width_range.1, file.height_range.1, Or.inr rfl, fun _ => rfl⟩

end

/-- In every sequence of resizes and saves the encoders read the current pixels, and
the type is kept, exactly when each save fits. -/
theorem saves_current_iff (file : ImageFile) (image : Image) (calls : List ImageCall)
    (loaded : load file = some image) :
    Throughout call SavesCurrent image calls ↔ Throughout call Fits image calls :=
  throughout_congr_within (load_current loaded) (fun _ _ _ _ current taken => current.call taken)
    fun event _ _ current => current.savesCurrent_iff event

/-- A file of one pixel in RGBA. -/
def onePixelPng (bitDepth : Nat) (known : bitDepth ∈ [1, 2, 4, 8, 16])
    (depth : checkDepth .rgbAlpha bitDepth = true) : Png where
  width := 1
  height := 1
  bitDepth := bitDepth
  colorType := .rgbAlpha
  trns := false
  width_range := ⟨Nat.one_pos, Nat.le_of_ble_eq_true rfl⟩
  height_range := ⟨Nat.one_pos, Nat.le_of_ble_eq_true rfl⟩
  bitDepth_known := known
  colorType_known := by decide
  depth := depth

def onePixelJpeg : Jpeg where
  width := 1
  height := 1
  width_range := ⟨Nat.one_pos, Nat.le_of_ble_eq_true rfl⟩
  height_range := ⟨Nat.one_pos, Nat.le_of_ble_eq_true rfl⟩

/-- "a.jpg" -/
def jpegName : List UInt8 := [0x61, 0x2e, 0x6a, 0x70, 0x67]

/-- "a.png" -/
def pngName : List UInt8 := [0x61, 0x2e, 0x70, 0x6e, 0x67]

def afterResize (file : ImageFile) (width height : Int) : Option Image :=
  (load file).bind fun image => image.resize width height

theorem afterResize_current {file : ImageFile} {width height : Int} {image : Image}
    (resized : afterResize file width height = some image) : Current image := by
  obtain ⟨start, loaded, taken⟩ := Option.bind_eq_some_iff.mp resized
  have resizes : call start (.resize width height) = some image := taken
  exact (load_current loaded).call resizes

/-- A PNG image of 32768 x 32768 pixels is encoded from the wrong rows; for a JPEG
image of 70000 pixels in a row the encoder ends the process. -/
theorem save_wraps_or_exits :
    (∃ image, afterResize (.png (onePixelPng 8 (by decide) (by decide))) 32768 32768 = some image ∧
      ¬ SavesCurrent image (.save pngName false)) ∧
    ∃ image, afterResize (.jpeg onePixelJpeg) 70000 1 = some image ∧ image.save jpegName false = none := by
  have large : (afterResize (.png (onePixelPng 8 (by decide) (by decide))) 32768 32768).map
      (fun image => (image.imageType, image.width, image.height)) = some (some .png, 32768, 32768) := by decide
  have wide : (afterResize (.jpeg onePixelJpeg) 70000 1).map
      (fun image => (image.imageType, image.width, image.height)) = some (some .jpeg, 70000, 1) := by decide
  constructor
  · obtain ⟨image, resized, sizes⟩ := Option.map_eq_some_iff.mp large
    simp only [Prod.mk.injEq] at sizes
    refine ⟨image, resized, ?_⟩
    rw [(afterResize_current resized).savesCurrent_iff]
    have encoded : image.encoded pngName = some .png := rfl
    simp [Fits, encoded, sizes]
  · obtain ⟨image, resized, sizes⟩ := Option.map_eq_some_iff.mp wide
    simp only [Prod.mk.injEq] at sizes
    refine ⟨image, resized, ?_⟩
    obtain ⟨next, _, _, saved⟩ := (afterResize_current resized).save_eq jpegName false
    have encoded : image.encoded jpegName = some .jpeg := rfl
    simp [saved, encoded, sizes, jpegMaxDimension]

theorem saves_current_iff_onePixel :
    ∃ image, load (.png (onePixelPng 8 (by decide) (by decide))) = some image ∧
      (Throughout call SavesCurrent image [.resize 2 3, .save jpegName false, .resize 4 5, .save pngName true] ↔
        Throughout call Fits image [.resize 2 3, .save jpegName false, .resize 4 5, .save pngName true]) := by
  have loads : (load (.png (onePixelPng 8 (by decide) (by decide)))).isSome = true := by decide
  obtain ⟨image, loaded⟩ := Option.isSome_iff_exists.mp loads
  exact ⟨image, loaded, saves_current_iff _ image _ loaded⟩

/-- The header that `save` writes fits the rows that it hands over. -/
structure LayoutAgrees (image : Image) : Prop where
  depth : checkDepth .rgbAlpha image.bitdepth = true
  rowSize : image.width * 4 * image.bitdepth / 8 = 4 * image.width
  inside : ∀ row ∈ image.rowPointers.getD [],
    row.1 = image.pixels ∧ 0 ≤ row.2 ∧ row.2 + ((image.width * 4 * image.bitdepth / 8 : Nat) : Int) ≤ image.bytes

/-- An image that was loaded from a PNG file. -/
structure FromPng (file : Png) (image : Image) : Prop where
  current : Current image
  type : image.imageType = some .png
  bitdepth : image.bitdepth = file.bitDepth
  below : image.bytes < 2147483648
  enough : (4 * image.width * image.height : Nat) ≤ image.bytes ↔ 4 * image.width * image.height < 2147483648

section

variable {image next : Image} {file : Png}

theorem mem_table {row : Nat × Int} : row ∈ image.table ↔ ∃ i < image.height,
    row = (image.pixels, int32 ((4 * image.width * i : Nat) : Int)) := by
  have offset (i : Nat) : int32 (int32 (i * image.width) * 4) = int32 ((4 * image.width * i : Nat) : Int) := by
    rw [int32_mul_right, show (i : Int) * image.width * 4 = ((4 * image.width * i : Nat) : Int) by push_cast; ring]
  simp only [Image.table, Images.regenRowPointers, Int.toNat_natCast, List.map_map, List.mem_map, List.mem_range,
    Function.comp_apply, offset]
  constructor
  · intro member
    obtain ⟨i, inside, rfl⟩ := member
    exact ⟨i, inside, rfl⟩
  · intro member
    obtain ⟨i, inside, rfl⟩ := member
    exact ⟨i, inside, rfl⟩

/-- Rows that all lie in a buffer smaller than 2^31 have not wrapped. -/
theorem rows_inside_iff (positive : 0 < image.height) (below : image.bytes < 2147483648) :
    (∀ row ∈ image.table, row.1 = image.pixels ∧ 0 ≤ row.2 ∧ row.2 + ((4 * image.width : Nat) : Int) ≤ image.bytes) ↔
      ((4 * image.width * image.height : Nat) : Int) ≤ image.bytes := by
  constructor
  · intro inside
    have stays (i : Nat) (before : i < image.height) (small : 4 * image.width * i < 2147483648) :
        ((4 * image.width * i : Nat) : Int) + ((4 * image.width : Nat) : Int) ≤ image.bytes := by
      have row := (inside _ (mem_table.mpr ⟨i, before, rfl⟩)).2.2
      rwa [int32_of_small small] at row
    -- Each row ends within the buffer, so the next begins where it should.
    have ends (i : Nat) : i < image.height → ((4 * image.width * (i + 1) : Nat) : Int) ≤ image.bytes := by
      induction i with
      | zero =>
          intro before
          have first := stays 0 before (by omega)
          rwa [← Nat.cast_add, ← Nat.mul_succ] at first
      | succ i ih =>
          intro before
          have last := ih (Nat.lt_of_succ_lt before)
          have row := stays (i + 1) before (by omega)
          rwa [← Nat.cast_add, ← Nat.mul_succ] at row
    have last := ends (image.height - 1) (Nat.sub_one_lt_of_lt positive)
    rwa [Nat.sub_add_cancel positive] at last
  · intro enough row member
    obtain ⟨i, inside, rfl⟩ := mem_table.mp member
    have before : 4 * image.width * i + 4 * image.width ≤ 4 * image.width * image.height := by
      rw [← Nat.mul_succ]
      exact Nat.mul_le_mul_left _ inside
    rw [int32_of_small (by omega)]
    refine ⟨rfl, ?_, ?_⟩ <;> omega

theorem FromPng.layoutAgrees_iff (fromPng : FromPng file image) :
    LayoutAgrees image ↔ file.bitDepth = 8 ∧ 4 * image.width * image.height < 2147483648 := by
  have rows : image.rowPointers.getD [] = image.table := by
    rw [fromPng.current.table fromPng.type]
    rfl
  have positive := fromPng.current.width
  have inside := rows_inside_iff fromPng.current.height fromPng.below
  rw [fromPng.enough] at inside
  constructor
  · intro agrees
    have eight : file.bitDepth = 8 := by
      have size := agrees.rowSize
      rw [fromPng.bitdepth] at size
      have known := file.bitDepth_known
      simp only [List.mem_cons, List.not_mem_nil, or_false] at known
      rcases known with depth | depth | depth | depth | depth <;> rw [depth] at size ⊢ <;> omega
    refine ⟨eight, inside.mp ?_⟩
    have within := agrees.inside
    rwa [agrees.rowSize, rows] at within
  · intro fits
    obtain ⟨eight, small⟩ := fits
    have size : image.width * 4 * image.bitdepth / 8 = 4 * image.width := by
      rw [fromPng.bitdepth, eight]
      omega
    refine ⟨?_, size, ?_⟩
    · rw [fromPng.bitdepth, eight]
      decide
    · rw [size, rows]
      exact inside.mpr small

theorem load_fromPng (loaded : load (.png file) = some image) : FromPng file image := by
  have current := load_current loaded
  rw [load, Image.loadPng] at loaded
  obtain ⟨between, allocated, loaded⟩ := Option.bind_eq_some_iff.mp loaded
  obtain ⟨pixels, bytes, rfl, size⟩ := allocate_eq allocated
  have bytes_eq : bytes = int32 ((4 * file.width * file.height : Nat) : Int) := by
    rcases size with none_eq | some_eq
    · exact absurd none_eq.1 (by simp [PixelBuffer.allocated])
    · have found := some_eq.1
      rw [PixelBuffer.allocated, file.rowbytes_eq, int32_mul, Option.some.injEq] at found
      have product : (file.height : Int) * ((4 * file.width : Nat) : Int) = ((4 * file.width * file.height : Nat) : Int) := by
        push_cast
        ring
      rw [← found, product]
  cases loaded
  refine ⟨current, rfl, rfl, ?_, ?_⟩
  · rw [Image.regenRowPointers, bytes_eq]
    exact (int32_range _).2
  · simp only [Image.regenRowPointers, bytes_eq]
    exact (le_int32_iff _).trans Nat.cast_lt_ofNat

/-- A resize keeps the buffer with its sizes, or computes the size of a new one. -/
theorem Resized.buffer {width height : Int} (resized : Resized image next width height) :
    (next.bytes = image.bytes ∧ next.width = image.width ∧ next.height = image.height) ∨
      (next.bytes = int32 (((4 * (next.width * next.height) : Nat) : Int) + 4) ∧ 0 ≤ next.bytes) := by
  have widths := resized.widths.2
  have heights := resized.heights.2
  by_cases kept : width = image.width ∧ height = image.height
  · rcases resized.bytes with same | anew
    · exact Or.inl ⟨same.2, by omega, by omega⟩
    · simp [PixelBuffer.allocated, kept] at anew
  · rcases resized.bytes with same | anew
    · simp [PixelBuffer.allocated, kept] at same
    · rw [PixelBuffer.allocated, if_neg kept, rgbaSize_eq, int32_add_right, ← widths, ← heights,
        Option.some.injEq] at anew
      refine Or.inr ⟨?_, anew.2⟩
      rw [← anew.1]
      push_cast
      rw [Int.mul_assoc]

/-- A buffer whose size was computed with an overflow is too small. -/
theorem int32_buffer {bytes : Int} {pixels : Nat} (computed : bytes = int32 (((4 * pixels : Nat) : Int) + 4))
    (nonneg : 0 ≤ bytes) : bytes < 2147483648 ∧ (((4 * pixels : Nat) : Int) ≤ bytes ↔ 4 * pixels < 2147483648) := by
  rw [computed] at nonneg ⊢
  simp only [int32] at nonneg ⊢
  omega

theorem FromPng.call {event : ImageCall} (fromPng : FromPng file image) (taken : call image event = some next) :
    FromPng file next := by
  have current := fromPng.current.call taken
  cases event with
  | save filename fails =>
      obtain ⟨rows, rfl⟩ := (fromPng.current.saved taken).2
      exact ⟨current, fromPng.type, fromPng.bitdepth, fromPng.below, fromPng.enough⟩
  | resize width height =>
      have resized := resize_eq taken
      have buffer : next.bytes < 2147483648 ∧ ((4 * next.width * next.height : Nat) ≤ next.bytes ↔
          4 * next.width * next.height < 2147483648) := by
        rcases resized.buffer with kept | anew
        · obtain ⟨bytes, width, height⟩ := kept
          rw [bytes, width, height]
          exact ⟨fromPng.below, fromPng.enough⟩
        · rw [Nat.mul_assoc]
          exact int32_buffer anew.1 anew.2
      exact ⟨current, resized.type.trans fromPng.type, resized.bitdepth.trans fromPng.bitdepth, buffer.1, buffer.2⟩

end

/-- After any sequence of resizes and saves, a PNG image is written with the layout
it has in memory exactly when the file had 8 bits for each sample and the
buffer is not too large for its size to be an `int`. -/
theorem png_layout_iff (file : Png) (loaded image : Image) (calls : List ImageCall)
    (loads : load (.png file) = some loaded) (ran : run call loaded calls = some image) :
    LayoutAgrees image ↔ file.bitDepth = 8 ∧ 4 * image.width * image.height < 2147483648 := by
  have fromPng : FromPng file image :=
    run_preserves (load_fromPng loads) (fun fromPng taken => fromPng.call taken) ran
  exact fromPng.layoutAgrees_iff

theorem png_layout_iff_onePixel :
    ∃ loaded image, load (.png (onePixelPng 8 (by decide) (by decide))) = some loaded ∧
      run call loaded [.resize 2 2, .save pngName false] = some image ∧
      (LayoutAgrees image ↔ (onePixelPng 8 (by decide) (by decide)).bitDepth = 8 ∧
        4 * image.width * image.height < 2147483648) := by
  have returns : ((load (.png (onePixelPng 8 (by decide) (by decide)))).bind fun loaded =>
      run call loaded [.resize 2 2, .save pngName false]).isSome = true := by decide
  obtain ⟨image, returned⟩ := Option.isSome_iff_exists.mp returns
  obtain ⟨loaded, loads, ran⟩ := Option.bind_eq_some_iff.mp returned
  exact ⟨loaded, image, loads, ran, png_layout_iff _ loaded image _ loads ran⟩

/-- A file with 16 bits for each sample: the header says 8 bytes for a pixel, of
which there are 4. -/
theorem png_layout_sixteen :
    ∃ image, load (.png (onePixelPng 16 (by decide) (by decide))) = some image ∧
      image.width * 4 * image.bitdepth / 8 = 8 ∧ 4 * image.width = 4 ∧ image.bytes = 4 ∧ ¬ LayoutAgrees image := by
  have sizes : (load (.png (onePixelPng 16 (by decide) (by decide)))).map
      (fun image => (image.width * 4 * image.bitdepth / 8, 4 * image.width, image.bytes)) = some (8, 4, 4) := by decide
  obtain ⟨image, loaded, sizes⟩ := Option.map_eq_some_iff.mp sizes
  simp only [Prod.mk.injEq] at sizes
  obtain ⟨declared, stride, bytes⟩ := sizes
  refine ⟨image, loaded, declared, stride, bytes, ?_⟩
  intro agrees
  have same := agrees.rowSize
  omega

end Webapp.Images
