import Webapp.Images.Gif

namespace Webapp.Images

open Webapp.Data

/-! A frame turned into a GIF image.  The entries of the quantiser's map are put in
an order in which the opaque ones come last, and every pixel becomes the new
index of the entry that `inxsearch` chose for it.
-/

/-- The four bytes `getcolormap` writes for an entry. -/
structure MapEntry where
  color : Color
  alpha : UInt8
deriving DecidableEq, Repr

/-- The loop over the entries.  The indices not given away yet are those from
`botIdx` to `topIdx`. -/
def remapFrom : Int → Int → List MapEntry → List Nat
  | _, _, [] => []
  | topIdx, botIdx, entry :: cmap =>
      if entry.alpha = 255 then uint8 topIdx :: remapFrom (topIdx - 1) botIdx cmap
      else uint8 botIdx :: remapFrom topIdx (botIdx + 1) cmap

theorem remapFrom_length (topIdx botIdx : Int) (cmap : List MapEntry) :
    (remapFrom topIdx botIdx cmap).length = cmap.length := by
  induction cmap generalizing topIdx botIdx with
  | nil => rfl
  | cons entry cmap ih =>
      rw [remapFrom]
      split
      · rw [List.length_cons, List.length_cons, ih]
      · rw [List.length_cons, List.length_cons, ih]

def remap (cmap : Vector MapEntry 256) : Vector Nat 256 :=
  ⟨(remapFrom 255 0 cmap.toList).toArray, by rw [List.size_toArray, remapFrom_length, Vector.length_toList]⟩

/-- The array `o`, whose entries are unset at first. -/
def palette (cmap : Vector MapEntry 256) : Memory (Option Color) :=
  Memory.storeCells (fun _ => none) 1
    ((cmap.toList.zip (remap cmap).toList).map fun (entry, index) => (index, [some entry.color]))

/-- An image in memory, four bytes for a pixel.  The sizes `load` and `_resize`
allocate are `int`s. -/
structure Frame where
  width : Nat
  height : Nat
  image : List UInt8
  image_length : image.length = 4 * width * height
  fits : 4 * width * height < 2147483648

namespace Frame

def read (frame : Frame) (index : Int) : Option UInt8 :=
  if index < 0 then none else frame.image[index.toNat]?

def rasterSize (frame : Frame) : Int := int32 (frame.width * frame.height)

section

-- `inxsearch` keeps a cache, so that its answers may depend on the calls before.
variable (frame : Frame) (cmap : Vector MapEntry 256)
  (inxsearch : Nat → UInt8 → UInt8 → UInt8 → UInt8 → Fin 256)

def rasterByte (j : Nat) : Option Nat := do
  let alpha ← frame.read (int32 (int32 (j * 4) + 3))
  let blue ← frame.read (int32 (int32 (j * 4) + 2))
  let green ← frame.read (int32 (int32 (j * 4) + 1))
  let red ← frame.read (int32 (j * 4))
  return (remap cmap)[inxsearch j alpha blue green red]

/-- The map and the raster that are stored, unless the image is read outside its
bytes.  For a negative size `malloc` fails and the loop makes no turn. -/
def gifRasterizeFrame : Option (Memory (Option Color) × List Nat) := do
  let raster ← (List.range frame.rasterSize.toNat).mapM (frame.rasterByte cmap inxsearch)
  return (palette cmap, raster)

/-- The entry chosen for a pixel. -/
def chosen (j : Nat) : Fin 256 :=
  let byte (place : Nat) : UInt8 := frame.image.getD (j * 4 + place) 0
  inxsearch j (byte 3) (byte 2) (byte 1) (byte 0)

structure KeepsColors : Prop where
  permutation : (remap cmap).toList.Perm (List.range 256)
  solidLast : ∀ x y : Fin 256, cmap[x].alpha < 255 → cmap[y].alpha = 255 → (remap cmap)[x] < (remap cmap)[y]
  once : ∀ index < 256, (remap cmap).toList.count index = 1
  colors : ∀ x : Fin 256, palette cmap (remap cmap)[x] = some cmap[x].color
  pixels : ∃ map raster, frame.gifRasterizeFrame cmap inxsearch = some (map, raster) ∧
    ∀ j < frame.width * frame.height, ∃ index, raster[j]? = some index ∧
      map index = some cmap[frame.chosen inxsearch j].color

end

end Frame

theorem uint8_of_small {value : Int} {small : Nat} (same : value = small) (bound : small < 256) : uint8 value = small := by
  rw [same]
  exact (uint8_eq_iff small).mpr bound

/-- Whatever the entries are like, every free index is given away. -/
theorem remapFrom_perm {topIdx : Int} {botIdx : Nat} (cmap : List MapEntry)
    (free : topIdx + 1 = botIdx + cmap.length) (room : botIdx + cmap.length ≤ 256) :
    (remapFrom topIdx botIdx cmap).Perm (List.range' botIdx cmap.length) := by
  induction cmap generalizing topIdx botIdx with
  | nil => exact List.Perm.refl _
  | cons entry cmap ih =>
      rw [List.length_cons] at free room
      rw [remapFrom, List.length_cons]
      split
      · have highest : uint8 topIdx = botIdx + cmap.length := uint8_of_small (by omega) (by omega)
        rw [highest, List.range'_concat, Nat.one_mul]
        exact ((ih (by omega) (by omega)).cons _).trans (List.perm_append_singleton _ _).symm
      · have lowest : uint8 botIdx = botIdx := uint8_of_small rfl (by omega)
        have rest : (remapFrom topIdx (botIdx + 1 : Nat) cmap).Perm (List.range' (botIdx + 1) cmap.length) :=
          ih (by omega) (by omega)
        rw [lowest, List.range'_succ]
        exact rest.cons _

/-- The entries that are not opaque get the lowest indices, as many as there are. -/
theorem remapFrom_split {topIdx : Int} {botIdx : Nat} (cmap : List MapEntry)
    (free : topIdx + 1 = botIdx + cmap.length) (room : botIdx + cmap.length ≤ 256) :
    ∀ pair ∈ cmap.zip (remapFrom topIdx botIdx cmap),
      (pair.2 < botIdx + cmap.countP (fun entry => entry.alpha ≠ 255) ↔ pair.1.alpha ≠ 255) := by
  induction cmap generalizing topIdx botIdx with
  | nil =>
      intro pair member
      contradiction
  | cons entry cmap ih =>
      rw [List.length_cons] at free room
      have fewer : cmap.countP (fun entry => entry.alpha ≠ 255) ≤ cmap.length := List.countP_le_length
      rw [remapFrom]
      split
      · rename_i solid
        have highest : uint8 topIdx = botIdx + cmap.length := uint8_of_small (by omega) (by omega)
        rw [List.countP_cons_of_neg (by simp [solid]), highest, List.zip_cons_cons, List.forall_mem_cons]
        exact ⟨iff_of_false (by omega) (not_not_intro solid), ih (by omega) (by omega)⟩
      · rename_i clear
        have lowest : uint8 botIdx = botIdx := uint8_of_small rfl (by omega)
        rw [List.countP_cons_of_pos (by simp [clear]), lowest, List.zip_cons_cons, List.forall_mem_cons]
        refine ⟨iff_of_true (by omega) clear, ?_⟩
        intro pair member
        have rest : pair.2 < botIdx + 1 + cmap.countP (fun entry => entry.alpha ≠ 255) ↔ pair.1.alpha ≠ 255 :=
          ih (by omega) (by omega) pair member
        rw [← rest, Nat.add_assoc, Nat.add_comm 1]

section

variable (cmap : Vector MapEntry 256)

theorem remap_toList : (remap cmap).toList = remapFrom 255 (0 : Nat) cmap.toList := rfl

theorem remap_perm : (remap cmap).toList.Perm (List.range 256) := by
  have free : (255 : Int) + 1 = (0 : Nat) + cmap.toList.length := by simp
  have perm := remapFrom_perm cmap.toList free (by simp)
  rwa [Vector.length_toList, ← List.range_eq_range', ← remap_toList] at perm

theorem mem_zip_remap {pair : MapEntry × Nat} :
    pair ∈ cmap.toList.zip (remap cmap).toList ↔ ∃ x : Fin 256, (cmap[x], (remap cmap)[x]) = pair := by
  rw [List.mem_iff_getElem]
  constructor
  · intro found
    obtain ⟨x, inside, here⟩ := found
    rw [List.length_zip, Vector.length_toList, Vector.length_toList, Nat.min_self] at inside
    refine ⟨⟨x, inside⟩, ?_⟩
    rw [← here, List.getElem_zip]
    rfl
  · intro found
    obtain ⟨x, here⟩ := found
    refine ⟨x, by simp, ?_⟩
    rw [← here, List.getElem_zip]
    rfl

theorem remap_injective {x y : Fin 256} (same : (remap cmap)[x] = (remap cmap)[y]) : x = y := by
  have nodup : (remap cmap).toList.Nodup := (remap_perm cmap).nodup_iff.mpr List.nodup_range
  have first : x.val < (remap cmap).toList.length := by simp
  have second : y.val < (remap cmap).toList.length := by simp
  have listed : (remap cmap).toList[x.val] = (remap cmap).toList[y.val] := same
  exact Fin.ext (nodup.getElem_inj_iff.mp listed)

theorem remap_solid_last {x y : Fin 256} (clear : cmap[x].alpha < 255) (solid : cmap[y].alpha = 255) :
    (remap cmap)[x] < (remap cmap)[y] := by
  have free : (255 : Int) + 1 = (0 : Nat) + cmap.toList.length := by simp
  have split := remapFrom_split cmap.toList free (by simp)
  rw [← remap_toList] at split
  have low := (split _ ((mem_zip_remap cmap).mpr ⟨x, rfl⟩)).mpr (UInt8.ne_of_lt clear)
  have high := (split _ ((mem_zip_remap cmap).mpr ⟨y, rfl⟩)).not.mpr (not_not_intro solid)
  exact Nat.lt_of_lt_of_le low (Nat.le_of_not_lt high)

/-- The palette holds every colour of the map, at its new index. -/
theorem palette_remap (x : Fin 256) : palette cmap (remap cmap)[x] = some cmap[x].color := by
  have stored : (palette cmap).cell 1 (remap cmap)[x] = [some cmap[x].color] := by
    apply Memory.storeCells_unique
    · intro cell member
      obtain ⟨pair, _, rfl⟩ := List.mem_map.mp member
      rfl
    · exact List.mem_map.mpr ⟨_, (mem_zip_remap cmap).mpr ⟨x, rfl⟩, rfl⟩
    · intro cell member here
      obtain ⟨pair, zipped, rfl⟩ := List.mem_map.mp member
      obtain ⟨y, rfl⟩ := (mem_zip_remap cmap).mp zipped
      rw [remap_injective cmap here]
  simpa [Memory.cell, Memory.window] using stored

end

theorem mapM_eq_some_iff {α β : Type} {f : α → Option β} {inputs : List α} {outputs : List β} :
    inputs.mapM f = some outputs ↔ inputs.map f = outputs.map some := by
  induction inputs generalizing outputs with
  | nil => cases outputs <;> simp
  | cons input inputs ih =>
      rw [List.mapM_cons, List.map_cons]
      cases f input with
      | none => cases outputs <;> simp
      | some first => cases outputs <;> simp [ih, Option.bind_eq_some_iff, and_comm]

namespace Frame

variable {frame : Frame} {cmap : Vector MapEntry 256}
  {inxsearch : Nat → UInt8 → UInt8 → UInt8 → UInt8 → Fin 256}

theorem read_of_lt {index : Nat} (inside : index < frame.image.length) :
    frame.read index = some (frame.image.getD index 0) := by
  rw [read, if_neg (Int.not_lt.mpr (Int.natCast_nonneg index)), Int.toNat_natCast, List.getElem?_eq_getElem inside,
    List.getD_eq_getElem _ _ inside]

theorem rasterByte_eq {j : Nat} (inside : j < frame.width * frame.height) :
    frame.rasterByte cmap inxsearch j = some (remap cmap)[frame.chosen inxsearch j] := by
  have length := frame.image_length
  have fits := frame.fits
  rw [Nat.mul_assoc] at length fits
  have first : int32 (j * 4) = (j * 4 : Nat) := by
    simp only [int32]
    omega
  have byte (place : Nat) (within : place < 4) :
      frame.read (int32 (int32 (j * 4) + place)) = some (frame.image.getD (j * 4 + place) 0) := by
    rw [first, ← Int.natCast_add, int32_of_small (by omega), read_of_lt (by omega)]
  have alpha : frame.read (int32 (int32 (j * 4) + 3)) = _ := byte 3 (by decide)
  have blue : frame.read (int32 (int32 (j * 4) + 2)) = _ := byte 2 (by decide)
  have green : frame.read (int32 (int32 (j * 4) + 1)) = _ := byte 1 (by decide)
  have red : frame.read (int32 (j * 4)) = some (frame.image.getD (j * 4 + 0) 0) := by
    rw [first]
    exact read_of_lt (by omega)
  rw [rasterByte, alpha, blue, green, red]
  rfl

theorem gifRasterizeFrame_eq_some_iff {map : Memory (Option Color)} {raster : List Nat} :
    frame.gifRasterizeFrame cmap inxsearch = some (map, raster) ↔
      palette cmap = map ∧
        (List.range frame.rasterSize.toNat).map (frame.rasterByte cmap inxsearch) = raster.map some := by
  rw [← mapM_eq_some_iff, gifRasterizeFrame]
  cases (List.range frame.rasterSize.toNat).mapM (frame.rasterByte cmap inxsearch) with
  | none => simp
  | some bytes => simp

theorem rasterSize_eq : frame.rasterSize.toNat = frame.width * frame.height := by
  have fits := frame.fits
  rw [Nat.mul_assoc] at fits
  rw [rasterSize, ← Int.natCast_mul, int32_of_small (by omega), Int.toNat_natCast]

theorem pixels_kept :
    ∃ map raster, frame.gifRasterizeFrame cmap inxsearch = some (map, raster) ∧
      ∀ j < frame.width * frame.height, ∃ index, raster[j]? = some index ∧
        map index = some cmap[frame.chosen inxsearch j].color := by
  refine ⟨palette cmap, (List.range (frame.width * frame.height)).map fun j => (remap cmap)[frame.chosen inxsearch j],
    ?_, ?_⟩
  · rw [gifRasterizeFrame_eq_some_iff, rasterSize_eq, List.map_map]
    exact ⟨rfl, List.map_congr_left fun j member => rasterByte_eq (List.mem_range.mp member)⟩
  · intro j inside
    refine ⟨(remap cmap)[frame.chosen inxsearch j], ?_, palette_remap cmap _⟩
    rw [List.getElem?_map, List.getElem?_range inside]
    rfl

/-- The new order of the map loses none of its entries, and every pixel gets the
colour chosen for it. -/
theorem gifRasterizeFrame_keepsColors (frame : Frame) (cmap : Vector MapEntry 256)
    (inxsearch : Nat → UInt8 → UInt8 → UInt8 → UInt8 → Fin 256) : frame.KeepsColors cmap inxsearch := by
  have once : ∀ index < 256, (remap cmap).toList.count index = 1 := by
    intro index inside
    rw [(remap_perm cmap).count_eq]
    exact List.count_eq_one_of_mem List.nodup_range (List.mem_range.mpr inside)
  exact ⟨remap_perm cmap, fun x y => remap_solid_last cmap, once, palette_remap cmap, pixels_kept⟩

/-- A black pixel and a red one that is half transparent. -/
def twoPixels : Frame := ⟨2, 1, [0, 0, 0, 255, 255, 0, 0, 128], rfl, twoPixels_fit⟩

def blackAndRed : Vector MapEntry 256 := (Vector.replicate 256 ⟨⟨0, 0, 0⟩, 255⟩).set 1 ⟨⟨255, 0, 0⟩, 128⟩

/-- The red entry, the second of the map, comes to the front and the first to the end. -/
example : (twoPixels.gifRasterizeFrame blackAndRed fun _ _ _ _ red => if red = 255 then 1 else 0).map Prod.snd =
    some [255, 0] := by
  decide +kernel

end Frame

end Webapp.Images
