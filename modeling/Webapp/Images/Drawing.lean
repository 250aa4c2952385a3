import Webapp.Images.Gif

namespace Webapp.Images

open Webapp.Data

/-- A canvas of `rastersize` bytes, which is an `int`. -/
structure Canvas where
  width : Nat
  height : Nat
  pixels : Memory UInt8
  fits : 4 * width * height < 2147483648

@[simp] theorem solid_length (colors : List Color) (index : UInt8) : (solid colors index).length = 4 := by
  rw [solid]
  split <;> rfl

def painted (colors : List Color) (alpha : Int) (index : UInt8) : List UInt8 :=
  if 0 < alpha ∧ (index.toNat : Int) = alpha then [0, 0, 0, 0] else solid colors index

theorem rgba_some (colors : List Color) (alpha : Int) (index : UInt8) :
    rgba (some colors) alpha index = some (painted colors alpha index) := by
  rw [rgba, painted]
  split <;> rfl

@[simp] theorem painted_length (colors : List Color) (alpha : Int) (index : UInt8) :
    (painted colors alpha index).length = 4 := by
  rw [painted]
  split
  · rfl
  · exact solid_length colors index

def stroke (colors : List Color) (alpha : Int) (rasterBits : List UInt8) (visit : Int × Int) : Nat × List UInt8 :=
  (visit.2.toNat, painted colors alpha (rasterBits.getD visit.1.toNat 0))

theorem drawPixel_some (colors : List Color) (alpha : Int) {rasterBits : List UInt8} (pixels : Memory UInt8)
    {source dest : Nat} (inside : source < rasterBits.length) (small : dest * 4 < 2147483648) :
    drawPixel (some colors) alpha rasterBits pixels ((source : Int), (dest : Int)) =
      some (pixels.store (4 * dest) (painted colors alpha (rasterBits.getD source 0))) := by
  have address : int32 ((dest : Int) * 4) = ((4 * dest : Nat) : Int) := by
    rw [Nat.mul_comm 4 dest]
    exact int32_of_small small
  rw [drawPixel, address]
  have positive : ¬ ((source : Int) < 0 ∨ ((4 * dest : Nat) : Int) < 0) := by
    simp only [not_or, not_lt]
    exact ⟨Int.natCast_nonneg _, Int.natCast_nonneg _⟩
  rw [if_neg positive, Int.toNat_natCast, Int.toNat_natCast, List.getElem?_eq_getElem inside]
  simp only [bind, Option.bind, rgba_some, List.getD_eq_getElem?_getD, List.getElem?_eq_getElem inside, Option.getD_some]

theorem run_drawPixel (colors : List Color) (alpha : Int) {rasterBits : List UInt8} (pixels : Memory UInt8)
    {turns : List (Int × Int)}
    (valid : ∀ visit ∈ turns, ∃ source dest : Nat, visit = ((source : Int), (dest : Int)) ∧
      source < rasterBits.length ∧ dest * 4 < 2147483648) :
    run (drawPixel (some colors) alpha rasterBits) pixels turns =
      some (pixels.storeCells 4 (turns.map (stroke colors alpha rasterBits))) := by
  induction turns generalizing pixels with
  | nil => rfl
  | cons first rest ih =>
      rw [List.forall_mem_cons] at valid
      obtain ⟨⟨source, dest, rfl, inside, small⟩, valid⟩ := valid
      rw [run, drawPixel_some colors alpha pixels inside small, Option.bind_some, ih _ valid]
      rfl

section

variable (canvas : Canvas) (image : SavedImage) (colors : List Color)

def Canvas.strokes : List (Nat × List UInt8) :=
  (visits canvas.width canvas.height image.desc).map (stroke colors image.gcb.transparentColor image.rasterBits)

variable {canvas image colors}

theorem mem_strokes {entry : Nat × List UInt8} :
    entry ∈ canvas.strokes image colors ↔
      ∃ x y, image.desc.Shows canvas.width canvas.height x y ∧
        entry = (y * canvas.width + x,
          painted colors image.gcb.transparentColor (image.rasterBits.getD (image.desc.rasterIndex x y) 0)) := by
  rw [Canvas.strokes, List.mem_map]
  constructor
  · intro drawn
    obtain ⟨visit, visited, rfl⟩ := drawn
    obtain ⟨x, y, shows, rfl⟩ := (mem_visits canvas.fits image.raster_int).mp visited
    exact ⟨x, y, shows, rfl⟩
  · intro shown
    obtain ⟨x, y, shows, rfl⟩ := shown
    exact ⟨_, (mem_visits canvas.fits image.raster_int).mpr ⟨x, y, shows, rfl⟩, rfl⟩

theorem strokes_length : ∀ entry ∈ canvas.strokes image colors, entry.2.length = 4 := by
  intro entry drawn
  obtain ⟨x, y, _, rfl⟩ := mem_strokes.mp drawn
  exact painted_length _ _ _

theorem draw_eq :
    draw canvas.width canvas.height (some colors) image canvas.pixels =
      some (canvas.pixels.storeCells 4 (canvas.strokes image colors)) := by
  apply run_drawPixel
  intro visit visited
  obtain ⟨x, y, shows, rfl⟩ := (mem_visits canvas.fits image.raster_int).mp visited
  have onCanvas := place_lt shows.column shows.row
  have size := canvas.fits
  rw [Nat.mul_assoc] at size
  refine ⟨image.desc.rasterIndex x y, y * canvas.width + x, rfl, ?_, ?_⟩
  · rw [image.raster_length]
    exact shows.rasterIndex_lt
  · omega

theorem strokes_inside (memory : Memory UInt8) {x y : Nat}
    (shows : image.desc.Shows canvas.width canvas.height x y) :
    (memory.storeCells 4 (canvas.strokes image colors)).cell 4 (y * canvas.width + x) =
      painted colors image.gcb.transparentColor (image.rasterBits.getD (image.desc.rasterIndex x y) 0) := by
  apply Memory.storeCells_unique strokes_length (mem_strokes.mpr ⟨x, y, shows, rfl⟩)
  intro entry drawn here
  obtain ⟨x', y', shows', rfl⟩ := mem_strokes.mp drawn
  obtain ⟨rfl, rfl⟩ := place_unique shows'.column shows.column here
  rfl

theorem strokes_outside (memory : Memory UInt8) {x y : Nat} (column : x < canvas.width)
    (hidden : ¬ image.desc.Shows canvas.width canvas.height x y) :
    (memory.storeCells 4 (canvas.strokes image colors)).cell 4 (y * canvas.width + x) =
      memory.cell 4 (y * canvas.width + x) := by
  apply Memory.storeCells_absent strokes_length
  intro entry drawn here
  obtain ⟨x', y', shows', rfl⟩ := mem_strokes.mp drawn
  obtain ⟨rfl, rfl⟩ := place_unique shows'.column column here
  exact hidden shows'

end

/-- What a pixel of an image should show: nothing for the transparent index. -/
def shown (colors : List Color) (alpha : Int) (index : UInt8) : List UInt8 :=
  if (index.toNat : Int) = alpha then [0, 0, 0, 0] else solid colors index

theorem solid_ne_transparent (colors : List Color) (index : UInt8) : solid colors index ≠ [0, 0, 0, 0] := by
  rw [solid]
  split <;> simp

theorem painted_eq_shown_iff (colors : List Color) (alpha : Int) (index : UInt8) :
    painted colors alpha index = shown colors alpha index ↔ (alpha = 0 → index.toNat ≠ 0) := by
  rw [painted, shown]
  by_cases here : (index.toNat : Int) = alpha
  · rw [if_pos here]
    by_cases positive : 0 < alpha
    · rw [if_pos ⟨positive, here⟩]
      simp only [true_iff]
      omega
    · -- The index is declared transparent, but the test is for positive ones.
      rw [if_neg fun both => positive both.1]
      constructor
      · intro same
        exact absurd same (solid_ne_transparent colors index)
      · intro visible
        omega
  · rw [if_neg here, if_neg fun both => here both.2]
    simp only [true_iff]
    omega

structure Canvas.Drawn (canvas : Canvas) (image : SavedImage) (colors : List Color) (after : Memory UInt8) :
    Prop where
  outside : ∀ x y, x < canvas.width → y < canvas.height →
    ¬ image.desc.Shows canvas.width canvas.height x y →
    after.cell 4 (y * canvas.width + x) = canvas.pixels.cell 4 (y * canvas.width + x)
  inside : ∀ x y, image.desc.Shows canvas.width canvas.height x y →
    after.cell 4 (y * canvas.width + x) =
      shown colors image.gcb.transparentColor (image.rasterBits.getD (image.desc.rasterIndex x y) 0)

/-- An image is drawn as it should be unless its transparent index is 0 and one of
the pixels it has on the canvas has that index. -/
theorem draw_iff (canvas : Canvas) (image : SavedImage) (colors : List Color) :
    (∃ after, draw canvas.width canvas.height (some colors) image canvas.pixels = some after ∧
      canvas.Drawn image colors after) ↔
    (image.gcb.transparentColor = 0 → ∀ x y, image.desc.Shows canvas.width canvas.height x y →
      (image.rasterBits.getD (image.desc.rasterIndex x y) 0).toNat ≠ 0) := by
  constructor
  · intro drawn
    obtain ⟨after, same, drawn⟩ := drawn
    rw [draw_eq] at same
    cases same
    intro zero x y shows
    have bytes := drawn.inside x y shows
    rw [strokes_inside _ shows] at bytes
    exact (painted_eq_shown_iff _ _ _).mp bytes zero
  · intro visible
    refine ⟨_, draw_eq, ?_, ?_⟩
    · intro x y column _ hidden
      exact strokes_outside _ column hidden
    · intro x y shows
      rw [strokes_inside _ shows]
      exact (painted_eq_shown_iff _ _ _).mpr fun zero => visible zero x y shows

def grey : Canvas := ⟨2, 1, fun _ => 7, twoPixels_fit⟩

/-- Of two pixels one is drawn, and the pixel to the left of it stays. -/
example : (draw grey.width grey.height (some [⟨10, 20, 30⟩]) (.overhanging 0 0) grey.pixels).map
    (fun after => after.window 0 8) = some [7, 7, 7, 7, 10, 20, 30, 255] := by
  decide

def zeroTransparent : SavedImage := .onePixel 0 [⟨0xf9, [1, 0, 0, 0]⟩]

/-- It is drawn in the colour of its index. -/
theorem draw_zeroTransparent :
    zeroTransparent.gcb.transparentColor = 0 ∧
      (draw 1 1 (some [⟨10, 20, 30⟩]) zeroTransparent fun _ => 7).map (fun after => after.cell 4 0) =
        some [10, 20, 30, 255] := by
  decide

end Webapp.Images
