import Webapp.Images.Indexes

namespace Webapp.Images

open Webapp.Data

/-! `Image::load` for a GIF file: a call of `gifInsertFrame` for each image. -/

structure Block where
  size : Nat
  cells : Memory UInt8

/-- The table `frames` and the blocks that were allocated.  A pointer is the number
of its block; in the table `none` is an entry that was never assigned.  A block
that was deleted is `none`. -/
structure Frames where
  frames : List (Option Nat)
  blocks : List (Option Block)

namespace Frames

def allocate (state : Frames) (size : Int) (cells : Memory UInt8) : Option (Nat × Frames) :=
  -- `new` throws for a negative size
  if size < 0 then none
  else some (state.blocks.length, { state with blocks := state.blocks ++ [some ⟨size.toNat, cells⟩] })

theorem allocate_frames {state next : Frames} {size : Int} {cells : Memory UInt8} {address : Nat}
    (allocated : state.allocate size cells = some (address, next)) : next.frames = state.frames := by
  rw [allocate] at allocated
  split at allocated
  · contradiction
  · cases allocated
    rfl

def set (state : Frames) (address : Nat) (block : Option Block) : Frames :=
  { state with blocks := state.blocks.set address block }

@[simp] theorem set_frames (state : Frames) (address : Nat) (block : Option Block) :
    (state.set address block).frames = state.frames := rfl

end Frames

def fill (rastersize : Int) (target : List UInt8) (pixels : Memory UInt8) : Memory UInt8 :=
  pixels.storeCells 4 ((List.range ((rastersize + 3) / 4).toNat).map fun turn => (turn, target))

namespace GifFile

variable (gif : GifFile)

/-- `map->Colors[bgcolor]`; `none` is a null map or an index outside. -/
def background (image : SavedImage) : Option (List UInt8) :=
  (gif.colorMap image).bind fun colors =>
    (colors[gif.bgcolor image.gcb.transparentColor]?).map fun c => [c.red, c.green, c.blue, 255]

def nextPixels (frame : Nat) (image : SavedImage) (framePixels fresh : Memory UInt8) : Option (Memory UInt8) :=
  let copied := fresh.store 0 (framePixels.window 0 gif.rastersize.toNat)
  let cleared := fresh.store 0 (List.replicate gif.rastersize.toNat 0)
  if image.gcb.disposalMode = disposeDoNot then some copied
  else if image.gcb.disposalMode = disposeBackground then
    if (gif.bgcolor image.gcb.transparentColor : Int) = image.gcb.transparentColor then some cleared
    else (gif.background image).map fun target => fill gif.rastersize target fresh
  else if image.gcb.disposalMode = disposePrevious ∧ 0 < frame then some copied
  else if frame = 0 then some cleared
  else some copied

variable (fresh : Nat → Memory UInt8)

def framePixels (state : Frames) (image : SavedImage) (frame : Nat) : Option (Option Nat × Frames) :=
  if frame = 0 then do
    let target ← gif.background image
    let (address, state) ← state.allocate gif.rastersize (fill gif.rastersize target (fresh state.blocks.length))
    some (some address, state)
  else some ((state.frames[frame]?).join, state)

def prepareNext (state : Frames) (image : SavedImage) (frame : Nat) (drawn : Memory UInt8) : Option Frames :=
  if frame + 1 < gif.savedImages.length then do
    let next ← gif.nextPixels frame image drawn (fresh state.blocks.length)
    -- the address stays in the local variable nextFrame
    let (_, state) ← state.allocate gif.rastersize next
    some state
  else some state

/-- `Image::gifInsertFrame`.  `none` is an exception, or the use of a pointer that
was never assigned or was deleted; `delete[]` at the end is such a use even if no
pixel is drawn.  `fresh` is what new blocks hold. -/
def gifInsertFrame (state : Frames) (entry : SavedImage × Nat) : Option Frames := do
  let (image, frame) := entry
  let (framePixels, state) ← gif.framePixels fresh state image frame
  let address ← framePixels
  let block ← (state.blocks[address]?).join
  let drawn ← draw gif.sWidth gif.sHeight (gif.colorMap image) image block.cells
  let state ← gif.prepareNext fresh (state.set address (some { block with cells := drawn })) image frame drawn
  some (state.set address none)

def load : Option (Frames × Option Nat) :=
  let frames := List.replicate gif.savedImages.length none
  (run (gif.gifInsertFrame fresh) { frames, blocks := [] } gif.savedImages.zipIdx).map fun state =>
    (state, (state.frames[0]?).join)

/-- What the frames are for: the canvas after an image was drawn.  The next one
starts from it as the disposal mode says. -/
def canvasAfter (unset : Memory UInt8) : Nat → Option (Memory UInt8)
  | 0 => do
      let image ← gif.savedImages[0]?
      let target ← gif.background image
      draw gif.sWidth gif.sHeight (gif.colorMap image) image (fill gif.rastersize target unset)
  | frame + 1 => do
      let last ← gif.savedImages[frame]?
      let image ← gif.savedImages[frame + 1]?
      let canvas ← canvasAfter unset frame
      let start ← gif.nextPixels frame last canvas unset
      draw gif.sWidth gif.sHeight (gif.colorMap image) image start

structure AllFrames (state : Frames) (pixels : Option Nat) : Prop where
  count : state.frames.length = gif.savedImages.length
  live : ∀ i < gif.savedImages.length, ∃ address block canvas,
    state.frames[i]? = some (some address) ∧ state.blocks[address]? = some (some block) ∧
    block.size = 4 * gif.sWidth * gif.sHeight ∧ gif.canvasAfter (fun _ => 0) i = some canvas ∧
    block.cells.window 0 block.size = canvas.window 0 block.size
  distinct : ∀ i j, i < gif.savedImages.length → j < gif.savedImages.length →
    state.frames[i]? = state.frames[j]? → i = j
  first : state.frames[0]? = some pixels

def Unassigned (state : Frames) : Prop := state.frames = List.replicate gif.savedImages.length none

variable {gif fresh}

theorem framePixels_frames {state next : Frames} {image : SavedImage} {frame : Nat} {pixels : Option Nat}
    (found : gif.framePixels fresh state image frame = some (pixels, next)) : next.frames = state.frames := by
  rw [framePixels] at found
  split at found
  · obtain ⟨target, _, found⟩ := Option.bind_eq_some_iff.mp found
    obtain ⟨⟨address, after⟩, allocated, found⟩ := Option.bind_eq_some_iff.mp found
    cases found
    exact Frames.allocate_frames allocated
  · cases found
    rfl

theorem prepareNext_frames {state next : Frames} {image : SavedImage} {frame : Nat} {drawn : Memory UInt8}
    (prepared : gif.prepareNext fresh state image frame drawn = some next) : next.frames = state.frames := by
  rw [prepareNext] at prepared
  split at prepared
  · obtain ⟨cells, _, prepared⟩ := Option.bind_eq_some_iff.mp prepared
    obtain ⟨⟨address, after⟩, allocated, prepared⟩ := Option.bind_eq_some_iff.mp prepared
    cases prepared
    exact Frames.allocate_frames allocated
  · cases prepared
    rfl

theorem gifInsertFrame_frames {state next : Frames} {entry : SavedImage × Nat}
    (inserted : gif.gifInsertFrame fresh state entry = some next) : next.frames = state.frames := by
  obtain ⟨⟨pixels, given⟩, found, inserted⟩ := Option.bind_eq_some_iff.mp inserted
  obtain ⟨address, _, inserted⟩ := Option.bind_eq_some_iff.mp inserted
  obtain ⟨block, _, inserted⟩ := Option.bind_eq_some_iff.mp inserted
  obtain ⟨drawn, _, inserted⟩ := Option.bind_eq_some_iff.mp inserted
  obtain ⟨after, prepared, inserted⟩ := Option.bind_eq_some_iff.mp inserted
  cases inserted
  rw [Frames.set_frames, prepareNext_frames prepared, Frames.set_frames]
  exact framePixels_frames found

theorem load_unassigned {state : Frames} {pixels : Option Nat} (loaded : gif.load fresh = some (state, pixels)) :
    gif.Unassigned state := by
  obtain ⟨reached, ran, same⟩ := Option.map_eq_some_iff.mp loaded
  cases same
  have start : gif.Unassigned { frames := List.replicate gif.savedImages.length none, blocks := [] } := rfl
  refine run_preserves start ?_ ran
  intro before entry next unassigned inserted
  exact (gifInsertFrame_frames inserted).trans unassigned

theorem gifInsertFrame_later {state : Frames} {image : SavedImage} {frame : Nat} (later : frame ≠ 0)
    (unset : (state.frames[frame]?).join = none) : gif.gifInsertFrame fresh state (image, frame) = none := by
  have given : gif.framePixels fresh state image frame = some (none, state) := by
    rw [framePixels, if_neg later, unset]
  simp only [gifInsertFrame, given, Option.bind_eq_bind, Option.bind_some, Option.bind_none]

theorem load_several (several : 2 ≤ gif.savedImages.length) : gif.load fresh = none := by
  obtain ⟨first, second, rest, images⟩ : ∃ first second rest, gif.savedImages = first :: second :: rest := by
    match gif.savedImages, several with
    | first :: second :: rest, _ => exact ⟨first, second, rest, rfl⟩
  have entries : gif.savedImages.zipIdx = (first, 0) :: (second, 1) :: rest.zipIdx 2 := by
    rw [images]
    rfl
  rw [load, entries, Option.map_eq_none_iff, run]
  cases inserted : gif.gifInsertFrame fresh _ (first, 0) with
  | none => rfl
  | some next =>
      -- The second call takes an entry that the first has not assigned.
      have unset : (next.frames[1]?).join = none := by
        rw [gifInsertFrame_frames inserted, images]
        rfl
      rw [Option.bind_some, run, gifInsertFrame_later one_ne_zero unset, Option.bind_none]

theorem background_exists {image : SavedImage} {frame : Nat} (backed : gif.Backed frame image)
    (paints : gif.PaintsBackground frame image) : ∃ target, gif.background image = some target := by
  obtain ⟨colors, found, inside⟩ := backed.background paints
  rw [background, found, Option.bind_some, List.getElem?_eq_getElem inside]
  exact ⟨_, rfl⟩

theorem load_single {image : SavedImage} (single : gif.savedImages = [image])
    (fits : 4 * gif.sWidth * gif.sHeight < 2147483648) (backed : gif.Backed 0 image) :
    gif.load fresh = some ({ frames := [none], blocks := [none] }, none) := by
  obtain ⟨target, painted⟩ := background_exists backed (Or.inl rfl)
  have positive : ¬ gif.rastersize < 0 := by
    rw [rastersize_eq fits, not_lt]
    exact Int.natCast_nonneg _
  have given : gif.framePixels fresh { frames := [none], blocks := [] } image 0 =
      some (some 0, { frames := [none], blocks := [some ⟨gif.rastersize.toNat,
        fill gif.rastersize target (fresh 0)⟩] }) := by
    simp only [framePixels, painted, Frames.allocate, if_neg positive, if_true, Option.bind_eq_bind,
      Option.bind_some, List.length_nil, List.nil_append]
  obtain ⟨drawn, ended⟩ := draw_of_inRange ((draw_inRange_iff fits).mpr backed.pixels)
    (fill gif.rastersize target (fresh 0))
  have last : ¬ 0 + 1 < gif.savedImages.length := by
    rw [single]
    exact Nat.lt_irrefl 1
  have inserted : gif.gifInsertFrame fresh { frames := [none], blocks := [] } (image, 0) =
      some { frames := [none], blocks := [none] } := by
    simp only [gifInsertFrame, given, Option.bind_eq_bind, Option.bind_some, List.getElem?_cons_zero,
      Option.join_some, ended, prepareNext, if_neg last, Frames.set, List.set_cons_zero]
  have entries : gif.savedImages.zipIdx = [(image, 0)] := by
    rw [single]
    rfl
  have table : List.replicate gif.savedImages.length (none : Option Nat) = [none] := by
    rw [single]
    rfl
  rw [load, entries, table, run, inserted]
  rfl

end GifFile

/-- No file with an image has its frames in the table after it was loaded. -/
theorem load_loses_frames (gif : GifFile) (fresh : Nat → Memory UInt8) (images : gif.savedImages ≠ []) :
    ¬ ∃ state pixels, gif.load fresh = some (state, pixels) ∧ gif.AllFrames state pixels := by
  intro complete
  obtain ⟨state, pixels, loaded, all⟩ := complete
  have some_image : 0 < gif.savedImages.length := List.length_pos_iff.mpr images
  obtain ⟨address, _, _, entry, _⟩ := all.live 0 some_image
  rw [GifFile.load_unassigned loaded, List.getElem?_replicate_of_lt some_image] at entry
  exact absurd (Option.some.inj entry) (by simp)

theorem load_loses_frames_oneImage :
    ¬ ∃ state pixels, (oneImage 1 (some [⟨0, 0, 0⟩, ⟨255, 255, 255⟩])).load (fun _ _ => 0) = some (state, pixels) ∧
      (oneImage 1 (some [⟨0, 0, 0⟩, ⟨255, 255, 255⟩])).AllFrames state pixels :=
  load_loses_frames (oneImage 1 (some [⟨0, 0, 0⟩, ⟨255, 255, 255⟩])) (fun _ _ => 0) (by simp [oneImage])

/-- The entry of the only image was never assigned, its buffer is deleted, and
`pixels` is not set. -/
theorem load_oneImage :
    ((oneImage 1 (some [⟨0, 0, 0⟩, ⟨255, 255, 255⟩])).load fun _ _ => 0).map
        (fun loaded => (loaded.1.frames, loaded.1.blocks.map Option.isSome, loaded.2)) =
      some ([none], [false], none) := by
  decide

end Webapp.Images
