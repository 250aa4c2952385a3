import Webapp.Data.Ownership
import Webapp.Images.Encoders

namespace Webapp.Images

open Webapp.Data

/-! The GIF handles of an `Image`.  Handles are numbered as they are made.  A
function is given the outcomes of the calls it makes, and returns the uses of
handles in their order.
-/

/-- The fields of `Image` that decide about the handle; `made` counts the handles. -/
structure Holder where
  imageType : Option ImageType
  gif : Option Nat
  made : Nat
deriving DecidableEq, Repr

/-- The outcomes of `EGifOpen` in `changeType`, `File::Open`, `DGifOpenFileHandle` and
`DGifSlurp`. -/
structure LoadOutcome where
  made : Bool
  found : Bool
  opens : Bool
  slurps : Bool
deriving DecidableEq, Repr

/-- The outcomes of `EGifOpen` in `changeType` and `EGifOpenFileHandle`, and whether
there is a global colour map to be copied. -/
structure SaveOutcome where
  made : Bool
  opens : Bool
  mapped : Bool
deriving DecidableEq, Repr

namespace Holder

def new : Holder := { imageType := none, gif := none, made := 0 }

/-- A call that makes a handle for `gif`, or returns a null pointer. -/
def openGif (holder : Holder) (succeeds : Bool) : List (Use Nat) × Holder :=
  if succeeds then ([.acquire holder.made], { holder with gif := some holder.made, made := holder.made + 1 })
  else ([], { holder with gif := none })

/-- `if(gif) DGifCloseFile(gif)` -/
def closeGif (holder : Holder) : List (Use Nat) := (holder.gif.map Use.release).toList

/-- `Image::Cleanup`, which does not forget the handle. -/
def cleanup (holder : Holder) : List (Use Nat) :=
  if holder.imageType = some .gif then holder.closeGif else []

def changeType (holder : Holder) (filename : List UInt8) (made : Bool) : List (Use Nat) × Holder :=
  match namedType filename with
  | some .gif =>
      if holder.imageType.isSome ∧ holder.imageType ≠ some .gif then
        let (opened, after) := holder.openGif made
        (holder.closeGif ++ opened, { after with imageType := some .gif })
      else ([], { holder with imageType := some .gif })
  | some imageType => ([], { holder with imageType := some imageType })
  | none => ([], holder)

/-- The branch of `Image::load` for a GIF file that was opened. -/
def readGif (holder : Holder) (outcome : LoadOutcome) : List (Use Nat) × Holder :=
  let (opened, holder) := holder.openGif outcome.opens
  match holder.gif with
  | none => (opened, holder)
  | some handle =>
      (opened ++ [.pass handle] ++ [if outcome.slurps then .pass handle else .release handle], holder)

def load (holder : Holder) (filename : List UInt8) (outcome : LoadOutcome) : List (Use Nat) × Holder :=
  let holder := { holder with gif := none }
  let cleaned := holder.cleanup
  let (changed, holder) := holder.changeType filename outcome.made
  if holder.imageType = some .gif ∧ outcome.found = true then
    let (read, holder) := holder.readGif outcome
    (cleaned ++ changed ++ read, holder)
  else (cleaned ++ changed, holder)

/-- `Image::save`.  `none` is the end of the process at a null pointer. -/
def save (holder : Holder) (filename : List UInt8) (outcome : SaveOutcome) : List (Use Nat) × Option Holder :=
  let oldType := holder.imageType
  let (changed, holder) := holder.changeType filename outcome.made
  let finish := { holder with imageType := oldType }
  if holder.imageType = some .gif ∧ outcome.opens = true then
    match holder.gif with
    | none => (changed, none)
    | some handle => (changed ++ [.pass handle], if outcome.mapped then some finish else none)
  else (changed, some finish)

end Holder

inductive HandleCall where
  | load (filename : List UInt8) (outcome : LoadOutcome)
  | resize
  | save (filename : List UInt8) (outcome : SaveOutcome)
deriving DecidableEq, Repr

/-- The uses of handles in a sequence of calls and the destructor at its end. -/
def handleUses : Holder → List HandleCall → List (Use Nat)
  | holder, [] => holder.cleanup
  | holder, .load filename outcome :: calls =>
      (holder.load filename outcome).1 ++ handleUses (holder.load filename outcome).2 calls
  | holder, .resize :: calls => handleUses holder calls
  | holder, .save filename outcome :: calls =>
      (holder.save filename outcome).1 ++
        match (holder.save filename outcome).2 with
        | some next => handleUses next calls
        | none => []

/-- A handle is used only between the call that made it and the one that closes it. -/
def Orderly (uses : List (Use Nat)) : Prop := (run use (fun _ => false) uses).isSome = true

def Holder.encoded (holder : Holder) (filename : List UInt8) : Option ImageType :=
  (namedType filename).or holder.imageType

/-- The load fails in `DGifSlurp`. -/
def Holder.Corrupts (holder : Holder) (filename : List UInt8) (outcome : LoadOutcome) : Prop :=
  holder.encoded filename = some .gif ∧ outcome.found = true ∧ outcome.opens = true ∧ outcome.slurps = false

instance (holder : Holder) (filename : List UInt8) (outcome : LoadOutcome) :
    Decidable (holder.Corrupts filename outcome) :=
  inferInstanceAs (Decidable (_ ∧ _))

/-- When the last load has failed in `DGifSlurp`, nothing is saved as a GIF file and
the image is not destroyed. -/
def Spared : Holder → Bool → List HandleCall → Prop
  | _, corrupt, [] => corrupt = false
  | holder, _, .load filename outcome :: calls =>
      Spared (holder.load filename outcome).2 (decide (holder.Corrupts filename outcome)) calls
  | holder, corrupt, .resize :: calls => Spared holder corrupt calls
  | holder, corrupt, .save filename outcome :: calls =>
      (corrupt = true → ¬ (holder.encoded filename = some .gif ∧ outcome.opens = true)) ∧
        ∀ next ∈ (holder.save filename outcome).2, Spared next corrupt calls

/-- The live handles and the one that is held, which is closed if `corrupt`. -/
structure Tracks (live : Nat → Bool) (holder : Holder) (corrupt : Bool) : Prop where
  fresh : ∀ handle, holder.made ≤ handle → live handle = false
  made : ∀ handle ∈ holder.gif, handle < holder.made
  held : ∀ handle ∈ holder.gif, live handle = !corrupt
  type : corrupt = true → holder.imageType = some .gif ∧ holder.gif ≠ none

section

variable {live : Nat → Bool} {holder : Holder} {corrupt : Bool} (filename : List UInt8)

theorem Tracks.retype {imageType : Option ImageType} (tracks : Tracks live holder false) :
    Tracks live { holder with imageType := imageType } false :=
  ⟨tracks.fresh, tracks.made, tracks.held, by simp⟩

theorem Tracks.forget (tracks : Tracks live holder corrupt) : Tracks live { holder with gif := none } false :=
  ⟨tracks.fresh, by simp, by simp, by simp⟩

theorem Tracks.close (tracks : Tracks live holder false) :
    ∃ after, Leads live holder.closeGif after ∧ ∀ handle, holder.made ≤ handle → after handle = false := by
  cases given : holder.gif with
  | none =>
      rw [Holder.closeGif, given]
      exact ⟨live, Leads.nil live, tracks.fresh⟩
  | some handle =>
      rw [Holder.closeGif, given]
      refine ⟨_, Leads.release (tracks.held handle given), fun other later => ?_⟩
      have before := tracks.made handle given
      rw [Function.update_of_ne (by omega)]
      exact tracks.fresh other later

theorem openGif_tracks (fresh : ∀ handle, holder.made ≤ handle → live handle = false) (succeeds : Bool) :
    ∃ after, Leads live (holder.openGif succeeds).1 after ∧ Tracks after (holder.openGif succeeds).2 false := by
  cases succeeds with
  | false => exact ⟨live, Leads.nil live, fresh, by simp [Holder.openGif], by simp [Holder.openGif], by simp⟩
  | true =>
      refine ⟨_, Leads.acquire (fresh holder.made le_rfl), ?_, ?_, ?_, by simp⟩
      · intro handle later
        have other : holder.made + 1 ≤ handle := later
        rw [Function.update_of_ne (by omega)]
        exact fresh handle (by omega)
      · simp [Holder.openGif]
      · simp [Holder.openGif]

theorem Tracks.changeType (tracks : Tracks live holder false) (made : Bool) :
    ∃ after, Leads live (holder.changeType filename made).1 after ∧
      Tracks after (holder.changeType filename made).2 false := by
  rw [Holder.changeType]
  split
  · split
    · obtain ⟨between, closed, fresh⟩ := tracks.close
      obtain ⟨after, opened, later⟩ := openGif_tracks fresh made
      exact ⟨after, closed.append opened, later.retype⟩
    · exact ⟨live, Leads.nil live, tracks.retype⟩
  · exact ⟨live, Leads.nil live, tracks.retype⟩
  · exact ⟨live, Leads.nil live, tracks⟩

theorem changeType_imageType (made : Bool) :
    (holder.changeType filename made).2.imageType = holder.encoded filename := by
  rw [Holder.changeType, Holder.encoded]
  split
  · rename_i named
    rw [named]
    split <;> rfl
  · rename_i named
    rw [named]
    rfl
  · rename_i named
    rw [named]
    rfl

theorem readGif_tracks (tracks : Tracks live holder false) (typed : holder.imageType = some .gif)
    (outcome : LoadOutcome) :
    ∃ after, Leads live (holder.readGif outcome).1 after ∧
      Tracks after (holder.readGif outcome).2 (outcome.opens && !outcome.slurps) := by
  obtain ⟨between, opened, later⟩ := openGif_tracks tracks.fresh outcome.opens
  rw [Holder.readGif]
  cases opens : outcome.opens with
  | false =>
      rw [opens] at opened later
      exact ⟨between, opened, later⟩
  | true =>
      rw [opens] at opened later
      have held : between holder.made = true := later.held holder.made rfl
      cases slurps : outcome.slurps with
      | true => exact ⟨between, (opened.append (Leads.pass held)).append (Leads.pass held), later⟩
      | false =>
          refine ⟨_, (opened.append (Leads.pass held)).append (Leads.release held), ?_, later.made, ?_, ?_⟩
          · intro handle above
            have other : holder.made + 1 ≤ handle := above
            rw [Function.update_of_ne (by omega)]
            exact later.fresh handle above
          · simp [Holder.openGif]
          · simp [Holder.openGif, typed]

theorem Tracks.load (tracks : Tracks live holder corrupt) (outcome : LoadOutcome) :
    ∃ after, Leads live (holder.load filename outcome).1 after ∧
      Tracks after (holder.load filename outcome).2 (decide (holder.Corrupts filename outcome)) := by
  have cleaned : Leads live ({ holder with gif := none } : Holder).cleanup live := by
    rw [Holder.cleanup]
    split <;> exact Leads.nil live
  obtain ⟨between, changed, later⟩ := tracks.forget.changeType filename outcome.made
  have typed : (({ holder with gif := none } : Holder).changeType filename outcome.made).2.imageType =
      holder.encoded filename := changeType_imageType filename outcome.made
  rw [Holder.load]
  generalize ({ holder with gif := none } : Holder).changeType filename outcome.made = changedType at changed later typed
  by_cases reads : holder.encoded filename = some .gif ∧ outcome.found = true
  · obtain ⟨after, read, last⟩ := readGif_tracks later (typed.trans reads.1) outcome
    have corrupts : (outcome.opens && !outcome.slurps) = decide (holder.Corrupts filename outcome) := by
      rw [Bool.eq_iff_iff]
      simp [Holder.Corrupts, reads.1, reads.2]
    rw [corrupts] at last
    simp only [typed, if_pos reads]
    exact ⟨after, (cleaned.append changed).append read, last⟩
  · have intact : decide (holder.Corrupts filename outcome) = false := by
      rw [decide_eq_false_iff_not]
      exact fun corrupts => reads ⟨corrupts.1, corrupts.2.1⟩
    simp only [typed, if_neg reads, intact]
    exact ⟨between, cleaned.append changed, later⟩

/-- A save that finds the handle open leaves it so. -/
theorem Tracks.save (tracks : Tracks live holder false) (outcome : SaveOutcome) :
    ∃ after, Leads live (holder.save filename outcome).1 after ∧
      ∀ next ∈ (holder.save filename outcome).2, Tracks after next false := by
  obtain ⟨after, changed, later⟩ := tracks.changeType filename outcome.made
  rw [Holder.save]
  generalize holder.changeType filename outcome.made = changedType at changed later
  obtain ⟨uses, typed⟩ := changedType
  dsimp only at changed later ⊢
  split
  · cases given : typed.gif with
    | none => exact ⟨after, changed, by simp⟩
    | some handle =>
        refine ⟨after, changed.append (Leads.pass (later.held handle given)), ?_⟩
        intro next member
        simp only [Option.mem_ite_none_right, Option.mem_some_iff] at member
        obtain ⟨_, rfl⟩ := member
        rw [← given]
        exact later.retype
  · refine ⟨after, changed, ?_⟩
    intro next member
    cases member
    exact later.retype

theorem changeType_gif (typed : holder.imageType = some .gif) (made : Bool) :
    holder.changeType filename made = ([], { holder with imageType := holder.encoded filename }) := by
  rw [Holder.changeType, Holder.encoded]
  split
  · rename_i named
    rw [named, if_neg (by simp [typed])]
    rfl
  · rename_i named
    rw [named]
    rfl
  · rename_i named
    rw [named, typed]
    simp [← typed]

theorem Tracks.save_corrupt (tracks : Tracks live holder true) (outcome : SaveOutcome)
    (spared : ¬ (holder.encoded filename = some .gif ∧ outcome.opens = true)) :
    holder.save filename outcome = ([], some holder) := by
  obtain ⟨typed, _⟩ := tracks.type rfl
  rw [Holder.save, changeType_gif filename typed]
  simp only [if_neg spared]

theorem Tracks.save_closed (tracks : Tracks live holder true) (outcome : SaveOutcome)
    (used : holder.encoded filename = some .gif ∧ outcome.opens = true) (more : List (Use Nat)) :
    run use live ((holder.save filename outcome).1 ++ more) = none := by
  obtain ⟨typed, given⟩ := tracks.type rfl
  obtain ⟨handle, given⟩ := Option.ne_none_iff_exists'.mp given
  have closed : live handle = false := tracks.held handle given
  rw [Holder.save, changeType_gif filename typed]
  simp only [if_pos used, given]
  simp [run, use, closed]

theorem Tracks.cleanup (tracks : Tracks live holder corrupt) :
    (run use live holder.cleanup).isSome = true ↔ corrupt = false := by
  cases corrupt with
  | false =>
      obtain ⟨after, closed, _⟩ := tracks.close
      rw [Holder.cleanup]
      split
      · rw [Leads] at closed
        simp [closed]
      · simp [run]
  | true =>
      obtain ⟨typed, given⟩ := tracks.type rfl
      obtain ⟨handle, given⟩ := Option.ne_none_iff_exists'.mp given
      have closed : live handle = false := tracks.held handle given
      simp [Holder.cleanup, typed, Holder.closeGif, given, run, use, closed]

theorem Tracks.orderly_iff (tracks : Tracks live holder corrupt) (calls : List HandleCall) :
    (run use live (handleUses holder calls)).isSome = true ↔ Spared holder corrupt calls := by
  induction calls generalizing live holder corrupt with
  | nil => exact tracks.cleanup
  | cons call calls ih =>
      cases call with
      | load filename outcome =>
          obtain ⟨after, leads, later⟩ := tracks.load filename outcome
          rw [handleUses, run_append, leads]
          exact ih later
      | resize => exact ih tracks
      | save filename outcome =>
          rw [handleUses, Spared]
          cases corrupt with
          | false =>
              obtain ⟨after, leads, later⟩ := tracks.save filename outcome
              rw [run_append, leads]
              simp only [Bool.false_eq_true, false_implies, true_and, Option.bind_some]
              cases saved : (holder.save filename outcome).2 with
              | none => simp [run]
              | some next =>
                  simp only [Option.mem_some_iff, forall_eq']
                  exact ih (later next saved)
          | true =>
              by_cases used : holder.encoded filename = some .gif ∧ outcome.opens = true
              · rw [tracks.save_closed filename outcome used]
                simp [used]
              · rw [tracks.save_corrupt filename outcome used]
                simp only [List.nil_append, used, not_false_eq_true, implies_true, true_and, Option.mem_some_iff,
                  forall_eq']
                exact ih tracks

end

/-- Over the whole life of an image, each handle is closed at most once and not used
afterwards, exactly when no load that failed in `DGifSlurp` is the last one before
the image is saved as a GIF file or destroyed. -/
theorem handles_orderly_iff (filename : List UInt8) (outcome : LoadOutcome) (calls : List HandleCall) :
    Orderly (handleUses Holder.new (.load filename outcome :: calls)) ↔
      Spared Holder.new false (.load filename outcome :: calls) := by
  have start : Tracks (fun _ => false) Holder.new false := ⟨fun _ _ => rfl, by simp [Holder.new], by simp [Holder.new], by simp⟩
  exact start.orderly_iff _

/-- "a.gif" -/
def gifName : List UInt8 := [0x61, 0x2e, 0x67, 0x69, 0x66]

def corruptUpload : List HandleCall := [.load gifName { made := true, found := true, opens := true, slurps := false }]

/-- A corrupt GIF file is loaded and the image is destroyed. -/
theorem corruptUpload_closes_twice :
    handleUses Holder.new corruptUpload = [.acquire 0, .pass 0, .release 0, .release 0] ∧
      ¬ Orderly (handleUses Holder.new corruptUpload) := by
  have uses : handleUses Holder.new corruptUpload = [.acquire 0, .pass 0, .release 0, .release 0] := by decide
  refine ⟨uses, ?_⟩
  rw [uses, Orderly]
  decide

end Webapp.Images
