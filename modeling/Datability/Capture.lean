import Datability.Scanner
import Datability.Transition

/-!
# The capture screen

`DatabilityChallengeExplanation` shows a challenge and lets the user take a photo for it. This module
has the state of one such screen, from the button that opens the camera to the alert that tells the
verdict. While `isProcessingResults` is set, an activity indicator takes the place of the button.

A photo that is picked changes `dataSelectedImage`, and the change starts the scan. The scan runs as
`plantScanner` does: it calls its completion at once, or sends a request whose handler calls it when
the reply is delivered. What the completion does besides, to the profile and to the entries, is
`Device.snapAccepted`.
-/

namespace Datability

open Completion

/-- The two alerts of the screen, under the names of their bindings. -/
inductive CaptureAlert
  | showSPAlert
  | showSPAlertBad
deriving DecidableEq, Repr

structure CaptureScreen where
  databilityChallenges : Challenge
  dataSelectedImage : UIImage
  /-- The camera covers the screen. -/
  dataTakePhotVC : Bool := false
  showSPAlert : Bool := false
  showSPAlertBad : Bool := false
  isProcessingResults : Bool := false
  /-- The photos whose request to plant.id is outstanding. -/
  scans : List ℕ := []
  /-- How many photos have been picked. -/
  photos : ℕ := 0
  /-- The photos that have been handed to `plantScanner`. -/
  scanned : List ℕ := []
  /-- The alerts set so far, each with the photo whose scan has set it. -/
  alerts : List (ℕ × CaptureAlert) := []

inductive CaptureEvent
  | pressCapture
  | cancel
  /-- The picker is done; `info` has the original image, if it has one. -/
  | finishPicking (info : Option UIImage) (oneCoord currentLoc : Option Location)
  | taskReply (i : ℕ) (result : TaskResult)
  /-- The alert goes away by itself. -/
  | hideAlert (alert : CaptureAlert)

namespace CaptureScreen

/-- The completion that the screen passes to `plantScanner`. -/
def scanCompletion (photo : ℕ) (scr : CaptureScreen) (plantScannerWorked : Bool) : CaptureScreen :=
  let scr := { scr with isProcessingResults := false }
  if plantScannerWorked then
    { scr with showSPAlert := true, alerts := scr.alerts ++ [(photo, .showSPAlert)] }
  else { scr with showSPAlertBad := true, alerts := scr.alerts ++ [(photo, .showSPAlertBad)] }

variable {Character : Type} [DecidableEq Character] (lib : Foundation Character)

/-- `onChange(of: dataSelectedImage)`. -/
def onChange (scr : CaptureScreen) (photo : ℕ) (newValue : UIImage)
    (oneCoord currentLoc : Option Location) : CaptureScreen :=
  let scr := { scr with isProcessingResults := true }
  match oneCoord with
  | none => scr
  | some _ =>
    let log := exec (PlantScanner.plantScanner lib newValue currentLoc) {}
    log.calls.foldl (scanCompletion photo)
      { scr with
        scanned := scr.scanned ++ [photo]
        scans := scr.scans ++ log.tasks.map fun _ => photo }

def step (scr : CaptureScreen) : CaptureEvent → Option CaptureScreen
  | .pressCapture =>
    if scr.isProcessingResults = false ∧ scr.dataTakePhotVC = false then
      some { scr with dataTakePhotVC := true }
    else none
  | .cancel => if scr.dataTakePhotVC then some { scr with dataTakePhotVC := false } else none
  | .finishPicking info oneCoord currentLoc =>
    if scr.dataTakePhotVC then
      match info with
      -- the guard on the image returns without closing the camera
      | none => some scr
      | some infoDataImage =>
        let scr' := { scr with
          dataSelectedImage := infoDataImage, dataTakePhotVC := false, photos := scr.photos + 1 }
        if infoDataImage = scr.dataSelectedImage then some scr'
        else some (scr'.onChange lib scr.photos infoDataImage oneCoord currentLoc)
    else none
  | .taskReply i result =>
    scr.scans[i]?.map fun photo =>
      (exec (PlantScanner.handler lib scr.databilityChallenges.expectedPlant result) {}).calls.foldl
        (scanCompletion photo) { scr with scans := scr.scans.eraseIdx i }
  | .hideAlert .showSPAlert =>
    if scr.showSPAlert then some { scr with showSPAlert := false } else none
  | .hideAlert .showSPAlertBad =>
    if scr.showSPAlertBad then some { scr with showSPAlertBad := false } else none

/-! ## A screen that answers -/

/-- How often the scan of a photo has set an alert. -/
def alertCount (scr : CaptureScreen) (photo : ℕ) : ℕ := scr.alerts.countP fun a => a.1 = photo

/-- The screen is processing exactly while one scan is outstanding, there is never a second one, and a
scan that has ended has set exactly one of the alerts. -/
structure Answers (scr : CaptureScreen) : Prop where
  processing : scr.isProcessingResults = true ↔ scr.scans.length = 1
  single : scr.scans.length ≤ 1
  alert : ∀ photo ∈ scr.scanned, photo ∉ scr.scans → scr.alertCount photo = 1

instance (scr : CaptureScreen) : Decidable scr.Answers :=
  decidable_of_iff ((scr.isProcessingResults = true ↔ scr.scans.length = 1) ∧ scr.scans.length ≤ 1 ∧
      ∀ photo ∈ scr.scanned, photo ∉ scr.scans → scr.alertCount photo = 1)
    ⟨fun h => ⟨h.1, h.2.1, h.2.2⟩, fun h => ⟨h.processing, h.single, h.alert⟩⟩

/-- The indicator is shown, and nothing is under way that could take it away. -/
structure Stuck (scr : CaptureScreen) : Prop where
  processing : scr.isProcessingResults = true
  camera : scr.dataTakePhotVC = false
  scans : scr.scans = []

/-- A new photo finds the location available. -/
def Located (scr : CaptureScreen) : CaptureEvent → Prop
  | .finishPicking (some infoDataImage) oneCoord _ =>
    infoDataImage ≠ scr.dataSelectedImage → oneCoord ≠ none
  | _ => True

instance (scr : CaptureScreen) : ∀ e, Decidable (scr.Located e)
  | .finishPicking (some _) _ _ => inferInstanceAs (Decidable (_ → _))
  | .finishPicking none _ _ | .pressCapture | .cancel | .taskReply _ _ | .hideAlert _ => isTrue trivial

/-- A screen that has just been opened. -/
def opened (databilityChallenges : Challenge) (dataSelectedImage : UIImage) : CaptureScreen where
  databilityChallenges := databilityChallenges
  dataSelectedImage := dataSelectedImage

end CaptureScreen

/-! ## The screen as a part of the phone -/

/-- What is drawn when a snap is accepted: its money, and the name that its photo is stored under. -/
structure Draw where
  moneyIncrementedRandom : ℚ
  imageUUID : String
  low : 1 / 10 ≤ moneyIncrementedRandom
  high : moneyIncrementedRandom ≤ 1

namespace CaptureScreen

variable {Character : Type} [DecidableEq Character] (lib : Foundation Character)

/-- Whether `plantScanner` gets as far as to send its request. -/
def encoded (image : UIImage) (currentLoc : Option Location) : Bool :=
  (image.pngData.bind fun png => currentLoc.bind fun loc =>
    lib.data (PlantScanner.requestObject (lib.base64EncodedString png) loc)).isSome

/-- The steps of the phone that an event of the screen amounts to. A photo that was sent has been
encoded, so `uploadPhoto` can encode it too. -/
def phoneEvents (scr : CaptureScreen) : CaptureEvent × Draw → List Event
  | (.finishPicking (some infoDataImage) oneCoord currentLoc, _) =>
    if infoDataImage = scr.dataSelectedImage then []
    else [.capture scr.photos scr.databilityChallenges oneCoord currentLoc
      (encoded lib infoDataImage currentLoc)]
  | (.taskReply i result, draw) =>
    [.scanReply i ⟨result.error, result.response, result.data.map lib.jsonObject⟩
      draw.moneyIncrementedRandom draw.imageUUID true]
  | _ => []

/-- A step of the screen, with what is drawn in it. -/
def drawStep (scr : CaptureScreen) (l : CaptureEvent × Draw) : Option CaptureScreen := scr.step lib l.1

/-- How many snaps the screen has congratulated for. -/
def congratulated (scr : CaptureScreen) : ℕ := scr.alerts.countP fun a => a.2 = .showSPAlert

end CaptureScreen

end Datability
