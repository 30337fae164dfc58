import Datability.Proofs.CaptureProofs
import Datability.Proofs.DeviceProofs
import Datability.Proofs.FirestoreProofs

/-!
# Proofs: the capture screen on the phone

The screen and the phone are two views of one piece of code: the screen has the indicator and the
alerts, the phone has the counters and the writes. Every run of the screen is a run of the phone, and
over such a run the phone counts exactly the snaps that the screen congratulates for.
-/

namespace Datability

open Completion Transition

namespace CaptureScreen

variable {lib : Foundation Char} {scr scr' : CaptureScreen} {dev : Device} {start : ℤ} {n : ℕ}

/-- The phone is at the screen: it has the scans of the screen outstanding, it has counted the snaps
that the screen has congratulated for, and `n` more can be counted. -/
structure Tracks (start : ℤ) (n : ℕ) (scr : CaptureScreen) (dev : Device) : Prop where
  view : dev.challengesView = true
  tab : dev.currentTab = .home
  scans : dev.scans.map (fun scan => (scan.photo.serial, scan.challenge)) =
    scr.scans.map fun photo => (photo, scr.databilityChallenges)
  snaps : dev.defaults.integer .totalSnapsTakenLocal = start + scr.congratulated
  room : dev.defaults.integer .totalSnapsTakenLocal + n < 2 ^ 63

theorem Tracks.room_pred (h : Tracks start (n + 1) scr dev) :
    dev.defaults.integer .totalSnapsTakenLocal + n < 2 ^ 63 := by
  have hroom := h.room
  omega

/-- A step of the screen that the phone does not take part in. -/
theorem Tracks.of_same (h : Tracks start (n + 1) scr dev)
    (hc : scr'.databilityChallenges = scr.databilityChallenges) (hs : scr'.scans = scr.scans)
    (ha : scr'.alerts = scr.alerts) : Tracks start n scr' dev where
  view := h.view
  tab := h.tab
  scans := by rw [hs, hc, h.scans]
  snaps := by rw [h.snaps, congratulated, congratulated, ha]
  room := h.room_pred

theorem encoded_iff {image : UIImage} {currentLoc : Option Location} :
    encoded lib image currentLoc = true ↔
      ∃ loc, currentLoc = some loc ∧ PlantScanner.Encodes lib image loc := by
  cases currentLoc <;> cases hpng : image.pngData <;> simp [encoded, PlantScanner.Encodes, hpng]

/-- A photo that finds the location is captured on the phone too, and scanned there if it is sent. -/
theorem Tracks.capture (h : Tracks start (n + 1) scr dev) (loc : Location) {currentLoc : Option Location}
    {sent : Bool} (hsent : sent = true → currentLoc.isSome = true)
    (hc : scr'.databilityChallenges = scr.databilityChallenges)
    (hs : scr'.scans = scr.scans ++ if sent then [scr.photos] else [])
    (ha : scr'.congratulated = scr.congratulated) :
    ∃ dev', dev.step (.capture scr.photos scr.databilityChallenges (some loc) currentLoc sent) =
      some dev' ∧ Tracks start n scr' dev' := by
  have hsnaps : dev.defaults.integer .totalSnapsTakenLocal = start + scr'.congratulated := by
    rw [ha, h.snaps]
  have hscans := h.scans
  cases sent with
  | true =>
    simp only [Device.step, h.view, h.tab, hsent rfl, and_self, if_true]
    refine ⟨_, rfl, ⟨rfl, rfl, ?_, hsnaps, h.room_pred⟩⟩
    simp [hs, hc, hscans]
  | false =>
    simp only [Device.step, h.view, h.tab, and_self, Bool.false_eq_true, and_false, if_true, if_false]
    refine ⟨_, rfl, ⟨rfl, rfl, ?_, hsnaps, h.room_pred⟩⟩
    simp [hs, hc, hscans]

/-- The outstanding scan of the screen is one of the phone, for the same challenge. -/
theorem Tracks.getElem_scans (h : Tracks start n scr dev) {i photo : ℕ}
    (hs : scr.scans[i]? = some photo) :
    ∃ scan, dev.scans[i]? = some scan ∧ scan.challenge = scr.databilityChallenges := by
  have hi : (dev.scans.map fun scan => (scan.photo.serial, scan.challenge))[i]? =
      some (photo, scr.databilityChallenges) := by
    rw [h.scans, List.getElem?_map, hs]
    rfl
  rw [List.getElem?_map, Option.map_eq_some_iff] at hi
  obtain ⟨scan, hscan, heq⟩ := hi
  exact ⟨scan, hscan, (Prod.mk.inj heq).2⟩

/-- The reply ends the scan on the phone too, where an accepted snap is counted. -/
theorem Tracks.replied (h : Tracks start (n + 1) scr dev) {i photo : ℕ}
    (hs : scr.scans[i]? = some photo) {reply : PlantReply} {worked : Bool}
    (hreply : plantScannerReply reply scr.databilityChallenges.expectedPlant = some worked)
    (draw : Draw) :
    ∃ dev', dev.step (.scanReply i reply draw.moneyIncrementedRandom draw.imageUUID true) = some dev' ∧
      Tracks start n ({ scr with scans := scr.scans.eraseIdx i }.scanCompletion photo worked) dev' := by
  obtain ⟨scan, hscan, hchallenge⟩ := h.getElem_scans hs
  have hroom := h.room
  have hsnaps := h.snaps
  have hscans : (dev.scans.eraseIdx i).map (fun scan => (scan.photo.serial, scan.challenge)) =
      (scr.scans.eraseIdx i).map fun photo => (photo, scr.databilityChallenges) := by
    rw [← List.eraseIdx_map, h.scans, List.eraseIdx_map]
  simp only [Device.step, hscan, Option.bind_some, hchallenge, hreply]
  rw [scanCompletion_eq]
  cases worked with
  | false =>
    refine ⟨dev.endScan i scan reply, rfl, h.view, h.tab, hscans, ?_, h.room_pred⟩
    simpa [congratulated, Device.endScan] using hsnaps
  | true =>
    have hcount : dev.CanCount .totalSnapsTakenLocal := by
      rw [Device.CanCount]
      omega
    rw [if_pos rfl, if_pos ⟨draw.low, draw.high, hcount⟩]
    have hcounted : (((dev.endScan i scan reply).snapAccepted scan draw.moneyIncrementedRandom draw.imageUUID
        true).defaults.integer .totalSnapsTakenLocal) =
        dev.defaults.integer .totalSnapsTakenLocal + 1 :=
      Fields.integer_of_eq (Device.snapAccepted_snaps ..)
    refine ⟨_, rfl, ?_, ?_, ?_, ?_, ?_⟩
    · rw [Device.snapAccepted_eq]
      exact h.view
    · rw [Device.snapAccepted_eq]
      exact h.tab
    · rw [Device.snapAccepted_scans]
      exact hscans
    · rw [hcounted, hsnaps]
      simp [congratulated, add_assoc]
    · rw [hcounted]
      omega

/-- Each event of the screen is matched by the phone. -/
theorem tracks_step (hlib : lib.Scalars) {l : CaptureEvent × Draw} (h : Tracks start (n + 1) scr dev)
    (hs : scr.drawStep lib l = some scr') :
    ∃ dev', run Device.step dev (scr.phoneEvents lib l) = some dev' ∧ Tracks start n scr' dev' := by
  obtain ⟨e, draw⟩ := l
  cases step_effect hs with
  | pressCapture | cancel | noImage | hideAlert | hideAlertBad =>
    exact ⟨dev, rfl, h.of_same rfl rfl rfl⟩
  | sameImage => exact ⟨dev, by simp [phoneEvents], h.of_same rfl rfl rfl⟩
  | noLocation hc hi =>
    exact ⟨dev, by simp [phoneEvents, hi, run, Device.step, h.view, h.tab], h.of_same rfl rfl rfl⟩
  | @notSent image loc currentLoc hc hi he =>
    have hfalse : encoded lib image currentLoc = false := by
      rw [Bool.eq_false_iff, Ne, encoded_iff]
      exact he
    simp only [phoneEvents, if_neg hi, hfalse, run_singleton]
    exact h.capture loc (by simp) rfl (by simp [scanCompletion_eq, picked])
      (by simp [congratulated, scanCompletion_eq, picked])
  | @sent image loc currentLoc hc hi he =>
    have htrue := encoded_iff.2 he
    obtain ⟨loc', rfl, -⟩ := he
    simp only [phoneEvents, if_neg hi, htrue, run_singleton]
    exact h.capture loc (fun _ => rfl) rfl rfl rfl
  | @replied i photo result hi worked hw =>
    obtain ⟨b, hreply, hb⟩ := handler_calls hlib scr.databilityChallenges.expectedPlant result
    obtain rfl : b = worked := hb.unique hw
    simp only [phoneEvents, run_singleton]
    exact h.replied hi hreply draw

/-- Every run of a screen is a run of the phone that shows it. The phone counts the snaps that the
screen congratulates for, and no others. -/
theorem run_phone (hlib : lib.Scalars) {challenge : Challenge} {image : UIImage}
    {ls : List (CaptureEvent × Draw)} (hview : dev.challengesView = true) (htab : dev.currentTab = .home)
    (hscans : dev.scans = [])
    (hroom : dev.defaults.integer .totalSnapsTakenLocal + ls.length < 2 ^ 63)
    (hr : run (drawStep lib) (opened challenge image) ls = some scr) :
    ∃ dev', run Device.step dev (translate (drawStep lib) (phoneEvents lib) (opened challenge image) ls) =
        some dev' ∧
      dev'.scans.map (·.photo.serial) = scr.scans ∧
      dev'.defaults.integer .totalSnapsTakenLocal =
        dev.defaults.integer .totalSnapsTakenLocal + scr.congratulated := by
  have hstart : Tracks (dev.defaults.integer .totalSnapsTakenLocal) (0 + ls.length)
      (opened challenge image) dev :=
    ⟨hview, htab, by simp [hscans, opened], by simp [congratulated, opened], by simpa using hroom⟩
  obtain ⟨dev', hdev', htracks⟩ :=
    run_translate (R := Tracks _) (fun n s l s' t h hs => tracks_step hlib h hs) hstart hr
  refine ⟨dev', hdev', ?_, htracks.snaps⟩
  have hserials := congrArg (List.map Prod.fst) htracks.scans
  simpa [List.map_map, Function.comp_def] using hserials

end CaptureScreen

end Datability
