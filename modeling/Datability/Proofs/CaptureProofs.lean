import Datability.Capture
import Datability.Ledger
import Datability.Proofs.ScannerProofs
import Datability.Proofs.TransitionProofs

/-!
# Proofs: the capture screen answers

A scan either ends at once or is outstanding until its reply is delivered, and in both cases its
completion runs exactly once, which sets one alert and takes the indicator away. So the indicator and
the outstanding scan come and go together, except where the guard on the location returns between the
two. The invariant also has the camera: it can only be opened while nothing is being processed.
-/

namespace Datability

open Completion Transition

namespace CaptureScreen

variable {Character : Type} [DecidableEq Character] {lib : Foundation Character}
  {scr scr' : CaptureScreen}

/-! ## The completion -/

section ScanCompletion

variable (photo : ℕ) (scr : CaptureScreen) (worked : Bool)

/-- The completion in one piece. -/
theorem scanCompletion_eq : scr.scanCompletion photo worked =
    { scr with
      isProcessingResults := false
      showSPAlert := worked || scr.showSPAlert
      showSPAlertBad := !worked || scr.showSPAlertBad
      alerts := scr.alerts ++ [(photo, if worked then .showSPAlert else .showSPAlertBad)] } := by
  cases worked <;> simp [scanCompletion]

theorem alertCount_append (p : ℕ) (alerts : List (ℕ × CaptureAlert)) (a : CaptureAlert) :
    (alerts ++ [(photo, a)]).countP (fun a => a.1 = p) =
      alerts.countP (fun a => a.1 = p) + if photo = p then 1 else 0 := by
  simp [List.countP_append, List.countP_cons]

end ScanCompletion

/-! ## The outcomes of an event -/

/-- A photo `p` has been picked and its image is new. -/
def picked (scr : CaptureScreen) (image : UIImage) : CaptureScreen :=
  { scr with dataSelectedImage := image, dataTakePhotVC := false, photos := scr.photos + 1 }

inductive Effect (lib : Foundation Character) (scr : CaptureScreen) :
    CaptureEvent → CaptureScreen → Prop
  | pressCapture (hp : scr.isProcessingResults = false) :
      Effect lib scr .pressCapture { scr with dataTakePhotVC := true }
  | cancel : Effect lib scr .cancel { scr with dataTakePhotVC := false }
  | noImage {oneCoord currentLoc : Option Location} :
      Effect lib scr (.finishPicking none oneCoord currentLoc) scr
  | sameImage {oneCoord currentLoc : Option Location} :
      Effect lib scr (.finishPicking (some scr.dataSelectedImage) oneCoord currentLoc)
        (scr.picked scr.dataSelectedImage)
  | noLocation {image : UIImage} {currentLoc : Option Location} (hc : scr.dataTakePhotVC = true)
      (hi : image ≠ scr.dataSelectedImage) :
      Effect lib scr (.finishPicking (some image) none currentLoc)
        { scr.picked image with isProcessingResults := true }
  | notSent {image : UIImage} {loc : Location} {currentLoc : Option Location}
      (hc : scr.dataTakePhotVC = true) (hi : image ≠ scr.dataSelectedImage)
      (he : ¬ ∃ loc, currentLoc = some loc ∧ PlantScanner.Encodes lib image loc) :
      Effect lib scr (.finishPicking (some image) (some loc) currentLoc)
        ({ scr.picked image with scanned := scr.scanned ++ [scr.photos] }.scanCompletion scr.photos
          false)
  | sent {image : UIImage} {loc : Location} {currentLoc : Option Location}
      (hc : scr.dataTakePhotVC = true) (hi : image ≠ scr.dataSelectedImage)
      (he : ∃ loc, currentLoc = some loc ∧ PlantScanner.Encodes lib image loc) :
      Effect lib scr (.finishPicking (some image) (some loc) currentLoc)
        { scr.picked image with
          isProcessingResults := true
          scanned := scr.scanned ++ [scr.photos]
          scans := scr.scans ++ [scr.photos] }
  | replied {i photo : ℕ} {result : TaskResult} (hs : scr.scans[i]? = some photo) {worked : Bool}
      (hw : Calls (PlantScanner.handler lib scr.databilityChallenges.expectedPlant result) worked) :
      Effect lib scr (.taskReply i result)
        ({ scr with scans := scr.scans.eraseIdx i }.scanCompletion photo worked)
  | hideAlert : Effect lib scr (.hideAlert .showSPAlert) { scr with showSPAlert := false }
  | hideAlertBad : Effect lib scr (.hideAlert .showSPAlertBad) { scr with showSPAlertBad := false }

theorem step_effect {e : CaptureEvent} (h : scr.step lib e = some scr') :
    Effect lib scr e scr' := by
  cases e with
  | pressCapture =>
    simp only [step, Option.ite_none_right_eq_some] at h
    obtain ⟨⟨hp, -⟩, h⟩ := h
    cases h
    exact .pressCapture hp
  | cancel =>
    simp only [step, Option.ite_none_right_eq_some] at h
    cases h.2
    exact .cancel
  | finishPicking info oneCoord currentLoc =>
    simp only [step, Option.ite_none_right_eq_some] at h
    obtain ⟨hc, h⟩ := h
    cases info with
    | none =>
      cases h
      exact .noImage
    | some image =>
      simp only at h
      split_ifs at h with hi
      · cases h
        subst hi
        exact .sameImage
      · cases h
        cases oneCoord with
        | none => exact .noLocation hc hi
        | some loc =>
          simp only [onChange]
          rcases PlantScanner.plantScanner_cases lib image currentLoc with
            ⟨he, httpBody, hsends⟩ | ⟨he, hcalls⟩
          · rw [hsends.exec]
            exact .sent hc hi he
          · rw [hcalls.exec]
            simpa [picked, scanCompletion] using Effect.notSent hc hi he
  | taskReply i result =>
    simp only [step, Option.map_eq_some_iff] at h
    obtain ⟨photo, hs, rfl⟩ := h
    obtain ⟨b, hb, -⟩ := PlantScanner.handler_decides lib scr.databilityChallenges.expectedPlant result
    rw [hb.exec]
    exact .replied hs hb
  | hideAlert alert =>
    cases alert with
    | showSPAlert =>
      simp only [step, Option.ite_none_right_eq_some] at h
      cases h.2
      exact .hideAlert
    | showSPAlertBad =>
      simp only [step, Option.ite_none_right_eq_some] at h
      cases h.2
      exact .hideAlertBad

/-! ## The invariant -/

structure CaptureInv (scr : CaptureScreen) : Prop where
  /-- The camera is not opened while a photo is being processed. -/
  camera : scr.dataTakePhotVC = true → scr.isProcessingResults = false
  processing : scr.isProcessingResults = true ↔ scr.scans.length = 1
  single : scr.scans.length ≤ 1
  scanned : ∀ p ∈ scr.scanned, p < scr.photos
  scans : ∀ p ∈ scr.scans, p ∈ scr.scanned
  alerted : ∀ a ∈ scr.alerts, a.1 ∈ scr.scanned
  alert : ∀ p ∈ scr.scanned, scr.alertCount p = if p ∈ scr.scans then 0 else 1

theorem CaptureInv.answers (h : scr.CaptureInv) : scr.Answers where
  processing := h.processing
  single := h.single
  alert p hp hout := by rw [h.alert p hp, if_neg hout]

theorem opened_inv (challenge : Challenge) (image : UIImage) : (opened challenge image).CaptureInv where
  camera := by simp [opened]
  processing := by simp [opened]
  single := by simp [opened]
  scanned := by simp [opened]
  scans := by simp [opened]
  alerted := by simp [opened]
  alert := by simp [opened]

/-- With the camera open nothing is outstanding. -/
theorem CaptureInv.scans_eq_nil (h : scr.CaptureInv) (hc : scr.dataTakePhotVC = true) :
    scr.scans = [] := by
  have hne : scr.scans.length ≠ 1 := fun hlen => by
    simpa [h.camera hc] using h.processing.2 hlen
  have hle := h.single
  exact List.length_eq_zero_iff.1 (by omega)

/-- The next photo has not been scanned, and no alert has been set for it. -/
theorem CaptureInv.photos_fresh (h : scr.CaptureInv) :
    scr.photos ∉ scr.scanned ∧ scr.alertCount scr.photos = 0 := by
  have hfresh : scr.photos ∉ scr.scanned := fun hp => Nat.lt_irrefl _ (h.scanned _ hp)
  refine ⟨hfresh, List.countP_eq_zero.2 fun a ha => ?_⟩
  simp only [decide_eq_true_eq]
  intro heq
  exact hfresh (heq ▸ h.alerted a ha)

/-- A step that touches neither scans nor alerts and opens no camera under the indicator. -/
theorem CaptureInv.of_same (h : scr.CaptureInv)
    (hc : scr'.dataTakePhotVC = true → scr.isProcessingResults = false)
    (hp : scr'.isProcessingResults = scr.isProcessingResults) (hs : scr'.scans = scr.scans)
    (hn : scr'.scanned = scr.scanned) (ha : scr'.alerts = scr.alerts) (hph : scr.photos ≤ scr'.photos) :
    scr'.CaptureInv where
  camera := by rwa [hp]
  processing := by rw [hp, hs, h.processing]
  single := by
    rw [hs]
    exact h.single
  scanned p hm := by
    rw [hn] at hm
    exact (h.scanned p hm).trans_le hph
  scans p hm := by
    rw [hs] at hm
    rw [hn]
    exact h.scans p hm
  alerted a hm := by
    rw [ha] at hm
    rw [hn]
    exact h.alerted a hm
  alert p hm := by
    rw [hn] at hm
    rw [alertCount, ha, hs]
    exact h.alert p hm

theorem CaptureInv.sent (h : scr.CaptureInv) (hc : scr.dataTakePhotVC = true) (image : UIImage) :
    CaptureInv { scr.picked image with
      isProcessingResults := true
      scanned := scr.scanned ++ [scr.photos]
      scans := scr.scans ++ [scr.photos] } := by
  have hnil := h.scans_eq_nil hc
  obtain ⟨hfresh, hzero⟩ := h.photos_fresh
  refine ⟨by simp [picked], by simp [hnil], by simp [hnil], ?_, ?_, ?_, ?_⟩
  · intro p hp
    rcases List.mem_append.1 hp with hp | hp
    · exact (h.scanned p hp).trans (Nat.lt_succ_self _)
    · obtain rfl := List.mem_singleton.1 hp
      exact Nat.lt_succ_self _
  · intro p hp
    simp only [hnil, List.nil_append] at hp
    exact List.mem_append_right _ hp
  · intro a ha
    exact List.mem_append_left _ (h.alerted a ha)
  · intro p hp
    simp only [alertCount, picked, hnil, List.nil_append, List.mem_singleton]
    rcases List.mem_append.1 hp with hp | hp
    · have hne : p ≠ scr.photos := fun heq => hfresh (heq ▸ hp)
      have hold := h.alert p hp
      rw [hnil] at hold
      simpa [hne, alertCount] using hold
    · obtain rfl := List.mem_singleton.1 hp
      simpa [alertCount] using hzero

/-- The reply ends the only scan and answers it. -/
theorem CaptureInv.replied (h : scr.CaptureInv) {i photo : ℕ} (hs : scr.scans[i]? = some photo)
    (worked : Bool) :
    ({ scr with scans := scr.scans.eraseIdx i }.scanCompletion photo worked).CaptureInv := by
  obtain ⟨hscans, rfl⟩ : scr.scans = [photo] ∧ i = 0 := by
    have hlt := (List.getElem?_eq_some_iff.1 hs).1
    have hle := h.single
    obtain rfl : i = 0 := by omega
    obtain ⟨p, hp⟩ := List.length_eq_one_iff.1 (show scr.scans.length = 1 by omega)
    exact ⟨by simpa [hp] using hs, rfl⟩
  have hphoto : photo ∈ scr.scanned := h.scans photo (by simp [hscans])
  rw [scanCompletion_eq]
  refine ⟨by simp, by simp [hscans], by simp [hscans], h.scanned, by simp [hscans], ?_, ?_⟩
  · intro a ha
    rcases List.mem_append.1 ha with ha | ha
    · exact h.alerted a ha
    · obtain rfl := List.mem_singleton.1 ha
      exact hphoto
  · intro p hp
    have hold := h.alert p hp
    rw [hscans] at hold
    simp only [alertCount, alertCount_append, hscans, List.eraseIdx_cons_zero, List.not_mem_nil,
      if_false]
    by_cases hpp : p = photo
    · subst hpp
      simpa [alertCount] using hold
    · simpa [hpp, Ne.symm hpp, alertCount] using hold

/-- A photo that could not be sent is answered at once, as if its reply had come with it. -/
theorem CaptureInv.notSent (h : scr.CaptureInv) (hc : scr.dataTakePhotVC = true) (image : UIImage) :
    ({ scr.picked image with scanned := scr.scanned ++ [scr.photos] }.scanCompletion scr.photos
      false).CaptureInv := by
  have hnil := h.scans_eq_nil hc
  have hreplied := (h.sent hc image).replied (show (scr.scans ++ [scr.photos])[0]? = some scr.photos by
    simp [hnil]) false
  rw [scanCompletion_eq] at hreplied ⊢
  simpa [picked, hnil] using hreplied

/-- A step that finds the location keeps the invariant. -/
theorem captureInv_step {e : CaptureEvent} (hl : scr.Located e) (hI : scr.CaptureInv)
    (h : scr.step lib e = some scr') : scr'.CaptureInv := by
  cases step_effect h with
  | pressCapture hp => exact hI.of_same (fun _ => hp) rfl rfl rfl rfl le_rfl
  | cancel => exact hI.of_same nofun rfl rfl rfl rfl le_rfl
  | noImage => exact hI
  | sameImage => exact hI.of_same nofun rfl rfl rfl rfl (Nat.le_succ _)
  | noLocation hc hi => exact absurd rfl (hl hi)
  | notSent hc => exact hI.notSent hc _
  | sent hc => exact hI.sent hc _
  | replied hs => exact hI.replied hs _
  | hideAlert | hideAlertBad => exact hI.of_same hI.camera rfl rfl rfl rfl le_rfl

/-! ## A photo without a location -/

/-- The step that does not find the location leaves the screen stuck. -/
theorem stuck_of_not_located {e : CaptureEvent} (hn : ¬ scr.Located e) (hI : scr.CaptureInv)
    (h : scr.step lib e = some scr') : scr'.Stuck := by
  cases step_effect h with
  | noLocation hc => exact ⟨rfl, rfl, hI.scans_eq_nil hc⟩
  | pressCapture | cancel | noImage | replied | hideAlert | hideAlertBad => exact absurd trivial hn
  | sameImage | notSent | sent => simp [Located] at hn

theorem Stuck.not_answers (h : scr.Stuck) : ¬ scr.Answers := by
  intro hans
  have hone := hans.processing.1 h.processing
  simp [h.scans] at hone

/-- The button is hidden, the camera is closed and no reply will come. -/
theorem stuck_step {e : CaptureEvent} (hS : scr.Stuck) (h : scr.step lib e = some scr') : scr'.Stuck := by
  cases step_effect h with
  | pressCapture hp => simp [hS.processing] at hp
  | cancel | sameImage => exact ⟨hS.processing, rfl, hS.scans⟩
  | noImage => exact hS
  | noLocation hc | notSent hc | sent hc => simp [hS.camera] at hc
  | replied hs => simp [hS.scans] at hs
  | hideAlert | hideAlertBad => exact ⟨hS.processing, hS.camera, hS.scans⟩

/-- Once a photo has missed the location, the screen never answers again. -/
theorem never_answers {challenge : Challenge} {image : UIImage} {es es' : List CaptureEvent}
    {e : CaptureEvent} (hr : run (step lib) (opened challenge image) es = some scr)
    (hes : AllSteps (step lib) Located (opened challenge image) es) (hn : ¬ scr.Located e)
    (h : scr.step lib e = some scr') :
    AllStates (step lib) (fun scr => ¬ scr.Answers) scr' es' := by
  have hI := run_invariant (fun _ _ _ hl hI h => captureInv_step hl hI h) hes
    (opened_inv challenge image) hr
  have hstuck : AllStates (step lib) Stuck scr' es' :=
    allStates_of_invariant (P := fun _ _ => True) (fun _ _ _ _ hS h => stuck_step hS h)
      (allSteps_of_forall_mem fun _ _ => trivial) (stuck_of_not_located hn hI h)
  exact hstuck.imp fun _ => Stuck.not_answers

/-- **The capture screen.** In every run of a screen that has been opened, the indicator, the
outstanding scan and the alerts go together in every state if and only if every new photo finds the
location available. -/
theorem answers_iff {challenge : Challenge} {image : UIImage} {es : List CaptureEvent}
    (hr : run (step lib) (opened challenge image) es = some scr) :
    AllStates (step lib) Answers (opened challenge image) es ↔
      AllSteps (step lib) Located (opened challenge image) es :=
  allStates_iff_allSteps (fun _ => CaptureInv.answers)
    (fun _ _ _ hI h => ⟨fun hl => captureInv_step hl hI h,
      fun hn => (stuck_of_not_located hn hI h).not_answers⟩)
    (opened_inv challenge image) hr

/-- Take the sample photo of a rose. -/
def takePhoto (oneCoord : Option Location) : List CaptureEvent :=
  [.pressCapture, .finishPicking (some Sample.photo) oneCoord (some Sample.here)]

/-- The photo is recognised, and its alert goes away. -/
def roseRecognised : List CaptureEvent :=
  takePhoto (some Sample.here) ++
    [.taskReply 0 ⟨some Sample.roseText, true, false⟩, .hideAlert .showSPAlert, .pressCapture, .cancel]

theorem answers_iff_roseRecognised :
    ∃ scr, run (step Sample.foundation) (opened Sample.roses ⟨0, none⟩) roseRecognised = some scr ∧
      scr.alerts = [(0, .showSPAlert)] ∧
      AllStates (step Sample.foundation) Answers (opened Sample.roses ⟨0, none⟩) roseRecognised := by
  have h : (run (step Sample.foundation) (opened Sample.roses ⟨0, none⟩) roseRecognised).any
      (fun scr => decide (scr.alerts = [(0, .showSPAlert)])) = true := by decide +kernel
  obtain ⟨scr, hr, halerts⟩ := (Option.any_eq_true _ _).1 h
  exact ⟨scr, hr, of_decide_eq_true halerts, (answers_iff hr).2 (by decide +kernel)⟩

/-- Without a location, the photo leaves the indicator behind and the button is gone. -/
theorem noLocation_stuck :
    ∃ scr, run (step Sample.foundation) (opened Sample.roses ⟨0, none⟩) (takePhoto none) = some scr ∧
      ¬ scr.Answers ∧ scr.step Sample.foundation .pressCapture = none := by
  have h : (run (step Sample.foundation) (opened Sample.roses ⟨0, none⟩) (takePhoto none)).any
      (fun scr => decide (¬ scr.Answers ∧
        (scr.step Sample.foundation .pressCapture).isNone = true)) = true := by decide +kernel
  obtain ⟨scr, hr, hp⟩ := (Option.any_eq_true _ _).1 h
  obtain ⟨hans, hnone⟩ := of_decide_eq_true hp
  exact ⟨scr, hr, hans, Option.isNone_iff_eq_none.1 hnone⟩

end CaptureScreen

end Datability
