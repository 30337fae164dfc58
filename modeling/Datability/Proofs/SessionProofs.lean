import Datability.Session
import Datability.Proofs.StepProofs
import Datability.Proofs.DeviceProofs
import Datability.Proofs.TransitionProofs

/-!
# Proofs: screen and session

The screen is not derived from the session: four views maintain it with pairs of remove and load
calls. All pairs but one put the screen where the session is; the sign-out removes the challenges and
loads them again, which is the only way to a screen that does not match.
-/

namespace Datability

open Transition

namespace Device

variable {dev dev' : Device}

/-- The views alone: none is shown while the app is not running, and exactly one while it is. -/
structure ViewInv (dev : Device) : Prop where
  stopped : dev.running = false → dev.loginView = false ∧ dev.challengesView = false
  one : dev.running = true → (dev.loginView = true ↔ dev.challengesView = false)

/-- A view that is shown is shown by a running process. -/
theorem ViewInv.running (hI : dev.ViewInv) (h : dev.loginView = true ∨ dev.challengesView = true) :
    dev.running = true := by
  by_contra hr
  have := hI.stopped (by simpa using hr)
  simp [this.1, this.2] at h

theorem ViewInv.not_challenges (hI : dev.ViewInv) (h : dev.loginView = true) :
    dev.challengesView = false :=
  (hI.one (hI.running (.inl h))).1 h

theorem ViewInv.of_eq (hI : dev.ViewInv) (hr : dev'.running = dev.running)
    (hl : dev'.loginView = dev.loginView) (hc : dev'.challengesView = dev.challengesView) :
    dev'.ViewInv := by
  refine ⟨?_, ?_⟩
  · rw [hr, hl, hc]
    exact hI.stopped
  · rw [hr, hl, hc]
    exact hI.one

/-- `viewDidLoad` shows one view of a process that has just started. -/
theorem ViewInv.launch (hI : dev.ViewInv) (hr : dev.running = false) :
    ({ dev with running := true }).viewDidLoad.ViewInv := by
  obtain ⟨hl, hc⟩ := hI.stopped hr
  rw [viewDidLoad_eq]
  refine ⟨by simp, fun _ => ?_⟩
  simp [hl, hc]

/-- Every event keeps exactly one view on the screen of a running process. -/
theorem Effect.viewInv {e : Event} (h : Effect dev e dev') (hI : dev.ViewInv) : dev'.ViewInv := by
  cases h with
  | launch hr => exact hI.launch hr
  | kill hr => exact ⟨fun _ => ⟨rfl, rfl⟩, fun hr' => by simp [terminated] at hr'⟩
  | dismissPermissions hl hp =>
    refine ⟨fun hr => ?_, fun _ => by simp [removeDataHostingView, loadDataChallengesHostingView]⟩
    have hr' : dev.running = false := hr
    simp [hI.running (.inl hl)] at hr'
  | finishOnboarding hl hc hp =>
    rw [finishOnboarding_eq]
    refine ⟨fun hr => ?_, fun _ => by simp⟩
    have hr' : dev.running = false := hr
    simp [hI.running (.inl hl)] at hr'
  | signedOut hp =>
    -- the challenges are removed and loaded again
    have hv : dev.signOut.challengesView = dev.challengesView := by
      rw [hp.1]
      rfl
    exact hI.of_eq rfl rfl hv
  | getUserAnswered hreq hreply =>
    rw [getUserCompletion_eq]
    exact hI.of_eq rfl rfl rfl
  | scanAccepted hscan hreply hlo hhi hcount =>
    rw [snapAccepted_eq]
    exact hI.of_eq rfl rfl rfl
  | @uploaded i up date hup =>
    rcases uploadEntries_cases ((dev.endUpload i).noteStored up) up.photo up.path up.lat up.long date
      up.challenge with heq | ⟨u, c, -, -, heq⟩
    all_goals
      rw [heq]
      exact hI.of_eq rfl rfl rfl
  | queryAnswered hq hdocs hcount =>
    unfold entriesReply
    split <;> exact hI.of_eq rfl rfl rfl
  -- the rest does not touch the views
  | editLogin | pressSignIn | signedIn | signInRefused | accountCreated | createUserRefused
  | getUserFailed | pressLetsGo | selectTab | signOutThrew | pressWithdrawal | mailSent | mailNotSent
  | noLocation | captureUnsent | captureSent | scanRejected | uploadFailed | queryFailed =>
    exact hI.of_eq rfl rfl rfl

/-- The invariant of the screens. The sheets of the login view are opened by completions that have
just signed somebody in, and their dismissal shows the challenges. -/
structure ScreenInv (dev : Device) : Prop extends dev.ViewInv where
  session : dev.challengesView = true → dev.currentUser ≠ none
  permissions : dev.showPermissions = true → dev.currentUser ≠ none
  onboarding : dev.continueOnboarding = true → dev.currentUser ≠ none

theorem ScreenInv.agrees (h : dev.ScreenInv) : dev.ScreenAgrees := fun hr => ⟨h.one hr, h.session⟩

theorem NotRunning.viewInv (h : dev.NotRunning) : dev.ViewInv where
  stopped _ := ⟨h.loginView, h.challengesView⟩
  one hr := by simp [h.running] at hr

theorem NotRunning.inv (h : dev.NotRunning) : dev.ScreenInv where
  toViewInv := h.viewInv
  session hv := by simp [h.challengesView] at hv
  permissions hp := by simp [h.showPermissions] at hp
  onboarding hc := by simp [h.continueOnboarding] at hc

/-- Nothing that the screens depend on has changed. -/
structure SameScreen (dev dev' : Device) : Prop where
  running : dev'.running = dev.running
  loginView : dev'.loginView = dev.loginView
  challengesView : dev'.challengesView = dev.challengesView
  currentUser : dev'.currentUser = dev.currentUser
  showPermissions : dev'.showPermissions = dev.showPermissions
  continueOnboarding : dev'.continueOnboarding = dev.continueOnboarding

theorem ScreenInv.of_same (hI : dev.ScreenInv) (h : SameScreen dev dev') : dev'.ScreenInv where
  toViewInv := hI.of_eq h.running h.loginView h.challengesView
  session := by
    rw [h.challengesView, h.currentUser]
    exact hI.session
  permissions := by
    rw [h.showPermissions, h.currentUser]
    exact hI.permissions
  onboarding := by
    rw [h.continueOnboarding, h.currentUser]
    exact hI.onboarding

/-- Every event that is not a successful sign-out keeps the invariant. -/
theorem Effect.screenInv {e : Event} (h : Effect dev e dev') (he : e.StaysSignedIn)
    (hI : dev.ScreenInv) : dev'.ScreenInv := by
  have hv := h.viewInv hI.toViewInv
  cases h with
  | launch hr =>
    obtain ⟨-, hc⟩ := hI.stopped hr
    rw [viewDidLoad_eq] at hv ⊢
    refine ⟨hv, fun hsome => ?_, hI.permissions, hI.onboarding⟩
    exact Option.isSome_iff_ne_none.1 (by simpa [hc] using hsome)
  | kill hr => exact NotRunning.inv ⟨rfl, rfl, rfl, rfl, rfl⟩
  | signedIn hreq hreply =>
    exact ⟨hv, fun _ => by simp [signInCompletion, getUser],
      fun _ => by simp [signInCompletion, getUser], fun _ => by simp [signInCompletion, getUser]⟩
  | accountCreated hreq hreply =>
    exact ⟨hv, fun _ => by simp [createUserCompletion], fun _ => by simp [createUserCompletion],
      fun _ => by simp [createUserCompletion]⟩
  | dismissPermissions hl hp =>
    exact ⟨hv, fun _ => hI.permissions hp, by simp [removeDataHostingView,
      loadDataChallengesHostingView], hI.onboarding⟩
  | finishOnboarding hl hc hp =>
    rw [finishOnboarding_eq] at hv ⊢
    exact ⟨hv, fun _ => hI.onboarding hc, hI.permissions, by simp⟩
  | signOutThrew hp => exact hI
  | signedOut hp => simp [Event.StaysSignedIn] at he
  | getUserAnswered hreq hreply =>
    rw [getUserCompletion_eq]
    exact hI.of_same ⟨rfl, rfl, rfl, rfl, rfl, rfl⟩
  | scanAccepted hscan hreply hlo hhi hcount =>
    rw [snapAccepted_eq]
    exact hI.of_same ⟨rfl, rfl, rfl, rfl, rfl, rfl⟩
  | @uploaded i up date hup =>
    rcases uploadEntries_cases ((dev.endUpload i).noteStored up) up.photo up.path up.lat up.long date
      up.challenge with heq | ⟨u, c, -, -, heq⟩
    all_goals
      rw [heq]
      exact hI.of_same ⟨rfl, rfl, rfl, rfl, rfl, rfl⟩
  | queryAnswered hq hdocs hcount =>
    unfold entriesReply
    split <;> exact hI.of_same ⟨rfl, rfl, rfl, rfl, rfl, rfl⟩
  -- the rest touches neither the views nor the session
  | editLogin | pressSignIn | signInRefused | createUserRefused | getUserFailed | pressLetsGo
  | selectTab | pressWithdrawal | mailSent | mailNotSent | noLocation | captureUnsent | captureSent
  | scanRejected | uploadFailed | queryFailed => exact hI.of_same ⟨rfl, rfl, rfl, rfl, rfl, rfl⟩

/-- A successful sign-out leaves the challenges on the screen with nobody signed in. -/
theorem Effect.screen_after_signOut (h : Effect dev (.pressSignOut false) dev') (hI : dev.ScreenInv) :
    ¬ dev'.ScreenAgrees := by
  cases h with
  | signedOut hp =>
    intro hagree
    have hr : dev.signOut.running = true := hI.running (.inr hp.1)
    exact (hagree hr).2 rfl rfl

end Device

namespace World

variable {ι : Type*} [DecidableEq ι] {w w' : World ι}

/-- One step, read both ways: it keeps the invariant unless it is a successful sign-out, and then it
leaves a screen that does not match. -/
theorem screenInv_step {l : Label ι} (hI : ∀ d, (w.devices d).ScreenInv) (h : w.step l = some w') :
    (l.StaysSignedIn → ∀ d, (w'.devices d).ScreenInv) ∧ (¬ l.StaysSignedIn → ¬ w'.ScreensAgree) := by
  -- the backend does not touch the screens
  have hserve : ∀ d dev', Device.SameScreen (w.devices d) dev' →
      ∀ d', ((w.setDevice d dev').devices d').ScreenInv := fun d dev' hsame =>
    forall_setDevice (P := fun _ dev => dev.ScreenInv) ((hI d).of_same hsame) hI
  cases step_effect h with
  | @app d e dev' hf heff =>
    refine ⟨fun hs => ?_, fun hs hagree => ?_⟩
    · exact forall_setDevice (P := fun _ dev => dev.ScreenInv) (heff.screenInv hs (hI d))
        (by simpa using hI)
    · obtain rfl : e = .pressSignOut false := by
        cases e with
        | pressSignOut throws =>
          obtain rfl : throws = false := by simpa [Label.StaysSignedIn, Event.StaysSignedIn] using hs
          rfl
        | _ => exact absurd trivial hs
      exact heff.screen_after_signOut (hI d) (by simpa using hagree d)
  | serveSignIn | refuseCreateUser | serveCreateUser | serveGetUser | serveQuery | applied
  | rejected =>
    exact ⟨fun _ => hserve _ _ ⟨rfl, rfl, rfl, rfl, rfl, rfl⟩, fun hs => absurd trivial hs⟩

/-- **Screen and session.** From phones on which the app is not running, screen and session agree in
every state of a run exactly when no sign-out of the run succeeds. -/
theorem screens_agree_iff {w₀ : World ι} {ls : List (Label ι)}
    (h₀ : ∀ d, (w₀.devices d).NotRunning) (hr : run World.step w₀ ls = some w) :
    AllStates World.step ScreensAgree w₀ ls ↔ ∀ l ∈ ls, l.StaysSignedIn := by
  have hiff := allStates_iff_allSteps (C := fun (_ : World ι) l => l.StaysSignedIn)
    (I := fun w : World ι => ∀ d, (w.devices d).ScreenInv) (Q := ScreensAgree)
    (fun w hI d => (hI d).agrees) (fun w l w' hI h => screenInv_step hI h) (fun d => (h₀ d).inv) hr
  rw [hiff]
  exact ⟨fun h => forall_mem_of_allSteps h hr, allSteps_of_forall_mem⟩

theorem screens_agree_iff_login : AllStates World.step ScreensAgree Sample.offline Sample.login := by
  have h : (run World.step Sample.offline Sample.login).isSome = true := by decide +kernel
  obtain ⟨w, hw⟩ := Option.isSome_iff_exists.1 h
  exact (screens_agree_iff (fun _ => ⟨rfl, rfl, rfl, rfl, rfl⟩) hw).2 (by decide)

/-- After a sign-out the challenges are on the screen, and nobody is signed in. -/
theorem signOut_shows_challenges :
    (∀ d, (Sample.offline.devices d).NotRunning) ∧
      ∃ w, run World.step Sample.offline (Sample.login ++ Sample.signOut) = some w ∧
        (w.devices ()).running = true ∧ (w.devices ()).loginView = false ∧ ¬ w.ScreensAgree := by
  refine ⟨fun _ => ⟨rfl, rfl, rfl, rfl, rfl⟩, ?_⟩
  have h : (run World.step Sample.offline (Sample.login ++ Sample.signOut)).any (fun w =>
      decide ((w.devices ()).running = true ∧ (w.devices ()).loginView = false ∧
        ¬ (w.devices ()).ScreenAgrees)) = true := by decide +kernel
  obtain ⟨w, hw, hp⟩ := (Option.any_eq_true _ _).1 h
  obtain ⟨hr, hl, ha⟩ := of_decide_eq_true hp
  exact ⟨w, hw, hr, hl, fun hagree => ha (hagree ())⟩

end World

end Datability
