import Datability.Restore
import Datability.Proofs.DeviceProofs
import Datability.Proofs.FirestoreProofs
import Datability.Proofs.OutstandingProofs
import Datability.Proofs.ProfileProofs
import Datability.Proofs.StepProofs
import Datability.Proofs.TransitionProofs

/-!
# Proofs: a profile survives a sign-out

The profile on the phone and the document hold the same `DatabilityUser` throughout, each in its own
way of writing numbers. Every operation changes both to the same new profile, so the run up to the
sign-out is an induction with that profile as its only datum. From the sign-out on the document stays
as it is, and every snapshot of it decodes to that profile.
-/

namespace Datability

open Transition

namespace Device

variable {dev dev' : Device} {u : Uid} {p : DatabilityUser} {s s' : Server}

/-- The document of `u`, as the phone sees it, holds the profile `p`. -/
def DocumentHolds (u : Uid) (p : DatabilityUser) (s : Server) (dev : Device) : Prop :=
  ∃ f, (dev.view s).users u.val = some f ∧ f.Holds p

theorem DocumentHolds.of_queue (h : dev.DocumentHolds u p s) (hq : dev'.queue = dev.queue) :
    dev'.DocumentHolds u p s := by
  rwa [DocumentHolds, view_of_eq hq]

theorem DocumentHolds.of_users (h : dev.DocumentHolds u p s) (hu : s'.users = s.users) :
    dev.DocumentHolds u p s' := by
  obtain ⟨f, hf, hp⟩ := h
  refine ⟨f, ?_, hp⟩
  rw [view, Server.users_foldl_apply _ hu]
  exact hf

theorem DocumentHolds.issue_entry (h : dev.DocumentHolds u p s) (cause : Cause) (c : String)
    (e : Entry) : (dev.issue cause (.addDocument c e)).DocumentHolds u p s := by
  rw [DocumentHolds, view_append dev rfl]
  exact h

/-! ## The operations on both copies -/

/-- Both copies hold the profile `p`. -/
structure Holds (u : Uid) (p : DatabilityUser) (s : Server) (dev : Device) : Prop where
  copy : dev.defaults.Holds p
  document : dev.DocumentHolds u p s

theorem holds_finishOnboarding (hu : dev.currentUser = some u) (s : Server) (name phone : String) :
    (dev.finishOnboarding name phone).Holds u (newUser name dev.dataTextEmail phone) s := by
  have hzero : -2 ^ 63 ≤ (0 : ℤ) ∧ (0 : ℤ) < 2 ^ 63 := by omega
  constructor
  · rw [finishOnboarding_eq]
    exact Fields.holds_setUser hzero hzero
  · refine ⟨userDocument name dev.dataTextEmail phone dev.dataTextPassword, ?_, ?_⟩
    · rw [view, finishOnboarding_eq, hu]
      simp [Server.apply]
    · obtain ⟨h1, h2, h3, h4, h5, h6, h7, h8, h9⟩ := Fields.holds_setUser (f := Fields.empty)
        (p := newUser name dev.dataTextEmail phone) hzero hzero
      refine ⟨?_, ?_, ?_, ?_, ?_, ?_, ?_, h8, h9⟩ <;> simp [userDocument, *]

theorem Holds.snapAccepted (h : dev.Holds u p s) (hu : dev.currentUser = some u) (scan : Scan) (r : ℚ)
    (imageUUID : String) (pngData : Bool) (hcount : dev.CanCount .totalSnapsTakenLocal) :
    (dev.snapAccepted scan r imageUUID pngData).Holds u { p with
      totalSnapsTakenLocal := p.totalSnapsTakenLocal + 1
      totalMoneyEarnedLocal := p.totalMoneyEarnedLocal + r } s := by
  obtain ⟨hcopy, f, hf, hdoc⟩ := h
  rw [CanCount, Fields.integer_of_eq hcopy.totalSnapsTaken] at hcount
  have hfits : -2 ^ 63 ≤ p.totalSnapsTakenLocal + 1 ∧ p.totalSnapsTakenLocal + 1 < 2 ^ 63 :=
    ⟨by have := hcopy.snapsFit.1; omega, hcount⟩
  constructor
  · rw [snapAccepted_eq]
    simp only [Fields.integer_of_eq hcopy.totalSnapsTaken, Fields.double_of_eq hcopy.totalMoneyEarned]
    exact (hcopy.set_snaps hfits).set_money _
  · have hsnaps := Server.users_increment_self (k := .totalSnapsTakenLocal) (q := 1) hf
    have hmoney := Server.users_increment_self (k := .totalMoneyEarnedLocal) (q := r) hsnaps
    rw [DocumentHolds, view_append dev (snapAccepted_queue ..)]
    simp only [List.map_cons, List.map_nil, List.foldl_cons, List.foldl_nil, userPath_eq hu]
    refine ⟨_, hmoney, ?_⟩
    -- the increment by 1.0 on the server is the integer + 1 of the phone
    have hone : f.double .totalSnapsTakenLocal + 1 = ((p.totalSnapsTakenLocal + 1 : ℤ) : ℚ) := by
      rw [Fields.double_of_eq hdoc.totalSnapsTaken, Int.cast_add, Int.cast_one]
    rw [hone, Fields.double_set_of_ne _ _ (by decide), Fields.double_of_eq hdoc.totalMoneyEarned]
    exact (hdoc.set_snaps hfits).set_money _

theorem Holds.entriesReply (h : dev.Holds u p s) (hu : dev.currentUser = some u) (photo : Photo)
    (docs : List Entry) (hcount : dev.doesHaveCurrentUserEntrie docs = true ∨
      dev.CanCount .challengesCompletedLocal) : ∃ p', (dev.entriesReply photo docs).Holds u p' s := by
  cases hown : dev.doesHaveCurrentUserEntrie docs with
  | true =>
    rw [entriesReply_pos _ hown]
    exact ⟨p, h⟩
  | false =>
    obtain ⟨hcopy, f, hf, hdoc⟩ := h
    have hcount : dev.CanCount .challengesCompletedLocal := by simpa [hown] using hcount
    rw [CanCount, Fields.integer_of_eq hcopy.challengesCompleted] at hcount
    have hfits : -2 ^ 63 ≤ p.challengesCompletedLocal + 1 ∧ p.challengesCompletedLocal + 1 < 2 ^ 63 :=
      ⟨by have := hcopy.challengesFit.1; omega, hcount⟩
    rw [entriesReply_neg _ hown]
    refine ⟨{ p with challengesCompletedLocal := p.challengesCompletedLocal + 1 }, ?_, ?_⟩
    · simp only [countLocal, issue, Fields.integer_of_eq hcopy.challengesCompleted]
      exact hcopy.set_challenges hfits
    · have hfirst := Server.users_increment_self (k := .challengesCompletedLocal) (q := 1) hf
      rw [DocumentHolds, view_append dev rfl]
      simp only [List.map_cons, List.map_nil, List.foldl_cons, List.foldl_nil, userPath_eq hu]
      refine ⟨_, hfirst, ?_⟩
      have hone : f.double .challengesCompletedLocal + 1 =
          ((p.challengesCompletedLocal + 1 : ℤ) : ℚ) := by
        rw [Fields.double_of_eq hdoc.challengesCompleted, Int.cast_add, Int.cast_one]
      rw [hone]
      exact hdoc.set_challenges hfits

theorem Holds.mailSent (h : dev.Holds u p s) (hu : dev.currentUser = some u) (amount : ℚ) :
    (dev.mailComposeController amount .sent).Holds u { p with totalMoneyEarnedLocal := 0 } s := by
  obtain ⟨hcopy, f, hf, hdoc⟩ := h
  constructor
  · simpa [mailComposeController, issue] using hcopy.set_money 0
  · rw [DocumentHolds, view_append dev (mailComposeController_sent_queue ..)]
    simp only [List.map_cons, List.map_nil, List.foldl_cons, List.foldl_nil, userPath_eq hu]
    exact ⟨_, Server.users_updateData_self hf, hdoc.set_money 0⟩

theorem Holds.of_same (h : dev.Holds u p s) (hd : dev'.defaults = dev.defaults)
    (hq : dev'.queue = dev.queue) : dev'.Holds u p s := by
  refine ⟨?_, h.document.of_queue hq⟩
  rw [hd]
  exact h.copy

/-! ## Up to the sign-out -/

/-- `u` is signed in, no snapshot is on its way, and both copies hold the same profile. -/
structure ActiveInv (u : Uid) (s : Server) (dev : Device) : Prop where
  user : dev.currentUser = some u
  getUsers : dev.getUsers = []
  holds : ∃ p, dev.Holds u p s

theorem ActiveInv.of_same (hI : dev.ActiveInv u s) (hu : dev'.currentUser = dev.currentUser)
    (hg : dev'.getUsers = dev.getUsers) (hd : dev'.defaults = dev.defaults)
    (hq : dev'.queue = dev.queue) : dev'.ActiveInv u s := by
  obtain ⟨p, hp⟩ := hI.holds
  exact ⟨hu.trans hI.user, hg.trans hI.getUsers, p, hp.of_same hd hq⟩

theorem Effect.activeInv {e : Event} (h : Effect dev e dev') (ha : e.active = true)
    (hI : dev.ActiveInv u s) : dev'.ActiveInv u s := by
  obtain ⟨p, hp⟩ := hI.holds
  cases h with
  | launch hr =>
    rw [viewDidLoad_eq]
    exact hI.of_same rfl rfl rfl rfl
  | kill hr => exact ⟨hI.user, rfl, p, hp.of_same rfl rfl⟩
  | mailSent hm => exact ⟨hI.user, hI.getUsers, _, hp.mailSent hI.user _⟩
  | @scanAccepted i scan reply r imageUUID pngData hscan hreply hlo hhi hcount =>
    have hscans : (dev.endScan i scan reply).Holds u p s := hp.of_same rfl rfl
    exact ⟨(snapAccepted_currentUser ..).trans hI.user, (snapAccepted_getUsers ..).trans hI.getUsers, _,
      hscans.snapAccepted hI.user scan r imageUUID pngData hcount⟩
  | @uploaded i up date hup =>
    have hstored : ((dev.endUpload i).noteStored up).Holds u p s := hp.of_same rfl rfl
    rcases uploadEntries_cases ((dev.endUpload i).noteStored up) up.photo up.path up.lat up.long date
      up.challenge with heq | ⟨v, c, -, -, heq⟩
    · rw [heq]
      exact ⟨hI.user, hI.getUsers, p, hstored⟩
    · rw [heq]
      exact ⟨hI.user, hI.getUsers, p, hstored.copy, hstored.document.issue_entry _ _ _⟩
  | @queryAnswered i q docs hq hdocs hcount =>
    have hquery : (dev.endQuery i).Holds u p s := hp.of_same rfl rfl
    exact ⟨(entriesReply_currentUser ..).trans hI.user, (entriesReply_getUsers ..).trans hI.getUsers,
      hquery.entriesReply hI.user q.photo docs hcount⟩
  | editLogin | pressSignIn | signedIn | signInRefused | accountCreated | createUserRefused
  | getUserFailed | getUserAnswered | dismissPermissions | pressLetsGo | finishOnboarding | signedOut =>
    simp [Event.active, Event.ledger] at ha
  | selectTab | signOutThrew | pressWithdrawal | mailNotSent | noLocation | captureUnsent | captureSent
  | scanRejected | uploadFailed | queryFailed => exact hI.of_same rfl rfl rfl rfl

/-! ## From the sign-out on -/

/-- Only `u` is signed in, the document holds `p`, every snapshot decodes to `p`, and once none is on
its way the copy holds `p` again. -/
structure RestoreInv (u : Uid) (p : DatabilityUser) (s : Server) (dev : Device) : Prop where
  user : ∀ v, dev.currentUser = some v → v = u
  document : dev.DocumentHolds u p s
  requests : ∀ req ∈ dev.getUsers, req.uid = u ∧
    ∀ snapshot ∈ req.reply, dataAsDatabilityUser snapshot = some p
  copy : dev.currentUser = some u → dev.getUsers = [] → dev.defaults.Holds p

theorem RestoreInv.of_same (hI : dev.RestoreInv u p s) (hu : dev'.currentUser = dev.currentUser)
    (hg : dev'.getUsers = dev.getUsers) (hd : dev'.defaults = dev.defaults)
    (hq : dev'.queue = dev.queue) : dev'.RestoreInv u p s where
  user := by
    rw [hu]
    exact hI.user
  document := hI.document.of_queue hq
  requests := by
    rw [hg]
    exact hI.requests
  copy := by
    rw [hu, hg, hd]
    exact hI.copy

theorem RestoreInv.getUserAnswered (hI : dev.RestoreInv u p s) {i : ℕ} {req : GetUser}
    {snapshot : Option Fields} (hreq : dev.getUsers[i]? = some req)
    (hreply : req.reply = some snapshot) :
    ((dev.endGetUser i).getUserCompletion snapshot).RestoreInv u p s := by
  have hp := (hI.requests req (List.mem_of_getElem? hreq)).2 snapshot hreply
  obtain ⟨f, -, hf⟩ := Option.bind_eq_some_iff.1 hp
  have hfits := Fields.readUser_eq_some.1 hf
  rw [getUserCompletion_eq, hp]
  refine ⟨hI.user, hI.document.of_queue rfl, fun req' hm => ?_, fun _ _ => ?_⟩
  · exact hI.requests req' (List.mem_of_mem_eraseIdx hm)
  · exact Fields.holds_setUser hfits.challengesFit hfits.snapsFit

theorem Effect.restoreInv {e : Event} (h : Effect dev e dev') (ha : dev.SignsBackIn u e)
    (hI : dev.RestoreInv u p s) : dev'.RestoreInv u p s := by
  cases h with
  | launch hr =>
    rw [viewDidLoad_eq]
    exact hI.of_same rfl rfl rfl rfl
  | kill hr =>
    refine ⟨hI.user, hI.document.of_queue rfl, by simp [terminated], fun hu _ => ?_⟩
    exact hI.copy hu (List.isEmpty_iff.1 (ha hu))
  | @signedIn i req uid hreq hreply =>
    obtain rfl : uid = u := ha req hreq rfl _ hreply uid rfl
    refine ⟨fun v hv => (Option.some.inj hv).symm, hI.document.of_queue rfl, fun req' hm => ?_,
      fun _ hg => ?_⟩
    · rcases List.mem_append.1 hm with hm | hm
      · exact hI.requests req' hm
      · obtain rfl := List.mem_singleton.1 hm
        exact ⟨rfl, by simp⟩
    · simp [signInCompletion, getUser] at hg
  | @accountCreated i req uid hreq hreply => exact absurd (ha req hreq rfl _ hreply) (by simp)
  | getUserFailed hreq => exact absurd ha (by simp [SignsBackIn, SingleAccount])
  | getUserAnswered hreq hreply => exact hI.getUserAnswered hreq hreply
  | finishOnboarding hl hc hp => exact ha.elim
  | signedOut hp =>
    refine ⟨by simp [signOut, removeDataChallengesView, loadDataChallengesHostingView],
      hI.document.of_queue rfl, hI.requests, ?_⟩
    simp [signOut, removeDataChallengesView, loadDataChallengesHostingView]
  | mailSent hm => exact absurd rfl ha
  | scanAccepted hscan hreply hlo hhi hcount => exact absurd hreply (ha _ hscan)
  | @uploaded i up date hup =>
    have hstored : ((dev.endUpload i).noteStored up).RestoreInv u p s :=
      hI.of_same rfl rfl rfl rfl
    rcases uploadEntries_cases ((dev.endUpload i).noteStored up) up.photo up.path up.lat up.long date
      up.challenge with heq | ⟨v, c, -, -, heq⟩
    · rwa [heq]
    · rw [heq]
      exact ⟨hstored.user, hstored.document.issue_entry _ _ _, hstored.requests, hstored.copy⟩
  | @queryAnswered i q docs hq hdocs hcount =>
    have hown : (dev.endQuery i).doesHaveCurrentUserEntrie docs = true := ha q hq rfl docs hdocs
    rw [entriesReply_pos _ hown]
    exact hI.of_same rfl rfl rfl rfl
  | editLogin | pressSignIn | signInRefused | createUserRefused | dismissPermissions | pressLetsGo
  | selectTab | signOutThrew | pressWithdrawal | mailNotSent | noLocation | captureUnsent | captureSent
  | scanRejected | uploadFailed | queryFailed => exact hI.of_same rfl rfl rfl rfl

/-- The sign-out clears the copy and leaves the document. -/
theorem ActiveInv.signOut (hI : dev.ActiveInv u s) {p : DatabilityUser} (hp : dev.Holds u p s) :
    dev.signOut.RestoreInv u p s where
  user := by simp [Device.signOut, removeDataChallengesView, loadDataChallengesHostingView]
  document := hp.document.of_queue rfl
  requests := by
    have hg : dev.signOut.getUsers = dev.getUsers := rfl
    simp [hg, hI.getUsers]
  copy := by simp [Device.signOut, removeDataChallengesView, loadDataChallengesHostingView]

end Device

/-! ## Whole runs -/

namespace World

variable {w w' : World Unit} {u : Uid} {p : DatabilityUser}

theorem documentHolds_commit {x : Issued} {rest : List Issued}
    (hq : (w.devices ()).queue = x :: rest) (h : (w.devices ()).DocumentHolds u p w.server) :
    ((w.devices ()).setQueue rest).DocumentHolds u p (w.server.apply x.write) := by
  rwa [Device.DocumentHolds, Device.view_setQueue hq]

theorem activeInv_step {l : Label Unit} (ha : l.active = true)
    (hI : (w.devices ()).ActiveInv u w.server) (h : w.step l = some w') :
    (w'.devices ()).ActiveInv u w'.server := by
  obtain ⟨p, hp⟩ := hI.holds
  cases step_effect h with
  | @app d e dev' hf heff => simpa using heff.activeInv ha hI
  | serveSignIn | refuseCreateUser | serveQuery =>
    rw [setDevice_self]
    exact hI.of_same rfl rfl rfl rfl
  | @serveCreateUser d i uid req hreq hnone hnew =>
    rw [setDevice_self]
    exact ⟨hI.user, hI.getUsers, p, hp.copy, (hp.document.of_queue rfl).of_users rfl⟩
  | @serveGetUser d i req hreq hnone => simp [hI.getUsers] at hreq
  | @applied d x rest hq =>
    simp only [commit, setDevice_self, setDevice_server]
    exact ⟨hI.user, hI.getUsers, p, hp.copy, documentHolds_commit hq hp.document⟩
  | rejected hq => simp [Label.active] at ha

theorem restoreInv_step {l : Label Unit} (ha : w.SignsBackIn u l)
    (hI : (w.devices ()).RestoreInv u p w.server) (h : w.step l = some w') :
    (w'.devices ()).RestoreInv u p w'.server := by
  cases step_effect h with
  | @app d e dev' hf heff => simpa using heff.restoreInv ha hI
  | serveSignIn | refuseCreateUser | serveQuery =>
    rw [setDevice_self]
    exact hI.of_same rfl rfl rfl rfl
  | @serveCreateUser d i uid req hreq hnone hnew =>
    rw [setDevice_self]
    exact ⟨hI.user, (hI.document.of_queue rfl).of_users rfl, hI.requests, hI.copy⟩
  | @serveGetUser d i req hreq hnone =>
    rw [setDevice_self]
    -- the snapshot is the document as the phone sees it
    obtain ⟨rfl, -⟩ := hI.requests req (List.mem_of_getElem? hreq)
    obtain ⟨f, hf, hp⟩ := hI.document
    have hdecodes : dataAsDatabilityUser ((w.localView d).users req.uid.val) = some p := by
      have hview : (w.localView d).users req.uid.val = some f := hf
      rw [hview]
      exact Fields.readUser_eq_some.2 hp
    refine ⟨hI.user, hI.document.of_queue rfl, fun req' hm => ?_, fun hu hg => ?_⟩
    · rcases (Outstanding.mem_set hreq).1 hm with rfl | hm
      · exact ⟨rfl, fun snapshot hs => Option.some.inj hs ▸ hdecodes⟩
      · exact hI.requests req' (List.mem_of_mem_eraseIdx hm)
    · have hnil : (w.devices ()).getUsers = [] := (List.set_eq_nil_iff _ _).1 hg
      simp [hnil] at hreq
  | @applied d x rest hq =>
    simp only [commit, setDevice_self, setDevice_server]
    exact ⟨hI.user, documentHolds_commit hq hI.document, hI.requests, hI.copy⟩
  | rejected hq => exact absurd ha (by simp [SignsBackIn])

theorem restoreInv_decodes (hI : (w.devices ()).RestoreInv u p w.server) (l : Label Unit) :
    w.Decodes l := by
  cases l with
  | app d e =>
    cases e with
    | getUserReply i failed =>
      intro req hreq snapshot hs
      rw [(hI.requests req (List.mem_of_getElem? hreq)).2 snapshot hs]
      rfl
    | _ => trivial
  | _ => trivial

/-- After the onboarding both copies hold the new profile. -/
theorem onboard_activeInv {name phone : String} (h₀ : w.Settled u)
    (h : w.step (onboard name phone) = some w') : (w'.devices ()).ActiveInv u w'.server := by
  cases step_effect h with
  | app hf heff =>
    cases heff with
    | finishOnboarding hl hc hp =>
      have hholds := Device.holds_finishOnboarding h₀.signedIn w.server name phone
      rw [setDevice_self, setDevice_server, record_server]
      refine ⟨?_, ?_, _, hholds⟩
      · rw [Device.finishOnboarding_eq]
        exact h₀.signedIn
      · rw [Device.finishOnboarding_eq]
        exact h₀.getUsers

theorem leave_restoreInv (hI : (w.devices ()).ActiveInv u w.server)
    (hp : (w.devices ()).Holds u p w.server) (h : w.step leave = some w') :
    (w'.devices ()).RestoreInv u p w'.server := by
  cases step_effect h with
  | app hf heff =>
    cases heff with
    | signedOut hat =>
      rw [setDevice_self, setDevice_server, record_server]
      exact hI.signOut hp

/-- **A profile survives a sign-out.** After the onboarding, whatever snaps, first entries and
withdrawals follow, the profile on the phone can be read at every moment; and after a sign-out, a
sign-in and the reply of `getUser`, every snapshot of which decodes, it is the same as before. -/
theorem profile_restored {w₀ w₁ w₂ : World Unit} {name phone : String} {ls ms : List (Label Unit)}
    (h₀ : w₀.Settled u) (hin : run World.step w₀ (onboard name phone :: ls) = some w₁)
    (hls : ∀ l ∈ ls, l.active = true) (hout : run World.step w₁ (leave :: ms) = some w₂)
    (hms : AllSteps World.step (SignsBackIn u) w₁ (leave :: ms)) (h₂ : w₂.Settled u) :
    (∃ p, w₁.profile = some p ∧ w₂.profile = some p) ∧
      AllSteps World.step Decodes w₁ (leave :: ms) ∧
      ∀ w, w₀.step (onboard name phone) = some w →
        AllStates World.step (fun w => w.profile.isSome = true) w ls := by
  obtain ⟨w, hw, hin⟩ := run_cons.1 hin
  obtain ⟨w', hw', hout⟩ := run_cons.1 hout
  have hstart := onboard_activeInv h₀ hw
  have hactive : ∀ w l w', Label.active l = true → (w.devices ()).ActiveInv u w.server →
      World.step w l = some w' → (w'.devices ()).ActiveInv u w'.server :=
    fun _ _ _ ha hI h => activeInv_step ha hI h
  have hend := run_invariant hactive (allSteps_of_forall_mem hls) hstart hin
  obtain ⟨p, hp⟩ := hend.holds
  have hleft := leave_restoreInv hend hp hw'
  have hback : ∀ w l w', SignsBackIn u w l → (w.devices ()).RestoreInv u p w.server →
      World.step w l = some w' → (w'.devices ()).RestoreInv u p w'.server :=
    fun _ _ _ ha hI h => restoreInv_step ha hI h
  have hfinal := run_invariant hback (hms.2 w' hw') hleft hout
  refine ⟨⟨p, ?_, ?_⟩, ⟨trivial, fun v hv => ?_⟩, fun v hv => ?_⟩
  · exact Fields.readUser_eq_some.2 hp.copy
  · exact Fields.readUser_eq_some.2 (hfinal.copy h₂.signedIn h₂.getUsers)
  · obtain rfl : w' = v := Option.some.inj (hw'.symm.trans hv)
    exact allSteps_of_invariant hback (fun _ l _ hI => restoreInv_decodes hI l) (hms.2 w' hv) hleft
  · obtain rfl : w = v := Option.some.inj (hw.symm.trans hv)
    have hall := allStates_of_invariant hactive (allSteps_of_forall_mem hls) hstart
    refine hall.imp fun w hI => ?_
    obtain ⟨q, hq⟩ := hI.holds
    rw [profile, fetchProfileData, Fields.readUser_eq_some.2 hq.copy]
    rfl

/-- A new account, with its onboarding sheet open. -/
def newcomer : World Unit where
  server :=
    { accounts := [⟨"ada@mail.org", "secret", Sample.user⟩], users := fun _ => none, entries := [] }
  devices := fun _ =>
    { currentUser := some Sample.user
      running := true
      loginView := true
      dataTextEmail := "ada@mail.org"
      dataTextPassword := "secret"
      continueOnboarding := true
      personalInfoSheet := true }

/-- A rose is accepted and stored as a first entry, a withdrawal is mailed, and a second rose follows. -/
def busyDay : List (Label Unit) :=
  [.apply () true, .app () (Sample.capture 0 Sample.roses), .app () (Sample.accept (1 / 2) "a")] ++
    Sample.ask ++ Sample.store 4 ++
    [.app () (.selectTab .profile), .app () .pressWithdrawal, .app () (.mailResult .sent), .apply () true,
      .app () (.selectTab .home), .app () (Sample.capture 1 Sample.roses),
      .app () (Sample.accept (3 / 4) "b")] ++ Sample.store 3 ++ [.app () (.selectTab .profile)]

/-- Relaunch the app, sign in and wait for the reply of `getUser`. -/
def comeBack : List (Label Unit) :=
  .app () .kill :: Sample.launchAndPress "ada@mail.org" "secret" ++
    [.serveGetUser () 0, .app () (.getUserReply 0 false)]

theorem profile_restored_busyDay :
    ∃ w₁ w₂, run World.step newcomer (onboard "Ada" "555" :: busyDay) = some w₁ ∧
      run World.step w₁ (leave :: comeBack) = some w₂ ∧
      w₁.profile = some ⟨"Ada", 1, "ada@mail.org", 0, "555", 3 / 4, 2⟩ ∧ w₂.profile = w₁.profile := by
  have h : (run World.step newcomer (onboard "Ada" "555" :: busyDay)).any (fun w₁ =>
      decide (w₁.profile = some ⟨"Ada", 1, "ada@mail.org", 0, "555", 3 / 4, 2⟩) &&
      decide (AllSteps World.step (SignsBackIn Sample.user) w₁ (leave :: comeBack)) &&
      (run World.step w₁ (leave :: comeBack)).any (fun w₂ =>
        decide ((w₂.devices ()).currentUser = some Sample.user) &&
          (w₂.devices ()).getUsers.isEmpty)) = true := by decide +kernel
  obtain ⟨w₁, hin, h⟩ := (Option.any_eq_true _ _).1 h
  simp only [Bool.and_eq_true, decide_eq_true_eq] at h
  obtain ⟨⟨hprofile, hms⟩, hout⟩ := h
  obtain ⟨w₂, hout, h₂⟩ := (Option.any_eq_true _ _).1 hout
  simp only [Bool.and_eq_true, decide_eq_true_eq, List.isEmpty_iff] at h₂
  obtain ⟨⟨p, h1, h2⟩, -⟩ := profile_restored (u := Sample.user) ⟨rfl, rfl⟩ hin (by decide +kernel) hout
    hms ⟨h₂.1, h₂.2⟩
  exact ⟨w₁, w₂, hin, hout, hprofile, h2.trans h1.symm⟩

end World

end Datability
