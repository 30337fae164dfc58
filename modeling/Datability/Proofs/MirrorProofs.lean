import Datability.Mirror
import Datability.Proofs.DeviceProofs
import Datability.Proofs.FirestoreProofs
import Datability.Proofs.StepProofs
import Datability.Proofs.TransitionProofs

/-!
# Proofs: the counters on the phone and in the document

Every completion that counts changes both copies in one step: the local one at once, and the one of
the server by writes that the phone already sees through its queue. So the two stay equal once they
are, and the only events that set one of them alone are the replies of `getUser`.
-/

namespace Datability

open Transition

namespace Device

variable {dev dev' : Device} {u : Uid} {s : Server}

/-! ## The completions that count -/

theorem Mirrors.snapAccepted (h : dev.Mirrors u (dev.view s)) (hu : dev.currentUser = some u)
    (scan : Scan) (r : ℚ) (imageUUID : String) (pngData : Bool) :
    (dev.snapAccepted scan r imageUUID pngData).Mirrors u
      ((dev.snapAccepted scan r imageUUID pngData).view s) := by
  obtain ⟨z, hz, hz'⟩ := h.snaps
  obtain ⟨q, hq, hq'⟩ := h.money
  obtain ⟨c, hc, hc'⟩ := h.challenges
  rw [view_append dev (snapAccepted_queue ..)]
  simp only [List.map_cons, List.map_nil, List.foldl_cons, List.foldl_nil, userPath_eq hu]
  refine ⟨⟨z + 1, ?_, ?_⟩, ⟨q + r, ?_, ?_⟩, ⟨c, ?_, ?_⟩⟩
  · rw [snapAccepted_snaps, Fields.integer_of_eq hz]
  · rw [Server.field_increment_of_ne (by decide), Server.field_increment_self hz']
    push_cast
    rfl
  · rw [snapAccepted_money, Fields.double_of_eq hq]
  · refine Server.field_increment_self ?_
    rw [Server.field_increment_of_ne (by decide), hq']
  · rw [snapAccepted_challenges, hc]
  · rw [Server.field_increment_of_ne (by decide), Server.field_increment_of_ne (by decide), hc']

theorem Mirrors.first (h : dev.Mirrors u (dev.view s)) (hu : dev.currentUser = some u) (p : Photo) :
    ((dev.issue (.photo p) (.increment dev.userPath .challengesCompletedLocal 1)).countLocal
      .challengesCompletedLocal).Mirrors u
      (((dev.issue (.photo p) (.increment dev.userPath .challengesCompletedLocal 1)).countLocal
        .challengesCompletedLocal).view s) := by
  obtain ⟨z, hz, hz'⟩ := h.snaps
  obtain ⟨q, hq, hq'⟩ := h.money
  obtain ⟨c, hc, hc'⟩ := h.challenges
  rw [view_append dev rfl]
  simp only [List.map_cons, List.map_nil, List.foldl_cons, List.foldl_nil, userPath_eq hu]
  refine ⟨⟨z, ?_, ?_⟩, ⟨q, ?_, ?_⟩, ⟨c + 1, ?_, ?_⟩⟩
  · simpa [countLocal, issue] using hz
  · rw [Server.field_increment_of_ne (by decide), hz']
  · simpa [countLocal, issue] using hq
  · rw [Server.field_increment_of_ne (by decide), hq']
  · have hi : dev.defaults.integer .challengesCompletedLocal = c := Fields.integer_of_eq hc
    simp [countLocal, issue, hi]
  · rw [Server.field_increment_self hc']
    push_cast
    rfl

theorem Mirrors.mailSent (h : dev.Mirrors u (dev.view s)) (hu : dev.currentUser = some u)
    (amount : ℚ) : (dev.mailComposeController amount .sent).Mirrors u
      ((dev.mailComposeController amount .sent).view s) := by
  obtain ⟨z, hz, hz'⟩ := h.snaps
  obtain ⟨q, hq, hq'⟩ := h.money
  obtain ⟨c, hc, hc'⟩ := h.challenges
  rw [view_append dev (mailComposeController_sent_queue ..)]
  simp only [List.map_cons, List.map_nil, List.foldl_cons, List.foldl_nil, userPath_eq hu]
  refine ⟨⟨z, ?_, ?_⟩, ⟨0, ?_, ?_⟩, ⟨c, ?_, ?_⟩⟩
  · simpa [mailComposeController, issue] using hz
  · rw [Server.field_updateData_of_ne (by decide), hz']
  · simp [mailComposeController, issue]
  · rw [Server.field_updateData_self hq']
  · simpa [mailComposeController, issue] using hc
  · rw [Server.field_updateData_of_ne (by decide), hc']

/-- A snapshot with the right counters fills the local copy. -/
theorem mirrors_setUser {p : DatabilityUser} (h : p.HasCountersOf u s)
    (hd : dev.defaults = dev'.defaults.setUser p) : dev.Mirrors u s := by
  obtain ⟨hz, hq, hc⟩ := h
  refine ⟨⟨_, ?_, hz⟩, ⟨_, ?_, hq⟩, ⟨_, ?_, hc⟩⟩ <;> simp [hd, Fields.setUser]

/-! ## The invariant -/

/-- Only `u` is signed in, nobody is being onboarded, and once no refresh is outstanding the counters
agree with what the phone sees of the document. -/
structure MirrorInv (u : Uid) (s : Server) (dev : Device) : Prop where
  user : ∀ v, dev.currentUser = some v → v = u
  onboarding : dev.continueOnboarding = false
  mirror : dev.currentUser = some u → dev.getUsers = [] → dev.Mirrors u (dev.view s)

/-- Nothing that the invariant is about has changed. -/
structure SameMirror (dev dev' : Device) : Prop where
  currentUser : dev'.currentUser = dev.currentUser
  onboarding : dev'.continueOnboarding = dev.continueOnboarding
  getUsers : dev'.getUsers = dev.getUsers
  defaults : dev'.defaults = dev.defaults
  queue : dev'.queue = dev.queue

theorem MirrorInv.of_same (hI : dev.MirrorInv u s) (h : SameMirror dev dev') :
    dev'.MirrorInv u s where
  user := by
    rw [h.currentUser]
    exact hI.user
  onboarding := by rw [h.onboarding, hI.onboarding]
  mirror hu hg := by
    rw [h.currentUser] at hu
    rw [h.getUsers] at hg
    rw [view_of_eq h.queue]
    obtain ⟨hz, hq, hc⟩ := hI.mirror hu hg
    exact ⟨by rwa [h.defaults], by rwa [h.defaults], by rwa [h.defaults]⟩

/-- Opening an account changes no document. -/
theorem MirrorInv.of_users (hI : dev.MirrorInv u s) {s' : Server} (h : s'.users = s.users) :
    dev.MirrorInv u s' where
  user := hI.user
  onboarding := hI.onboarding
  mirror hu hg := by
    have hfield : ∀ k, (dev.view s').field u.val k = (dev.view s).field u.val k := fun k => by
      rw [Server.field, Server.field, view, view, Server.users_foldl_apply _ h]
    obtain ⟨hz, hq, hc⟩ := hI.mirror hu hg
    exact ⟨by rwa [hfield], by rwa [hfield], by rwa [hfield]⟩

/-- Writing an entry leaves all users' documents alone. -/
theorem MirrorInv.issue_entry (hI : dev.MirrorInv u s) (p : Photo) (c : String) (e : Entry) :
    (dev.issue (.photo p) (.addDocument c e)).MirrorInv u s where
  user := hI.user
  onboarding := hI.onboarding
  mirror hu hg := by
    rw [view_append dev rfl]
    obtain ⟨hz, hq, hc⟩ := hI.mirror hu hg
    exact ⟨hz, hq, hc⟩

theorem MirrorInv.getUserAnswered (hI : dev.MirrorInv u s) {i : ℕ} {req : GetUser}
    {snapshot : Option Fields} (hreq : dev.getUsers[i]? = some req)
    (hreply : req.reply = some snapshot)
    (hs : dev.RefreshesInTime u (dev.view s) (.getUserReply i false)) :
    ((dev.endGetUser i).getUserCompletion snapshot).MirrorInv u s := by
  rw [getUserCompletion_eq]
  refine ⟨hI.user, hI.onboarding, fun hu hg => ?_⟩
  -- nothing is outstanding any more, so this reply was the last one and its snapshot is current
  have hu : dev.currentUser = some u := hu
  have hg : dev.getUsers.eraseIdx i = [] := hg
  have hlen : dev.getUsers.length = 1 := by
    have hlt := (List.getElem?_eq_some_iff.1 hreq).1
    have hle := List.length_eraseIdx_of_lt hlt
    rw [hg, List.length_nil] at hle
    omega
  obtain ⟨p, hp, hcounters⟩ := hs req hreq rfl hu hlen snapshot hreply
  have hp' : dataAsDatabilityUser snapshot = some p := hp
  rw [hp']
  exact mirrors_setUser hcounters rfl

theorem Effect.mirrorInv {e : Event} (h : Effect dev e dev') (ha : dev.SingleAccount u e)
    (hs : dev.RefreshesInTime u (dev.view s) e) (hI : dev.MirrorInv u s) : dev'.MirrorInv u s := by
  cases h with
  | launch hr =>
    rw [viewDidLoad_eq]
    exact hI.of_same ⟨rfl, rfl, rfl, rfl, rfl⟩
  | kill hr =>
    refine ⟨hI.user, rfl, fun hu _ => ?_⟩
    obtain ⟨hz, hq, hc⟩ := hI.mirror hu (List.isEmpty_iff.1 (hs hu))
    exact ⟨hz, hq, hc⟩
  | @signedIn i req uid hreq hreply =>
    obtain rfl : uid = u := ha req hreq rfl _ hreply uid rfl
    refine ⟨fun v hv => (Option.some.inj hv).symm, hI.onboarding, fun _ hg => ?_⟩
    simp [signInCompletion, getUser] at hg
  | @accountCreated i req uid hreq hreply => exact absurd (ha req hreq rfl _ hreply) (by simp)
  | getUserFailed hreq => exact absurd ha (by simp [Device.SingleAccount])
  | getUserAnswered hreq hreply => exact hI.getUserAnswered hreq hreply hs
  | finishOnboarding hl hc hp => simp [hI.onboarding] at hc
  | signedOut hp => exact ⟨by simp [signOut, removeDataChallengesView, loadDataChallengesHostingView],
      hI.onboarding, by simp [signOut, removeDataChallengesView, loadDataChallengesHostingView]⟩
  | @mailSent amount hm => exact ⟨hI.user, hI.onboarding, fun hu hg => (hI.mirror hu hg).mailSent hu _⟩
  | @scanAccepted i scan reply r imageUUID pngData hscan hreply hlo hhi hcount =>
    have hscans : (dev.endScan i scan reply).MirrorInv u s := hI.of_same ⟨rfl, rfl, rfl, rfl, rfl⟩
    refine ⟨by simpa using hscans.user, by simpa using hscans.onboarding, fun hu hg => ?_⟩
    rw [snapAccepted_currentUser] at hu
    rw [snapAccepted_getUsers] at hg
    exact (hscans.mirror hu hg).snapAccepted hu _ _ _ _
  | @uploaded i up date hup =>
    have hstored : ((dev.endUpload i).noteStored up).MirrorInv u s :=
      hI.of_same ⟨rfl, rfl, rfl, rfl, rfl⟩
    rcases uploadEntries_cases ((dev.endUpload i).noteStored up) up.photo up.path up.lat up.long date
      up.challenge with heq | ⟨v, c, -, -, heq⟩
    · rwa [heq]
    · rw [heq]
      exact hstored.issue_entry _ _ _
  | @queryAnswered i q docs hq hdocs hcount =>
    have hquery : (dev.endQuery i).MirrorInv u s := hI.of_same ⟨rfl, rfl, rfl, rfl, rfl⟩
    unfold entriesReply
    split
    · exact hquery
    · exact ⟨hquery.user, hquery.onboarding, fun hu hg => (hquery.mirror hu hg).first hu _⟩
  | editLogin | pressSignIn | signInRefused | createUserRefused | dismissPermissions | pressLetsGo
  | selectTab | signOutThrew | pressWithdrawal | mailNotSent | noLocation | captureUnsent
  | captureSent | scanRejected | uploadFailed | queryFailed =>
    exact hI.of_same ⟨rfl, rfl, rfl, rfl, rfl⟩

end Device

namespace World

variable {w w' : World Unit} {u : Uid}

theorem mirrorInv_step {l : Label Unit} (ha : w.SingleAccount u l) (hs : w.RefreshesInTime u l)
    (hI : (w.devices ()).MirrorInv u w.server) (h : w.step l = some w') :
    (w'.devices ()).MirrorInv u w'.server := by
  cases step_effect h with
  | @app d e dev' hf heff => simpa using heff.mirrorInv ha hs hI
  | serveSignIn | refuseCreateUser | serveQuery =>
    rw [setDevice_self]
    exact hI.of_same ⟨rfl, rfl, rfl, rfl, rfl⟩
  | @serveCreateUser d i uid req hreq hnone hnew =>
    rw [setDevice_self]
    have hsame : ((w.devices ()).answerCreateUser i req (some uid)).MirrorInv u w.server :=
      hI.of_same ⟨rfl, rfl, rfl, rfl, rfl⟩
    exact hsame.of_users rfl
  | @serveGetUser d i req hreq hnone =>
    rw [setDevice_self]
    refine ⟨hI.user, hI.onboarding, fun hu hg => ?_⟩
    have hnil : (w.devices ()).getUsers = [] := (List.set_eq_nil_iff _ _).1 hg
    simp [hnil] at hreq
  | @applied d x rest hq =>
    simp only [commit, setDevice_self, setDevice_server]
    refine ⟨hI.user, hI.onboarding, fun hu hg => ?_⟩
    rw [Device.view_setQueue hq]
    obtain ⟨hz, hm, hc⟩ := hI.mirror hu hg
    exact ⟨hz, hm, hc⟩
  | rejected hq => exact absurd ha (by simp [SingleAccount])

/-- **The local mirror.** In a run of one account on one phone in which every last `getUser` snapshot
is still current when it is delivered, the counters on the phone are those of the document whenever
nothing is in flight. -/
theorem mirror_agrees {w₀ : World Unit} {ls : List (Label Unit)} (h₀ : w₀.MirrorStart u)
    (ha : AllSteps World.step (SingleAccount u) w₀ ls)
    (hs : AllSteps World.step (RefreshesInTime u) w₀ ls) :
    AllStates World.step (MirrorAgrees u) w₀ ls := by
  have hview : ∀ {w : World Unit}, w.Quiet → (w.devices ()).view w.server = w.server := by
    intro w hq
    simp [Device.view, (hq ()).queue]
  have hinv : (w₀.devices ()).MirrorInv u w₀.server := by
    refine ⟨fun v hv => ?_, h₀.onboarding, fun hu _ => ?_⟩
    · rcases h₀.session with hnone | ⟨hsome, -⟩
      · simp [hnone] at hv
      · exact Option.some.inj (hv.symm.trans hsome)
    · rcases h₀.session with hnone | ⟨-, hm⟩
      · simp [hnone] at hu
      · rwa [hview h₀.quiet]
  have hall := allStates_of_invariant (I := fun w : World Unit => (w.devices ()).MirrorInv u w.server)
    (fun w l w' hP hI h => mirrorInv_step hP.1 hP.2 hI h) (ha.and hs) hinv
  refine hall.imp fun w hI hq hu k hk => ?_
  obtain ⟨⟨z, hz, hz'⟩, ⟨q, hm, hm'⟩, ⟨c, hc, hc'⟩⟩ := hI.mirror hu (hq ()).getUsers
  rw [hview hq] at hz' hm' hc'
  simp only [Key.counters, List.mem_cons, List.not_mem_nil, or_false] at hk
  rcases hk with rfl | rfl | rfl
  · rw [hz, hz']
  · rw [hm, hm']
  · rw [hc, hc']

/-- Sign in, then a rose is accepted, stored and counted. -/
def loginAndSnap : List (Label Unit) :=
  Sample.login ++ [.app () (Sample.capture 0 Sample.roses), .app () (Sample.accept (1 / 2) "a")] ++
    Sample.store 3 ++ Sample.ask

theorem mirror_agrees_loginAndSnap :
    (run World.step Sample.offline loginAndSnap).any (fun w => decide (w.Quiet ∧
      (w.devices ()).currentUser = some Sample.user)) = true ∧
    AllStates World.step (MirrorAgrees Sample.user) Sample.offline loginAndSnap := by
  have h₀ : Sample.offline.MirrorStart Sample.user :=
    ⟨fun _ => ⟨rfl, rfl, rfl, rfl, rfl, rfl, rfl⟩, rfl, .inl rfl⟩
  exact ⟨by decide +kernel, mirror_agrees h₀ (by decide +kernel) (by decide +kernel)⟩

/-- The snapshot is taken before the snap and delivered after it. -/
def staleRefresh : List (Label Unit) :=
  Sample.launchAndPress "ada@mail.org" "secret" ++ [.serveGetUser () 0, .app () .dismissPermissions,
    .app () (Sample.capture 0 Sample.roses), .app () (Sample.accept (1 / 2) "a")] ++ Sample.store 3 ++
    Sample.ask ++ [.app () (.getUserReply 0 false)]

theorem staleRefresh_forgets_snap :
    Sample.offline.MirrorStart Sample.user ∧
      AllSteps World.step (SingleAccount Sample.user) Sample.offline staleRefresh ∧
      ∃ w, run World.step Sample.offline staleRefresh = some w ∧ ¬ w.MirrorAgrees Sample.user := by
  refine ⟨⟨fun _ => ⟨rfl, rfl, rfl, rfl, rfl, rfl, rfl⟩, rfl, .inl rfl⟩, by decide +kernel, ?_⟩
  have h : (run World.step Sample.offline staleRefresh).any (fun w => decide (w.Quiet ∧
      (w.devices ()).currentUser = some Sample.user ∧
      (w.devices ()).defaults .totalSnapsTakenLocal = some (.number 0) ∧
      w.server.field "u1" .totalSnapsTakenLocal = some (.number 1))) = true := by decide +kernel
  obtain ⟨w, hw, hp⟩ := (Option.any_eq_true _ _).1 h
  obtain ⟨hq, hu, hl, hs⟩ := of_decide_eq_true hp
  refine ⟨w, hw, fun hagree => ?_⟩
  have heq := (hl.symm.trans (hagree hq hu .totalSnapsTakenLocal (by simp [Key.counters]))).trans hs
  simp at heq

end World

end Datability
