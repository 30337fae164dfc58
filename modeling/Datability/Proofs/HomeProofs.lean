import Datability.Home
import Datability.Proofs.DeviceProofs
import Datability.Proofs.OutstandingProofs
import Datability.Proofs.ProfileProofs
import Datability.Proofs.SessionProofs
import Datability.Proofs.StepProofs
import Datability.Proofs.TransitionProofs

/-!
# Proofs: the profile behind the home screen

The invariant says which accounts may be without a document: only the one that is being onboarded on
this phone. Every other account has a complete document in the view of the phone, so the snapshot of
a sign-in decodes, and a signed-in user without an outstanding refresh has a complete local copy.
-/

namespace Datability

open Transition

namespace Device

variable {dev dev' : Device} {s s' : Server}

/-- The writes of an event leave values of the right kind. -/
theorem Effect.typed {e : Event} (h : Effect dev e dev') :
    ∃ new, dev'.queue = dev.queue ++ new ∧ ∀ x ∈ new, x.write.Typed := by
  cases h with
  | launch hr =>
    rw [viewDidLoad_eq]
    exact ⟨[], (List.append_nil _).symm, by simp⟩
  | getUserAnswered hreq hreply =>
    rw [getUserCompletion_eq]
    exact ⟨[], (List.append_nil _).symm, by simp⟩
  | @finishOnboarding name phone hl hc hp =>
    rw [finishOnboarding_eq]
    refine ⟨_, rfl, fun x hx => ?_⟩
    obtain ⟨u, -, rfl⟩ := List.mem_map.1 hx
    exact userDocument_complete _ _ _ _
  | mailSent hm =>
    refine ⟨[_], mailComposeController_sent_queue _ _, fun x hx => ?_⟩
    obtain rfl := List.mem_singleton.1 hx
    exact ⟨0, rfl⟩
  | scanAccepted hscan hreply hlo hhi hcount =>
    refine ⟨[_, _], snapAccepted_queue _ _ _ _ _, fun x hx => ?_⟩
    simp only [List.mem_cons, List.not_mem_nil, or_false] at hx
    rcases hx with rfl | rfl
    · exact ⟨1, by simp⟩
    · exact ⟨_, rfl⟩
  | @uploaded i up date hup =>
    rcases uploadEntries_cases ((dev.endUpload i).noteStored up) up.photo up.path up.lat up.long date
      up.challenge with heq | ⟨u, c, -, -, heq⟩
    · rw [heq]
      exact ⟨[], (List.append_nil _).symm, by simp⟩
    · rw [heq]
      refine ⟨[_], rfl, fun x hx => ?_⟩
      obtain rfl := List.mem_singleton.1 hx
      trivial
  | queryAnswered hq hdocs hcount =>
    unfold entriesReply
    split
    · exact ⟨[], by simp [endQuery], by simp⟩
    · refine ⟨[_], rfl, fun x hx => ?_⟩
      obtain rfl := List.mem_singleton.1 hx
      exact ⟨1, by simp⟩
  -- the rest writes nothing
  | kill | editLogin | pressSignIn | signedIn | signInRefused | accountCreated | createUserRefused
  | getUserFailed | dismissPermissions | pressLetsGo | selectTab | signOutThrew | signedOut
  | pressWithdrawal | mailNotSent | noLocation | captureUnsent | captureSent | scanRejected
  | uploadFailed | queryFailed => exact ⟨[], (List.append_nil _).symm, by simp⟩

/-- No event takes a profile away from the phone's view. -/
theorem Effect.hasProfile {e : Event} (h : Effect dev e dev') {doc : String}
    (hd : (dev.view s).HasProfile doc) : (dev'.view s).HasProfile doc := by
  obtain ⟨new, hq, hnew⟩ := h.typed
  rw [view_append dev hq]
  refine hd.foldl fun w hw => ?_
  obtain ⟨x, hx, rfl⟩ := List.mem_map.1 hw
  exact hnew x hx

/-! ## The invariant -/

/-- One of the requests has been answered with the account `uid`. -/
def Served (reqs : List AuthRequest) (uid : Uid) : Prop := ∃ req ∈ reqs, req.reply = some (some uid)

theorem Served.accountCreated {uid : Uid} (h : Served dev.createUsers uid) : dev.AccountCreated := by
  obtain ⟨req, hreq, hreply⟩ := h
  exact ⟨req, hreq, some uid, hreply, by simp⟩

/-- The account `uid` waits for its onboarding on this phone. -/
def Onboarding (dev : Device) (uid : Uid) : Prop :=
  Served dev.createUsers uid ∨ (dev.continueOnboarding = true ∧ dev.currentUser = some uid)

/-- The invariant of the profiles, over the state `s` of the server. -/
structure HomeInv (dev : Device) (s : Server) : Prop extends dev.ViewInv where
  idle : dev.running = false → dev.continueOnboarding = false
  sheet : dev.continueOnboarding = true → dev.challengesView = false ∧ dev.showPermissions = false
  found : ∀ uid, Served dev.signIns uid → ∃ a ∈ s.accounts, a.uid = uid
  /-- Only an account that waits for its onboarding may be without a document. -/
  documents : ∀ a ∈ s.accounts, (dev.view s).HasProfile a.uid.val ∨ dev.Onboarding a.uid
  requests : ∀ req ∈ dev.getUsers, (dev.view s).HasProfile req.uid.val ∧
    ∀ snapshot, req.reply = some snapshot → ∃ f, snapshot = some f ∧ f.Complete
  user : ∀ u, dev.currentUser = some u → dev.continueOnboarding = false →
    (dev.view s).HasProfile u.val
  /-- A signed-in user has a local copy unless a refresh is on its way. -/
  copy : dev.currentUser ≠ none → dev.continueOnboarding = false → dev.getUsers = [] →
    (fetchProfileData dev.defaults).isSome = true

theorem Fresh.homeInv (h : dev.Fresh) (hdocs : ∀ a ∈ s.accounts, s.HasProfile a.uid.val) :
    dev.HomeInv s where
  toViewInv := h.viewInv
  idle _ := h.continueOnboarding
  sheet hc := by simp [h.continueOnboarding] at hc
  found uid hs := by simp [Served, h.signIns] at hs
  documents a ha := .inl (by simpa [view, h.queue] using hdocs a ha)
  requests req hreq := by simp [h.getUsers] at hreq
  user u hu := by simp [h.currentUser] at hu
  copy hu := absurd h.currentUser hu

/-- A step that leaves the screens, the session and the refreshes as they are, and takes nothing away
that the invariant relies on. -/
structure KeepsProfile (s : Server) (dev dev' : Device) : Prop where
  running : dev'.running = dev.running
  loginView : dev'.loginView = dev.loginView
  challengesView : dev'.challengesView = dev.challengesView
  showPermissions : dev'.showPermissions = dev.showPermissions
  continueOnboarding : dev'.continueOnboarding = dev.continueOnboarding
  currentUser : dev'.currentUser = dev.currentUser
  getUsers : dev'.getUsers = dev.getUsers
  signIns : ∀ uid, Served dev'.signIns uid → Served dev.signIns uid
  createUsers : ∀ uid, Served dev.createUsers uid → Served dev'.createUsers uid
  view : ∀ doc, (dev.view s).HasProfile doc → (dev'.view s).HasProfile doc
  copy : (fetchProfileData dev.defaults).isSome = true → (fetchProfileData dev'.defaults).isSome = true

theorem HomeInv.of_keeps (hI : dev.HomeInv s) (h : KeepsProfile s dev dev') : dev'.HomeInv s where
  toViewInv := hI.of_eq h.running h.loginView h.challengesView
  idle := by
    rw [h.running, h.continueOnboarding]
    exact hI.idle
  sheet := by
    rw [h.continueOnboarding, h.challengesView, h.showPermissions]
    exact hI.sheet
  found uid hs := hI.found uid (h.signIns uid hs)
  documents a ha := by
    rcases hI.documents a ha with hp | hc | ⟨hc, hu⟩
    · exact .inl (h.view _ hp)
    · exact .inr (.inl (h.createUsers _ hc))
    · exact .inr (.inr ⟨h.continueOnboarding.trans hc, h.currentUser.trans hu⟩)
  requests req hreq := by
    rw [h.getUsers] at hreq
    obtain ⟨hp, hreply⟩ := hI.requests req hreq
    exact ⟨h.view _ hp, hreply⟩
  user u hu hc := by
    rw [h.currentUser] at hu
    rw [h.continueOnboarding] at hc
    exact h.view _ (hI.user u hu hc)
  copy hu hc hg := by
    rw [h.currentUser] at hu
    rw [h.continueOnboarding] at hc
    rw [h.getUsers] at hg
    exact h.copy (hI.copy hu hc hg)

/-- An account that the invariant knows and that waits for nothing has its document. -/
theorem HomeInv.hasProfile (hI : dev.HomeInv s) (hcreated : ¬ dev.AccountCreated)
    (hc : dev.continueOnboarding = false) {a : Account} (ha : a ∈ s.accounts) :
    (dev.view s).HasProfile a.uid.val := by
  rcases hI.documents a ha with hp | hs | ⟨hc', -⟩
  · exact hp
  · exact absurd hs.accountCreated hcreated
  · simp [hc] at hc'

theorem HomeInv.launch (hI : dev.HomeInv s) (hr : dev.running = false) :
    ({ dev with running := true }).viewDidLoad.HomeInv s := by
  have hv := hI.toViewInv.launch hr
  have hc := hI.idle hr
  rw [viewDidLoad_eq] at hv ⊢
  refine ⟨hv, fun _ => hc, fun hc' => ?_, hI.found, hI.documents, hI.requests, hI.user, hI.copy⟩
  have : dev.continueOnboarding = true := hc'
  simp [hc] at this

theorem HomeInv.kill (hI : dev.HomeInv s) (hs : dev.SettlesProfile .kill) :
    dev.terminated.HomeInv s := by
  obtain ⟨hcreated, hc, hcopy⟩ := hs
  exact {
    toViewInv := NotRunning.viewInv ⟨rfl, rfl, rfl, rfl, rfl⟩
    idle := fun _ => rfl
    sheet := fun hc' => by simp [terminated] at hc'
    found := fun uid hs => by simp [Served, terminated] at hs
    documents := fun a ha => .inl (hI.hasProfile hcreated hc ha)
    requests := fun req hreq => by simp [terminated] at hreq
    user := fun u hu _ => hI.user u hu hc
    copy := fun hu _ _ => hcopy hu }

theorem HomeInv.signedIn (hI : dev.HomeInv s) {i : ℕ} {req : AuthRequest} {uid : Uid}
    (hreq : dev.signIns[i]? = some req) (hreply : req.reply = some (some uid))
    (hs : dev.SettlesProfile (.signInReply i false)) :
    ((dev.endSignIn i).signInCompletion (some uid)).HomeInv s := by
  obtain ⟨hcreated, hc⟩ := hs req hreq _ hreply (by simp)
  obtain ⟨a, ha, rfl⟩ := hI.found uid ⟨req, List.mem_of_getElem? hreq, hreply⟩
  have hdoc := hI.hasProfile hcreated hc ha
  refine ⟨hI.of_eq rfl rfl rfl, fun _ => hc, fun hc' => ?_, fun uid hs => ?_, fun b hb => .inl ?_,
    fun r hr => ?_, fun u hu _ => ?_, fun _ _ hg => ?_⟩
  · have : dev.continueOnboarding = true := hc'
    simp [hc] at this
  · obtain ⟨r, hr, hrep⟩ := hs
    exact hI.found uid ⟨r, List.mem_of_mem_eraseIdx hr, hrep⟩
  · exact hI.hasProfile hcreated hc hb
  · rcases List.mem_append.1 hr with hr | hr
    · exact hI.requests r hr
    · obtain rfl := List.mem_singleton.1 hr
      exact ⟨hdoc, by simp⟩
  · obtain rfl : a.uid = u := Option.some.inj hu
    exact hdoc
  · simp [signInCompletion, getUser] at hg

theorem HomeInv.accountCreated (hI : dev.HomeInv s) {i : ℕ} {req : AuthRequest} {uid : Uid}
    (hreq : dev.createUsers[i]? = some req) (hreply : req.reply = some (some uid))
    (hs : dev.SettlesProfile (.createUserReply i false)) :
    ((dev.endCreateUser i).createUserCompletion (some uid)).HomeInv s := by
  obtain ⟨hl, hp, hc⟩ := hs req hreq _ hreply (by simp)
  refine ⟨hI.of_eq rfl rfl rfl, fun hr => ?_, fun _ => ⟨hI.not_challenges hl, hp⟩, hI.found,
    fun a ha => ?_, hI.requests, fun u _ hc' => ?_, fun _ hc' => ?_⟩
  · have hl' : dev.loginView = false := (hI.stopped hr).1
    simp [hl] at hl'
  · rcases hI.documents a ha with hdoc | ⟨r, hr, hrep⟩ | ⟨hc', -⟩
    · exact .inl hdoc
    · -- the account whose creation is delivered is the one that is onboarded now
      rcases (Outstanding.mem_iff_eraseIdx hreq).1 hr with rfl | hr
      · have huid : uid = a.uid := by simpa [hreply] using hrep
        exact .inr (.inr ⟨rfl, congrArg some huid⟩)
      · exact .inr (.inl ⟨r, hr, hrep⟩)
    · simp [hc] at hc'
  · simp [createUserCompletion] at hc'
  · simp [createUserCompletion] at hc'

theorem HomeInv.getUserAnswered (hI : dev.HomeInv s) {i : ℕ} {req : GetUser}
    {snapshot : Option Fields} (hreq : dev.getUsers[i]? = some req)
    (hreply : req.reply = some snapshot) (hs : dev.SettlesProfile (.getUserReply i false)) :
    ((dev.endGetUser i).getUserCompletion snapshot).HomeInv s := by
  obtain ⟨f, rfl, hf⟩ := (hI.requests req (List.mem_of_getElem? hreq)).2 snapshot hreply
  have hsome : (readUser f).isSome = true := Fields.readUser_isSome.2 ⟨hf, hs req hreq _ hreply f rfl⟩
  obtain ⟨p, hp⟩ := Option.isSome_iff_exists.1 hsome
  have hdecode : dataAsDatabilityUser (some f) = some p := hp
  rw [getUserCompletion_eq, hdecode]
  refine ⟨hI.of_eq rfl rfl rfl, hI.idle, hI.sheet, hI.found, hI.documents, fun r hr => ?_, hI.user,
    fun _ _ _ => ?_⟩
  · exact hI.requests r (List.mem_of_mem_eraseIdx hr)
  · exact Option.isSome_iff_exists.2 ⟨p, Fields.readUser_setUser hp⟩

theorem HomeInv.dismissPermissions (hI : dev.HomeInv s) (hl : dev.loginView = true)
    (hp : dev.showPermissions = true) :
    ({ dev with showPermissions := false }).removeDataHostingView.loadDataChallengesHostingView.HomeInv
      s := by
  have hc : dev.continueOnboarding = false := by
    by_contra hc
    have := (hI.sheet (by simpa using hc)).2
    simp [hp] at this
  refine ⟨(Effect.dismissPermissions hl hp).viewInv hI.toViewInv, fun _ => hc, fun hc' => ?_, hI.found,
    hI.documents, hI.requests, hI.user, hI.copy⟩
  have : dev.continueOnboarding = true := hc'
  simp [hc] at this

theorem HomeInv.finishOnboarding (hI : dev.HomeInv s) {name phone : String}
    (h : Effect dev (.finishOnboarding name phone) (dev.finishOnboarding name phone)) :
    (dev.finishOnboarding name phone).HomeInv s := by
  have hv := h.viewInv hI.toViewInv
  have hkeep : ∀ {doc}, (dev.view s).HasProfile doc →
      ((dev.finishOnboarding name phone).view s).HasProfile doc := fun hd => h.hasProfile hd
  -- the document of the onboarded account is queued last
  have hnew : ∀ u, dev.currentUser = some u →
      ((dev.finishOnboarding name phone).view s).HasProfile u.val := by
    intro u hu
    rw [finishOnboarding_eq, view_append dev rfl, hu]
    exact ⟨userDocument name dev.dataTextEmail phone dev.dataTextPassword, by simp [Server.apply],
      userDocument_complete _ _ _ _⟩
  rw [finishOnboarding_eq] at hv hkeep hnew ⊢
  refine ⟨hv, fun _ => rfl, by simp, hI.found, fun a ha => ?_, fun req hreq => ?_,
    fun u hu _ => hnew u hu, fun _ _ _ => ?_⟩
  · rcases hI.documents a ha with hdoc | hs | ⟨-, hu⟩
    · exact .inl (hkeep hdoc)
    · exact .inr (.inl hs)
    · exact .inl (hnew a.uid hu)
  · obtain ⟨hdoc, hreply⟩ := hI.requests req hreq
    exact ⟨hkeep hdoc, hreply⟩
  · exact Option.isSome_iff_exists.2 ⟨_, Fields.readUser_newUser _ _ _⟩

theorem HomeInv.signedOut (hI : dev.HomeInv s) (hp : dev.AtProfile) : dev.signOut.HomeInv s := by
  have hc : dev.continueOnboarding = false := by
    by_contra hc
    have := (hI.sheet (by simpa using hc)).1
    simp [hp.1] at this
  refine ⟨(Effect.signedOut hp).viewInv hI.toViewInv, fun _ => hc, fun hc' => ?_, hI.found,
    fun a ha => ?_, hI.requests, fun u hu => ?_, fun hu => ?_⟩
  · have hc'' : dev.continueOnboarding = true := hc'
    simp [hc] at hc''
  · rcases hI.documents a ha with hdoc | hs | ⟨hc', -⟩
    · exact .inl hdoc
    · exact .inr (.inl hs)
    · simp [hc] at hc'
  · simp [signOut, removeDataChallengesView, loadDataChallengesHostingView] at hu
  · simp [signOut, removeDataChallengesView, loadDataChallengesHostingView] at hu

/-- Every event that settles the profiles keeps the invariant. -/
theorem Effect.homeInv {e : Event} (h : Effect dev e dev') (hd : e.delivers = true)
    (hs : dev.SettlesProfile e) (hI : dev.HomeInv s) : dev'.HomeInv s := by
  have hview : ∀ doc, (dev.view s).HasProfile doc → (dev'.view s).HasProfile doc :=
    fun _ hdoc => h.hasProfile hdoc
  cases h with
  | launch hr => exact hI.launch hr
  | kill hr => exact hI.kill hs
  | pressSignIn hl =>
    refine hI.of_keeps ⟨rfl, rfl, rfl, rfl, rfl, rfl, rfl, ?_, fun _ hc => hc, hview, id⟩
    rintro uid ⟨r, hr, hrep⟩
    rcases List.mem_append.1 hr with hr | hr
    · exact ⟨r, hr, hrep⟩
    · obtain rfl := List.mem_singleton.1 hr
      simp at hrep
  | signedIn hreq hreply => exact hI.signedIn hreq hreply hs
  | signInRefused hreq hreply =>
    refine hI.of_keeps ⟨rfl, rfl, rfl, rfl, rfl, rfl, rfl, ?_, ?_, hview, id⟩
    · rintro uid ⟨r, hr, hrep⟩
      exact ⟨r, List.mem_of_mem_eraseIdx hr, hrep⟩
    · rintro uid ⟨r, hr, hrep⟩
      exact ⟨r, List.mem_append_left _ hr, hrep⟩
  | accountCreated hreq hreply => exact hI.accountCreated hreq hreply hs
  | createUserRefused hreq hreply =>
    refine hI.of_keeps ⟨rfl, rfl, rfl, rfl, rfl, rfl, rfl, fun _ hc => hc, ?_, hview, id⟩
    rintro uid ⟨r, hr, hrep⟩
    rcases (Outstanding.mem_iff_eraseIdx hreq).1 hr with rfl | hr
    · rcases hreply with rfl | hnone
      · simp [Event.delivers] at hd
      · simp [hnone] at hrep
    · exact ⟨r, hr, hrep⟩
  | getUserFailed hreq => simp [Event.delivers] at hd
  | getUserAnswered hreq hreply => exact hI.getUserAnswered hreq hreply hs
  | dismissPermissions hl hp => exact hI.dismissPermissions hl hp
  | finishOnboarding hl hc hp => exact hI.finishOnboarding (.finishOnboarding hl hc hp)
  | signedOut hp => exact hI.signedOut hp
  | mailSent hm =>
    refine hI.of_keeps ⟨rfl, rfl, rfl, rfl, rfl, rfl, rfl, fun _ hc => hc, fun _ hc => hc, hview, ?_⟩
    exact fun hcopy => Fields.readUser_set_money hcopy 0
  | @scanAccepted i scan reply r imageUUID pngData hscan hreply hlo hhi hcount =>
    rw [snapAccepted_eq] at hview ⊢
    refine hI.of_keeps ⟨rfl, rfl, rfl, rfl, rfl, rfl, rfl, fun _ hc => hc, fun _ hc => hc, hview, ?_⟩
    intro hcopy
    exact Fields.readUser_set_money (Fields.readUser_count (.inr rfl) hcopy hcount) _
  | @uploaded i up date hup =>
    rcases uploadEntries_cases ((dev.endUpload i).noteStored up) up.photo up.path up.lat up.long date
      up.challenge with heq | ⟨u, c, -, -, heq⟩
    all_goals
      rw [heq] at hview ⊢
      exact hI.of_keeps ⟨rfl, rfl, rfl, rfl, rfl, rfl, rfl, fun _ hc => hc, fun _ hc => hc, hview, id⟩
  | @queryAnswered i q docs hq hdocs hcount =>
    by_cases hown : (dev.endQuery i).doesHaveCurrentUserEntrie docs = true
    · rw [entriesReply_pos _ hown] at hview ⊢
      exact hI.of_keeps ⟨rfl, rfl, rfl, rfl, rfl, rfl, rfl, fun _ hc => hc, fun _ hc => hc, hview, id⟩
    · rw [entriesReply_neg _ (by simpa using hown)] at hview ⊢
      refine hI.of_keeps ⟨rfl, rfl, rfl, rfl, rfl, rfl, rfl, fun _ hc => hc, fun _ hc => hc, hview, ?_⟩
      intro hcopy
      exact Fields.readUser_count (.inl rfl) hcopy (hcount.resolve_left hown)
  | editLogin | pressLetsGo | selectTab | signOutThrew | pressWithdrawal | mailNotSent | noLocation
  | captureUnsent | captureSent | scanRejected | uploadFailed | queryFailed =>
    exact hI.of_keeps ⟨rfl, rfl, rfl, rfl, rfl, rfl, rfl, fun _ hc => hc, fun _ hc => hc, hview, id⟩

end Device

namespace World

variable {w w' : World Unit}

/-- The answer to a sign-in is an account of the server. -/
theorem mem_of_signIn {s : Server} {email password : String} {uid : Uid}
    (h : s.signIn email password = some uid) : ∃ a ∈ s.accounts, a.uid = uid := by
  obtain ⟨a, ha, rfl⟩ := Option.map_eq_some_iff.1 h
  exact ⟨a, List.mem_of_find?_eq_some ha, rfl⟩

theorem homeInv_step {l : Label Unit} (hd : l.delivers = true) (hs : w.SettlesProfile l)
    (hI : (w.devices ()).HomeInv w.server) (h : w.step l = some w') :
    (w'.devices ()).HomeInv w'.server := by
  cases step_effect h with
  | @app d e dev' hf heff => simpa using heff.homeInv hd hs hI
  | @serveSignIn d i req hreq hnone =>
    rw [setDevice_self]
    refine ⟨hI.of_eq rfl rfl rfl, hI.idle, hI.sheet, ?_, hI.documents, hI.requests, hI.user, hI.copy⟩
    rintro uid ⟨r, hr, hrep⟩
    rcases (Outstanding.mem_set hreq).1 hr with rfl | hr
    · exact mem_of_signIn (Option.some.inj hrep)
    · exact hI.found uid ⟨r, List.mem_of_mem_eraseIdx hr, hrep⟩
  | @refuseCreateUser d i uid req hreq hnone huse =>
    rw [setDevice_self]
    refine hI.of_keeps ⟨rfl, rfl, rfl, rfl, rfl, rfl, rfl, fun _ hc => hc, ?_, fun _ hc => hc, id⟩
    rintro uid ⟨r, hr, hrep⟩
    rcases (Outstanding.mem_iff_eraseIdx hreq).1 hr with rfl | hr
    · simp [hnone] at hrep
    · exact ⟨r, (Outstanding.mem_set hreq).2 (.inr hr), hrep⟩
  | @serveCreateUser d i uid req hreq hnone hnew =>
    rw [setDevice_self]
    have hview : ∀ {doc}, ((w.devices ()).view w.server).HasProfile doc →
        (((w.devices ()).answerCreateUser i req (some uid)).view
          (w.openAccount req.email req.password uid).server).HasProfile doc :=
      fun hdoc => hdoc.of_users (Server.users_foldl_apply _ rfl)
    refine ⟨hI.of_eq rfl rfl rfl, hI.idle, hI.sheet, fun v hv => ?_, fun a ha => ?_, fun r hr => ?_,
      fun u hu hc => hview (hI.user u hu hc), hI.copy⟩
    · obtain ⟨a, ha, hav⟩ := hI.found v hv
      exact ⟨a, List.mem_append_left _ ha, hav⟩
    · rcases List.mem_append.1 ha with ha | ha
      · rcases hI.documents a ha with hdoc | ⟨r, hr, hrep⟩ | hc
        · exact .inl (hview hdoc)
        · refine .inr (.inl ?_)
          rcases (Outstanding.mem_iff_eraseIdx hreq).1 hr with rfl | hr
          · simp [hnone] at hrep
          · exact ⟨r, (Outstanding.mem_set hreq).2 (.inr hr), hrep⟩
        · exact .inr (.inr hc)
      · obtain rfl := List.mem_singleton.1 ha
        exact .inr (.inl ⟨_, (Outstanding.mem_set hreq).2 (.inl rfl), rfl⟩)
    · obtain ⟨hdoc, hreply⟩ := hI.requests r hr
      exact ⟨hview hdoc, hreply⟩
  | @serveGetUser d i req hreq hnone =>
    rw [setDevice_self]
    refine ⟨hI.of_eq rfl rfl rfl, hI.idle, hI.sheet, hI.found, hI.documents, fun r hr => ?_, hI.user,
      fun hu hc hg => ?_⟩
    · rcases (Outstanding.mem_set hreq).1 hr with rfl | hr
      · have hdoc := (hI.requests req (List.mem_of_getElem? hreq)).1
        refine ⟨hdoc, fun snapshot hsnap => ?_⟩
        obtain ⟨f, hf, hc⟩ := hdoc
        exact ⟨f, (Option.some.inj hsnap).symm.trans hf, hc⟩
      · exact hI.requests r (List.mem_of_mem_eraseIdx hr)
    · have hnil : (w.devices ()).getUsers = [] := (List.set_eq_nil_iff _ _).1 hg
      simp [hnil] at hreq
  | serveQuery hq hnone =>
    rw [setDevice_self]
    exact hI.of_keeps ⟨rfl, rfl, rfl, rfl, rfl, rfl, rfl, fun _ hc => hc, fun _ hc => hc,
      fun _ hc => hc, id⟩
  | @applied d x rest hq =>
    have hview : ((w.devices ()).setQueue rest).view (w.server.apply x.write) =
        (w.devices ()).view w.server := by
      simp [Device.view, Device.setQueue, hq]
    have haccounts : (w.server.apply x.write).accounts = w.server.accounts := by
      cases x.write <;> rfl
    simp only [commit, setDevice_self, setDevice_server]
    refine ⟨hI.of_eq rfl rfl rfl, hI.idle, hI.sheet, ?_, ?_, ?_, ?_, hI.copy⟩
    · rw [haccounts]
      exact hI.found
    · rw [haccounts, hview]
      exact hI.documents
    · rw [hview]
      exact hI.requests
    · rw [hview]
      exact hI.user
  | rejected hq => simp [Label.delivers] at hd

/-- **The home screen.** In a run in which every reply that is delivered succeeds, no account is left
without its onboarding and no process ends before the local copy is there, the challenges are shown
over a complete document and a complete local copy whenever nothing is outstanding. -/
theorem home_complete {w₀ : World Unit} {ls : List (Label Unit)} (h₀ : w₀.HomeStart)
    (hd : ∀ l ∈ ls, l.delivers = true) (hs : AllSteps World.step SettlesProfile w₀ ls) :
    AllStates World.step HomeComplete w₀ ls := by
  have hall := allStates_of_invariant (I := fun w : World Unit => (w.devices ()).HomeInv w.server)
    (fun w l w' hP hI h => homeInv_step hP.1 hP.2 hI h)
    ((allSteps_of_forall_mem hd).and hs) (h₀.phone.homeInv h₀.documents)
  refine hall.imp fun w hI hq hv u hu => ?_
  have hc : (w.devices ()).continueOnboarding = false := by
    by_contra hc
    have := (hI.sheet (by simpa using hc)).1
    simp [hv] at this
  obtain ⟨f, hf, hcomplete⟩ := hI.user u hu hc
  simp only [Device.view, (hq ()).queue, List.map_nil, List.foldl_nil] at hf
  refine ⟨fun k hk => ?_, ?_⟩
  · obtain ⟨v, hfv, -⟩ := hcomplete k hk
    simp [Server.field, hf, hfv]
  · have := hI.copy (by simp [hu]) hc (hq ()).getUsers
    exact Option.isSome_iff_ne_none.1 this

theorem homeStart_offline : Sample.offline.HomeStart where
  phone := Device.fresh_default
  documents a ha := by
    obtain rfl := List.mem_singleton.1 ha
    exact ⟨userDocument "Ada" "ada@mail.org" "555" "secret", rfl, userDocument_complete _ _ _ _⟩

/-- An account is created, and the phone learns of it. -/
def createAccount : List (Label Unit) :=
  Sample.launchAndPress "bob@mail.org" "hidden" ++
    [.serveCreateUser () 0 Sample.other, .app () (.createUserReply 0 false)]

/-- The onboarding of the new account is finished before the process is killed. -/
def onboardAndRelaunch : List (Label Unit) :=
  createAccount ++ [.app () .pressLetsGo, .app () (.finishOnboarding "Bob" "556"), .apply () true,
    .app () .kill, .app () .launch]

theorem home_complete_onboardAndRelaunch :
    (run World.step Sample.offline onboardAndRelaunch).any (fun w => decide (w.Quiet ∧
      (w.devices ()).challengesView = true ∧ (w.devices ()).currentUser ≠ none)) = true ∧
    AllStates World.step HomeComplete Sample.offline onboardAndRelaunch :=
  ⟨by decide +kernel, home_complete homeStart_offline (by decide) (by decide +kernel)⟩

/-- The process is killed between the creation of the account and the end of its onboarding. -/
def killedOnboarding : List (Label Unit) := createAccount ++ [.app () .kill, .app () .launch]

theorem killedOnboarding_without_profile :
    Sample.offline.HomeStart ∧ (∀ l ∈ killedOnboarding, l.delivers = true) ∧
      ∃ w, run World.step Sample.offline killedOnboarding = some w ∧ ¬ w.HomeComplete := by
  refine ⟨homeStart_offline, by decide, ?_⟩
  have h : (run World.step Sample.offline killedOnboarding).any (fun w => decide (w.Quiet ∧
      (w.devices ()).challengesView = true ∧ (w.devices ()).currentUser = some Sample.other ∧
      w.server.field "u2" .fullNameLocal = none)) = true := by decide +kernel
  obtain ⟨w, hw, hp⟩ := (Option.any_eq_true _ _).1 h
  obtain ⟨hq, hv, hu, hfield⟩ := of_decide_eq_true hp
  refine ⟨w, hw, fun hcomplete => ?_⟩
  exact (hcomplete hq hv _ hu).1 .fullNameLocal (by simp [Key.profile]) hfield

end World

end Datability
