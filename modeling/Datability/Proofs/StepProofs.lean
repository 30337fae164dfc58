import Datability.World
import Mathlib.Tactic.SplitIfs

/-!
# Proofs: what a step does

The inversion of the two step functions. `Device.Effect` lists what an event can do to a phone, one
constructor for each outcome, and `World.Effect` what a step of the world can do. Every invariant of
the development is a case analysis over one of them, so that no other proof unfolds `step`.
-/

namespace Datability

namespace Device

variable {dev dev' : Device}

/-- The outcomes of an event. -/
inductive Effect (dev : Device) : Event → Device → Prop
  | launch (h : dev.running = false) : Effect dev .launch ({ dev with running := true }).viewDidLoad
  | kill (h : dev.running = true) : Effect dev .kill dev.terminated
  | editLogin {email password : String} (h : dev.AtLogin) : Effect dev (.editLogin email password)
      { dev with dataTextEmail := email, dataTextPassword := password }
  | pressSignIn (h : dev.AtLogin) : Effect dev .pressSignIn
      { dev with signIns := dev.signIns ++ [⟨dev.dataTextEmail, dev.dataTextPassword, none⟩] }
  | signedIn {i : ℕ} {req : AuthRequest} {uid : Uid} (hreq : dev.signIns[i]? = some req)
      (hreply : req.reply = some (some uid)) :
      Effect dev (.signInReply i false) ((dev.endSignIn i).signInCompletion (some uid))
  | signInRefused {i : ℕ} {failed : Bool} {req : AuthRequest} (hreq : dev.signIns[i]? = some req)
      (hreply : failed = true ∨ req.reply = some none) :
      Effect dev (.signInReply i failed) ((dev.endSignIn i).signInCompletion none)
  | accountCreated {i : ℕ} {req : AuthRequest} {uid : Uid} (hreq : dev.createUsers[i]? = some req)
      (hreply : req.reply = some (some uid)) :
      Effect dev (.createUserReply i false) ((dev.endCreateUser i).createUserCompletion (some uid))
  | createUserRefused {i : ℕ} {failed : Bool} {req : AuthRequest}
      (hreq : dev.createUsers[i]? = some req) (hreply : failed = true ∨ req.reply = some none) :
      Effect dev (.createUserReply i failed) (dev.endCreateUser i)
  | getUserFailed {i : ℕ} {req : GetUser} (hreq : dev.getUsers[i]? = some req) :
      Effect dev (.getUserReply i true) (dev.endGetUser i)
  | getUserAnswered {i : ℕ} {req : GetUser} {snapshot : Option Fields}
      (hreq : dev.getUsers[i]? = some req) (hreply : req.reply = some snapshot) :
      Effect dev (.getUserReply i false) ((dev.endGetUser i).getUserCompletion snapshot)
  | dismissPermissions (hl : dev.loginView = true) (hp : dev.showPermissions = true) :
      Effect dev .dismissPermissions
        ({ dev with showPermissions := false }).removeDataHostingView.loadDataChallengesHostingView
  | pressLetsGo (hl : dev.loginView = true) (hc : dev.continueOnboarding = true) :
      Effect dev .pressLetsGo { dev with personalInfoSheet := true }
  | finishOnboarding {dataTextName dataTextPhoneNumber : String} (hl : dev.loginView = true)
      (hc : dev.continueOnboarding = true) (hp : dev.personalInfoSheet = true) :
      Effect dev (.finishOnboarding dataTextName dataTextPhoneNumber)
        (dev.finishOnboarding dataTextName dataTextPhoneNumber)
  | selectTab {t : Tab} (hv : dev.challengesView = true) : Effect dev (.selectTab t)
      { dev with
        currentTab := t
        databaseProfile := if t = .profile then fetchProfileData dev.defaults else none }
  | signOutThrew (h : dev.AtProfile) : Effect dev (.pressSignOut true) dev
  | signedOut (h : dev.AtProfile) : Effect dev (.pressSignOut false) dev.signOut
  | pressWithdrawal (h : dev.AtProfile) : Effect dev .pressWithdrawal
      { dev with
        moneyNeeded := some ((dev.databaseProfile.map (·.totalMoneyEarnedLocal)).getD 0) }
  | mailSent {amount : ℚ} (hm : dev.moneyNeeded = some amount) :
      Effect dev (.mailResult .sent) (dev.mailComposeController amount .sent)
  | mailNotSent {result : MailResult} (hr : result ≠ .sent) :
      Effect dev (.mailResult result) { dev with moneyNeeded := none }
  | noLocation {serial : ℕ} {challenge : Challenge} {currentLoc : Option Location} {encoded : Bool}
      (hv : dev.challengesView = true) :
      Effect dev (.capture serial challenge none currentLoc encoded) dev
  | captureUnsent {serial : ℕ} {challenge : Challenge} {loc : Location} {currentLoc : Option Location}
      {encoded : Bool} (hv : dev.challengesView = true)
      (hs : ¬ (currentLoc.isSome = true ∧ encoded = true)) :
      Effect dev (.capture serial challenge (some loc) currentLoc encoded)
        { dev with captures := dev.captures ++ [(⟨serial, dev.currentUser, loc⟩, challenge)] }
  | captureSent {serial : ℕ} {challenge : Challenge} {loc : Location} {currentLoc : Option Location}
      {encoded : Bool} (hv : dev.challengesView = true)
      (hs : currentLoc.isSome = true ∧ encoded = true) :
      Effect dev (.capture serial challenge (some loc) currentLoc encoded)
        { dev with
          captures := dev.captures ++ [(⟨serial, dev.currentUser, loc⟩, challenge)]
          scans := dev.scans ++ [⟨⟨serial, dev.currentUser, loc⟩, loc, challenge⟩] }
  | scanAccepted {i : ℕ} {scan : Scan} {reply : PlantReply} {r : ℚ} {imageUUID : String}
      {pngData : Bool} (hscan : dev.scans[i]? = some scan)
      (hreply : plantScannerReply reply scan.challenge.expectedPlant = some true)
      (hlo : 1 / 10 ≤ r) (hhi : r ≤ 1) (hcount : dev.CanCount .totalSnapsTakenLocal) :
      Effect dev (.scanReply i reply r imageUUID pngData)
        ((dev.endScan i scan reply).snapAccepted scan r imageUUID pngData)
  | scanRejected {i : ℕ} {scan : Scan} {reply : PlantReply} {r : ℚ} {imageUUID : String}
      {pngData : Bool} (hscan : dev.scans[i]? = some scan)
      (hreply : plantScannerReply reply scan.challenge.expectedPlant ≠ some true) :
      Effect dev (.scanReply i reply r imageUUID pngData) (dev.endScan i scan reply)
  | uploadFailed {i : ℕ} {up : Upload} {date : ℚ} (hup : dev.uploads[i]? = some up) :
      Effect dev (.uploadReply i true date) (dev.endUpload i)
  | uploaded {i : ℕ} {up : Upload} {date : ℚ} (hup : dev.uploads[i]? = some up) :
      Effect dev (.uploadReply i false date)
        (((dev.endUpload i).noteStored up).uploadEntries up.photo up.path up.lat up.long date
          up.challenge)
  | queryFailed {i : ℕ} {q : Query} (hq : dev.queries[i]? = some q) :
      Effect dev (.queryReply i true) (dev.endQuery i)
  | queryAnswered {i : ℕ} {q : Query} {docs : List Entry} (hq : dev.queries[i]? = some q)
      (hdocs : q.reply = some docs) (hcount : dev.doesHaveCurrentUserEntrie docs = true ∨
        dev.CanCount .challengesCompletedLocal) :
      Effect dev (.queryReply i false) ((dev.endQuery i).entriesReply q.photo docs)

/-- Every event that is enabled has one of the listed outcomes. -/
theorem step_effect {e : Event} (h : dev.step e = some dev') : Effect dev e dev' := by
  cases e with
  | launch =>
    simp only [step] at h
    split_ifs at h with hr
    cases h
    exact .launch hr
  | kill =>
    simp only [step] at h
    split_ifs at h with hr
    cases h
    exact .kill hr
  | editLogin email password =>
    simp only [step] at h
    split_ifs at h with hl
    cases h
    exact .editLogin hl
  | pressSignIn =>
    simp only [step] at h
    split_ifs at h with hl
    cases h
    exact .pressSignIn hl
  | signInReply i failed =>
    simp only [step, Option.bind_eq_some_iff, Option.map_eq_some_iff] at h
    obtain ⟨req, hreq, result, hres, rfl⟩ := h
    cases failed with
    | true =>
      obtain rfl : none = result := by simpa using hres
      exact .signInRefused hreq (.inl rfl)
    | false =>
      cases result with
      | none => exact .signInRefused hreq (.inr (by simpa using hres))
      | some uid => exact .signedIn hreq (by simpa using hres)
  | createUserReply i failed =>
    simp only [step, Option.bind_eq_some_iff, Option.map_eq_some_iff] at h
    obtain ⟨req, hreq, result, hres, rfl⟩ := h
    cases failed with
    | true =>
      obtain rfl : none = result := by simpa using hres
      exact .createUserRefused hreq (.inl rfl)
    | false =>
      cases result with
      | none => exact .createUserRefused hreq (.inr (by simpa using hres))
      | some uid => exact .accountCreated hreq (by simpa using hres)
  | getUserReply i failed =>
    simp only [step, Option.bind_eq_some_iff] at h
    obtain ⟨req, hreq, h⟩ := h
    cases failed with
    | true =>
      cases h
      exact .getUserFailed hreq
    | false =>
      obtain ⟨snapshot, hreply, rfl⟩ := Option.map_eq_some_iff.1 h
      exact .getUserAnswered hreq hreply
  | dismissPermissions =>
    simp only [step] at h
    split_ifs at h with hc
    cases h
    exact .dismissPermissions hc.1 hc.2
  | pressLetsGo =>
    simp only [step] at h
    split_ifs at h with hc
    cases h
    exact .pressLetsGo hc.1 hc.2
  | finishOnboarding dataTextName dataTextPhoneNumber =>
    simp only [step] at h
    split_ifs at h with hc
    cases h
    exact .finishOnboarding hc.1 hc.2.1 hc.2.2
  | selectTab t =>
    simp only [step, Option.ite_none_right_eq_some] at h
    obtain ⟨hc, h⟩ := h
    cases h
    exact .selectTab hc.1
  | pressSignOut throws =>
    simp only [step] at h
    split_ifs at h with hp ht
    · cases h
      subst ht
      exact .signOutThrew hp
    · cases h
      obtain rfl : throws = false := by simpa using ht
      exact .signedOut hp
  | pressWithdrawal =>
    simp only [step] at h
    split_ifs at h with hp
    cases h
    exact .pressWithdrawal hp
  | mailResult result =>
    simp only [step, Option.map_eq_some_iff] at h
    obtain ⟨amount, hm, rfl⟩ := h
    by_cases hr : result = .sent
    · subst hr
      exact .mailSent hm
    · have hdev : dev.mailComposeController amount result = { dev with moneyNeeded := none } := by
        simp [mailComposeController, hr]
      rw [hdev]
      exact .mailNotSent hr
  | capture serial challenge oneCoord currentLoc encoded =>
    simp only [step, Option.ite_none_right_eq_some] at h
    obtain ⟨hv, h⟩ := h
    cases oneCoord with
    | none =>
      cases h
      exact .noLocation hv.1
    | some loc =>
      simp only at h
      split_ifs at h with hs
      · cases h
        exact .captureSent hv.1 hs
      · cases h
        exact .captureUnsent hv.1 hs
  | scanReply i reply r imageUUID pngData =>
    simp only [step, Option.bind_eq_some_iff] at h
    obtain ⟨scan, hscan, h⟩ := h
    split_ifs at h with hreply hr
    · cases h
      exact .scanAccepted hscan hreply hr.1 hr.2.1 hr.2.2
    · cases h
      exact .scanRejected hscan hreply
  | uploadReply i failed date =>
    simp only [step, Option.bind_eq_some_iff] at h
    obtain ⟨up, hup, h⟩ := h
    cases failed with
    | true =>
      cases h
      exact .uploadFailed hup
    | false =>
      cases h
      exact .uploaded hup
  | queryReply i failed =>
    simp only [step, Option.bind_eq_some_iff] at h
    obtain ⟨q, hq, h⟩ := h
    cases failed with
    | true =>
      cases h
      exact .queryFailed hq
    | false =>
      simp only [Bool.false_eq_true, if_false, Option.bind_eq_some_iff] at h
      obtain ⟨docs, hdocs, h⟩ := h
      split_ifs at h with hcount
      cases h
      exact .queryAnswered hq hdocs hcount

end Device

/-! ## Steps of the world -/

namespace World

section Record

variable {ι : Type*} (w : World ι) (e : Event)

@[simp] theorem record_server : (w.record e).server = w.server := by
  cases e <;> rfl

@[simp] theorem record_devices : (w.record e).devices = w.devices := by
  cases e <;> rfl

@[simp] theorem record_applied : (w.record e).applied = w.applied := by
  cases e <;> rfl

end Record

variable {ι : Type*} [DecidableEq ι] {w w' : World ι}

@[simp] theorem setDevice_self (w : World ι) (d : ι) (dev : Device) :
    (w.setDevice d dev).devices d = dev := by
  simp [setDevice]

@[simp] theorem setDevice_of_ne (w : World ι) {d d' : ι} (dev : Device) (h : d' ≠ d) :
    (w.setDevice d dev).devices d' = w.devices d' := by
  simp [setDevice, h]

@[simp] theorem setDevice_server (w : World ι) (d : ι) (dev : Device) :
    (w.setDevice d dev).server = w.server := rfl

@[simp] theorem setDevice_applied (w : World ι) (d : ι) (dev : Device) :
    (w.setDevice d dev).applied = w.applied := rfl

theorem forall_setDevice {P : ι → Device → Prop} {d : ι} {dev : Device} (hd : P d dev)
    (h : ∀ d', P d' (w.devices d')) : ∀ d', P d' ((w.setDevice d dev).devices d') := by
  intro d'
  by_cases hd' : d' = d
  · subst hd'; simpa using hd
  · simpa [hd'] using h d'

/-- The outcomes of a step. -/
inductive Effect (w : World ι) : Label ι → World ι → Prop
  | app {d : ι} {e : Event} {dev' : Device} (hf : w.fresh e = true) (h : (w.devices d).Effect e dev') :
      Effect w (.app d e) ((w.record e).setDevice d dev')
  | serveSignIn {d : ι} {i : ℕ} {req : AuthRequest} (hreq : (w.devices d).signIns[i]? = some req)
      (hnone : req.reply = none) :
      Effect w (.serveSignIn d i) (w.setDevice d
        ((w.devices d).answerSignIn i req (w.server.signIn req.email req.password)))
  | refuseCreateUser {d : ι} {i : ℕ} {uid : Uid} {req : AuthRequest}
      (hreq : (w.devices d).createUsers[i]? = some req) (hnone : req.reply = none)
      (huse : w.server.emailInUse req.email = true) :
      Effect w (.serveCreateUser d i uid) (w.setDevice d
        ((w.devices d).answerCreateUser i req none))
  | serveCreateUser {d : ι} {i : ℕ} {uid : Uid} {req : AuthRequest}
      (hreq : (w.devices d).createUsers[i]? = some req) (hnone : req.reply = none)
      (hnew : ∀ a ∈ w.server.accounts, a.uid ≠ uid)
      (hfree : w.server.emailInUse req.email = false) :
      Effect w (.serveCreateUser d i uid) ((w.openAccount req.email req.password uid).setDevice d
        ((w.devices d).answerCreateUser i req (some uid)))
  | serveGetUser {d : ι} {i : ℕ} {req : GetUser} (hreq : (w.devices d).getUsers[i]? = some req)
      (hnone : req.reply = none) :
      Effect w (.serveGetUser d i) (w.setDevice d
        ((w.devices d).answerGetUser i req ((w.localView d).users req.uid.val)))
  | serveQuery {d : ι} {i : ℕ} {q : Query} (hq : (w.devices d).queries[i]? = some q)
      (hnone : q.reply = none) :
      Effect w (.serveQuery d i) (w.setDevice d
        ((w.devices d).answerQuery i q ((w.localView d).entriesOf q.document)))
  | applied {d : ι} {x : Issued} {rest : List Issued} (hq : (w.devices d).queue = x :: rest) :
      Effect w (.apply d true) ((w.setDevice d ((w.devices d).setQueue rest)).commit x)
  | rejected {d : ι} {x : Issued} {rest : List Issued} (hq : (w.devices d).queue = x :: rest) :
      Effect w (.apply d false) (w.setDevice d ((w.devices d).setQueue rest))

/-- Every step that is enabled has one of the listed outcomes. -/
theorem step_effect {l : Label ι} (h : w.step l = some w') : Effect w l w' := by
  cases l with
  | app d e =>
    simp only [step] at h
    split_ifs at h with hf
    obtain ⟨dev', hdev, rfl⟩ := Option.map_eq_some_iff.1 h
    exact .app hf (Device.step_effect hdev)
  | serveSignIn d i =>
    simp only [step, World.serveSignIn, Option.bind_eq_some_iff] at h
    obtain ⟨req, hreq, h⟩ := h
    split_ifs at h with hnone
    cases h
    exact .serveSignIn hreq (Option.isNone_iff_eq_none.1 hnone)
  | serveCreateUser d i uid =>
    simp only [step, World.serveCreateUser, Option.bind_eq_some_iff] at h
    obtain ⟨req, hreq, h⟩ := h
    split_ifs at h with hnone huse hnew
    · cases h
      exact .refuseCreateUser hreq (Option.isNone_iff_eq_none.1 hnone) huse
    · cases h
      exact .serveCreateUser hreq (Option.isNone_iff_eq_none.1 hnone) hnew (by simpa using huse)
  | serveGetUser d i =>
    simp only [step, World.serveGetUser, Option.bind_eq_some_iff] at h
    obtain ⟨req, hreq, h⟩ := h
    split_ifs at h with hnone
    cases h
    exact .serveGetUser hreq (Option.isNone_iff_eq_none.1 hnone)
  | serveQuery d i =>
    simp only [step, World.serveQuery, Option.bind_eq_some_iff] at h
    obtain ⟨q, hq, h⟩ := h
    split_ifs at h with hnone
    cases h
    exact .serveQuery hq (Option.isNone_iff_eq_none.1 hnone)
  | apply d accepted =>
    simp only [step, applyWrite] at h
    split at h
    · cases h
    · rename_i x rest hq
      cases h
      cases accepted with
      | true => exact .applied hq
      | false => exact .rejected hq

end World

end Datability
