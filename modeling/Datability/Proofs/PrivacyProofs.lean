import Datability.Privacy
import Datability.Proofs.DeviceProofs
import Datability.Proofs.FirestoreProofs
import Datability.Proofs.ParticipationProofs
import Datability.Proofs.SessionProofs
import Datability.Proofs.StepProofs
import Datability.Proofs.TransitionProofs

/-!
# Proofs: the local profile of one account

Two runs that look the same to `u` stay related: they agree on the session and on what `u` sees of the
requests, the queue and the backend, and their local copies may differ only while `u` is not signed in. A
sign-out clears the copy, and nothing brings a name back before the next sign-in, so the copies agree again
when `u` signs in. A step of which `u` sees nothing keeps the relation although only one run takes it.
-/

namespace Datability

open Transition

namespace Fields

/-- An assignment of the whole profile leaves nothing of the fields before but the password. -/
theorem setUser_eq {f g : Fields} (h : g .password = f .password) (p : DatabilityUser) :
    g.setUser p = f.setUser p := by
  funext k
  cases k <;> simp [setUser, h]

@[simp] theorem setUser_password (f : Fields) (p : DatabilityUser) :
    f.setUser p .password = f .password := by
  simp [setUser]

theorem removeUser_eq {f g : Fields} (h : g .password = f .password) :
    g.removeUser = f.removeUser := by
  funext k
  rw [removeUser_apply, removeUser_apply]
  split
  · rename_i hk
    rw [hk, h]
  · rfl

/-- The copies are the same, or both are without a name. -/
def SameCopy (f g : Fields) : Prop := g = f ∨ (f .fullNameLocal = none ∧ g .fullNameLocal = none)

theorem SameCopy.map {f g : Fields} (h : SameCopy f g) {φ : Fields → Fields}
    (hφ : ∀ f, φ f .fullNameLocal = f .fullNameLocal) : SameCopy (φ f) (φ g) := by
  rcases h with rfl | ⟨hf, hg⟩
  · exact .inl rfl
  · exact .inr ⟨(hφ f).trans hf, (hφ g).trans hg⟩

theorem SameCopy.symm {f g : Fields} (h : SameCopy f g) : SameCopy g f := by
  rcases h with rfl | ⟨hf, hg⟩
  · exact .inl rfl
  · exact .inr ⟨hg, hf⟩

theorem SameCopy.trans {f g k : Fields} (h : SameCopy f g) (h' : SameCopy g k) : SameCopy f k := by
  rcases h with rfl | ⟨hf, hg⟩
  · exact h'
  · rcases h' with rfl | ⟨-, hk⟩
    · exact .inr ⟨hf, hg⟩
    · exact .inr ⟨hf, hk⟩

/-- A copy without a name is no profile. -/
theorem fetchProfileData_of_no_name {f : Fields} (h : f .fullNameLocal = none) :
    Datability.fetchProfileData f = none := by
  unfold Datability.fetchProfileData readUser
  rw [h]
  rfl

theorem SameCopy.fetchProfileData {f g : Fields} (h : SameCopy f g) :
    Datability.fetchProfileData g = Datability.fetchProfileData f := by
  rcases h with rfl | ⟨hf, hg⟩
  · rfl
  · rw [fetchProfileData_of_no_name hf, fetchProfileData_of_no_name hg]

end Fields

/-! ## Nobody signed in, no name -/

namespace Device

variable {dev dev' dev₁ dev₁' : Device}

/-- While nobody is signed in, the local copy has no name. The end of the onboarding sets one, but the
sheet is there only while somebody is signed in. -/
structure CleanInv (dev : Device) : Prop extends dev.ViewInv where
  sheet : dev.continueOnboarding = true → dev.challengesView = false → dev.currentUser ≠ none
  name : dev.currentUser = none → dev.defaults .fullNameLocal = none

theorem CleanInv.of_same (hI : dev.CleanInv) (h : SameScreen dev dev')
    (hname : dev'.defaults .fullNameLocal = dev.defaults .fullNameLocal) : dev'.CleanInv where
  toViewInv := hI.of_eq h.running h.loginView h.challengesView
  sheet := by
    rw [h.continueOnboarding, h.challengesView, h.currentUser]
    exact hI.sheet
  name := by
    rw [h.currentUser, hname]
    exact hI.name

theorem Effect.cleanInv {e : Event} (h : Effect dev e dev') (hs : dev.OwnReplies e)
    (hI : dev.CleanInv) : dev'.CleanInv := by
  have hv := h.viewInv hI.toViewInv
  cases h with
  | launch hr =>
    rw [viewDidLoad_eq] at hv ⊢
    refine ⟨hv, fun hc hv' => ?_, hI.name⟩
    exact hI.sheet hc (Bool.or_eq_false_iff.1 hv').1
  | kill hr => exact ⟨hv, by simp [terminated], hI.name⟩
  | signedIn hreq hreply =>
    exact ⟨hv, fun _ _ => by simp [signInCompletion, getUser], by simp [signInCompletion, getUser]⟩
  | accountCreated hreq hreply =>
    exact ⟨hv, fun _ _ => by simp [createUserCompletion], by simp [createUserCompletion]⟩
  | @getUserAnswered i req snapshot hreq hreply =>
    cases hp : dataAsDatabilityUser snapshot with
    | none =>
      simp only [getUserCompletion, hp]
      exact hI.of_same ⟨rfl, rfl, rfl, rfl, rfl, rfl⟩ rfl
    | some p =>
      have hu : dev.currentUser = some req.uid := hs req hreq rfl snapshot hreply (by simp [hp])
      simp only [getUserCompletion, hp] at hv ⊢
      exact ⟨hv, hI.sheet, fun hnone => absurd (hu.symm.trans hnone) (by simp)⟩
  | dismissPermissions hl hp =>
    exact ⟨hv, by simp [removeDataHostingView, loadDataChallengesHostingView], hI.name⟩
  | finishOnboarding hl hc hp =>
    rw [finishOnboarding_eq] at hv ⊢
    exact ⟨hv, by simp, fun hnone => absurd hnone (hI.sheet hc (hI.not_challenges hl))⟩
  | signedOut hp =>
    refine ⟨hv, by simp [signOut, removeDataChallengesView, loadDataChallengesHostingView],
      fun _ => ?_⟩
    exact (Fields.removeUser_apply dev.defaults .fullNameLocal).trans (if_neg (by decide))
  | mailSent hm =>
    exact hI.of_same ⟨rfl, rfl, rfl, rfl, rfl, rfl⟩ (by simp [mailComposeController, issue])
  | scanAccepted hscan hreply hlo hhi hcount =>
    rw [snapAccepted_eq]
    exact hI.of_same ⟨rfl, rfl, rfl, rfl, rfl, rfl⟩ (by simp [endScan])
  | @uploaded i up date hup =>
    rcases uploadEntries_cases ((dev.endUpload i).noteStored up) up.photo up.path up.lat up.long date
      up.challenge with heq | ⟨u, c, -, -, heq⟩
    all_goals
      rw [heq]
      exact hI.of_same ⟨rfl, rfl, rfl, rfl, rfl, rfl⟩ rfl
  | queryAnswered hq hdocs hcount =>
    unfold entriesReply
    split
    · exact hI.of_same ⟨rfl, rfl, rfl, rfl, rfl, rfl⟩ rfl
    · exact hI.of_same ⟨rfl, rfl, rfl, rfl, rfl, rfl⟩ (by simp [countLocal, issue, endQuery])
  | editLogin | pressSignIn | signInRefused | createUserRefused | getUserFailed | pressLetsGo
  | selectTab | signOutThrew | pressWithdrawal | mailNotSent | noLocation | captureUnsent
  | captureSent | scanRejected | uploadFailed | queryFailed =>
    exact hI.of_same ⟨rfl, rfl, rfl, rfl, rfl, rfl⟩ rfl

end Device

/-! ## The relation between the two runs -/

namespace Server

variable {u : Uid} {s s' t : Server}

/-- The backends differ at most in documents and entries of other accounts than `u`. -/
structure Sim (u : Uid) (s s' : Server) : Prop where
  accounts : s'.accounts = s.accounts
  entries : ∀ c, s'.HasEntry u c ↔ s.HasEntry u c
  document : s'.users u.val = s.users u.val

theorem Sim.refl (u : Uid) (s : Server) : s.Sim u s := ⟨rfl, fun _ => Iff.rfl, rfl⟩

theorem Sim.symm (h : s.Sim u s') : s'.Sim u s :=
  ⟨h.accounts.symm, fun c => (h.entries c).symm, h.document.symm⟩

theorem Sim.trans (h : s.Sim u s') (h' : s'.Sim u t) : s.Sim u t :=
  ⟨h'.accounts.trans h.accounts, fun c => (h'.entries c).trans (h.entries c), h'.document.trans h.document⟩

theorem accounts_apply (w : Write) : (s.apply w).accounts = s.accounts := by
  cases w <;> rfl

theorem users_apply_hidden {w : Write} (hseen : w.seen u = none) :
    (s.apply w).users u.val = s.users u.val := by
  cases w with
  | addDocument c e => rfl
  | setData doc fields | increment doc k q | updateData doc k v =>
    refine Function.update_of_ne ?_ _ _
    rintro rfl
    simp [Write.seen] at hseen

/-- A write of which `u` sees nothing adds no entry of `u`. -/
theorem entryFor_of_hidden {w : Write} (hseen : w.seen u = none) : w.entryFor u = none := by
  cases w with
  | addDocument c e =>
    simp only [Write.seen, ite_eq_right_iff, reduceCtorEq, imp_false] at hseen
    simp [Write.entryFor, hseen]
  | setData | increment | updateData => rfl

/-- A write of which `u` sees nothing touches neither the accounts nor what is of `u`. -/
theorem Sim.apply_hidden (h : s.Sim u s') {w : Write} (hseen : w.seen u = none) : (s.apply w).Sim u s' := by
  refine Sim.trans ⟨(accounts_apply w).symm, fun c => ?_, (users_apply_hidden hseen).symm⟩ h
  rw [hasEntry_apply, entryFor_of_hidden hseen]
  simp

/-- A write does to what is of `u` what `u` sees of it. -/
theorem Sim.apply_seen (h : s.Sim u s') {w c : Write} (hseen : w.seen u = some c) :
    (s.apply w).Sim u (s'.apply c) := by
  obtain ⟨ha, he, hd⟩ := h
  cases w with
  | addDocument c' e =>
    simp only [Write.seen, Option.ite_none_right_eq_some, Option.some.injEq] at hseen
    obtain ⟨hhost, rfl⟩ := hseen
    refine ⟨ha, fun c => ?_, hd⟩
    rw [hasEntry_apply, hasEntry_apply, he]
    simp [Write.entryFor, hhost]
  | setData doc fields =>
    simp only [Write.seen, Option.ite_none_right_eq_some, Option.some.injEq] at hseen
    obtain ⟨rfl, rfl⟩ := hseen
    exact ⟨ha, he, by simp [Server.apply]⟩
  | increment doc k q =>
    simp only [Write.seen, Option.ite_none_right_eq_some, Option.some.injEq] at hseen
    obtain ⟨rfl, rfl⟩ := hseen
    exact ⟨ha, he, by simp [Server.apply, updateUser, hd]⟩
  | updateData doc k v =>
    simp only [Write.seen, Option.ite_none_right_eq_some, Option.some.injEq] at hseen
    obtain ⟨rfl, rfl⟩ := hseen
    exact ⟨ha, he, by simp [Server.apply, updateUser, hd]⟩

/-- Two writes of which `u` sees the same. -/
theorem Sim.apply (h : s.Sim u s') {w w' c : Write} (hw : w.seen u = some c) (hw' : w'.seen u = some c) :
    (s.apply w).Sim u (s'.apply w') :=
  (h.apply_seen hw).trans (Sim.symm ((Sim.refl u s').apply_seen hw'))

/-- A queue does to what is of `u` what `u` sees of it. -/
theorem Sim.foldl_seen (h : s.Sim u s') (q : List Write) :
    (q.foldl Server.apply s).Sim u ((q.filterMap (Write.seen u)).foldl Server.apply s') := by
  induction q generalizing s s' with
  | nil => exact h
  | cons w q ih =>
    cases hseen : w.seen u with
    | none =>
      rw [List.filterMap_cons_none hseen]
      exact ih (h.apply_hidden hseen)
    | some c =>
      rw [List.filterMap_cons_some hseen]
      exact ih (h.apply_seen hseen)

end Server

namespace Device

variable {dev dev' dev'' dev₁ dev₁' : Device} {u : Uid} {s s' : Server}

/-- The phones differ at most in the data of other accounts than `u`. -/
structure Sim (u : Uid) (dev dev' : Device) : Prop where
  currentUser : dev'.currentUser = dev.currentUser
  dataTextEmail : dev'.dataTextEmail = dev.dataTextEmail
  dataTextPassword : dev'.dataTextPassword = dev.dataTextPassword
  signIns : dev'.signIns = dev.signIns
  createUsers : dev'.createUsers = dev.createUsers
  getUsers : dev'.getUsers.filterMap (GetUser.seen u) = dev.getUsers.filterMap (GetUser.seen u)
  scans : dev'.scans.filterMap (Scan.seen u) = dev.scans.filterMap (Scan.seen u)
  uploads : dev'.uploads.filterMap (Upload.seen u) = dev.uploads.filterMap (Upload.seen u)
  queries : dev'.queries.filterMap (Query.seen u) = dev.queries.filterMap (Query.seen u)
  queue : dev'.queue.filterMap (fun x => x.write.seen u) = dev.queue.filterMap fun x => x.write.seen u
  password : dev'.defaults .password = dev.defaults .password
  /-- The copy of `u` is the same, or there is none. -/
  copy : dev.currentUser = some u → dev.defaults.SameCopy dev'.defaults

theorem Sim.refl (u : Uid) (dev : Device) : dev.Sim u dev :=
  ⟨rfl, rfl, rfl, rfl, rfl, rfl, rfl, rfl, rfl, rfl, rfl, fun _ => .inl rfl⟩

theorem Sim.symm (h : dev.Sim u dev') : dev'.Sim u dev :=
  ⟨h.currentUser.symm, h.dataTextEmail.symm, h.dataTextPassword.symm, h.signIns.symm, h.createUsers.symm,
    h.getUsers.symm, h.scans.symm, h.uploads.symm, h.queries.symm, h.queue.symm, h.password.symm,
    fun hu => (h.copy (h.currentUser.symm.trans hu)).symm⟩

theorem Sim.trans (h : dev.Sim u dev') (h' : dev'.Sim u dev'') : dev.Sim u dev'' :=
  ⟨h'.currentUser.trans h.currentUser, h'.dataTextEmail.trans h.dataTextEmail,
    h'.dataTextPassword.trans h.dataTextPassword, h'.signIns.trans h.signIns,
    h'.createUsers.trans h.createUsers, h'.getUsers.trans h.getUsers, h'.scans.trans h.scans,
    h'.uploads.trans h.uploads, h'.queries.trans h.queries, h'.queue.trans h.queue,
    h'.password.trans h.password, fun hu => (h.copy hu).trans (h'.copy (h.currentUser.trans hu))⟩

theorem Sim.view (h : dev.Sim u dev') (hs : s.Sim u s') : (dev.view s).Sim u (dev'.view s') := by
  have hqueue := h.queue
  have hseen := hs.foldl_seen (dev.queue.map Issued.write)
  have hseen' := (Server.Sim.refl u s').foldl_seen (dev'.queue.map Issued.write)
  rw [List.filterMap_map] at hseen hseen'
  have hsame : (dev'.queue.filterMap (Write.seen u ∘ Issued.write)) =
      dev.queue.filterMap (Write.seen u ∘ Issued.write) := hqueue
  rw [hsame] at hseen'
  exact hseen.trans hseen'.symm

theorem Sim.userPath (hS : dev.Sim u dev') : dev'.userPath = dev.userPath := by
  simp [Device.userPath, hS.currentUser]

theorem userPath_ne (h : dev.currentUser ≠ some u) : dev.userPath ≠ u.val := by
  cases hc : dev.currentUser with
  | none =>
    simp only [Device.userPath, hc, Option.map_none, Option.getD_none]
    exact u.ne_error.symm
  | some v =>
    rw [userPath_eq hc]
    refine Uid.val_injective.ne fun hvu => h ?_
    rw [hc, hvu]

/-- Where `u` is not signed in, it does not see the writes to the document of the signed-in user. -/
theorem increment_hidden (h : dev.currentUser ≠ some u) (k : Key) (q : ℚ) :
    (Write.increment dev.userPath k q).seen u = none := if_neg (userPath_ne h)

theorem updateData_hidden (h : dev.currentUser ≠ some u) (k : Key) (v : Value) :
    (Write.updateData dev.userPath k v).seen u = none := if_neg (userPath_ne h)

theorem OtherSignedIn.ne (h : dev.OtherSignedIn u) : dev.currentUser ≠ some u := by
  obtain ⟨v, hv, hne⟩ := h
  intro hu
  exact hne (Option.some.inj (hv.symm.trans hu))

/-- If nobody but the owner of another account's photo is signed in, then `u` is not. -/
theorem ne_of_other {p : Photo} (hp : p.OfOther u) (hown : ∀ v ∈ p.owner, dev.NobodyElse v) :
    dev.currentUser ≠ some u := by
  obtain ⟨v, hv, hne⟩ := hp
  intro hu
  exact hne (hown v hv u hu).symm

/-! ## Steps of which nothing is seen -/

/-- The acceptance of another account's photo while `u` is not signed in. -/
theorem sim_snapAccepted (dev : Device) {scan : Scan} (hother : scan.photo.OfOther u)
    (hne : dev.currentUser ≠ some u) (r : ℚ) (imageUUID : String) (pngData : Bool) :
    dev.Sim u (dev.snapAccepted scan r imageUUID pngData) := by
  rw [snapAccepted_eq]
  refine { Sim.refl u dev with
    uploads := ?_, queries := ?_, queue := ?_, password := ?_, copy := fun hu => absurd hu hne }
  · rw [List.filterMap_append]
    cases pngData <;> simp [Upload.seen, hother]
  · rw [List.filterMap_append]
    simp [Query.seen, hother]
  · rw [List.filterMap_append]
    simp [increment_hidden hne]
  · simp

/-- An entry of another account. -/
theorem sim_uploadEntries (dev : Device) (photo : Photo) (path : String) (lat long date : ℚ) {ch : Challenge}
    (hne : ch.id ≠ none → dev.currentUser ≠ some u) :
    dev.Sim u (dev.uploadEntries photo path lat long date ch) := by
  rcases uploadEntries_cases dev photo path lat long date ch with heq | ⟨v, c, hv, hc, heq⟩
  · rw [heq]
    exact .refl u dev
  · have hvu : v.val ≠ u.val := by
      refine Uid.val_injective.ne fun hvu => hne (by simp [hc]) ?_
      rw [hv, hvu]
    rw [heq]
    refine { Sim.refl u dev with queue := ?_ }
    rw [Device.issue, List.filterMap_append]
    simp [Write.seen, hvu]

/-- The answer to a query while `u` is not signed in. -/
theorem sim_entriesReply (dev : Device) (photo : Photo) (docs : List Entry)
    (hne : dev.doesHaveCurrentUserEntrie docs = false → dev.currentUser ≠ some u) :
    dev.Sim u (dev.entriesReply photo docs) := by
  cases hown : dev.doesHaveCurrentUserEntrie docs with
  | true =>
    rw [entriesReply_pos _ hown]
    exact .refl u dev
  | false =>
    rw [entriesReply_neg _ hown]
    refine { Sim.refl u dev with queue := ?_, password := ?_, copy := fun hu => absurd hu (hne hown) }
    · rw [countLocal, Device.issue, List.filterMap_append]
      simp [increment_hidden (hne hown)]
    · simp [countLocal, issue]

theorem scan_hidden_iff {scan : Scan} : scan.seen u = none ↔ scan.photo.OfOther u := by
  simp [Scan.seen]

theorem upload_hidden_iff {up : Upload} : up.seen u = none ↔ up.photo.OfOther u := by
  simp [Upload.seen]

theorem query_hidden_iff {q : Query} : q.seen u = none ↔ q.photo.OfOther u := by
  simp [Query.seen]

theorem getUser_hidden_iff {req : GetUser} : req.seen u = none ↔ req.uid ≠ u := by
  simp [GetUser.seen]

/-- A snapshot of another document changes nothing while `u` is signed in. -/
theorem sim_getUserCompletion {i : ℕ} {req : GetUser} {snapshot : Option Fields}
    (hreq : dev.getUsers[i]? = some req) (hreply : req.reply = some snapshot) (hne : req.uid ≠ u)
    (hs : dev.OwnReplies (.getUserReply i false)) :
    (dev.endGetUser i).Sim u ((dev.endGetUser i).getUserCompletion snapshot) := by
  rw [getUserCompletion_eq]
  refine { Sim.refl u (dev.endGetUser i) with password := ?_, copy := fun hu => ?_ }
  · cases dataAsDatabilityUser snapshot <;> simp
  · have hu : dev.currentUser = some u := hu
    have hnone : dataAsDatabilityUser snapshot = none := by
      by_contra hdecodes
      have huid := hs req hreq rfl snapshot hreply hdecodes
      exact hne (Option.some.inj (huid.symm.trans hu))
    rw [hnone]
    exact .inl rfl

/-- An event of which `u` sees nothing changes nothing that concerns `u`. -/
theorem Effect.sim_hidden {e : Event} (h : Effect dev e dev₁) (hseen : dev.seen u e = none)
    (hs : dev.OwnReplies e) : dev.Sim u dev₁ := by
  cases h with
  | @getUserFailed i req hreq =>
    rw [Device.seen, Option.map_eq_none_iff, number_eq_none hreq] at hseen
    exact { Sim.refl u dev with getUsers := filterMap_eraseIdx_hidden hreq hseen }
  | @getUserAnswered i req snapshot hreq hreply =>
    rw [Device.seen, Option.map_eq_none_iff, number_eq_none hreq] at hseen
    have hend : dev.Sim u (dev.endGetUser i) :=
      { Sim.refl u dev with getUsers := filterMap_eraseIdx_hidden hreq hseen }
    exact hend.trans (sim_getUserCompletion hreq hreply (getUser_hidden_iff.1 hseen) hs)
  | selectTab hv => exact { Sim.refl u dev with }
  | pressWithdrawal hp => exact { Sim.refl u dev with }
  | mailNotSent hr => exact { Sim.refl u dev with }
  | mailSent hm =>
    have hother : dev.OtherSignedIn u := by simpa [Device.seen] using hseen
    refine { Sim.refl u dev with queue := ?_, password := ?_, copy := fun hu => absurd hu hother.ne }
    · rw [mailComposeController_sent_queue, List.filterMap_append]
      simp [updateData_hidden hother.ne]
    · simp [mailComposeController, issue]
  | noLocation hv => exact .refl u dev
  | captureUnsent hv hsent => exact { Sim.refl u dev with }
  | @captureSent serial challenge loc currentLoc encoded hv hsent =>
    have hother : dev.OtherSignedIn u := by simpa [Device.seen] using hseen
    have hscan : Scan.seen u ⟨⟨serial, dev.currentUser, loc⟩, loc, challenge⟩ = none :=
      scan_hidden_iff.2 hother
    refine { Sim.refl u dev with scans := ?_ }
    rw [List.filterMap_append, List.filterMap_cons_none hscan]
    simp
  | @scanAccepted i scan reply r imageUUID pngData hscan hreply hlo hhi hcount =>
    rw [Device.seen, Option.map_eq_none_iff, number_eq_none hscan] at hseen
    have hother := scan_hidden_iff.1 hseen
    have hend : dev.Sim u (dev.endScan i scan reply) :=
      { Sim.refl u dev with scans := filterMap_eraseIdx_hidden hscan hseen }
    have hne : (dev.endScan i scan reply).currentUser ≠ some u := ne_of_other hother (hs scan hscan hreply)
    exact hend.trans (sim_snapAccepted _ hother hne r imageUUID pngData)
  | scanRejected hscan hreply =>
    rw [Device.seen, Option.map_eq_none_iff, number_eq_none hscan] at hseen
    exact { Sim.refl u dev with scans := filterMap_eraseIdx_hidden hscan hseen }
  | uploadFailed hup =>
    rw [Device.seen, Option.map_eq_none_iff, number_eq_none hup] at hseen
    exact { Sim.refl u dev with uploads := filterMap_eraseIdx_hidden hup hseen }
  | @uploaded i up date hup =>
    rw [Device.seen, Option.map_eq_none_iff, number_eq_none hup] at hseen
    have hend : dev.Sim u ((dev.endUpload i).noteStored up) :=
      { Sim.refl u dev with uploads := filterMap_eraseIdx_hidden hup hseen }
    refine hend.trans (sim_uploadEntries _ _ _ _ _ _ fun hid => ?_)
    exact ne_of_other (upload_hidden_iff.1 hseen) (hs up hup rfl hid)
  | queryFailed hq =>
    rw [Device.seen, Option.map_eq_none_iff, number_eq_none hq] at hseen
    exact { Sim.refl u dev with queries := filterMap_eraseIdx_hidden hq hseen }
  | @queryAnswered i q docs hq hdocs hcount =>
    rw [Device.seen, Option.map_eq_none_iff, number_eq_none hq] at hseen
    have hend : dev.Sim u (dev.endQuery i) :=
      { Sim.refl u dev with queries := filterMap_eraseIdx_hidden hq hseen }
    refine hend.trans (sim_entriesReply _ _ _ fun hown => ?_)
    exact ne_of_other (query_hidden_iff.1 hseen) (hs q hq rfl docs hdocs hown)
  | launch | kill | editLogin | pressSignIn | signedIn | signInRefused | accountCreated
  | createUserRefused | dismissPermissions | pressLetsGo | finishOnboarding | signOutThrew | signedOut =>
    cases hseen

/-! ## Steps that look the same -/

/-- The events that look like `o` to `u`. -/
def LooksLike (u : Uid) (dev : Device) (e : Event) : Event → Prop
  | .getUserReply n failed =>
    ∃ i, e = .getUserReply i failed ∧ number (GetUser.seen u) dev.getUsers i = some n
  | .finishOnboarding name phone => ∃ name' phone', e = .finishOnboarding name' phone' ∧
      (dev.OtherSignedIn u ∨ name' = name ∧ phone' = phone)
  | .capture _ challenge oneCoord currentLoc encoded =>
    ∃ serial, e = .capture serial challenge oneCoord currentLoc encoded
  | .scanReply n reply r _ pngData => ∃ i imageUUID, e = .scanReply i reply r imageUUID pngData ∧
      number (Scan.seen u) dev.scans i = some n
  | .uploadReply n failed _ =>
    ∃ i date, e = .uploadReply i failed date ∧ number (Upload.seen u) dev.uploads i = some n
  | .queryReply n failed => ∃ i, e = .queryReply i failed ∧ number (Query.seen u) dev.queries i = some n
  | o => e = o

theorem looksLike_of_seen {e o : Event} (h : dev.seen u e = some o) : dev.LooksLike u e o := by
  cases e with
  | getUserReply i failed =>
    obtain ⟨n, hn, rfl⟩ := Option.map_eq_some_iff.1 h
    exact ⟨i, rfl, hn⟩
  | finishOnboarding name phone =>
    obtain rfl := Option.some.inj h
    split_ifs with hother
    · exact ⟨name, phone, rfl, .inl hother⟩
    · exact ⟨name, phone, rfl, .inr ⟨rfl, rfl⟩⟩
  | selectTab | pressWithdrawal | mailResult =>
    simp only [Device.seen, Option.ite_none_left_eq_some, Option.some.injEq] at h
    obtain ⟨-, rfl⟩ := h
    rfl
  | capture serial challenge oneCoord currentLoc encoded =>
    simp only [Device.seen, Option.ite_none_left_eq_some, Option.some.injEq] at h
    obtain ⟨-, rfl⟩ := h
    exact ⟨serial, rfl⟩
  | scanReply i reply r imageUUID pngData =>
    obtain ⟨n, hn, rfl⟩ := Option.map_eq_some_iff.1 h
    exact ⟨i, imageUUID, rfl, hn⟩
  | uploadReply i failed date =>
    obtain ⟨n, hn, rfl⟩ := Option.map_eq_some_iff.1 h
    exact ⟨i, date, rfl, hn⟩
  | queryReply i failed =>
    obtain ⟨n, hn, rfl⟩ := Option.map_eq_some_iff.1 h
    exact ⟨i, rfl, hn⟩
  | launch | kill | editLogin | pressSignIn | signInReply | createUserReply | dismissPermissions
  | pressLetsGo | pressSignOut =>
    obtain rfl := Option.some.inj h
    rfl

theorem Sim.kill (hS : dev.Sim u dev') : dev.terminated.Sim u dev'.terminated :=
  ⟨hS.currentUser, rfl, rfl, rfl, rfl, rfl, rfl, rfl, rfl, hS.queue, hS.password, hS.copy⟩

/-- The account `uid` is signed in on both phones, on which nobody else was. -/
theorem Sim.copy_of_switch (hS : dev.Sim u dev') (hI : dev.CleanInv) (hI' : dev'.CleanInv) {uid : Uid}
    (hnobody : dev.NobodyElse uid) (huid : uid = u) : dev.defaults.SameCopy dev'.defaults := by
  cases hc : dev.currentUser with
  | none => exact .inr ⟨hI.name hc, hI'.name (hS.currentUser.trans hc)⟩
  | some x =>
    obtain rfl : x = uid := hnobody x hc
    exact hS.copy (by rw [hc, huid])

theorem Sim.signedIn (hS : dev.Sim u dev') (hI : dev.CleanInv) (hI' : dev'.CleanInv) {i : ℕ} {uid : Uid}
    (hnobody : dev.NobodyElse uid) :
    ((dev.endSignIn i).signInCompletion (some uid)).Sim u
      ((dev'.endSignIn i).signInCompletion (some uid)) := by
  refine { hS with
    currentUser := rfl, signIns := congrArg (List.eraseIdx · i) hS.signIns, getUsers := ?_
    copy := fun hu => hS.copy_of_switch hI hI' hnobody (Option.some.inj hu) }
  simp only [signInCompletion, getUser, endSignIn, List.filterMap_append, hS.getUsers]

theorem Sim.accountCreated (hS : dev.Sim u dev') (hI : dev.CleanInv) (hI' : dev'.CleanInv) {i : ℕ}
    {uid : Uid} (hnobody : dev.NobodyElse uid) :
    ((dev.endCreateUser i).createUserCompletion (some uid)).Sim u
      ((dev'.endCreateUser i).createUserCompletion (some uid)) :=
  { hS with
    currentUser := rfl, createUsers := congrArg (List.eraseIdx · i) hS.createUsers
    copy := fun hu => hS.copy_of_switch hI hI' hnobody (Option.some.inj hu) }

theorem Sim.finishOnboarding (hS : dev.Sim u dev') {name phone name' phone' : String}
    (hnames : dev.OtherSignedIn u ∨ name' = name ∧ phone' = phone) :
    (dev.finishOnboarding name phone).Sim u (dev'.finishOnboarding name' phone') := by
  rw [finishOnboarding_eq, finishOnboarding_eq]
  refine { hS with queue := ?_, password := by simpa using hS.password, copy := fun hu => ?_ }
  · rw [List.filterMap_append, List.filterMap_append, hS.queue, hS.currentUser, hS.dataTextEmail,
      hS.dataTextPassword]
    rcases hnames with ⟨v, hv, hne⟩ | ⟨rfl, rfl⟩
    · have hval : v.val ≠ u.val := Uid.val_injective.ne hne
      have hv : dev.currentUser = some v := hv
      simp [hv, Write.seen, hval]
    · rfl
  · rcases hnames with hother | ⟨rfl, rfl⟩
    · exact absurd hu hother.ne
    · rw [hS.dataTextEmail]
      exact .inl (Fields.setUser_eq hS.password _)

theorem Sim.signOut (hS : dev.Sim u dev') : dev.signOut.Sim u dev'.signOut := by
  refine { hS with currentUser := rfl, password := ?_, copy := fun hu => ?_ }
  · exact congrFun (Fields.removeUser_eq hS.password) .password
  · simp [Device.signOut, removeDataChallengesView, loadDataChallengesHostingView] at hu

theorem Sim.mailSent (hS : dev.Sim u dev') (amount amount' : ℚ) :
    (dev.mailComposeController amount .sent).Sim u (dev'.mailComposeController amount' .sent) := by
  refine { hS with queue := ?_, password := ?_, copy := fun hu => ?_ }
  · rw [mailComposeController_sent_queue, mailComposeController_sent_queue, hS.userPath,
      List.filterMap_append, List.filterMap_append, hS.queue]
    rfl
  · simpa [mailComposeController, issue] using hS.password
  · exact (hS.copy hu).map (φ := fun f => f.set .totalMoneyEarnedLocal (.number 0)) (by simp)

theorem seen_scan_eq {scan scan' : Scan} {b : Option Uid × Challenge} (h : scan.seen u = some b)
    (h' : scan'.seen u = some b) : scan'.photo.owner = scan.photo.owner ∧ scan'.challenge = scan.challenge := by
  simp only [Scan.seen, Option.ite_none_left_eq_some, Option.some.injEq] at h h'
  obtain ⟨-, rfl⟩ := h
  exact Prod.mk.inj h'.2

theorem seen_upload_eq {up up' : Upload} {b : Option Uid × Challenge} (h : up.seen u = some b)
    (h' : up'.seen u = some b) : up'.challenge = up.challenge := by
  simp only [Upload.seen, Option.ite_none_left_eq_some, Option.some.injEq] at h h'
  obtain ⟨-, rfl⟩ := h
  exact (Prod.mk.inj h'.2).2

theorem seen_query_eq {q q' : Query} {b : Option Uid × String × Option Bool} (h : q.seen u = some b)
    (h' : q'.seen u = some b) : q'.photo.owner = q.photo.owner ∧ q'.document = q.document := by
  simp only [Query.seen, Option.ite_none_left_eq_some, Option.some.injEq] at h h'
  obtain ⟨-, rfl⟩ := h
  obtain ⟨howner, hrest⟩ := Prod.mk.inj h'.2
  exact ⟨howner, (Prod.mk.inj hrest).1⟩

/-- A photo is as much another account's on both sides. -/
theorem ofOther_congr {p p' : Photo} (h : p'.owner = p.owner) : p'.OfOther u ↔ p.OfOther u := by
  rw [Photo.OfOther, Photo.OfOther, h]

theorem seen_scan_congr {scan scan' : Scan} (howner : scan'.photo.owner = scan.photo.owner)
    (hchallenge : scan'.challenge = scan.challenge) : scan'.seen u = scan.seen u := by
  simp only [Scan.seen, ofOther_congr howner, howner, hchallenge]

/-- The acceptance of the same photo on both phones. -/
theorem Sim.snapAccepted (hS : dev.Sim u dev') {scan scan' : Scan}
    (howner : scan'.photo.owner = scan.photo.owner) (hchallenge : scan'.challenge = scan.challenge) (r : ℚ)
    (imageUUID imageUUID' : String) (pngData : Bool) :
    (dev.snapAccepted scan r imageUUID pngData).Sim u (dev'.snapAccepted scan' r imageUUID' pngData) := by
  rw [snapAccepted_eq, snapAccepted_eq, hS.userPath]
  refine { hS with uploads := ?_, queries := ?_, queue := ?_, password := ?_, copy := fun hu => ?_ }
  · cases pngData with
    | false => simpa using hS.uploads
    | true =>
      refine filterMap_concat hS.uploads ?_
      simp only [Upload.seen, ofOther_congr howner, howner, hchallenge]
  · refine filterMap_concat hS.queries ?_
    simp only [Query.seen, ofOther_congr howner, howner, hchallenge]
  · rw [List.filterMap_append, List.filterMap_append, hS.queue]
    rfl
  · simpa using hS.password
  · exact (hS.copy hu).map (φ := fun f => (f.set .totalSnapsTakenLocal
      (.number (f.integer .totalSnapsTakenLocal + 1 : Int))).set .totalMoneyEarnedLocal
        (.number (f.double .totalMoneyEarnedLocal + r))) (by simp)

theorem Sim.uploadEntries (hS : dev.Sim u dev') {photo photo' : Photo} {path path' : String}
    {lat long date lat' long' date' : ℚ} {ch ch' : Challenge} (hch : ch' = ch) :
    (dev.uploadEntries photo path lat long date ch).Sim u
      (dev'.uploadEntries photo' path' lat' long' date' ch') := by
  subst hch
  unfold Device.uploadEntries
  rw [hS.currentUser]
  cases ch'.id with
  | none => exact hS
  | some c =>
    cases dev.currentUser with
    | none => exact hS
    | some v =>
      refine { hS with queue := filterMap_concat hS.queue ?_ }
      simp only [Write.seen]

/-- The answers to the same query on both phones. If `u` is signed in, both have an entry of `u` or neither. -/
theorem Sim.entriesReply (hS : dev.Sim u dev') {photo photo' : Photo} {docs docs' : List Entry}
    (hdocs : (docs'.any fun e => e.host = some u.val) = docs.any fun e => e.host = some u.val) :
    (dev.entriesReply photo docs).Sim u (dev'.entriesReply photo' docs') := by
  by_cases hu : dev.currentUser = some u
  · have hown : dev'.doesHaveCurrentUserEntrie docs' = dev.doesHaveCurrentUserEntrie docs := by
      rw [doesHaveCurrentUserEntrie_eq hu, doesHaveCurrentUserEntrie_eq (hS.currentUser.trans hu), hdocs]
    cases h : dev.doesHaveCurrentUserEntrie docs with
    | true =>
      rw [entriesReply_pos _ h, entriesReply_pos _ (hown.trans h)]
      exact hS
    | false =>
      rw [entriesReply_neg _ h, entriesReply_neg _ (hown.trans h), hS.userPath]
      refine { hS with queue := ?_, password := ?_, copy := fun hu => ?_ }
      · rw [countLocal, countLocal, Device.issue, Device.issue, List.filterMap_append, List.filterMap_append,
          hS.queue]
        rfl
      · simpa [countLocal, issue] using hS.password
      · exact (hS.copy hu).map (φ := fun f => f.set .challengesCompletedLocal
          (.number (f.integer .challengesCompletedLocal + 1 : Int))) (by simp)
  · have hu' : dev'.currentUser ≠ some u := by rwa [hS.currentUser]
    exact ((sim_entriesReply dev photo docs fun _ => hu).symm.trans hS).trans
      (sim_entriesReply dev' photo' docs' fun _ => hu')

theorem Sim.scanReply {i i' n : ℕ} {reply : PlantReply} {r : ℚ} {imageUUID imageUUID' : String}
    {pngData : Bool} (hS : dev.Sim u dev') (hn : number (Scan.seen u) dev.scans i = some n)
    (hn' : number (Scan.seen u) dev'.scans i' = some n)
    (h : Effect dev (.scanReply i reply r imageUUID pngData) dev₁)
    (h' : Effect dev' (.scanReply i' reply r imageUUID' pngData) dev₁') : dev₁.Sim u dev₁' := by
  -- the two scans are of the same challenge, so they are both accepted or both rejected
  have hscans : ∀ {scan scan' : Scan}, dev.scans[i]? = some scan → dev'.scans[i']? = some scan' →
      scan'.photo.owner = scan.photo.owner ∧ scan'.challenge = scan.challenge ∧
        (dev.endScan i scan reply).Sim u (dev'.endScan i' scan' reply) := by
    intro scan scan' hscan hscan'
    obtain ⟨⟨b, hb, hb'⟩, -⟩ := split_of_number hS.scans hscan hscan' hn hn'
    obtain ⟨howner, hchallenge⟩ := seen_scan_eq hb hb'
    exact ⟨howner, hchallenge,
      { hS with scans := filterMap_eraseIdx_number hS.scans hscan hscan' hn hn' }⟩
  cases h with
  | scanAccepted hscan hreply hlo hhi hcount =>
    cases h' with
    | scanAccepted hscan' hreply' hlo' hhi' hcount' =>
      obtain ⟨howner, hchallenge, hend⟩ := hscans hscan hscan'
      exact hend.snapAccepted howner hchallenge _ _ _ _
    | scanRejected hscan' hreply' =>
      obtain ⟨-, hchallenge, -⟩ := hscans hscan hscan'
      rw [hchallenge] at hreply'
      exact absurd hreply hreply'
  | scanRejected hscan hreply =>
    cases h' with
    | scanAccepted hscan' hreply' hlo' hhi' hcount' =>
      obtain ⟨-, hchallenge, -⟩ := hscans hscan hscan'
      rw [hchallenge] at hreply'
      exact absurd hreply' hreply
    | scanRejected hscan' hreply' => exact (hscans hscan hscan').2.2

theorem Sim.uploadReply {i i' n : ℕ} {failed : Bool} {date date' : ℚ} (hS : dev.Sim u dev')
    (hn : number (Upload.seen u) dev.uploads i = some n)
    (hn' : number (Upload.seen u) dev'.uploads i' = some n)
    (h : Effect dev (.uploadReply i failed date) dev₁)
    (h' : Effect dev' (.uploadReply i' failed date') dev₁') : dev₁.Sim u dev₁' := by
  have hend : ∀ {up up' : Upload}, dev.uploads[i]? = some up → dev'.uploads[i']? = some up' →
      (dev.endUpload i).Sim u (dev'.endUpload i') := fun hup hup' =>
    { hS with uploads := filterMap_eraseIdx_number hS.uploads hup hup' hn hn' }
  cases h with
  | uploadFailed hup =>
    cases h' with
    | uploadFailed hup' => exact hend hup hup'
  | @uploaded _ up _ hup =>
    cases h' with
    | @uploaded _ up' _ hup' =>
      obtain ⟨⟨b, hb, hb'⟩, -⟩ := split_of_number hS.uploads hup hup' hn hn'
      have hstored : ((dev.endUpload i).noteStored up).Sim u ((dev'.endUpload i').noteStored up') :=
        { hend hup hup' with }
      exact hstored.uploadEntries (seen_upload_eq hb hb')

theorem Sim.queryReply {i i' n : ℕ} {failed : Bool} (hS : dev.Sim u dev')
    (hn : number (Query.seen u) dev.queries i = some n)
    (hn' : number (Query.seen u) dev'.queries i' = some n) (h : Effect dev (.queryReply i failed) dev₁)
    (h' : Effect dev' (.queryReply i' failed) dev₁') : dev₁.Sim u dev₁' := by
  have hend : ∀ {q q' : Query}, dev.queries[i]? = some q → dev'.queries[i']? = some q' →
      (dev.endQuery i).Sim u (dev'.endQuery i') := fun hq hq' =>
    { hS with queries := filterMap_eraseIdx_number hS.queries hq hq' hn hn' }
  cases h with
  | queryFailed hq =>
    cases h' with
    | queryFailed hq' => exact hend hq hq'
  | @queryAnswered _ q docs hq hdocs hcount =>
    cases h' with
    | @queryAnswered _ q' docs' hq' hdocs' hcount' =>
      obtain ⟨⟨b, hb, hb'⟩, -⟩ := split_of_number hS.queries hq hq' hn hn'
      refine (hend hq hq').entriesReply ?_
      simp only [Query.seen, Option.ite_none_left_eq_some, Option.some.injEq, hdocs, hdocs',
        Option.map_some] at hb hb'
      obtain ⟨-, rfl⟩ := hb
      obtain ⟨-, hrest⟩ := Prod.mk.inj hb'.2
      exact Option.some.inj (Prod.mk.inj hrest).2

theorem Sim.getUserReply {i i' n : ℕ} {failed : Bool} (hS : dev.Sim u dev')
    (hn : number (GetUser.seen u) dev.getUsers i = some n)
    (hn' : number (GetUser.seen u) dev'.getUsers i' = some n) (h : Effect dev (.getUserReply i failed) dev₁)
    (h' : Effect dev' (.getUserReply i' failed) dev₁') : dev₁.Sim u dev₁' := by
  have hend : ∀ {req req' : GetUser}, dev.getUsers[i]? = some req → dev'.getUsers[i']? = some req' →
      (dev.endGetUser i).Sim u (dev'.endGetUser i') := fun hreq hreq' =>
    { hS with getUsers := filterMap_eraseIdx_number hS.getUsers hreq hreq' hn hn' }
  cases h with
  | getUserFailed hreq =>
    cases h' with
    | getUserFailed hreq' => exact hend hreq hreq'
  | @getUserAnswered _ req snapshot hreq hreply =>
    cases h' with
    | @getUserAnswered _ req' snapshot' hreq' hreply' =>
      obtain ⟨⟨b, hb, hb'⟩, -⟩ := split_of_number hS.getUsers hreq hreq' hn hn'
      obtain rfl : snapshot' = snapshot := by
        simp only [GetUser.seen, Option.ite_none_right_eq_some, Option.some.injEq, hreply, hreply'] at hb hb'
        obtain ⟨-, rfl⟩ := hb
        simpa using hb'.2
      have hE := hend hreq hreq'
      rw [getUserCompletion_eq, getUserCompletion_eq]
      cases dataAsDatabilityUser snapshot' with
      | none => exact hE
      | some p =>
        exact { hE with
          password := by simpa using hE.password
          copy := fun _ => .inl (Fields.setUser_eq hE.password p) }

/-- The same reply to the same request list. -/
theorem eq_of_same_request {α : Type*} {l l' : List α} {i : ℕ} {a b : α} (hl : l' = l)
    (ha : l[i]? = some a) (hb : l'[i]? = some b) : b = a := by
  rw [hl, ha] at hb
  exact (Option.some.inj hb).symm

/-- The answers to the same `signIn` on both phones. -/
theorem Sim.signInReply {i : ℕ} {failed : Bool} (hS : dev.Sim u dev') (hI : dev.CleanInv) (hI' : dev'.CleanInv)
    (hs : dev.OwnReplies (.signInReply i failed)) (h : Effect dev (.signInReply i failed) dev₁)
    (h' : Effect dev' (.signInReply i failed) dev₁') : dev₁.Sim u dev₁' := by
  cases h with
  | signedIn hreq hreply =>
    cases h' with
    | signedIn hreq' hreply' =>
      obtain rfl := eq_of_same_request hS.signIns hreq hreq'
      obtain rfl := Option.some.inj (Option.some.inj (hreply.symm.trans hreply'))
      exact hS.signedIn hI hI' (hs _ hreq rfl _ hreply _ rfl)
    | signInRefused hreq' hreply' =>
      obtain rfl := eq_of_same_request hS.signIns hreq hreq'
      simp [hreply] at hreply'
  | signInRefused hreq hreply =>
    cases h' with
    | signedIn hreq' hreply' =>
      obtain rfl := eq_of_same_request hS.signIns hreq hreq'
      simp [hreply'] at hreply
    | signInRefused hreq' hreply' =>
      exact { hS with
        signIns := congrArg (List.eraseIdx · _) hS.signIns
        createUsers := by
          simp only [signInCompletion, endSignIn]
          rw [hS.createUsers, hS.dataTextEmail, hS.dataTextPassword] }

theorem Sim.createUserReply {i : ℕ} {failed : Bool} (hS : dev.Sim u dev') (hI : dev.CleanInv)
    (hI' : dev'.CleanInv) (hs : dev.OwnReplies (.createUserReply i failed))
    (h : Effect dev (.createUserReply i failed) dev₁) (h' : Effect dev' (.createUserReply i failed) dev₁') :
    dev₁.Sim u dev₁' := by
  cases h with
  | accountCreated hreq hreply =>
    cases h' with
    | accountCreated hreq' hreply' =>
      obtain rfl := eq_of_same_request hS.createUsers hreq hreq'
      obtain rfl := Option.some.inj (Option.some.inj (hreply.symm.trans hreply'))
      exact hS.accountCreated hI hI' (hs _ hreq rfl _ hreply _ rfl)
    | createUserRefused hreq' hreply' =>
      obtain rfl := eq_of_same_request hS.createUsers hreq hreq'
      simp [hreply] at hreply'
  | createUserRefused hreq hreply =>
    cases h' with
    | accountCreated hreq' hreply' =>
      obtain rfl := eq_of_same_request hS.createUsers hreq hreq'
      simp [hreply'] at hreply
    | createUserRefused hreq' hreply' =>
      exact { hS with createUsers := congrArg (List.eraseIdx · _) hS.createUsers }

theorem Sim.mailResult {result : MailResult} (hS : dev.Sim u dev') (h : Effect dev (.mailResult result) dev₁)
    (h' : Effect dev' (.mailResult result) dev₁') : dev₁.Sim u dev₁' := by
  cases h with
  | mailSent hm =>
    cases h' with
    | mailSent hm' => exact hS.mailSent _ _
    | mailNotSent hr => exact absurd rfl hr
  | mailNotSent hr =>
    cases h' with
    | mailSent hm' => exact absurd rfl hr
    | mailNotSent hr' => exact { hS with }

/-- The photos may have different numbers. -/
theorem Sim.capture {serial serial' : ℕ} {challenge : Challenge} {oneCoord currentLoc : Option Location}
    {encoded : Bool} (hS : dev.Sim u dev') (h : Effect dev (.capture serial challenge oneCoord currentLoc encoded) dev₁)
    (h' : Effect dev' (.capture serial' challenge oneCoord currentLoc encoded) dev₁') : dev₁.Sim u dev₁' := by
  cases h with
  | noLocation hv =>
    cases h'
    exact hS
  | captureUnsent hv hsent =>
    cases h' with
    | captureUnsent hv' hsent' => exact { hS with }
    | captureSent hv' hsent' => exact absurd hsent' hsent
  | captureSent hv hsent =>
    cases h' with
    | captureUnsent hv' hsent' => exact absurd hsent hsent'
    | captureSent hv' hsent' =>
      exact { hS with scans := filterMap_concat hS.scans (seen_scan_congr hS.currentUser rfl) }

/-- Events that look the same to `u` keep the phones related. -/
theorem Effect.sim_seen {e e' o : Event} (h : Effect dev e dev₁) (h' : Effect dev' e' dev₁')
    (hseen : dev.seen u e = some o) (hseen' : dev'.seen u e' = some o) (hs : dev.OwnReplies e)
    (hI : dev.CleanInv) (hI' : dev'.CleanInv) (hS : dev.Sim u dev') : dev₁.Sim u dev₁' := by
  have hlike := looksLike_of_seen hseen
  have hlike' := looksLike_of_seen hseen'
  cases o with
  | launch =>
    obtain rfl := hlike
    obtain rfl := hlike'
    cases h
    cases h'
    rw [viewDidLoad_eq, viewDidLoad_eq]
    exact { hS with }
  | kill =>
    obtain rfl := hlike
    obtain rfl := hlike'
    cases h
    cases h'
    exact hS.kill
  | editLogin email password =>
    obtain rfl := hlike
    obtain rfl := hlike'
    cases h
    cases h'
    exact { hS with dataTextEmail := rfl, dataTextPassword := rfl }
  | pressSignIn =>
    obtain rfl := hlike
    obtain rfl := hlike'
    cases h
    cases h'
    exact { hS with signIns := by rw [hS.signIns, hS.dataTextEmail, hS.dataTextPassword] }
  | signInReply i failed =>
    obtain rfl := hlike
    obtain rfl := hlike'
    exact hS.signInReply hI hI' hs h h'
  | createUserReply i failed =>
    obtain rfl := hlike
    obtain rfl := hlike'
    exact hS.createUserReply hI hI' hs h h'
  | getUserReply n failed =>
    obtain ⟨i, rfl, hn⟩ := hlike
    obtain ⟨i', rfl, hn'⟩ := hlike'
    exact hS.getUserReply hn hn' h h'
  | finishOnboarding name phone =>
    obtain ⟨name₁, phone₁, rfl, hnames⟩ := hlike
    obtain ⟨name₂, phone₂, rfl, hnames'⟩ := hlike'
    cases h
    cases h'
    refine hS.finishOnboarding ?_
    rcases hnames with hother | ⟨rfl, rfl⟩
    · exact .inl hother
    · rw [OtherSignedIn, hS.currentUser] at hnames'
      exact hnames'
  | pressSignOut throws =>
    obtain rfl := hlike
    obtain rfl := hlike'
    cases h with
    | signOutThrew hp =>
      cases h'
      exact hS
    | signedOut hp =>
      cases h'
      exact hS.signOut
  | mailResult result =>
    obtain rfl := hlike
    obtain rfl := hlike'
    exact hS.mailResult h h'
  | capture serial challenge oneCoord currentLoc encoded =>
    obtain ⟨serial₁, rfl⟩ := hlike
    obtain ⟨serial₂, rfl⟩ := hlike'
    exact hS.capture h h'
  | scanReply n reply r imageUUID pngData =>
    obtain ⟨i, uuid, rfl, hn⟩ := hlike
    obtain ⟨i', uuid', rfl, hn'⟩ := hlike'
    exact hS.scanReply hn hn' h h'
  | uploadReply n failed date =>
    obtain ⟨i, date₁, rfl, hn⟩ := hlike
    obtain ⟨i', date₂, rfl, hn'⟩ := hlike'
    exact hS.uploadReply hn hn' h h'
  | queryReply n failed =>
    obtain ⟨i, rfl, hn⟩ := hlike
    obtain ⟨i', rfl, hn'⟩ := hlike'
    exact hS.queryReply hn hn' h h'
  | dismissPermissions | pressLetsGo | selectTab | pressWithdrawal =>
    obtain rfl := hlike
    obtain rfl := hlike'
    cases h
    cases h'
    exact { hS with }

end Device

namespace World

variable {u : Uid} {w w' t t' : World Unit}

/-- The worlds differ at most in the data of other accounts than `u`. -/
structure Sim (u : Uid) (w t : World Unit) : Prop where
  server : w.server.Sim u t.server
  phone : (w.devices ()).Sim u (t.devices ())

theorem Sim.symm (h : w.Sim u t) : t.Sim u w := ⟨h.server.symm, h.phone.symm⟩

theorem Sim.trans (h : w.Sim u t) (h' : t.Sim u t') : w.Sim u t' :=
  ⟨h.server.trans h'.server, h.phone.trans h'.phone⟩

theorem cleanInv_step {l : Label Unit} (hs : w.OwnReplies l) (hI : (w.devices ()).CleanInv)
    (h : w.step l = some w') : (w'.devices ()).CleanInv := by
  cases step_effect h with
  | @app d e dev' hf heff => simpa using heff.cleanInv hs hI
  | serveSignIn | refuseCreateUser | serveCreateUser | serveGetUser | serveQuery | applied
  | rejected =>
    simp only [commit, setDevice_self]
    exact hI.of_same ⟨rfl, rfl, rfl, rfl, rfl, rfl⟩ rfl

/-- A step of which `u` sees nothing changes nothing that concerns `u`. -/
theorem sim_hidden {l : Label Unit} (hseen : w.seen u l = none) (hs : w.OwnReplies l)
    (h : w.step l = some w') : w.Sim u w' := by
  cases step_effect h with
  | @app d e dev' hf heff =>
    rw [World.seen, Option.map_eq_none_iff] at hseen
    refine ⟨by simpa using Server.Sim.refl u w.server, ?_⟩
    rw [setDevice_self]
    exact heff.sim_hidden hseen hs
  | @serveGetUser d i req hreq hnone =>
    rw [World.seen, Option.map_eq_none_iff, number_eq_none hreq] at hseen
    refine ⟨.refl u w.server, ?_⟩
    rw [setDevice_self]
    have hne : req.uid ≠ u := Device.getUser_hidden_iff.1 hseen
    refine { Device.Sim.refl u (w.devices d) with getUsers := filterMap_set_hidden hreq hseen ?_ }
    exact Device.getUser_hidden_iff.2 hne
  | @serveQuery d i q hq hnone =>
    rw [World.seen, Option.map_eq_none_iff, number_eq_none hq] at hseen
    refine ⟨.refl u w.server, ?_⟩
    rw [setDevice_self]
    have hother : q.photo.OfOther u := Device.query_hidden_iff.1 hseen
    refine { Device.Sim.refl u (w.devices d) with queries := filterMap_set_hidden hq hseen ?_ }
    exact Device.query_hidden_iff.2 hother
  | @applied d x rest hq =>
    rw [World.seen, Option.map_eq_none_iff, hq] at hseen
    have hqueue : (x :: rest).filterMap (fun x => x.write.seen u) = rest.filterMap fun x => x.write.seen u :=
      List.filterMap_cons_none hseen
    refine ⟨((Server.Sim.refl u w.server).apply_hidden hseen).symm, ?_⟩
    simp only [commit, setDevice_self]
    exact { Device.Sim.refl u (w.devices d) with queue := by rw [hq, hqueue]; rfl }
  | @rejected d x rest hq =>
    rw [World.seen, Option.map_eq_none_iff, hq] at hseen
    have hqueue : (x :: rest).filterMap (fun x => x.write.seen u) = rest.filterMap fun x => x.write.seen u :=
      List.filterMap_cons_none hseen
    refine ⟨.refl u w.server, ?_⟩
    rw [setDevice_self]
    exact { Device.Sim.refl u (w.devices d) with queue := by rw [hq, hqueue]; rfl }
  | serveSignIn | refuseCreateUser | serveCreateUser => cases hseen

/-- The labels that look like `o` to `u`. -/
def LooksLike (u : Uid) (w : World Unit) (l : Label Unit) : Label Unit → Prop
  | .app d o => ∃ e, l = .app d e ∧ (w.devices d).seen u e = some o
  | .serveGetUser d n =>
    ∃ i, l = .serveGetUser d i ∧ number (GetUser.seen u) (w.devices d).getUsers i = some n
  | .serveQuery d n => ∃ i, l = .serveQuery d i ∧ number (Query.seen u) (w.devices d).queries i = some n
  | .apply d accepted => l = .apply d accepted ∧ ∃ x ∈ (w.devices d).queue.head?, x.write.seen u ≠ none
  | o => l = o

theorem looksLike_of_seen {l o : Label Unit} (h : w.seen u l = some o) : w.LooksLike u l o := by
  cases l with
  | app d e =>
    obtain ⟨o, ho, rfl⟩ := Option.map_eq_some_iff.1 h
    exact ⟨e, rfl, ho⟩
  | serveGetUser d i =>
    obtain ⟨n, hn, rfl⟩ := Option.map_eq_some_iff.1 h
    exact ⟨i, rfl, hn⟩
  | serveQuery d i =>
    obtain ⟨n, hn, rfl⟩ := Option.map_eq_some_iff.1 h
    exact ⟨i, rfl, hn⟩
  | apply d accepted =>
    obtain ⟨c, hc, rfl⟩ := Option.map_eq_some_iff.1 h
    obtain ⟨x, hx, hxc⟩ := Option.bind_eq_some_iff.1 hc
    exact ⟨rfl, x, hx, by simp [hxc]⟩
  | serveSignIn | serveCreateUser =>
    obtain rfl := Option.some.inj h
    rfl

/-! The answers of the backend to requests that look the same. -/

theorem Sim.serveSignIn {d : Unit} {i : ℕ} (hS : w.Sim u t) (h : w.step (.serveSignIn d i) = some w')
    (h' : t.step (.serveSignIn d i) = some t') : w'.Sim u t' := by
  obtain ⟨hserver, hphone⟩ := hS
  cases step_effect h with
  | serveSignIn hreq hnone =>
    cases step_effect h' with
    | serveSignIn hreq' hnone' =>
      obtain rfl := Device.eq_of_same_request hphone.signIns hreq hreq'
      refine ⟨hserver, ?_⟩
      rw [setDevice_self, setDevice_self]
      refine { hphone with signIns := ?_ }
      simp only [Device.answerSignIn, Server.signIn, hphone.signIns, hserver.accounts]

theorem Sim.serveCreateUser {d : Unit} {i : ℕ} {uid : Uid} (hS : w.Sim u t)
    (h : w.step (.serveCreateUser d i uid) = some w') (h' : t.step (.serveCreateUser d i uid) = some t') :
    w'.Sim u t' := by
  obtain ⟨hserver, hphone⟩ := hS
  cases step_effect h with
  | refuseCreateUser hreq hnone huse =>
    cases step_effect h' with
    | refuseCreateUser hreq' hnone' huse' =>
      obtain rfl := Device.eq_of_same_request hphone.createUsers hreq hreq'
      refine ⟨hserver, ?_⟩
      rw [setDevice_self, setDevice_self]
      refine { hphone with createUsers := ?_ }
      simp only [Device.answerCreateUser, hphone.createUsers]
    | serveCreateUser hreq' hnone' hnew' hfree' =>
      obtain rfl := Device.eq_of_same_request hphone.createUsers hreq hreq'
      simp only [Server.emailInUse, hserver.accounts] at huse hfree'
      rw [huse] at hfree'
      exact absurd hfree' (by simp)
  | serveCreateUser hreq hnone hnew hfree =>
    cases step_effect h' with
    | refuseCreateUser hreq' hnone' huse' =>
      obtain rfl := Device.eq_of_same_request hphone.createUsers hreq hreq'
      simp only [Server.emailInUse, hserver.accounts] at huse' hfree
      rw [huse'] at hfree
      exact absurd hfree (by simp)
    | serveCreateUser hreq' hnone' hnew' hfree' =>
      obtain rfl := Device.eq_of_same_request hphone.createUsers hreq hreq'
      refine ⟨⟨?_, hserver.entries, hserver.document⟩, ?_⟩
      · simp only [openAccount, setDevice_server, hserver.accounts]
      · rw [setDevice_self, setDevice_self]
        refine { hphone with createUsers := ?_ }
        simp only [Device.answerCreateUser, hphone.createUsers]

theorem Sim.serveGetUser {d : Unit} {i i' n : ℕ} (hS : w.Sim u t)
    (hn : number (GetUser.seen u) (w.devices d).getUsers i = some n)
    (hn' : number (GetUser.seen u) (t.devices d).getUsers i' = some n)
    (h : w.step (.serveGetUser d i) = some w') (h' : t.step (.serveGetUser d i') = some t') :
    w'.Sim u t' := by
  obtain ⟨hserver, hphone⟩ := hS
  have hdoc : (t.localView d).users u.val = (w.localView d).users u.val := (hphone.view hserver).document
  cases step_effect h with
  | serveGetUser hreq hnone =>
    cases step_effect h' with
    | serveGetUser hreq' hnone' =>
      obtain ⟨⟨b, hb, hb'⟩, -⟩ := split_of_number hphone.getUsers hreq hreq' hn hn'
      simp only [GetUser.seen, Option.ite_none_right_eq_some] at hb hb'
      refine ⟨hserver, ?_⟩
      rw [setDevice_self, setDevice_self]
      refine { hphone with getUsers := filterMap_set_number hphone.getUsers hreq hreq' hn hn' ?_ }
      simp only [GetUser.seen, hb.1, hb'.1, hdoc]

/-- Whether a challenge has an entry of `u` looks the same on both sides. -/
theorem Sim.any_entriesOf {d : Unit} (hS : w.Sim u t) (c : String) :
    ((t.localView d).entriesOf c).any (fun e => e.host = some u.val) =
      ((w.localView d).entriesOf c).any fun e => e.host = some u.val := by
  rw [Bool.eq_iff_iff, Server.any_entriesOf, Server.any_entriesOf]
  exact (hS.phone.view hS.server).entries c

theorem Sim.serveQuery {d : Unit} {i i' n : ℕ} (hS : w.Sim u t)
    (hn : number (Query.seen u) (w.devices d).queries i = some n)
    (hn' : number (Query.seen u) (t.devices d).queries i' = some n)
    (h : w.step (.serveQuery d i) = some w') (h' : t.step (.serveQuery d i') = some t') : w'.Sim u t' := by
  have hphone := hS.phone
  cases step_effect h with
  | serveQuery hq hnone =>
    cases step_effect h' with
    | serveQuery hq' hnone' =>
      obtain ⟨⟨b, hb, hb'⟩, -⟩ := split_of_number hphone.queries hq hq' hn hn'
      obtain ⟨howner, hdocument⟩ := Device.seen_query_eq hb hb'
      refine ⟨hS.server, ?_⟩
      rw [setDevice_self, setDevice_self]
      refine { hphone with queries := filterMap_set_number hphone.queries hq hq' hn hn' ?_ }
      simp only [Query.seen, Device.ofOther_congr howner, howner, hdocument, Option.map_some,
        hS.any_entriesOf]

/-- The oldest writes look the same, and so do the others. -/
theorem Sim.queue_cons {d : Unit} {x x' : Issued} {rest rest' : List Issued} (hS : w.Sim u t)
    (hq : (w.devices d).queue = x :: rest) (hq' : (t.devices d).queue = x' :: rest')
    (hx : x.write.seen u ≠ none) (hx' : x'.write.seen u ≠ none) :
    (∃ c, x.write.seen u = some c ∧ x'.write.seen u = some c) ∧
      rest'.filterMap (fun x => x.write.seen u) = rest.filterMap fun x => x.write.seen u := by
  obtain ⟨c, hc⟩ := Option.ne_none_iff_exists'.1 hx
  obtain ⟨c', hc'⟩ := Option.ne_none_iff_exists'.1 hx'
  have hqueue : (t.devices d).queue.filterMap (fun x => x.write.seen u) =
      (w.devices d).queue.filterMap fun x => x.write.seen u := hS.phone.queue
  simp only [hq, hq', List.filterMap_cons, hc, hc'] at hqueue
  obtain ⟨rfl, hrest⟩ := List.cons.inj hqueue
  exact ⟨⟨c', hc, hc'⟩, hrest⟩

theorem Sim.apply {d : Unit} {accepted : Bool} (hS : w.Sim u t)
    (hx : ∃ x ∈ (w.devices d).queue.head?, x.write.seen u ≠ none)
    (hx' : ∃ x ∈ (t.devices d).queue.head?, x.write.seen u ≠ none)
    (h : w.step (.apply d accepted) = some w') (h' : t.step (.apply d accepted) = some t') :
    w'.Sim u t' := by
  obtain ⟨y, hy, hx⟩ := hx
  obtain ⟨y', hy', hx'⟩ := hx'
  cases step_effect h with
  | applied hq =>
    cases step_effect h' with
    | applied hq' =>
      rw [hq] at hy
      rw [hq'] at hy'
      obtain rfl := Option.some.inj hy
      obtain rfl := Option.some.inj hy'
      obtain ⟨⟨c, hc, hc'⟩, hrest⟩ := hS.queue_cons hq hq' hx hx'
      refine ⟨hS.server.apply hc hc', ?_⟩
      simp only [commit, setDevice_self]
      exact { hS.phone with queue := hrest }
  | rejected hq =>
    cases step_effect h' with
    | rejected hq' =>
      rw [hq] at hy
      rw [hq'] at hy'
      obtain rfl := Option.some.inj hy
      obtain rfl := Option.some.inj hy'
      obtain ⟨-, hrest⟩ := hS.queue_cons hq hq' hx hx'
      refine ⟨hS.server, ?_⟩
      rw [setDevice_self, setDevice_self]
      exact { hS.phone with queue := hrest }

/-- Steps that look the same to `u` keep the worlds related. -/
theorem sim_seen {l m o : Label Unit} (hseen : w.seen u l = some o) (hseen' : t.seen u m = some o)
    (hs : w.OwnReplies l) (hI : (w.devices ()).CleanInv) (hI' : (t.devices ()).CleanInv) (hS : w.Sim u t)
    (h : w.step l = some w') (h' : t.step m = some t') : w'.Sim u t' := by
  have hlike := looksLike_of_seen hseen
  have hlike' := looksLike_of_seen hseen'
  cases o with
  | app d o =>
    obtain ⟨e, rfl, ho⟩ := hlike
    obtain ⟨e', rfl, ho'⟩ := hlike'
    cases step_effect h with
    | app hf heff =>
      cases step_effect h' with
      | app hf' heff' =>
        refine ⟨by simpa using hS.server, ?_⟩
        rw [setDevice_self, setDevice_self]
        exact heff.sim_seen heff' ho ho' hs hI hI' hS.phone
  | serveSignIn d i =>
    obtain rfl := hlike
    obtain rfl := hlike'
    exact hS.serveSignIn h h'
  | serveCreateUser d i uid =>
    obtain rfl := hlike
    obtain rfl := hlike'
    exact hS.serveCreateUser h h'
  | serveGetUser d n =>
    obtain ⟨i, rfl, hn⟩ := hlike
    obtain ⟨i', rfl, hn'⟩ := hlike'
    exact hS.serveGetUser hn hn' h h'
  | serveQuery d n =>
    obtain ⟨i, rfl, hn⟩ := hlike
    obtain ⟨i', rfl, hn'⟩ := hlike'
    exact hS.serveQuery hn hn' h h'
  | apply d accepted =>
    obtain ⟨rfl, hx⟩ := hlike
    obtain ⟨rfl, hx'⟩ := hlike'
    exact hS.apply hx hx' h h'

/-- **The local profile is private.** In two runs of one phone that look the same to `u`, whatever the other
accounts do in either of them, and in which every reply finds no other account signed in than its own, the
local copy is the same whenever `u` is signed in. -/
theorem profile_private {w₀ t₀ : World Unit} {ls ms : List (Label Unit)} (h₀ : PrivateStart u w₀ t₀)
    (hsame : SameForUser u w₀ t₀ ls ms) (hls : AllSteps World.step OwnReplies w₀ ls)
    (hms : AllSteps World.step OwnReplies t₀ ms) (hw : run World.step w₀ ls = some w)
    (ht : run World.step t₀ ms = some t) : NoLeak u w t := by
  have hI₀ : (w₀.devices ()).CleanInv :=
    { toViewInv := h₀.phone.viewInv
      sheet := fun hc => by simp [h₀.phone.continueOnboarding] at hc
      name := fun _ => by rw [h₀.defaults]; rfl }
  have hS₀ : w₀.Sim u t₀ := by
    refine ⟨⟨h₀.accounts, h₀.entries, h₀.document⟩, ?_⟩
    rw [h₀.samePhone]
    exact .refl u _
  have hend := unwinding (P := OwnReplies) (S := fun w t : World Unit => (w.devices ()).CleanInv ∧
      (t.devices ()).CleanInv ∧ w.Sim u t)
    (fun w t ⟨hI, hI', hS⟩ => ⟨hI', hI, hS.symm⟩)
    (fun w t l w' hs hseen ⟨hI, hI', hS⟩ h =>
      ⟨cleanInv_step hs hI h, hI', (sim_hidden hseen hs h).symm.trans hS⟩)
    (fun w t l m w' t' o hl hm hseen hseen' ⟨hI, hI', hS⟩ h h' =>
      ⟨cleanInv_step hl hI h, cleanInv_step hm hI' h', sim_seen hseen hseen' hl hI hI' hS h h'⟩)
    hls hms hsame ⟨hI₀, by rw [h₀.samePhone]; exact hI₀, hS₀⟩ hw ht
  obtain ⟨-, -, hS⟩ := hend
  intro hu
  exact ⟨hS.phone.currentUser.trans hu, (hS.phone.copy hu).fetchProfileData⟩

/-- The second account signs in, does `other` and signs out; then the first one signs in and takes its own
snap of a challenge. -/
def oneAfterTheOther (other : List (Label Unit)) (serial : ℕ) (imageUUID : String) : List (Label Unit) :=
  Sample.launchAndPress "bob@mail.org" "hidden" ++ [.serveGetUser () 0,
    .app () (.getUserReply 0 false), .app () .dismissPermissions] ++ other ++ Sample.signOut ++
    [.app () .kill] ++ Sample.launchAndPress "ada@mail.org" "secret" ++ [.serveGetUser () 0,
    .app () (.getUserReply 0 false), .app () .dismissPermissions,
    .app () (Sample.capture serial Sample.roses), .app () (Sample.accept (1 / 2) imageUUID)] ++ Sample.ask

/-- A snap of the second account is accepted, counted and stored. -/
def otherSnaps : List (Label Unit) :=
  [.app () (Sample.capture 0 Sample.roses), .app () (Sample.accept (3 / 5) "a")] ++ Sample.ask ++
    Sample.store 4

/-- The second account withdraws its money. -/
def otherWithdraws : List (Label Unit) :=
  [.app () (.selectTab .profile), .app () .pressWithdrawal, .app () (.mailResult .sent),
    .app () (.selectTab .home)]

theorem privateStart_twoAccounts (name name' : String) :
    PrivateStart Sample.user (Sample.twoAccounts name) (Sample.twoAccounts name') where
  phone := Device.fresh_default
  defaults := rfl
  samePhone := rfl
  accounts := rfl
  entries := fun _ => Iff.rfl
  document := rfl

theorem profile_private_oneAfterTheOther :
    ∃ w t, run World.step (Sample.twoAccounts "Bob") (oneAfterTheOther otherSnaps 1 "b") = some w ∧
      run World.step (Sample.twoAccounts "Eve") (oneAfterTheOther otherWithdraws 0 "a") = some t ∧
      w.server.HasEntry Sample.other "roses" ∧ (w.devices ()).currentUser = some Sample.user ∧
      (w.devices ()).defaults .challengesCompletedLocal = some (.number 1) ∧ NoLeak Sample.user w t := by
  have h : (run World.step (Sample.twoAccounts "Bob") (oneAfterTheOther otherSnaps 1 "b")).any (fun w =>
      decide (w.server.HasEntry Sample.other "roses" ∧ (w.devices ()).currentUser = some Sample.user ∧
        (w.devices ()).defaults .challengesCompletedLocal = some (.number 1))) = true := by
    decide +kernel
  obtain ⟨w, hw, hp⟩ := (Option.any_eq_true _ _).1 h
  obtain ⟨hentry, hu, hcount⟩ := of_decide_eq_true hp
  have h' : (run World.step (Sample.twoAccounts "Eve") (oneAfterTheOther otherWithdraws 0 "a")).isSome =
      true := by
    decide +kernel
  obtain ⟨t, ht⟩ := Option.isSome_iff_exists.1 h'
  refine ⟨w, t, hw, ht, hentry, hu, hcount, ?_⟩
  exact profile_private (privateStart_twoAccounts "Bob" "Eve") (by decide +kernel) (by decide +kernel)
    (by decide +kernel) hw ht

/-- The snapshot of the second account is delivered after its sign-out; then the first one signs in. -/
def lateRefresh : List (Label Unit) :=
  Sample.launchAndPress "bob@mail.org" "hidden" ++ [.serveGetUser () 0, .app () .dismissPermissions] ++
    Sample.signOut ++ [.app () (.getUserReply 0 false), .app () .kill] ++
    Sample.launchAndPress "ada@mail.org" "secret"

theorem lateRefresh_leaks :
    PrivateStart Sample.user (Sample.twoAccounts "Bob") (Sample.twoAccounts "Eve") ∧
      SameForUser Sample.user (Sample.twoAccounts "Bob") (Sample.twoAccounts "Eve") lateRefresh lateRefresh ∧
      ∃ w t, run World.step (Sample.twoAccounts "Bob") lateRefresh = some w ∧
        run World.step (Sample.twoAccounts "Eve") lateRefresh = some t ∧
        (w.devices ()).currentUser = some Sample.user ∧
        fetchProfileData (w.devices ()).defaults = some (newUser "Bob" "bob@mail.org" "556") ∧
        ¬ NoLeak Sample.user w t := by
  refine ⟨privateStart_twoAccounts _ _, by decide +kernel, ?_⟩
  have h : ∀ name ∈ ["Bob", "Eve"], (run World.step (Sample.twoAccounts name) lateRefresh).any
      (fun w => decide ((w.devices ()).currentUser = some Sample.user ∧
        fetchProfileData (w.devices ()).defaults = some (newUser name "bob@mail.org" "556"))) = true := by
    decide +kernel
  obtain ⟨w, hw, hp⟩ := (Option.any_eq_true _ _).1 (h "Bob" (by simp))
  obtain ⟨t, ht, hp'⟩ := (Option.any_eq_true _ _).1 (h "Eve" (by simp))
  obtain ⟨hu, hbob⟩ := of_decide_eq_true hp
  obtain ⟨-, heve⟩ := of_decide_eq_true hp'
  refine ⟨w, t, hw, ht, hu, hbob, fun hsame => ?_⟩
  have heq := heve.symm.trans ((hsame hu).2.trans hbob)
  simp [newUser] at heq

end World

end Datability
