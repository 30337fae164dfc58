import Datability.Device

/-!
# Proofs: the completions on a phone

What the completions leave behind. Each is stated once as an update of the record, in one piece, and
the accepted snap also field by field, as the simp set of the proofs about runs.
-/

namespace Datability

namespace Device

variable {dev dev' : Device} {s : Server}

/-! ## The accepted snap -/

section SnapAccepted

variable (dev : Device) (scan : Scan) (r : ℚ) (imageUUID : String) (pngData : Bool)

/-- The accepted snap in one piece. -/
theorem snapAccepted_eq : dev.snapAccepted scan r imageUUID pngData =
    { dev with
      uploads := dev.uploads ++ if pngData then [⟨scan.photo, imageUUID ++ ".png",
        scan.oneCoord.latitude, scan.oneCoord.longitude, scan.challenge⟩] else []
      defaults := (dev.defaults.set .totalSnapsTakenLocal
        (.number (dev.defaults.integer .totalSnapsTakenLocal + 1 : Int))).set .totalMoneyEarnedLocal
          (.number (dev.defaults.double .totalMoneyEarnedLocal + r))
      queue := dev.queue ++ [⟨.increment dev.userPath .totalSnapsTakenLocal 1, .photo scan.photo⟩,
        ⟨.increment dev.userPath .totalMoneyEarnedLocal r, .photo scan.photo⟩]
      issued := dev.issued ++ [⟨.increment dev.userPath .totalSnapsTakenLocal 1, .photo scan.photo⟩,
        ⟨.increment dev.userPath .totalMoneyEarnedLocal r, .photo scan.photo⟩]
      queries := dev.queries ++ [⟨scan.photo, scan.challenge.document, none⟩]
      credits := dev.credits ++ [r] } := by
  cases pngData <;> simp [snapAccepted, uploadPhoto, countLocal, issue, userPath, Fields.set,
    Fields.double]

@[simp] theorem snapAccepted_queue : (dev.snapAccepted scan r imageUUID pngData).queue =
    dev.queue ++ [⟨.increment dev.userPath .totalSnapsTakenLocal 1, .photo scan.photo⟩,
      ⟨.increment dev.userPath .totalMoneyEarnedLocal r, .photo scan.photo⟩] := by
  rw [snapAccepted_eq]

@[simp] theorem snapAccepted_issued : (dev.snapAccepted scan r imageUUID pngData).issued =
    dev.issued ++ [⟨.increment dev.userPath .totalSnapsTakenLocal 1, .photo scan.photo⟩,
      ⟨.increment dev.userPath .totalMoneyEarnedLocal r, .photo scan.photo⟩] := by
  rw [snapAccepted_eq]

@[simp] theorem snapAccepted_uploads : (dev.snapAccepted scan r imageUUID pngData).uploads =
    dev.uploads ++ if pngData then [⟨scan.photo, imageUUID ++ ".png", scan.oneCoord.latitude,
      scan.oneCoord.longitude, scan.challenge⟩] else [] := by
  rw [snapAccepted_eq]

@[simp] theorem snapAccepted_queries : (dev.snapAccepted scan r imageUUID pngData).queries =
    dev.queries ++ [⟨scan.photo, scan.challenge.document, none⟩] := by
  rw [snapAccepted_eq]

@[simp] theorem snapAccepted_scans :
    (dev.snapAccepted scan r imageUUID pngData).scans = dev.scans := by
  rw [snapAccepted_eq]

@[simp] theorem snapAccepted_currentUser :
    (dev.snapAccepted scan r imageUUID pngData).currentUser = dev.currentUser := by
  rw [snapAccepted_eq]

@[simp] theorem snapAccepted_mails :
    (dev.snapAccepted scan r imageUUID pngData).mails = dev.mails := by
  rw [snapAccepted_eq]

@[simp] theorem snapAccepted_credits :
    (dev.snapAccepted scan r imageUUID pngData).credits = dev.credits ++ [r] := by
  rw [snapAccepted_eq]

@[simp] theorem snapAccepted_getUsers :
    (dev.snapAccepted scan r imageUUID pngData).getUsers = dev.getUsers := by
  rw [snapAccepted_eq]

@[simp] theorem snapAccepted_continueOnboarding :
    (dev.snapAccepted scan r imageUUID pngData).continueOnboarding = dev.continueOnboarding := by
  rw [snapAccepted_eq]

@[simp] theorem snapAccepted_snaps :
    (dev.snapAccepted scan r imageUUID pngData).defaults .totalSnapsTakenLocal =
      some (.number (dev.defaults.integer .totalSnapsTakenLocal + 1 : Int)) := by
  rw [snapAccepted_eq]
  simp [Fields.set]

@[simp] theorem snapAccepted_money :
    (dev.snapAccepted scan r imageUUID pngData).defaults .totalMoneyEarnedLocal =
      some (.number (dev.defaults.double .totalMoneyEarnedLocal + r)) := by
  rw [snapAccepted_eq]
  simp [Fields.set]

@[simp] theorem snapAccepted_challenges :
    (dev.snapAccepted scan r imageUUID pngData).defaults .challengesCompletedLocal =
      dev.defaults .challengesCompletedLocal := by
  rw [snapAccepted_eq]
  simp [Fields.set]

end SnapAccepted

/-! ## The other completions -/

/-- The start of the process in one piece: one view is loaded, depending on the session. -/
theorem viewDidLoad_eq (dev : Device) : dev.viewDidLoad =
    { dev with
      loginView := dev.loginView || dev.currentUser.isNone
      challengesView := dev.challengesView || dev.currentUser.isSome } := by
  unfold viewDidLoad
  cases hu : dev.currentUser <;> simp [loadDataHostingView, loadDataChallengesHostingView, hu]

/-- The reply of `getUser` in one piece: it changes `UserDefaults` if the snapshot decodes. -/
theorem getUserCompletion_eq (dev : Device) (snapshot : Option Fields) :
    dev.getUserCompletion snapshot =
      { dev with defaults := (dataAsDatabilityUser snapshot).elim dev.defaults dev.defaults.setUser } := by
  unfold getUserCompletion
  cases dataAsDatabilityUser snapshot <;> rfl

@[simp] theorem mailComposeController_sent_queue (dev : Device) (amount : ℚ) :
    (dev.mailComposeController amount .sent).queue = dev.queue ++
      [⟨.updateData dev.userPath .totalMoneyEarnedLocal (.number 0), .mail amount⟩] := rfl

@[simp] theorem mailComposeController_sent_mails (dev : Device) (amount : ℚ) :
    (dev.mailComposeController amount .sent).mails = dev.mails ++ [amount] := rfl

/-- The end of the onboarding in one piece: the profile is set, the document is written if somebody is
signed in, and the challenges are shown. -/
theorem finishOnboarding_eq (dev : Device) (name phone : String) : dev.finishOnboarding name phone =
    { dev with
      defaults := dev.defaults.setUser (newUser name dev.dataTextEmail phone)
      queue := dev.queue ++ dev.currentUser.toList.map fun u => ⟨.setData u.val
        (userDocument name dev.dataTextEmail phone dev.dataTextPassword), .onboarding⟩
      issued := dev.issued ++ dev.currentUser.toList.map fun u => ⟨.setData u.val
        (userDocument name dev.dataTextEmail phone dev.dataTextPassword), .onboarding⟩
      continueOnboarding := false
      personalInfoSheet := false
      loginView := false
      challengesView := true } := by
  cases hu : dev.currentUser <;> simp [finishOnboarding, uploadUser, issue, hu, removeDataHostingView,
    loadDataChallengesHostingView]

/-- With a signed-in user and a challenge that has an id, the entry is written. -/
theorem uploadEntries_some (dev : Device) {u : Uid} (hu : dev.currentUser = some u) (photo : Photo)
    (path : String) (lat long date : ℚ) {ch : Challenge} {c : String} (hc : ch.id = some c) :
    dev.uploadEntries photo path lat long date ch = dev.issue (.photo photo)
      (.addDocument c ⟨some u.val, some path, some lat, some long, some date⟩) := by
  simp [uploadEntries, hc, hu]

/-- The entry is written or nothing happens. -/
theorem uploadEntries_cases (dev : Device) (photo : Photo) (path : String) (lat long date : ℚ)
    (ch : Challenge) : dev.uploadEntries photo path lat long date ch = dev ∨
      ∃ u c, dev.currentUser = some u ∧ ch.id = some c ∧
        dev.uploadEntries photo path lat long date ch = dev.issue (.photo photo)
          (.addDocument c ⟨some u.val, some path, some lat, some long, some date⟩) := by
  unfold uploadEntries
  cases hc : ch.id with
  | none => exact .inl rfl
  | some c =>
    cases hu : dev.currentUser with
    | none => exact .inl rfl
    | some u => exact .inr ⟨u, c, rfl, rfl, rfl⟩

section UploadEntries

variable (dev : Device) (photo : Photo) (path : String) (lat long date : ℚ) (ch : Challenge)

@[simp] theorem uploadEntries_uploads :
    (dev.uploadEntries photo path lat long date ch).uploads = dev.uploads := by
  rcases uploadEntries_cases dev photo path lat long date ch with heq | ⟨u, c, -, -, heq⟩
  · rw [heq]
  · rw [heq]
    rfl

@[simp] theorem uploadEntries_queries :
    (dev.uploadEntries photo path lat long date ch).queries = dev.queries := by
  rcases uploadEntries_cases dev photo path lat long date ch with heq | ⟨u, c, -, -, heq⟩
  · rw [heq]
  · rw [heq]
    rfl

@[simp] theorem uploadEntries_scans :
    (dev.uploadEntries photo path lat long date ch).scans = dev.scans := by
  rcases uploadEntries_cases dev photo path lat long date ch with heq | ⟨u, c, -, -, heq⟩
  · rw [heq]
  · rw [heq]
    rfl

end UploadEntries

theorem uploadEntries_none (dev : Device) (photo : Photo) (path : String) (lat long date : ℚ)
    {ch : Challenge} (hc : ch.id = none) :
    dev.uploadEntries photo path lat long date ch = dev := by
  simp [uploadEntries, hc]

theorem entriesReply_pos {dev : Device} {docs : List Entry} (photo : Photo)
    (h : dev.doesHaveCurrentUserEntrie docs = true) : dev.entriesReply photo docs = dev := by
  simp [entriesReply, h]

theorem entriesReply_neg {dev : Device} {docs : List Entry} (photo : Photo)
    (h : dev.doesHaveCurrentUserEntrie docs = false) : dev.entriesReply photo docs =
      (dev.issue (.photo photo) (.increment dev.userPath .challengesCompletedLocal 1)).countLocal
        .challengesCompletedLocal := by
  simp [entriesReply, h]

/-- Either way, the reply to the query writes nothing but participations of the signed-in user. -/
theorem entriesReply_queue (dev : Device) (photo : Photo) (docs : List Entry) :
    ∃ new, (dev.entriesReply photo docs).queue = dev.queue ++ new ∧
      ∀ x ∈ new, x = ⟨.increment dev.userPath .challengesCompletedLocal 1, .photo photo⟩ := by
  cases h : dev.doesHaveCurrentUserEntrie docs with
  | true =>
    rw [entriesReply_pos _ h]
    exact ⟨[], (List.append_nil _).symm, by simp⟩
  | false =>
    rw [entriesReply_neg _ h]
    exact ⟨[_], rfl, fun x hx => List.mem_singleton.1 hx⟩

@[simp] theorem entriesReply_uploads (dev : Device) (photo : Photo) (docs : List Entry) :
    (dev.entriesReply photo docs).uploads = dev.uploads := by
  unfold entriesReply
  split <;> rfl

@[simp] theorem entriesReply_scans (dev : Device) (photo : Photo) (docs : List Entry) :
    (dev.entriesReply photo docs).scans = dev.scans := by
  unfold entriesReply
  split <;> rfl

@[simp] theorem entriesReply_currentUser (dev : Device) (photo : Photo) (docs : List Entry) :
    (dev.entriesReply photo docs).currentUser = dev.currentUser := by
  unfold entriesReply
  split <;> rfl

@[simp] theorem entriesReply_getUsers (dev : Device) (photo : Photo) (docs : List Entry) :
    (dev.entriesReply photo docs).getUsers = dev.getUsers := by
  unfold entriesReply
  split <;> rfl

@[simp] theorem entriesReply_queries (dev : Device) (photo : Photo) (docs : List Entry) :
    (dev.entriesReply photo docs).queries = dev.queries := by
  unfold entriesReply
  split <;> rfl

/-! ## The phone's view of the server -/

/-- The documents as the phone sees them over the state `s` of the server. -/
def view (dev : Device) (s : Server) : Server := (dev.queue.map Issued.write).foldl Server.apply s

theorem view_of_eq (h : dev'.queue = dev.queue) : dev'.view s = dev.view s := by
  rw [view, h, view]

/-- The writes that were queued last are made last. -/
theorem view_append (dev : Device) {new : List Issued} (h : dev'.queue = dev.queue ++ new) :
    dev'.view s = (new.map Issued.write).foldl Server.apply (dev.view s) := by
  simp [view, h]

/-- Taking the oldest write from the queue changes nothing that the phone sees. -/
theorem view_setQueue {x : Issued} {rest : List Issued} (hq : dev.queue = x :: rest) :
    (dev.setQueue rest).view (s.apply x.write) = dev.view s := by
  simp [view, setQueue, hq]

theorem userPath_eq {u : Uid} (h : dev.currentUser = some u) : dev.userPath = u.val := by
  simp [userPath, h]

end Device

end Datability
