import Datability.Session
import Datability.Proofs.StepProofs
import Datability.Proofs.DeviceProofs
import Datability.Proofs.FirestoreProofs
import Datability.Proofs.TransitionProofs

/-!
# Proofs: the account behind a write

Each of the three stages behind a photo reads the session when its reply arrives, not when the photo
was captured. A write is attributed exactly when the two agree, so the condition on the replies is
exact, step by step and hence for whole runs.
-/

namespace Datability

open Transition

namespace Device

variable {dev dev' : Device}

/-- A write to the document of the signed-in user is attributed to the photo exactly when that user
captured it. -/
theorem attributed_userPath (dev : Device) (p : Photo) :
    ((∃ u, p.owner = some u ∧ some dev.userPath = some u.val) ∧ some dev.userPath ≠ some "ERROR") ↔
      dev.currentUser ≠ none ∧ p.owner = dev.currentUser := by
  cases hc : dev.currentUser with
  | none => simp [userPath, hc]
  | some v =>
    have hpath : dev.userPath = v.val := by simp [userPath, hc]
    rw [hpath]
    constructor
    · rintro ⟨⟨u, hu, huv⟩, -⟩
      have hvu : v = u := Uid.val_injective (Option.some.inj huv)
      exact ⟨by simp, by rw [hu, hvu]⟩
    · rintro ⟨-, hp⟩
      exact ⟨⟨v, hp, rfl⟩, fun h => v.ne_error (Option.some.inj h)⟩

theorem attributed_increment (dev : Device) (p : Photo) (k : Key) (q : ℚ) :
    Issued.Attributed ⟨.increment dev.userPath k q, .photo p⟩ ↔
      dev.currentUser ≠ none ∧ p.owner = dev.currentUser := by
  rw [← attributed_userPath dev p]
  simp [Issued.Attributed, Write.account, Write.document]

theorem attributed_append (dev : Device) {new : List Issued} (hI : dev.Attributed)
    (h : dev'.issued = dev.issued ++ new) : dev'.Attributed ↔ ∀ x ∈ new, x.Attributed := by
  unfold Device.Attributed
  rw [h]
  constructor
  · intro hall x hx
    exact hall x (List.mem_append_right _ hx)
  · intro hnew x hx
    rcases List.mem_append.1 hx with hx | hx
    · exact hI x hx
    · exact hnew x hx

/-- An event keeps the log attributed exactly when its reply finds the right account. -/
theorem Effect.attributed {e : Event} (h : Effect dev e dev') (hI : dev.Attributed) :
    dev'.Attributed ↔ dev.SameAccount e := by
  cases h with
  | launch hr =>
    refine iff_of_true (fun x hx => hI x ?_) trivial
    rwa [viewDidLoad_eq] at hx
  | getUserAnswered hreq hreply =>
    refine iff_of_true (fun x hx => hI x ?_) trivial
    rwa [getUserCompletion_eq] at hx
  | finishOnboarding hl hc hp =>
    refine iff_of_true (fun x hx => ?_) trivial
    rw [finishOnboarding_eq] at hx
    rcases List.mem_append.1 hx with hx | hx
    · exact hI x hx
    · obtain ⟨u, -, rfl⟩ := List.mem_map.1 hx
      exact ⟨fun p hp => by simp at hp, fun h => u.ne_error (Option.some.inj h)⟩
  | @mailSent amount hm =>
    have hlog : (dev.mailComposeController amount .sent).issued = dev.issued ++
        [⟨.updateData dev.userPath .totalMoneyEarnedLocal (.number 0), .mail amount⟩] := rfl
    rw [attributed_append dev hI hlog]
    cases hu : dev.currentUser with
    | none => simp [Issued.Attributed, Write.document, Device.SameAccount, userPath, hu]
    | some u => simp [Issued.Attributed, Write.document, Device.SameAccount, userPath, hu, u.ne_error]
  | @mailNotSent result hr => exact iff_of_true hI fun hsent => absurd hsent hr
  | @scanAccepted i scan reply r imageUUID pngData hscan hreply hlo hhi hcount =>
    have hu : (dev.endScan i scan reply).currentUser = dev.currentUser := rfl
    have hiff : dev.SameAccount (.scanReply i reply r imageUUID pngData) ↔
        dev.currentUser ≠ none ∧ scan.photo.owner = dev.currentUser := by
      simp [Device.SameAccount, hscan, hreply]
    rw [hiff, attributed_append (dev.endScan i scan reply) hI (snapAccepted_issued ..)]
    simp only [List.mem_cons, List.not_mem_nil, or_false, forall_eq_or_imp, forall_eq,
      attributed_increment, hu, and_self]
  | @scanRejected i scan reply r imageUUID pngData hscan hreply =>
    refine iff_of_true hI fun scan' hscan' hr => ?_
    obtain rfl : scan = scan' := by simpa [hscan] using hscan'
    exact absurd hr hreply
  | uploadFailed hup => exact iff_of_true hI fun _ _ hf => by simp at hf
  | @uploaded i up date hup =>
    have hiff : dev.SameAccount (.uploadReply i false date) ↔ (up.challenge.id ≠ none →
        dev.currentUser ≠ none → up.photo.owner = dev.currentUser) := by
      simp [Device.SameAccount, hup]
    rw [hiff]
    cases hc : up.challenge.id with
    | none =>
      rw [uploadEntries_none _ _ _ _ _ _ hc]
      exact iff_of_true hI (by simp)
    | some c =>
      cases hu : dev.currentUser with
      | none =>
        have hnone : ((dev.endUpload i).noteStored up).uploadEntries up.photo up.path up.lat
            up.long date up.challenge = (dev.endUpload i).noteStored up := by
          have hu' : ((dev.endUpload i).noteStored up).currentUser = none := hu
          simp [uploadEntries, hc, hu']
        rw [hnone]
        exact iff_of_true hI (by simp)
      | some u =>
        rw [uploadEntries_some ((dev.endUpload i).noteStored up) hu _ _ _ _ _ hc,
          attributed_append dev hI rfl]
        have hval : ∀ v : Uid, u.val = v.val ↔ u = v := fun v => Uid.val_injective.eq_iff
        simp only [List.mem_singleton, forall_eq, Issued.Attributed, Write.account, Write.document,
          Cause.photo.injEq, Option.some.injEq, hval]
        simp
  | queryFailed hq => exact iff_of_true hI fun _ _ hf => by simp at hf
  | @queryAnswered i q docs hq hdocs hcount =>
    have hiff : dev.SameAccount (.queryReply i false) ↔ (dev.doesHaveCurrentUserEntrie docs = false →
        dev.currentUser ≠ none ∧ q.photo.owner = dev.currentUser) := by
      simp [Device.SameAccount, hq, hdocs]
    rw [hiff]
    have hb' : (dev.endQuery i).doesHaveCurrentUserEntrie docs = dev.doesHaveCurrentUserEntrie docs := rfl
    cases hb : dev.doesHaveCurrentUserEntrie docs with
    | true =>
      rw [entriesReply_pos _ (hb'.trans hb)]
      exact iff_of_true hI (by simp)
    | false =>
      rw [entriesReply_neg _ (hb'.trans hb), attributed_append (dev.endQuery i) hI rfl]
      have hu : (dev.endQuery i).currentUser = dev.currentUser := rfl
      simp only [List.mem_singleton, forall_eq, attributed_increment, hu, forall_const]
  -- nothing else writes
  | kill | editLogin | pressSignIn | signedIn | signInRefused | accountCreated | createUserRefused
  | getUserFailed | dismissPermissions | pressLetsGo | selectTab | signOutThrew | signedOut
  | pressWithdrawal | noLocation | captureUnsent | captureSent => exact iff_of_true hI trivial

end Device

namespace World

variable {ι : Type*} [DecidableEq ι] {w w' : World ι}

theorem attributed_step {l : Label ι} (hI : w.Attributed) (h : w.step l = some w') :
    w'.Attributed ↔ w.SameAccount l := by
  have hserve : ∀ d dev', dev'.issued = (w.devices d).issued → (w.setDevice d dev').Attributed := by
    intro d dev' hlog
    refine forall_setDevice (P := fun _ dev => dev.Attributed) ?_ hI
    unfold Device.Attributed
    rw [hlog]
    exact hI d
  cases step_effect h with
  | @app d e dev' hf heff =>
    have hdev := heff.attributed (hI d)
    constructor
    · intro hw
      exact hdev.1 (by simpa using hw d)
    · intro hs
      exact forall_setDevice (P := fun _ dev => dev.Attributed) (hdev.2 hs)
        (fun d' => by simpa using hI d')
  | serveSignIn | refuseCreateUser | serveCreateUser | serveGetUser | serveQuery | applied
  | rejected => exact iff_of_true (hserve _ _ rfl) trivial

/-- **Effects go to the account that took the photo** throughout a run exactly when every reply that
writes finds the account signed in that captured its photo, and every mail finds somebody. -/
theorem attributed_iff {w₀ : World ι} {ls : List (Label ι)} (h₀ : w₀.Attributed)
    (hr : run World.step w₀ ls = some w) :
    AllStates World.step Attributed w₀ ls ↔ AllSteps World.step SameAccount w₀ ls := by
  refine allStates_iff_allSteps (I := Attributed) (fun _ => id) (fun w l w' hI h => ?_) h₀ hr
  have hiff := attributed_step hI h
  exact ⟨hiff.2, fun hC hQ => hC (hiff.1 hQ)⟩

/-- A rose is captured, accepted, stored and counted by the account that stays signed in. -/
def ownSnap : List (Label Unit) :=
  Sample.login ++ [.app () (Sample.capture 0 Sample.roses), .app () (Sample.accept (1 / 2) "a")] ++
    Sample.store 3 ++ Sample.ask

theorem attributed_iff_ownSnap : AllStates World.step Attributed Sample.offline ownSnap := by
  have h : (run World.step Sample.offline ownSnap).isSome = true := by decide +kernel
  obtain ⟨w, hw⟩ := Option.isSome_iff_exists.1 h
  have h₀ : Sample.offline.Attributed := fun _ x hx => by simp [Sample.offline] at hx
  exact (attributed_iff h₀ hw).2 (by decide +kernel)

/-- The user signs out while the scan is outstanding, and the scan is then accepted. -/
def lateAccept : List (Label Unit) :=
  Sample.login ++ [.app () (Sample.capture 0 Sample.roses)] ++ Sample.signOut ++
    [.app () (Sample.accept (1 / 2) "a")]

theorem lateAccept_writes_error :
    Sample.offline.Attributed ∧ ∃ w, run World.step Sample.offline lateAccept = some w ∧
      (∃ x ∈ (w.devices ()).issued, x.write.document = some "ERROR") ∧ ¬ w.Attributed := by
  refine ⟨fun _ x hx => by simp [Sample.offline] at hx, ?_⟩
  have h : (run World.step Sample.offline lateAccept).any (fun w =>
      (w.devices ()).issued.any fun x => decide (x.write.document = some "ERROR")) = true := by
    decide +kernel
  obtain ⟨w, hw, hp⟩ := (Option.any_eq_true _ _).1 h
  obtain ⟨x, hx, hdoc⟩ := List.any_eq_true.1 hp
  have herror : x.write.document = some "ERROR" := of_decide_eq_true hdoc
  exact ⟨w, hw, ⟨x, hx, herror⟩, fun hall => (hall () x hx).2 herror⟩

end World

end Datability
