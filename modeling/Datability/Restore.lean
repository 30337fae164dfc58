import Datability.Mirror

/-!
# A profile survives a sign-out

After the onboarding a profile is kept twice, and both copies are changed by the same four operations:
the onboarding itself, an accepted snap, a first entry and a withdrawal. A sign-out clears the copy on
the phone, and the reply of `getUser` after the next sign-in reads the other one. This module states
what a run from the onboarding over a sign-out to the end of that `getUser` consists of.
-/

namespace Datability

/-- The events between the onboarding and the sign-out: photos, withdrawals and tabs, also over a kill
and relaunch of the process. -/
def Event.active : Event → Bool
  | .launch => true
  | .kill => true
  | .pressSignOut throws => throws
  | e => e.ledger

/-- The steps between the onboarding and the sign-out; no write is rejected. -/
def Label.active {ι : Type*} : Label ι → Bool
  | .app _ e => e.active
  | .apply _ accepted => accepted
  | _ => true

namespace Device

/-- The events from the sign-out to the end of `getUser`. Only `u` signs in, and nothing is counted:
no snap is accepted, no first entry found, no mail sent and nobody onboarded. The process is not killed
while the reply of `getUser` is outstanding. -/
def SignsBackIn (u : Uid) (dev : Device) : Event → Prop
  | .kill => dev.currentUser = some u → dev.getUsers.isEmpty = true
  | .scanReply i reply _ _ _ => ∀ scan ∈ dev.scans[i]?,
      plantScannerReply reply scan.challenge.expectedPlant ≠ some true
  | .queryReply i failed => ∀ q ∈ dev.queries[i]?, failed = false →
      ∀ docs ∈ q.reply, dev.doesHaveCurrentUserEntrie docs = true
  | .mailResult result => result ≠ .sent
  | .finishOnboarding _ _ => False
  | e => dev.SingleAccount u e

instance (u : Uid) (dev : Device) : ∀ e, Decidable (dev.SignsBackIn u e)
  | .kill => inferInstanceAs (Decidable (_ → _))
  | .signInReply _ _ | .createUserReply _ _ | .scanReply _ _ _ _ _ | .queryReply _ _ =>
    inferInstanceAs (Decidable (∀ x ∈ _, _))
  | .getUserReply _ _ => inferInstanceAs (Decidable (_ = _))
  | .mailResult _ => inferInstanceAs (Decidable (_ ≠ _))
  | .finishOnboarding _ _ => isFalse id
  | .launch | .editLogin _ _ | .pressSignIn | .dismissPermissions | .pressLetsGo | .selectTab _
  | .pressSignOut _ | .pressWithdrawal | .capture _ _ _ _ _ | .uploadReply _ _ _ => isTrue trivial

end Device

namespace World

/-- `Device.SignsBackIn` for the phone that takes the step; no write is rejected. -/
def SignsBackIn (u : Uid) (w : World Unit) : Label Unit → Prop
  | .app d e => (w.devices d).SignsBackIn u e
  | .apply _ accepted => accepted = true
  | _ => True

instance (u : Uid) (w : World Unit) : ∀ l, Decidable (w.SignsBackIn u l)
  | .app d e => inferInstanceAs (Decidable ((w.devices d).SignsBackIn u e))
  | .apply _ accepted => inferInstanceAs (Decidable (accepted = true))
  | .serveSignIn _ _ | .serveCreateUser _ _ _ | .serveGetUser _ _ | .serveQuery _ _ => isTrue trivial

/-- A reply of `getUser` that is delivered decodes, so that its `catch` branch is not taken. -/
def Decodes (w : World Unit) : Label Unit → Prop
  | .app d (.getUserReply i _) => ∀ req ∈ (w.devices d).getUsers[i]?, ∀ snapshot ∈ req.reply,
      (dataAsDatabilityUser snapshot).isSome = true
  | _ => True

/-- `u` is signed in, and no reply of `getUser` is outstanding. -/
structure Settled (u : Uid) (w : World Unit) : Prop where
  signedIn : (w.devices ()).currentUser = some u
  getUsers : (w.devices ()).getUsers = []

/-- The profile that the phone shows. -/
def profile (w : World Unit) : Option DatabilityUser := fetchProfileData (w.devices ()).defaults

/-- The end of the onboarding sheet. -/
def onboard (dataTextName dataTextPhoneNumber : String) : Label Unit :=
  .app () (.finishOnboarding dataTextName dataTextPhoneNumber)

/-- A sign-out that does not throw. -/
def leave : Label Unit := .app () (.pressSignOut false)

end World

end Datability
