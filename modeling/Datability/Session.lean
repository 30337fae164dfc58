import Datability.Ledger

/-!
# Session, screens and accounts

What the session of Firebase Auth has to do with the rest of the app: the screen that is shown, the
account that the effects of a photo go to, and the profile behind the home screen. The runs here are
unrestricted: sign-in, account creation, onboarding, sign-out, kill and relaunch at any moment.
-/

namespace Datability

namespace Device

/-! ## Screen and session -/

/-- Once `viewDidLoad` has run, exactly one of the two hosting views is shown, and the challenges only
to a signed-in user. -/
def ScreenAgrees (dev : Device) : Prop :=
  dev.running = true →
    (dev.loginView = true ↔ dev.challengesView = false) ∧
      (dev.challengesView = true → dev.currentUser ≠ none)

instance (dev : Device) : Decidable dev.ScreenAgrees := inferInstanceAs (Decidable (_ → _))

/-- A phone on which the app is not running; somebody may still be signed in. -/
structure NotRunning (dev : Device) : Prop where
  running : dev.running = false
  loginView : dev.loginView = false
  challengesView : dev.challengesView = false
  showPermissions : dev.showPermissions = false
  continueOnboarding : dev.continueOnboarding = false

end Device

/-- The event is not a sign-out that succeeds. -/
def Event.StaysSignedIn : Event → Prop
  | .pressSignOut throws => throws = true
  | _ => True

instance : ∀ e : Event, Decidable e.StaysSignedIn
  | .pressSignOut _ => inferInstanceAs (Decidable (_ = _))
  | .launch | .kill | .editLogin _ _ | .pressSignIn | .signInReply _ _ | .createUserReply _ _
  | .getUserReply _ _ | .dismissPermissions | .pressLetsGo | .finishOnboarding _ _ | .selectTab _
  | .pressWithdrawal | .mailResult _ | .capture _ _ _ _ _ | .scanReply _ _ _ _ _
  | .uploadReply _ _ _ | .queryReply _ _ => isTrue trivial

/-- The step is not a sign-out that succeeds. -/
def Label.StaysSignedIn {ι : Type*} : Label ι → Prop
  | .app _ e => e.StaysSignedIn
  | _ => True

instance {ι : Type*} : ∀ l : Label ι, Decidable l.StaysSignedIn
  | .app _ e => inferInstanceAs (Decidable e.StaysSignedIn)
  | .serveSignIn _ _ | .serveCreateUser _ _ _ | .serveGetUser _ _ | .serveQuery _ _ | .apply _ _ =>
    isTrue trivial

/-! ## The account that took the photo -/

/-- The document of `users` that a write goes to. -/
def Write.document : Write → Option String
  | .setData doc _ => some doc
  | .increment doc _ _ => some doc
  | .updateData doc _ _ => some doc
  | .addDocument _ _ => none

/-- The account that a write carries: its document in `users`, or the host of the entry. -/
def Write.account : Write → Option String
  | .addDocument _ e => e.host
  | w => w.document

/-- What a photo has caused carries the account that captured it, and no write goes to the document
`users/ERROR`. -/
def Issued.Attributed (x : Issued) : Prop :=
  (∀ p, x.cause = .photo p → ∃ u, p.owner = some u ∧ x.write.account = some u.val) ∧
    x.write.document ≠ some "ERROR"

namespace Device

/-- Every write that the phone has issued is attributed. -/
def Attributed (dev : Device) : Prop := ∀ x ∈ dev.issued, x.Attributed

/-- The replies that write find the account that captured the photo signed in; a mail finds somebody
signed in. -/
def SameAccount (dev : Device) : Event → Prop
  | .scanReply i reply _ _ _ => ∀ scan ∈ dev.scans[i]?,
      plantScannerReply reply scan.challenge.expectedPlant = some true →
        dev.currentUser ≠ none ∧ scan.photo.owner = dev.currentUser
  | .uploadReply i failed _ => ∀ up ∈ dev.uploads[i]?, failed = false →
      up.challenge.id ≠ none → dev.currentUser ≠ none → up.photo.owner = dev.currentUser
  | .queryReply i failed => ∀ q ∈ dev.queries[i]?, failed = false →
      ∀ docs ∈ q.reply, dev.doesHaveCurrentUserEntrie docs = false →
        dev.currentUser ≠ none ∧ q.photo.owner = dev.currentUser
  | .mailResult result => result = .sent → dev.currentUser ≠ none
  | _ => True

instance (dev : Device) : ∀ e, Decidable (dev.SameAccount e)
  | .scanReply _ _ _ _ _ | .uploadReply _ _ _ | .queryReply _ _ =>
    inferInstanceAs (Decidable (∀ x ∈ _, _))
  | .mailResult _ => inferInstanceAs (Decidable (_ → _))
  | .launch | .kill | .editLogin _ _ | .pressSignIn | .signInReply _ _ | .createUserReply _ _
  | .getUserReply _ _ | .dismissPermissions | .pressLetsGo | .finishOnboarding _ _ | .selectTab _
  | .pressSignOut _ | .pressWithdrawal | .capture _ _ _ _ _ => isTrue trivial

end Device

namespace World

variable {ι : Type*}

/-- Screen and session agree on every phone. -/
def ScreensAgree (w : World ι) : Prop := ∀ d, (w.devices d).ScreenAgrees

/-- Every write issued anywhere is attributed. -/
def Attributed (w : World ι) : Prop := ∀ d, (w.devices d).Attributed

/-- `Device.SameAccount` for the phone that takes the step. -/
def SameAccount (w : World ι) : Label ι → Prop
  | .app d e => (w.devices d).SameAccount e
  | _ => True

instance (w : World ι) : ∀ l, Decidable (w.SameAccount l)
  | .app d e => inferInstanceAs (Decidable ((w.devices d).SameAccount e))
  | .serveSignIn _ _ | .serveCreateUser _ _ _ | .serveGetUser _ _ | .serveQuery _ _ | .apply _ _ =>
    isTrue trivial

end World

namespace Sample

/-- A second account. -/
def other : Uid := ⟨"u2", by decide⟩

/-- The backend of the sample account and a phone on which the app has never run. -/
def offline : World Unit where
  server := server
  devices := fun _ => {}

/-- Launch the app and press the sign-in button with these credentials. -/
def launchAndPress (email password : String) : List (Label Unit) :=
  [.app () .launch, .app () (.editLogin email password), .app () .pressSignIn, .serveSignIn () 0,
    .app () (.signInReply 0 false)]

/-- Sign in to the sample account and go on to the home screen. -/
def login : List (Label Unit) :=
  launchAndPress "ada@mail.org" "secret" ++
    [.serveGetUser () 0, .app () (.getUserReply 0 false), .app () .dismissPermissions]

/-- Open the profile and sign out. -/
def signOut : List (Label Unit) := [.app () (.selectTab .profile), .app () (.pressSignOut false)]

end Sample

end Datability
