import Datability.Session

/-!
# The profile behind the home screen

An account gets its document at the end of the onboarding sheet, and the phone gets its local copy
there or from the reply of `getUser`. The home screen needs both. This module states when it has
them, over runs with kills and relaunches in which every request that is answered succeeds.
-/

namespace Datability

/-- The seven fields of a profile. -/
def Key.profile : List Key :=
  [.fullNameLocal, .emailLocal, .challengesCompletedLocal, .moneyTilNextPaymentLocal, .phoneNumberLocal,
    .totalMoneyEarnedLocal, .totalSnapsTakenLocal]

/-- The value is of the kind that the field is read as. -/
def Key.Accepts : Key → Value → Prop
  | .fullNameLocal, v | .emailLocal, v | .phoneNumberLocal, v => ∃ s, v = .string s
  | .moneyTilNextPaymentLocal, v | .totalMoneyEarnedLocal, v => ∃ q, v = .number q
  | .challengesCompletedLocal, v | .totalSnapsTakenLocal, v => ∃ z : ℤ, v = .number z
  | .password, _ => True

namespace Fields

/-- The seven fields of a profile are there, each with a value of its kind. -/
def Complete (f : Fields) : Prop := ∀ k ∈ Key.profile, ∃ v, f k = some v ∧ k.Accepts v

/-- The two counters that are read as `Int` fit 64 bits. -/
def InRange (f : Fields) : Prop :=
  (-2 ^ 63 ≤ f.double .challengesCompletedLocal ∧ f.double .challengesCompletedLocal < 2 ^ 63) ∧
    -2 ^ 63 ≤ f.double .totalSnapsTakenLocal ∧ f.double .totalSnapsTakenLocal < 2 ^ 63

instance (f : Fields) : Decidable f.InRange := inferInstanceAs (Decidable (_ ∧ _))

end Fields

/-- The document `users/<doc>` is there with the seven fields. -/
def Server.HasProfile (s : Server) (doc : String) : Prop := ∃ f, s.users doc = some f ∧ f.Complete

/-- A reply that is delivered is not a failure. -/
def Event.delivers : Event → Bool
  | .signInReply _ failed => !failed
  | .createUserReply _ failed => !failed
  | .getUserReply _ failed => !failed
  | .uploadReply _ failed _ => !failed
  | .queryReply _ failed => !failed
  | _ => true

/-- Every request that is answered succeeds, and every write is accepted. -/
def Label.delivers {ι : Type*} : Label ι → Bool
  | .app _ e => e.delivers
  | .apply _ accepted => accepted
  | _ => true

namespace Device

/-- An account has been created, and the phone has not been told yet. -/
def AccountCreated (dev : Device) : Prop :=
  ∃ req ∈ dev.createUsers, ∃ result ∈ req.reply, result ≠ none

instance (dev : Device) : Decidable dev.AccountCreated :=
  inferInstanceAs (Decidable (∃ req ∈ _, _))

/-- What keeps every account with its document and every home screen with its copy. The process is not
killed while an account waits for its onboarding, nor while the signed-in user's copy is missing. The
phone does not sign in to an account while another one waits for its onboarding, and learns of a
created account at the login view. The counters of a snapshot fit their type. -/
def SettlesProfile (dev : Device) : Event → Prop
  | .kill => ¬ dev.AccountCreated ∧ dev.continueOnboarding = false ∧
      (dev.currentUser ≠ none → (fetchProfileData dev.defaults).isSome = true)
  | .signInReply i _ => ∀ req ∈ dev.signIns[i]?, ∀ result ∈ req.reply, result ≠ none →
      ¬ dev.AccountCreated ∧ dev.continueOnboarding = false
  | .createUserReply i _ => ∀ req ∈ dev.createUsers[i]?, ∀ result ∈ req.reply, result ≠ none →
      dev.AtLogin
  | .getUserReply i _ => ∀ req ∈ dev.getUsers[i]?, ∀ snapshot ∈ req.reply, ∀ f ∈ snapshot, f.InRange
  | _ => True

instance (dev : Device) : ∀ e, Decidable (dev.SettlesProfile e)
  | .kill => inferInstanceAs (Decidable (_ ∧ _))
  | .signInReply _ _ | .createUserReply _ _ | .getUserReply _ _ =>
    inferInstanceAs (Decidable (∀ x ∈ _, _))
  | .launch | .editLogin _ _ | .pressSignIn | .dismissPermissions | .pressLetsGo
  | .finishOnboarding _ _ | .selectTab _ | .pressSignOut _ | .pressWithdrawal | .mailResult _
  | .capture _ _ _ _ _ | .scanReply _ _ _ _ _ | .uploadReply _ _ _ | .queryReply _ _ =>
    isTrue trivial

/-- A phone on which the app is not running, nobody is signed in and nothing is left to do. -/
structure Fresh (dev : Device) : Prop extends dev.NotRunning, dev.Quiet where
  currentUser : dev.currentUser = none

theorem fresh_default : Fresh {} where
  running := rfl
  loginView := rfl
  challengesView := rfl
  showPermissions := rfl
  continueOnboarding := rfl
  queue := rfl
  signIns := rfl
  createUsers := rfl
  getUsers := rfl
  scans := rfl
  uploads := rfl
  queries := rfl
  currentUser := rfl

end Device

namespace World

/-- `Device.SettlesProfile` for the phone that takes the step. -/
def SettlesProfile (w : World Unit) : Label Unit → Prop
  | .app d e => (w.devices d).SettlesProfile e
  | _ => True

instance (w : World Unit) : ∀ l, Decidable (w.SettlesProfile l)
  | .app d e => inferInstanceAs (Decidable ((w.devices d).SettlesProfile e))
  | .serveSignIn _ _ | .serveCreateUser _ _ _ | .serveGetUser _ _ | .serveQuery _ _ | .apply _ _ =>
    isTrue trivial

/-- The start: a fresh phone, and a backend on which every account has its document. -/
structure HomeStart (w : World Unit) : Prop where
  phone : (w.devices ()).Fresh
  documents : ∀ a ∈ w.server.accounts, w.server.HasProfile a.uid.val

/-- When the challenges are shown to a signed-in user and nothing is outstanding, the document of the
user has the seven fields, and the local copy is a profile. -/
def HomeComplete (w : World Unit) : Prop :=
  w.Quiet → (w.devices ()).challengesView = true → ∀ u, (w.devices ()).currentUser = some u →
    (∀ k ∈ Key.profile, w.server.field u.val k ≠ none) ∧
      fetchProfileData (w.devices ()).defaults ≠ none

end World

end Datability
