import Datability.Session

/-!
# The local copy of the profile

`UserDefaults` holds a copy of `users/<uid>` for the signed-in user. The copy is filled from a
snapshot when `getUser` is answered, and then kept up to date by the completions that also write to
the server. This module states when the counters of the copy agree with the document.
-/

namespace Datability

/-- The counters of a decoded document are those that `s` has for `u`. -/
def DatabilityUser.HasCountersOf (p : DatabilityUser) (u : Uid) (s : Server) : Prop :=
  s.field u.val .totalSnapsTakenLocal = some (.number p.totalSnapsTakenLocal) ∧
    s.field u.val .totalMoneyEarnedLocal = some (.number p.totalMoneyEarnedLocal) ∧
    s.field u.val .challengesCompletedLocal = some (.number p.challengesCompletedLocal)

instance (p : DatabilityUser) (u : Uid) (s : Server) : Decidable (p.HasCountersOf u s) :=
  inferInstanceAs (Decidable (_ ∧ _))

namespace Device

/-- The counters of `UserDefaults` are those that `s` has for `u`, and the two that count are
integers. -/
structure Mirrors (u : Uid) (dev : Device) (s : Server) : Prop where
  snaps : ∃ z : ℤ, dev.defaults .totalSnapsTakenLocal = some (.number z) ∧
    s.field u.val .totalSnapsTakenLocal = some (.number z)
  money : ∃ q : ℚ, dev.defaults .totalMoneyEarnedLocal = some (.number q) ∧
    s.field u.val .totalMoneyEarnedLocal = some (.number q)
  challenges : ∃ z : ℤ, dev.defaults .challengesCompletedLocal = some (.number z) ∧
    s.field u.val .challengesCompletedLocal = some (.number z)

/-- The events in the life of the account `u` on a phone: nobody else signs in, no account is created,
and a `getUser` reply that is delivered carries a snapshot. -/
def SingleAccount (u : Uid) (dev : Device) : Event → Prop
  | .signInReply i failed => ∀ req ∈ dev.signIns[i]?, failed = false →
      ∀ result ∈ req.reply, ∀ v ∈ result, v = u
  | .createUserReply i failed => ∀ req ∈ dev.createUsers[i]?, failed = false →
      ∀ result ∈ req.reply, result = none
  | .getUserReply _ failed => failed = false
  | _ => True

instance (u : Uid) (dev : Device) : ∀ e, Decidable (dev.SingleAccount u e)
  | .signInReply _ _ | .createUserReply _ _ => inferInstanceAs (Decidable (∀ x ∈ _, _))
  | .getUserReply _ _ => inferInstanceAs (Decidable (_ = _))
  | .launch | .kill | .editLogin _ _ | .pressSignIn | .dismissPermissions | .pressLetsGo
  | .finishOnboarding _ _ | .selectTab _ | .pressSignOut _ | .pressWithdrawal | .mailResult _
  | .capture _ _ _ _ _ | .scanReply _ _ _ _ _ | .uploadReply _ _ _ | .queryReply _ _ =>
    isTrue trivial

/-- When the last outstanding `getUser` is answered, its snapshot decodes and still has the counters
that the phone sees now; and the process is not killed while one is outstanding. -/
def RefreshesInTime (u : Uid) (s : Server) (dev : Device) : Event → Prop
  | .getUserReply i failed => ∀ req ∈ dev.getUsers[i]?, failed = false →
      dev.currentUser = some u → dev.getUsers.length = 1 →
      ∀ snapshot ∈ req.reply, ∃ p ∈ dataAsDatabilityUser snapshot, p.HasCountersOf u s
  | .kill => dev.currentUser = some u → dev.getUsers.isEmpty = true
  | _ => True

instance (u : Uid) (s : Server) (dev : Device) : ∀ e, Decidable (dev.RefreshesInTime u s e)
  | .getUserReply _ _ => inferInstanceAs (Decidable (∀ x ∈ _, _))
  | .kill => inferInstanceAs (Decidable (_ → _))
  | .launch | .editLogin _ _ | .pressSignIn | .signInReply _ _ | .createUserReply _ _
  | .dismissPermissions | .pressLetsGo | .finishOnboarding _ _ | .selectTab _ | .pressSignOut _
  | .pressWithdrawal | .mailResult _ | .capture _ _ _ _ _ | .scanReply _ _ _ _ _
  | .uploadReply _ _ _ | .queryReply _ _ => isTrue trivial

end Device

namespace World

/-- The steps in the life of the account `u` on one phone; the backend rejects no write. -/
def SingleAccount (u : Uid) (w : World Unit) : Label Unit → Prop
  | .app d e => (w.devices d).SingleAccount u e
  | .apply _ accepted => accepted = true
  | _ => True

instance (u : Uid) (w : World Unit) : ∀ l, Decidable (w.SingleAccount u l)
  | .app d e => inferInstanceAs (Decidable ((w.devices d).SingleAccount u e))
  | .apply _ accepted => inferInstanceAs (Decidable (accepted = true))
  | .serveSignIn _ _ | .serveCreateUser _ _ _ | .serveGetUser _ _ | .serveQuery _ _ => isTrue trivial

/-- `Device.RefreshesInTime`, where the phone sees the server through its own queue. -/
def RefreshesInTime (u : Uid) (w : World Unit) : Label Unit → Prop
  | .app d e => (w.devices d).RefreshesInTime u (w.localView d) e
  | _ => True

instance (u : Uid) (w : World Unit) : ∀ l, Decidable (w.RefreshesInTime u l)
  | .app d e => inferInstanceAs (Decidable ((w.devices d).RefreshesInTime u (w.localView d) e))
  | .serveSignIn _ _ | .serveCreateUser _ _ _ | .serveGetUser _ _ | .serveQuery _ _ | .apply _ _ =>
    isTrue trivial

/-- The start of such a run: nothing is in flight, and the user is signed out or mirrored. -/
structure MirrorStart (u : Uid) (w : World Unit) : Prop where
  quiet : w.Quiet
  onboarding : (w.devices ()).continueOnboarding = false
  session : (w.devices ()).currentUser = none ∨
    (w.devices ()).currentUser = some u ∧ (w.devices ()).Mirrors u w.server

/-- Whenever `u` is signed in and nothing is in flight, the counters on the phone are those of
`users/<u>`. -/
def MirrorAgrees (u : Uid) (w : World Unit) : Prop :=
  w.Quiet → (w.devices ()).currentUser = some u →
    ∀ k ∈ Key.counters, (w.devices ()).defaults k = w.server.field u.val k

end World

end Datability
