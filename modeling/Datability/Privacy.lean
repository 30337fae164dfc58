import Datability.Entries
import Datability.Home

/-!
# The local profile of one account

The seven keys of the local copy are shared by all accounts that sign in on a phone. What the copy of
`u` owes to other accounts is stated over two runs that differ only in the data of the others. `seen` is
what `u` can tell of a step: nothing of what another account does (its snaps with their scans, uploads and
queries, its refreshes and withdrawals, its writes), and of its own steps all but the numbers of photos, the
names of objects and the dates. Requests are numbered without those of the others.
-/

namespace Datability

/-! ## What an account sees -/

/-- The photo was captured by another account than `u`. -/
def Photo.OfOther (u : Uid) (p : Photo) : Prop := ∃ v ∈ p.owner, v ≠ u

instance (u : Uid) (p : Photo) : Decidable (p.OfOther u) := inferInstanceAs (Decidable (∃ v ∈ _, _))

/-- A refresh of the own copy. -/
def GetUser.seen (u : Uid) (req : GetUser) : Option (Option (Option Fields)) :=
  if req.uid = u then some req.reply else none

def Scan.seen (u : Uid) (scan : Scan) : Option (Option Uid × Challenge) :=
  if scan.photo.OfOther u then none else some (scan.photo.owner, scan.challenge)

def Upload.seen (u : Uid) (up : Upload) : Option (Option Uid × Challenge) :=
  if up.photo.OfOther u then none else some (up.photo.owner, up.challenge)

/-- A query, with whether its answer has an entry of `u`. -/
def Query.seen (u : Uid) (q : Query) : Option (Option Uid × String × Option Bool) :=
  if q.photo.OfOther u then none
  else some (q.photo.owner, q.document, q.reply.map fun docs => docs.any fun e => e.host = some u.val)

/-- A write to the own document, or the challenge of an own entry. -/
def Write.seen (u : Uid) : Write → Option Write
  | .addDocument c e =>
    if e.host = some u.val then some (.addDocument c ⟨some u.val, none, none, none, none⟩) else none
  | .setData doc fields => if doc = u.val then some (.setData doc fields) else none
  | .increment doc k q => if doc = u.val then some (.increment doc k q) else none
  | .updateData doc k v => if doc = u.val then some (.updateData doc k v) else none

namespace Device

open Transition

/-- Another account than `u` is signed in. -/
def OtherSignedIn (u : Uid) (dev : Device) : Prop := ∃ v ∈ dev.currentUser, v ≠ u

instance (u : Uid) (dev : Device) : Decidable (dev.OtherSignedIn u) :=
  inferInstanceAs (Decidable (∃ v ∈ _, _))

/-- What `u` can tell of an event. -/
def seen (u : Uid) (dev : Device) : Event → Option Event
  | .getUserReply i failed => (number (GetUser.seen u) dev.getUsers i).map fun n => .getUserReply n failed
  | .finishOnboarding dataTextName dataTextPhoneNumber =>
    some (if dev.OtherSignedIn u then .finishOnboarding "" ""
      else .finishOnboarding dataTextName dataTextPhoneNumber)
  | .selectTab t => if dev.OtherSignedIn u then none else some (.selectTab t)
  | .pressWithdrawal => if dev.OtherSignedIn u then none else some .pressWithdrawal
  | .mailResult result => if dev.OtherSignedIn u then none else some (.mailResult result)
  | .capture _ challenge oneCoord currentLoc encoded =>
    if dev.OtherSignedIn u then none else some (.capture 0 challenge oneCoord currentLoc encoded)
  | .scanReply i reply moneyIncrementedRandom _ pngData =>
    (number (Scan.seen u) dev.scans i).map fun n => .scanReply n reply moneyIncrementedRandom "" pngData
  | .uploadReply i failed _ => (number (Upload.seen u) dev.uploads i).map fun n => .uploadReply n failed 0
  | .queryReply i failed => (number (Query.seen u) dev.queries i).map fun n => .queryReply n failed
  | e => some e

/-! ## Replies to other accounts -/

/-- Nobody but `v` is signed in. -/
def NobodyElse (dev : Device) (v : Uid) : Prop := ∀ x ∈ dev.currentUser, x = v

instance (dev : Device) (v : Uid) : Decidable (dev.NobodyElse v) :=
  inferInstanceAs (Decidable (∀ x ∈ _, _))

/-- The replies that change the session, the local copy, or the counters and entries of the account that is
signed in find no other account signed in than the one they are about, and a snapshot finds its own account
signed in. -/
def OwnReplies (dev : Device) : Event → Prop
  | .signInReply i failed => ∀ req ∈ dev.signIns[i]?, failed = false →
      ∀ result ∈ req.reply, ∀ uid ∈ result, dev.NobodyElse uid
  | .createUserReply i failed => ∀ req ∈ dev.createUsers[i]?, failed = false →
      ∀ result ∈ req.reply, ∀ uid ∈ result, dev.NobodyElse uid
  | .getUserReply i failed => ∀ req ∈ dev.getUsers[i]?, failed = false →
      ∀ snapshot ∈ req.reply, dataAsDatabilityUser snapshot ≠ none → dev.currentUser = some req.uid
  | .scanReply i reply _ _ _ => ∀ scan ∈ dev.scans[i]?,
      plantScannerReply reply scan.challenge.expectedPlant = some true →
        ∀ v ∈ scan.photo.owner, dev.NobodyElse v
  | .uploadReply i failed _ => ∀ up ∈ dev.uploads[i]?, failed = false → up.challenge.id ≠ none →
      ∀ v ∈ up.photo.owner, dev.NobodyElse v
  | .queryReply i failed => ∀ q ∈ dev.queries[i]?, failed = false → ∀ docs ∈ q.reply,
      dev.doesHaveCurrentUserEntrie docs = false → ∀ v ∈ q.photo.owner, dev.NobodyElse v
  | _ => True

instance (dev : Device) : ∀ e, Decidable (dev.OwnReplies e)
  | .signInReply _ _ | .createUserReply _ _ | .getUserReply _ _ | .scanReply _ _ _ _ _
  | .uploadReply _ _ _ | .queryReply _ _ => inferInstanceAs (Decidable (∀ x ∈ _, _))
  | .launch | .kill | .editLogin _ _ | .pressSignIn | .dismissPermissions | .pressLetsGo
  | .finishOnboarding _ _ | .selectTab _ | .pressSignOut _ | .pressWithdrawal | .mailResult _
  | .capture _ _ _ _ _ => isTrue trivial

end Device

namespace World

open Transition

/-- What `u` can tell of a step. -/
def seen (u : Uid) (w : World Unit) : Label Unit → Option (Label Unit)
  | .app d e => ((w.devices d).seen u e).map (.app d)
  | .serveGetUser d i => (number (GetUser.seen u) (w.devices d).getUsers i).map (.serveGetUser d)
  | .serveQuery d i => (number (Query.seen u) (w.devices d).queries i).map (.serveQuery d)
  | .apply d accepted =>
    ((w.devices d).queue.head?.bind fun x => x.write.seen u).map fun _ => .apply d accepted
  | l => some l

/-- `Device.OwnReplies` for the phone that takes the step. -/
def OwnReplies (w : World Unit) : Label Unit → Prop
  | .app d e => (w.devices d).OwnReplies e
  | _ => True

instance (w : World Unit) : ∀ l, Decidable (w.OwnReplies l)
  | .app d e => inferInstanceAs (Decidable ((w.devices d).OwnReplies e))
  | .serveSignIn _ _ | .serveCreateUser _ _ _ | .serveGetUser _ _ | .serveQuery _ _ | .apply _ _ =>
    isTrue trivial

/-- Two starts on one phone without a profile, over backends that differ only in the documents and entries
of other accounts than `u`. -/
structure PrivateStart (u : Uid) (w t : World Unit) : Prop where
  phone : (w.devices ()).Fresh
  defaults : (w.devices ()).defaults = Fields.empty
  samePhone : t.devices () = w.devices ()
  accounts : t.server.accounts = w.server.accounts
  entries : ∀ c, t.server.HasEntry u c ↔ w.server.HasEntry u c
  document : t.server.users u.val = w.server.users u.val

/-- The runs look the same to `u`. -/
def SameForUser (u : Uid) (w t : World Unit) (ls ms : List (Label Unit)) : Prop :=
  trace World.step (seen u) w ls = trace World.step (seen u) t ms

instance (u : Uid) (w t : World Unit) (ls ms : List (Label Unit)) : Decidable (SameForUser u w t ls ms) :=
  inferInstanceAs (Decidable (_ = _))

/-- Where `u` is signed in, the local copy is the same in both worlds. -/
def NoLeak (u : Uid) (w t : World Unit) : Prop :=
  (w.devices ()).currentUser = some u → (t.devices ()).currentUser = some u ∧
    fetchProfileData (t.devices ()).defaults = fetchProfileData (w.devices ()).defaults

end World

namespace Sample

/-- A phone on which the app has never run, and a backend with two accounts; the second one is in the
name of `otherName`. -/
def twoAccounts (otherName : String) : World Unit where
  server :=
    { accounts := [⟨"ada@mail.org", "secret", user⟩, ⟨"bob@mail.org", "hidden", other⟩]
      users := fun doc =>
        if doc = "u1" then some (userDocument "Ada" "ada@mail.org" "555" "secret")
        else if doc = "u2" then some (userDocument otherName "bob@mail.org" "556" "hidden")
        else none
      entries := [] }
  devices := fun _ => {}

end Sample

end Datability
