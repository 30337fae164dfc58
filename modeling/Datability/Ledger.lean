import Datability.World
import Datability.Transition
import Mathlib.Algebra.BigOperators.Group.Finset.Basic
import Mathlib.Algebra.BigOperators.Group.List.Basic
import Mathlib.Algebra.Order.Field.Rat
import Mathlib.Data.Fintype.Basic

/-!
# Accounts at work

The runs in which one user stays signed in on every phone: photos are captured, scanned, uploaded and
counted, withdrawals are mailed, and the backend applies every write. The quantities that the claims
about the counters of `users/<uid>` speak of are defined here.
-/

namespace Datability

/-- The events that neither change the session nor end the process. -/
def Event.ledger : Event → Bool
  | .capture _ _ _ _ _ => true
  | .scanReply _ _ _ _ _ => true
  | .uploadReply _ _ _ => true
  | .queryReply _ _ => true
  | .selectTab _ => true
  | .pressWithdrawal => true
  | .mailResult _ => true
  | _ => false

/-- The steps of a run in which everybody stays signed in and no write is rejected. -/
def Label.ledger {ι : Type*} : Label ι → Bool
  | .app _ e => e.ledger
  | .serveQuery _ _ => true
  | .apply _ accepted => accepted
  | _ => false

/-- The events that keep the session, kills and relaunches of the process included; there is no second
onboarding. -/
def Event.staysSignedIn : Event → Bool
  | .signInReply _ _ => false
  | .createUserReply _ _ => false
  | .finishOnboarding _ _ => false
  | .pressSignOut throws => throws
  | _ => true

/-- The steps of a run in which everybody stays signed in, over any number of processes. No write is
rejected. -/
def Label.staysSignedIn {ι : Type*} : Label ι → Bool
  | .app _ e => e.staysSignedIn
  | .apply _ accepted => accepted
  | _ => true

/-- A number of `users/<uid>`; a missing one counts as zero. -/
def Server.counter (s : Server) (u : Uid) (k : Key) : ℚ :=
  ((s.users u.val).map fun f => f.double k).getD 0

/-- The document of `u` has a number in the field `k`. -/
def Server.HasNumber (s : Server) (u : Uid) (k : Key) : Prop :=
  ∃ q, s.field u.val k = some (.number q)

/-- The three counters that the app maintains. -/
def Key.counters : List Key :=
  [.totalSnapsTakenLocal, .totalMoneyEarnedLocal, .challengesCompletedLocal]

/-- The writes that a phone on which `u` is signed in issues in the course of such a run. -/
inductive Issued.Ledger (u : Uid) : Issued → Prop
  | snap (p : Photo) : Ledger u ⟨.increment u.val .totalSnapsTakenLocal 1, .photo p⟩
  | credit (p : Photo) (r : ℚ) (hlo : 1 / 10 ≤ r) (hhi : r ≤ 1) :
      Ledger u ⟨.increment u.val .totalMoneyEarnedLocal r, .photo p⟩
  | first (p : Photo) : Ledger u ⟨.increment u.val .challengesCompletedLocal 1, .photo p⟩
  | payout (a : ℚ) : Ledger u ⟨.updateData u.val .totalMoneyEarnedLocal (.number 0), .mail a⟩
  | entry (p : Photo) (c : String) (e : Entry) (h : e.host = some u.val) :
      Ledger u ⟨.addDocument c e, .photo p⟩

/-- The amount of the mail that caused a write. -/
def Issued.mailed (x : Issued) : Option ℚ :=
  match x.cause with
  | .mail amount => some amount
  | _ => none

/-- No request of the phone is outstanding, and no write is left in its queue. -/
structure Device.Quiet (dev : Device) : Prop where
  queue : dev.queue = []
  signIns : dev.signIns = []
  createUsers : dev.createUsers = []
  getUsers : dev.getUsers = []
  scans : dev.scans = []
  uploads : dev.uploads = []
  queries : dev.queries = []

instance (dev : Device) : Decidable dev.Quiet :=
  decidable_of_iff (dev.queue.isEmpty ∧ dev.signIns.isEmpty ∧ dev.createUsers.isEmpty ∧
      dev.getUsers.isEmpty ∧ dev.scans.isEmpty ∧ dev.uploads.isEmpty ∧ dev.queries.isEmpty)
    ⟨fun ⟨h1, h2, h3, h4, h5, h6, h7⟩ => by
      simp only [List.isEmpty_iff] at h1 h2 h3 h4 h5 h6 h7
      exact ⟨h1, h2, h3, h4, h5, h6, h7⟩,
    fun ⟨h1, h2, h3, h4, h5, h6, h7⟩ => by simp [h1, h2, h3, h4, h5, h6, h7]⟩

/-- The write adds the entry of the photo `p`. -/
def Issued.IsEntry (p : Photo) (x : Issued) : Prop :=
  x.cause = .photo p ∧ ∃ c e, x.write = .addDocument c e

/-- One event on the way of a snap to its entry goes well. -/
def Device.StoresSnap (dev : Device) : Event → Prop
  | .scanReply i reply _ _ pngData => ∀ scan ∈ dev.scans[i]?,
      plantScannerReply reply scan.challenge.expectedPlant = some true →
        scan.challenge.id.isSome = true ∧ pngData = true
  | .uploadReply i failed _ => ∀ up ∈ dev.uploads[i]?, up.challenge.id.isSome = true → failed = false
  | _ => True

instance (dev : Device) : ∀ e, Decidable (dev.StoresSnap e)
  | .scanReply _ _ _ _ _ | .uploadReply _ _ _ => inferInstanceAs (Decidable (∀ x ∈ _, _))
  | .launch | .kill | .editLogin _ _ | .pressSignIn | .signInReply _ _ | .createUserReply _ _
  | .getUserReply _ _ | .dismissPermissions | .pressLetsGo | .finishOnboarding _ _ | .selectTab _
  | .pressSignOut _ | .pressWithdrawal | .mailResult _ | .capture _ _ _ _ _ | .queryReply _ _ =>
    isTrue trivial

namespace World

variable {ι : Type*}

/-- Nothing is in flight anywhere. -/
def Quiet (w : World ι) : Prop := ∀ d, (w.devices d).Quiet

instance [Fintype ι] (w : World ι) : Decidable w.Quiet :=
  inferInstanceAs (Decidable (∀ _, _))

/-- The start of a run of `u`: signed in on every phone, nothing in flight, nothing mailed or
credited yet, and a document with the three counters. -/
structure Start (u : Uid) (w : World ι) : Prop where
  signedIn : ∀ d, (w.devices d).currentUser = some u
  quiet : w.Quiet
  mails : ∀ d, (w.devices d).mails = []
  credits : ∀ d, (w.devices d).credits = []
  numbers : ∀ k ∈ Key.counters, w.server.HasNumber u k
  applied : w.applied = []

/-! ## Snaps and entries -/

/-- How many documents of the entries collections are hosted by `u`. -/
def entryCount (u : Uid) (w : World ι) : ℕ :=
  w.server.entries.countP fun e => e.2.host = some u.val

/-- Every photo that a write to a profile was made for has an entry. -/
def PaidBacked (w : World ι) : Prop :=
  ∀ x ∈ w.applied, ∀ p, x.cause = .photo p → ∃ y ∈ w.applied, y.IsEntry p

/-- The snap counter of `u` is the number of entries of `u`, and no photo is paid without one. -/
def SnapsBacked (u : Uid) (w : World ι) : Prop :=
  w.server.field u.val .totalSnapsTakenLocal = some (.number (w.entryCount u)) ∧ w.PaidBacked

/-- An accepted snap gets its entry stored: its challenge has an id, its image can be encoded when
the scan is accepted, and its upload does not fail. -/
def StoresSnap (w : World ι) : Label ι → Prop
  | .app d e => (w.devices d).StoresSnap e
  | _ => True

instance (w : World ι) : ∀ l, Decidable (StoresSnap w l)
  | .app d e => inferInstanceAs (Decidable ((w.devices d).StoresSnap e))
  | .serveSignIn _ _ | .serveCreateUser _ _ _ | .serveGetUser _ _ | .serveQuery _ _ | .apply _ _ =>
    isTrue trivial

/-! ## The payout bound -/

/-- The user is signed in on every phone and no snap has been accepted yet; mails may have been sent,
so payouts may be queued. -/
structure BeforeFirstSnap (u : Uid) (w : World ι) : Prop where
  signedIn : ∀ d, (w.devices d).currentUser = some u
  payouts : ∀ d, ∀ x ∈ (w.devices d).queue, ∃ amount,
    x = ⟨.updateData u.val .totalMoneyEarnedLocal (.number 0), .mail amount⟩
  uploads : ∀ d, (w.devices d).uploads = []
  queries : ∀ d, (w.devices d).queries = []

/-- The balance and the participations are bounded by the snaps, and the two counters are integers. -/
def PayoutBound (u : Uid) (w : World ι) : Prop :=
  ∃ (snaps challenges : ℤ) (money : ℚ),
    w.server.field u.val .totalSnapsTakenLocal = some (.number snaps) ∧
    w.server.field u.val .challengesCompletedLocal = some (.number challenges) ∧
    w.server.field u.val .totalMoneyEarnedLocal = some (.number money) ∧
    0 ≤ money ∧ money ≤ snaps ∧ 0 ≤ challenges ∧ challenges ≤ snaps

/-! ## Conservation of money -/

/-- Whenever the backend takes the write of a sent mail, the balance that this write sets to zero is
the amount that was mailed. -/
def SettlesExactly (u : Uid) (w : World ι) : Label ι → Prop
  | .apply d _ => ∀ amount ∈ (w.devices d).queue.head?.bind Issued.mailed,
      w.server.counter u .totalMoneyEarnedLocal = amount
  | _ => True

instance (u : Uid) (w : World ι) : ∀ l, Decidable (SettlesExactly u w l)
  | .apply _ _ => inferInstanceAs (Decidable (∀ amount ∈ _, _))
  | .app _ _ | .serveSignIn _ _ | .serveCreateUser _ _ _ | .serveGetUser _ _ | .serveQuery _ _ =>
    isTrue trivial

variable [Fintype ι]

/-- The sum of the amounts of all mails that were sent. -/
def mailed (w : World ι) : ℚ := ∑ d, (w.devices d).mails.sum

/-- The sum of all random credits. -/
def credited (w : World ι) : ℚ := ∑ d, (w.devices d).credits.sum

/-- What was mailed and what is left on the balance add up to what was credited. -/
def MoneyConserved (u : Uid) (w : World ι) : Prop :=
  ∃ b, w.server.field u.val .totalMoneyEarnedLocal = some (.number b) ∧ w.mailed + b = w.credited

end World

/-! ## A sample account

The inputs on which the theorems are instantiated: one account with a fresh profile, a challenge for
roses, and a reply of plant.id that recognises one. -/

namespace Sample

def user : Uid := ⟨"u1", by decide⟩

def server : Server where
  accounts := [⟨"ada@mail.org", "secret", user⟩]
  users := fun doc => if doc = "u1" then some (userDocument "Ada" "ada@mail.org" "555" "secret") else none
  entries := []

/-- The phone of the account, showing the home screen. -/
def phone : Device where
  currentUser := some user
  defaults := Fields.empty.setUser (newUser "Ada" "ada@mail.org" "555")
  running := true
  challengesView := true

def world (ι : Type*) : World ι where
  server := server
  devices := fun _ => phone

def roses : Challenge := ⟨some "roses", some "Rosa canina"⟩

def here : Location := ⟨1, 2⟩

/-- A reply that names a rose. -/
def reply : PlantReply where
  error := false
  response := true
  data := some (some (.object [("is_plant", .bool true), ("suggestions", .array [.object [
    ("plant_details", .object [("url", .string "wiki")]),
    ("similar_images", .array [.object [("url", .string "image")]]),
    ("plant_name", .string "Rosa rugosa")]])]))

/-- Capture a photo of the challenge. -/
def capture (serial : ℕ) (ch : Challenge) : Event := .capture serial ch (some here) (some here) true

/-- Accept the oldest outstanding scan. -/
def accept (credit : ℚ) (imageUUID : String) : Event := .scanReply 0 reply credit imageUUID true

/-- The phone stores the photo of its oldest upload, and the backend takes the first `n` writes. -/
def store (n : ℕ) : List (Label Unit) :=
  .app () (.uploadReply 0 false 0) :: List.replicate n (.apply () true)

/-- The oldest query of the phone is answered and its reply delivered. -/
def ask : List (Label Unit) := [.serveQuery () 0, .app () (.queryReply 0 false)]

theorem world_start (ι : Type*) : (world ι).Start user where
  signedIn _ := rfl
  quiet _ := ⟨rfl, rfl, rfl, rfl, rfl, rfl, rfl⟩
  mails _ := rfl
  credits _ := rfl
  applied := rfl
  numbers k hk := by
    simp only [Key.counters, List.mem_cons, List.not_mem_nil, or_false] at hk
    have h : server.field user.val .totalSnapsTakenLocal = some (.number 0) ∧
        server.field user.val .totalMoneyEarnedLocal = some (.number 0) ∧
        server.field user.val .challengesCompletedLocal = some (.number 0) := by decide +kernel
    rcases hk with rfl | rfl | rfl
    · exact ⟨0, h.1⟩
    · exact ⟨0, h.2.1⟩
    · exact ⟨0, h.2.2⟩

end Sample

end Datability
