import Datability.Proofs.DeviceProofs
import Datability.Proofs.FirestoreProofs
import Datability.Proofs.OutstandingProofs
import Datability.Proofs.StepProofs
import Datability.Proofs.TransitionProofs

/-!
# Proofs: what a step of a ledger run does

One inversion lemma for the events of a phone (`Device.Effect.ledger`) and one for the steps of the
world (`World.ledger_cases`). All claims about runs in which a user stays signed in are case analyses
over these. The shared invariant `LedgerInv` says that everybody is still signed in, that the queues
hold ledger writes only, and that the counters are numbers.
-/

namespace Datability

namespace Device

variable {dev dev' : Device}

/-! ## One event -/

/-- Nothing that the ledger is about has changed. -/
structure SameLedger (dev dev' : Device) : Prop where
  currentUser : dev'.currentUser = dev.currentUser
  queue : dev'.queue = dev.queue
  uploads : dev'.uploads = dev.uploads
  queries : dev'.queries = dev.queries
  mails : dev'.mails = dev.mails
  credits : dev'.credits = dev.credits

/-- The event is none of the replies that the ledger is about: a capture, a rejected scan, a change
of the tab, the opening of the composer, the result of a mail. -/
def Idle (dev : Device) : Event → Prop
  | .scanReply i reply _ _ _ => ∀ scan, dev.scans[i]? = some scan →
      plantScannerReply reply scan.challenge.expectedPlant ≠ some true
  | .uploadReply _ _ _ => False
  | .queryReply _ _ => False
  | _ => True

/-- What an event of a ledger run does to the phone. -/
inductive LedgerEffect (dev : Device) : Event → Device → Prop
  | same {e : Event} {dev' : Device} (h : SameLedger dev dev') (he : dev.Idle e) :
      LedgerEffect dev e dev'
  | accepted {i : ℕ} {scan : Scan} {reply : PlantReply} {r : ℚ} {imageUUID : String} {pngData : Bool}
      (hscan : dev.scans[i]? = some scan)
      (hreply : plantScannerReply reply scan.challenge.expectedPlant = some true)
      (hlo : 1 / 10 ≤ r) (hhi : r ≤ 1) :
      LedgerEffect dev (.scanReply i reply r imageUUID pngData)
        ((dev.endScan i scan reply).snapAccepted scan r imageUUID pngData)
  | sent {amount : ℚ} (hm : dev.moneyNeeded = some amount) :
      LedgerEffect dev (.mailResult .sent) (dev.mailComposeController amount .sent)
  | uploadFailed {i : ℕ} {up : Upload} {date : ℚ} (hup : dev.uploads[i]? = some up) :
      LedgerEffect dev (.uploadReply i true date) (dev.endUpload i)
  | uploaded {i : ℕ} {up : Upload} {date : ℚ} (hup : dev.uploads[i]? = some up) :
      LedgerEffect dev (.uploadReply i false date)
        (((dev.endUpload i).noteStored up).uploadEntries up.photo up.path up.lat up.long date
          up.challenge)
  | queryFailed {i : ℕ} {q : Query} (hq : dev.queries[i]? = some q) :
      LedgerEffect dev (.queryReply i true) (dev.endQuery i)
  | queryAnswered {i : ℕ} {q : Query} {docs : List Entry} (hq : dev.queries[i]? = some q)
      (hdocs : q.reply = some docs) :
      LedgerEffect dev (.queryReply i false)
        ((dev.endQuery i).entriesReply q.photo docs)

theorem Effect.ledger {e : Event} (h : Effect dev e dev') (he : e.ledger = true) :
    LedgerEffect dev e dev' := by
  cases h with
  | selectTab hv => exact .same ⟨rfl, rfl, rfl, rfl, rfl, rfl⟩ trivial
  | pressWithdrawal hp => exact .same ⟨rfl, rfl, rfl, rfl, rfl, rfl⟩ trivial
  | mailSent hm => exact .sent hm
  | mailNotSent hr => exact .same ⟨rfl, rfl, rfl, rfl, rfl, rfl⟩ trivial
  | noLocation hv => exact .same ⟨rfl, rfl, rfl, rfl, rfl, rfl⟩ trivial
  | captureUnsent hv => exact .same ⟨rfl, rfl, rfl, rfl, rfl, rfl⟩ trivial
  | captureSent hv => exact .same ⟨rfl, rfl, rfl, rfl, rfl, rfl⟩ trivial
  | scanAccepted hscan hreply hlo hhi hcount => exact .accepted hscan hreply hlo hhi
  | @scanRejected i scan reply r imageUUID pngData hscan hreply =>
    refine .same ⟨rfl, rfl, rfl, rfl, rfl, rfl⟩ fun scan' hscan' => ?_
    obtain rfl : scan = scan' := by simpa [hscan] using hscan'
    exact hreply
  | uploadFailed hup => exact .uploadFailed hup
  | uploaded hup => exact .uploaded hup
  | queryFailed hq => exact .queryFailed hq
  | queryAnswered hq hdocs hcount => exact .queryAnswered hq hdocs
  | _ => simp [Event.ledger] at he

/-- An event of a ledger run keeps the user signed in and appends ledger writes to the queue. -/
theorem LedgerEffect.writes {u : Uid} {e : Event} (h : LedgerEffect dev e dev')
    (hu : dev.currentUser = some u) :
    dev'.currentUser = some u ∧ ∃ new, dev'.queue = dev.queue ++ new ∧ ∀ x ∈ new, x.Ledger u := by
  cases h with
  | same h he => exact ⟨h.currentUser.trans hu, [], by simp [h.queue], by simp⟩
  | @accepted i scan reply r imageUUID pngData hscan hreply hlo hhi =>
    have hu' : (dev.endScan i scan reply).currentUser = some u := hu
    refine ⟨by rw [snapAccepted_currentUser, hu'], _, snapAccepted_queue .., ?_⟩
    simp only [userPath_eq hu', List.mem_cons, List.not_mem_nil, or_false, forall_eq_or_imp, forall_eq]
    exact ⟨.snap _, .credit _ _ hlo hhi⟩
  | sent hm =>
    refine ⟨hu, _, mailComposeController_sent_queue .., ?_⟩
    simp only [userPath_eq hu, List.mem_singleton, forall_eq]
    exact .payout _
  | uploadFailed hup => exact ⟨hu, [], (List.append_nil _).symm, by simp⟩
  | @uploaded i up date hup =>
    cases hc : up.challenge.id with
    | none =>
      rw [uploadEntries_none _ _ _ _ _ _ hc]
      exact ⟨hu, [], (List.append_nil _).symm, by simp⟩
    | some c =>
      rw [uploadEntries_some ((dev.endUpload i).noteStored up) hu _ _ _ _ _ hc]
      refine ⟨hu, _, rfl, ?_⟩
      simp only [List.mem_singleton, forall_eq]
      exact .entry _ _ _ rfl
  | queryFailed hq => exact ⟨hu, [], (List.append_nil _).symm, by simp⟩
  | @queryAnswered i q docs hq hdocs =>
    cases hb : (dev.endQuery i).doesHaveCurrentUserEntrie docs with
    | true =>
      rw [entriesReply_pos _ hb]
      exact ⟨hu, [], (List.append_nil _).symm, by simp⟩
    | false =>
      rw [entriesReply_neg _ hb]
      have hu' : (dev.endQuery i).currentUser = some u := hu
      refine ⟨hu, _, rfl, ?_⟩
      simp only [userPath_eq hu', List.mem_singleton, forall_eq]
      exact .first _

end Device

/-! ## Steps of the world -/

namespace World

variable {ι : Type*} [DecidableEq ι] {w w' : World ι}

theorem sum_setDevice [Fintype ι] {M : Type*} [AddCommGroup M] (f : Device → M) (w : World ι) (d : ι)
    (dev : Device) :
    ∑ d', f ((w.setDevice d dev).devices d') = ∑ d', f (w.devices d') + (f dev - f (w.devices d)) :=
  Outstanding.sum_update f w.devices d dev

/-- The steps of a ledger run. -/
inductive LedgerStep (w : World ι) : Label ι → World ι → Prop
  | app {d : ι} {e : Event} {dev' : Device} (hf : w.fresh e = true)
      (h : (w.devices d).LedgerEffect e dev') :
      LedgerStep w (.app d e) ((w.record e).setDevice d dev')
  | serveQuery {d : ι} {i : ℕ} {q : Query} (hq : (w.devices d).queries[i]? = some q)
      (hnone : q.reply = none) :
      LedgerStep w (.serveQuery d i) (w.setDevice d
        ((w.devices d).answerQuery i q ((w.localView d).entriesOf q.document)))
  | apply {d : ι} {x : Issued} {rest : List Issued} (hq : (w.devices d).queue = x :: rest) :
      LedgerStep w (.apply d true) ((w.setDevice d ((w.devices d).setQueue rest)).commit x)

theorem ledger_cases {l : Label ι} (hl : l.ledger = true) (h : w.step l = some w') :
    LedgerStep w l w' := by
  cases step_effect h with
  | app hf heff => exact .app hf (heff.ledger hl)
  | serveQuery hq hnone => exact .serveQuery hq hnone
  | applied hq => exact .apply hq
  | _ => simp [Label.ledger] at hl

/-- The shared invariant of the runs in which `u` stays signed in. -/
structure LedgerInv (u : Uid) (w : World ι) : Prop where
  signedIn : ∀ d, (w.devices d).currentUser = some u
  writes : ∀ d, ∀ x ∈ (w.devices d).queue, x.Ledger u
  numbers : ∀ k ∈ Key.counters, w.server.HasNumber u k

omit [DecidableEq ι] in
theorem Start.inv {u : Uid} (h : w.Start u) : w.LedgerInv u where
  signedIn := h.signedIn
  writes d x hx := by simp [(h.quiet d).queue] at hx
  numbers := h.numbers

theorem LedgerInv.step {u : Uid} {l : Label ι} (hI : w.LedgerInv u) (h : LedgerStep w l w') :
    w'.LedgerInv u := by
  cases h with
  | @app d e dev' hf h =>
    obtain ⟨hu, new, hq, hnew⟩ := h.writes (hI.signedIn d)
    refine ⟨?_, ?_, by simpa using hI.numbers⟩
    · exact forall_setDevice (P := fun _ dev => dev.currentUser = some u) hu (by simpa using hI.signedIn)
    · refine forall_setDevice (P := fun _ dev => ∀ x ∈ dev.queue, x.Ledger u) ?_
        (by simpa using hI.writes)
      intro x hx
      rw [hq, List.mem_append] at hx
      exact hx.elim (hI.writes d x) (hnew x)
  | @serveQuery d i q hq hnone =>
    refine ⟨?_, ?_, hI.numbers⟩
    · exact forall_setDevice (P := fun _ dev => dev.currentUser = some u) (hI.signedIn d) hI.signedIn
    · exact forall_setDevice (P := fun _ dev => ∀ x ∈ dev.queue, x.Ledger u) (hI.writes d) hI.writes
  | @apply d x rest hq =>
    have hx : ∀ y ∈ x :: rest, y.Ledger u := hq ▸ hI.writes d
    refine ⟨?_, ?_, ?_⟩
    · exact forall_setDevice (P := fun _ dev => dev.currentUser = some u) (hI.signedIn d) hI.signedIn
    · exact forall_setDevice (P := fun _ dev => ∀ x ∈ dev.queue, x.Ledger u)
        (fun y hy => hx y (List.mem_cons_of_mem _ hy)) hI.writes
    · exact fun k hk => (hx x List.mem_cons_self).hasNumber (hI.numbers k hk)

end World

end Datability
