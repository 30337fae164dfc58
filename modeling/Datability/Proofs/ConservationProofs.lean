import Datability.Proofs.LedgerProofs
import Mathlib.Tactic.Linarith
import Mathlib.Tactic.NormNum
import Mathlib.Tactic.Ring

/-!
# Proofs: conservation of money

Every credit is in one of three places: mailed, on the balance, or in a queued increment. A queued
payout counts against the balance with the amount that was mailed, which is what it should take off;
what it does take off is the whole balance at the moment the backend carries it out. Hence the sum of
the three moves exactly when a payout overwrites a balance other than its amount.
-/

namespace Datability

open Transition

/-- What a queued write will do to the balance of `u`, if payouts take off what they mailed. -/
def Issued.money (u : Uid) (x : Issued) : ℚ :=
  match x.write with
  | .increment doc .totalMoneyEarnedLocal q => if doc = u.val then q else 0
  | .updateData _ _ _ => -x.mailed.getD 0
  | _ => 0

namespace Device

variable {dev dev' : Device}

/-- The contribution of a phone to the difference between what was paid and what was credited. -/
def position (u : Uid) (dev : Device) : ℚ :=
  (dev.queue.map (Issued.money u)).sum + dev.mails.sum - dev.credits.sum

/-- No event of a ledger run moves the position: a credit is queued, and a mail queues its payout. -/
theorem LedgerEffect.position {u : Uid} {e : Event} (h : LedgerEffect dev e dev')
    (hu : dev.currentUser = some u) : dev'.position u = dev.position u := by
  cases h with
  | same h he => simp [Device.position, h.queue, h.mails, h.credits]
  | @accepted i scan reply r imageUUID pngData hscan hreply hlo hhi =>
    have hu' : (dev.endScan i scan reply).currentUser = some u := hu
    have hq : (dev.endScan i scan reply).queue = dev.queue := rfl
    have hm : (dev.endScan i scan reply).mails = dev.mails := rfl
    have hc : (dev.endScan i scan reply).credits = dev.credits := rfl
    simp only [Device.position, snapAccepted_queue, snapAccepted_mails, snapAccepted_credits,
      userPath_eq hu', hq, hm, hc, List.map_append, List.sum_append]
    simp [Issued.money]
    ring
  | @sent amount hm =>
    have hc : (dev.mailComposeController amount .sent).credits = dev.credits := rfl
    simp only [Device.position, mailComposeController_sent_queue, mailComposeController_sent_mails, hc,
      List.map_append, List.sum_append]
    simp [Issued.money, Issued.mailed]
    ring
  | uploadFailed hup => rfl
  | @uploaded i up date hup =>
    cases hc : up.challenge.id with
    | none => rw [uploadEntries_none _ _ _ _ _ _ hc]; rfl
    | some c =>
      rw [uploadEntries_some ((dev.endUpload i).noteStored up) hu _ _ _ _ _ hc]
      simp [Device.position, issue, Issued.money, endUpload, noteStored]
  | queryFailed hq => rfl
  | @queryAnswered i q docs hq hdocs =>
    cases hb : (dev.endQuery i).doesHaveCurrentUserEntrie docs with
    | true => rw [entriesReply_pos _ hb]; rfl
    | false =>
      rw [entriesReply_neg _ hb]
      simp [Device.position, issue, countLocal, Issued.money, endQuery]

end Device

namespace World

variable {ι : Type*} [Fintype ι] [DecidableEq ι] {w w' : World ι} {u : Uid}

/-- The accounting invariant. -/
structure MoneyInv (u : Uid) (w : World ι) : Prop extends LedgerInv u w where
  balanced : w.server.counter u .totalMoneyEarnedLocal + ∑ d, (w.devices d).position u = 0

/-- Carrying out a write moves the balance by what the write stood for, unless it is a payout of
another amount than the balance. -/
theorem counter_apply_money {x : Issued} (hx : x.Ledger u) {s : Server}
    (hn : ∃ f, s.users u.val = some f)
    (hs : ∀ amount ∈ x.mailed, s.counter u .totalMoneyEarnedLocal = amount) :
    (s.apply x.write).counter u .totalMoneyEarnedLocal =
      s.counter u .totalMoneyEarnedLocal + x.money u := by
  cases hx with
  | snap p => rw [Server.counter_increment hn]; simp [Issued.money]
  | credit p r hlo hhi => rw [Server.counter_increment hn]; simp [Issued.money]
  | first p => rw [Server.counter_increment hn]; simp [Issued.money]
  | payout a =>
    have ha : s.counter u .totalMoneyEarnedLocal = a := hs a rfl
    rw [Server.counter_updateData hn, ha]
    simp [Issued.money, Issued.mailed]
  | entry p c e he => simp [Issued.money]

theorem MoneyInv.step {l : Label ι} (hI : MoneyInv u w) (hs : SettlesExactly u w l)
    (h : LedgerStep w l w') : MoneyInv u w' := by
  have hL := hI.toLedgerInv.step h
  refine ⟨hL, ?_⟩
  have hbal := hI.balanced
  cases h with
  | @app d e dev' hf h =>
    rw [sum_setDevice]
    simp only [setDevice_server, record_server, record_devices, h.position (hI.signedIn d)]
    linarith
  | @serveQuery d i q hq hnone =>
    rw [sum_setDevice]
    have hp : ((w.devices d).answerQuery i q ((w.localView d).entriesOf q.document)).position u =
        (w.devices d).position u := rfl
    simp only [setDevice_server, hp]
    linarith
  | @apply d x rest hq =>
    have hx : x.Ledger u := hI.writes d x (by simp [hq])
    have hdoc := (hI.numbers .totalMoneyEarnedLocal (by simp [Key.counters])).exists_doc
    have hc := counter_apply_money hx hdoc (fun a ha => hs a (by simpa [hq] using ha))
    have hp : (w.devices d).position u =
        ((w.devices d).setQueue rest).position u + x.money u := by
      simp only [Device.position, Device.setQueue, hq, List.map_cons, List.sum_cons]
      ring
    have hsum := sum_setDevice (Device.position u) w d ((w.devices d).setQueue rest)
    simp only [commit, setDevice_server, hc, hsum, hp]
    linarith

/-- **Conservation of money.** In a run in which every payout overwrites exactly the balance that was
mailed, everything credited is mailed or still on the balance once nothing is in flight. -/
theorem money_conserved {w₀ : World ι} {ls : List (Label ι)} (h₀ : w₀.Start u)
    (hb : w₀.server.field u.val .totalMoneyEarnedLocal = some (.number 0))
    (hl : ∀ l ∈ ls, l.ledger = true) (hr : run World.step w₀ ls = some w)
    (hs : AllSteps World.step (SettlesExactly u) w₀ ls) (hq : w.Quiet) : w.MoneyConserved u := by
  have h0 : MoneyInv u w₀ := by
    refine ⟨h₀.inv, ?_⟩
    rw [Server.counter_eq_of_field hb]
    simp [Device.position, (h₀.quiet _).queue, h₀.mails, h₀.credits]
  have hI : MoneyInv u w := run_invariant
    (fun w l w' hP hI h => hI.step hP.2 (ledger_cases hP.1 h))
    ((allSteps_of_forall_mem hl).and hs) h0 hr
  refine ⟨_, (hI.numbers .totalMoneyEarnedLocal (by simp [Key.counters])).field_eq, ?_⟩
  have hpos : ∀ d, (w.devices d).position u = (w.devices d).mails.sum - (w.devices d).credits.sum := by
    intro d
    simp [Device.position, (hq d).queue]
  have hbal := hI.balanced
  simp only [hpos, Finset.sum_sub_distrib] at hbal
  unfold mailed credited
  linarith

/-- A rose is credited, stored and counted, and then withdrawn from a profile opened afterwards. -/
def freshWithdrawal : List (Label Unit) :=
  [.app () (Sample.capture 0 Sample.roses), .app () (Sample.accept (1 / 2) "a")] ++ Sample.store 3 ++
    Sample.ask ++ [.app () (.selectTab .profile), .app () .pressWithdrawal,
      .app () (.mailResult .sent), .apply () true]

theorem money_conserved_freshWithdrawal :
    ∃ w, run World.step (Sample.world Unit) freshWithdrawal = some w ∧ w.Quiet ∧
      w.MoneyConserved Sample.user := by
  have h : (run World.step (Sample.world Unit) freshWithdrawal).any (fun w => decide w.Quiet) = true := by
    decide +kernel
  obtain ⟨w, hw, hq⟩ := (Option.any_eq_true _ _).1 h
  exact ⟨w, hw, of_decide_eq_true hq, money_conserved (Sample.world_start Unit) (by decide +kernel)
    (by decide) hw (by decide +kernel) (of_decide_eq_true hq)⟩

/-- The profile is opened while the scan is outstanding, so the composer mails the old balance. -/
def staleWithdrawal : List (Label Unit) :=
  [.app () (Sample.capture 0 Sample.roses), .app () (.selectTab .profile),
    .app () (Sample.accept (1 / 2) "a")] ++ Sample.store 3 ++ Sample.ask ++
    [.app () .pressWithdrawal, .app () (.mailResult .sent), .apply () true]

theorem staleWithdrawal_loses_credit :
    (Sample.world Unit).Start Sample.user ∧
      (Sample.world Unit).server.field "u1" .totalMoneyEarnedLocal = some (.number 0) ∧
      (∀ l ∈ staleWithdrawal, l.ledger = true) ∧
      ∃ w, run World.step (Sample.world Unit) staleWithdrawal = some w ∧ w.Quiet ∧
        ¬ w.MoneyConserved Sample.user := by
  refine ⟨Sample.world_start Unit, by decide +kernel, by decide, ?_⟩
  have h : (run World.step (Sample.world Unit) staleWithdrawal).any (fun w => decide (w.Quiet ∧
      w.server.field "u1" .totalMoneyEarnedLocal = some (.number 0) ∧ w.mailed = 0 ∧
      w.credited = 1 / 2)) = true := by decide +kernel
  obtain ⟨w, hw, hp⟩ := (Option.any_eq_true _ _).1 h
  obtain ⟨hq, hf, hm, hc⟩ := of_decide_eq_true hp
  refine ⟨w, hw, hq, ?_⟩
  rintro ⟨b, hb, hsum⟩
  have hb' : b = 0 := by simpa using hb.symm.trans hf
  rw [hm, hc, hb'] at hsum
  norm_num at hsum

end World

end Datability
