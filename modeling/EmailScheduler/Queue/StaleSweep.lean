import EmailScheduler.Queue.EmailQueue
import EmailScheduler.Delivery.BatchOutcome

/-!
# The sweep and the batch label

Rows become terminal in two places: in the processor, which runs `updateBatchCompletion` after it,
and in the stale sweep of `reconcileEmailQueue`, which does not. A label that was written is the
label of a batch that was finished already (`BatchInv`), so a batch that the sweep finishes is still
`SCHEDULED` and stays so.
-/

set_option autoImplicit false

namespace EmailScheduler

open Foundation

instance (db : Database) (batchId : Uuid) : Decidable (Finished db batchId) :=
  inferInstanceAs (Decidable (∀ e ∈ db.emailsOf batchId, e.status.isTerminal = true))

/-- The label of a finished batch. -/
def outcomeLabel (db : Database) (batchId : Uuid) : EmailBatchStatus :=
  if ∀ e ∈ db.emailsOf batchId, e.status = .sent then .completed else .partiallyFailed

/-- Every batch that the sweep of a reconciliation finishes has its label when it returns. -/
def SweepLabels (config : AppConfig) (db : Database) (now : Int) : Prop :=
  let after := (reconcileEmailQueue config db now).database
  ∀ b ∈ after.batches, Finished after b.id → ¬ Finished db b.id → b.status = outcomeLabel after b.id

instance (config : AppConfig) (db : Database) (now : Int) : Decidable (SweepLabels config db now) :=
  inferInstanceAs (Decidable (∀ b ∈ (reconcileEmailQueue config db now).database.batches,
    Finished _ b.id → ¬ Finished db b.id → b.status = outcomeLabel _ b.id))

/-- All emails of a batch are terminal or in `PROCESSING` since before the lease, at least one of
them the latter. -/
def AbandonedLast (config : AppConfig) (db : Database) (now : Int) (batchId : Uuid) : Prop :=
  (∀ e ∈ db.emailsOf batchId, e.status.isTerminal = true ∨ isStale config now e = true) ∧
    ∃ e ∈ db.emailsOf batchId, isStale config now e = true

/-! ## What the sweep does to a batch -/

section Sweep

variable {config : AppConfig} {db : Database} {now : Int} {batchId : Uuid}

theorem not_isTerminal_of_isStale {e : ScheduledEmail} (h : isStale config now e = true) :
    e.status.isTerminal = false := by
  rw [(isStale_iff.1 h).1]
  rfl

/-- The rows of a batch after the sweep. -/
theorem mem_emailsOf_sweep {e' : ScheduledEmail} :
    e' ∈ (sweepStaleLeases config db now).2.emailsOf batchId ↔
      ∃ e ∈ db.emailsOf batchId, (if isStale config now e then abandonRow e else e) = e' := by
  rw [Database.mem_emailsOf]
  have hbatch : ∀ e, (if isStale config now e then abandonRow e else e).batchId = e.batchId := by
    intro e
    split <;> rfl
  constructor
  · rintro ⟨he, hid⟩
    obtain ⟨e, hmem, rfl⟩ := mem_updateMany.1 he
    exact ⟨e, (Database.mem_emailsOf db).2 ⟨hmem, (hbatch e).symm.trans hid⟩, rfl⟩
  · rintro ⟨e, he, rfl⟩
    obtain ⟨hmem, hid⟩ := (Database.mem_emailsOf db).1 he
    exact ⟨mem_updateMany.2 ⟨e, hmem, rfl⟩, (hbatch e).trans hid⟩

/-- The sweep leaves a batch finished if its rows are terminal or stale. -/
theorem finished_sweep_iff : Finished (sweepStaleLeases config db now).2 batchId ↔
    ∀ e ∈ db.emailsOf batchId, e.status.isTerminal = true ∨ isStale config now e = true := by
  constructor
  · intro hfin e he
    have hterminal := hfin _ (mem_emailsOf_sweep.2 ⟨e, he, rfl⟩)
    split at hterminal
    next hstale => exact Or.inr hstale
    next => exact Or.inl hterminal
  · intro h e' he'
    obtain ⟨e, he, rfl⟩ := mem_emailsOf_sweep.1 he'
    split
    next => rfl
    next hfresh =>
      rcases h e he with hterminal | hstale
      · exact hterminal
      · exact absurd hstale hfresh

/-- The batches that the sweep finishes. -/
theorem abandonedLast_iff : AbandonedLast config db now batchId ↔
    Finished (sweepStaleLeases config db now).2 batchId ∧ ¬ Finished db batchId := by
  rw [finished_sweep_iff]
  refine and_congr_right fun hall => ⟨?_, fun hopen => ?_⟩
  · rintro ⟨e, he, hstale⟩ hfin
    have hterminal := hfin e he
    rw [not_isTerminal_of_isStale hstale] at hterminal
    cases hterminal
  · by_contra hnone
    refine hopen fun e he => ?_
    rcases hall e he with hterminal | hstale
    · exact hterminal
    · exact absurd ⟨e, he, hstale⟩ hnone

end Sweep

/-! ## Over runs -/

namespace Delivery

variable {config : AppConfig} {s : Delivery}

/-- A batch that is not finished is `SCHEDULED`. -/
theorem scheduled_of_not_finished {P : Delivery → DeliveryEvent → Prop}
    (h : (system config).Reachable P s) {b : EmailBatch} (hb : b ∈ s.database.batches)
    (hopen : ¬ Finished s.database b.id) : b.status = .scheduled := by
  by_contra hlabel
  exact hopen (((batchInv_of_reachable h).label b hb).finished hlabel)

/-- **The sweep never labels.** In every state reached and at every time, a reconciliation leaves
every batch that its sweep finishes with its label exactly if its sweep finishes no batch. -/
theorem sweepLabels_iff (h : (system config).Reachable TransitionSystem.anyStep s) (now : Int) :
    SweepLabels config s.database now ↔
      ∀ b ∈ s.database.batches, ¬ AbandonedLast config s.database now b.id := by
  constructor
  · intro hlabels b hb habandoned
    obtain ⟨hfin, hopen⟩ := abandonedLast_iff.1 habandoned
    have hlabel := hlabels b hb hfin hopen
    rw [scheduled_of_not_finished h hb hopen, outcomeLabel] at hlabel
    split at hlabel <;> cases hlabel
  · intro hnone b hb hfin hopen
    exact absurd (abandonedLast_iff.2 ⟨hfin, hopen⟩) (hnone b hb)

/-- One email, claimed at time 0 by a worker that crashes before it sends. -/
def crashAfterClaim : List DeliveryEvent :=
  [.createBatch (requestFor ["a@test.invalid"]) 10 (fun i => 100 + i), .deliver ⟨100, 0, some 3⟩,
    .advance 0 ⟨0, 0, .done⟩, .advance 0 ⟨0, 0, .done⟩, .advance 0 ⟨0, 70, .done⟩, .crash 0]

/-- Within the lease nothing is swept. -/
theorem sweepLabels_within_lease : ∃ s,
    (system validConfig).run TransitionSystem.anyStep crashAfterClaim oneSenderStart = some s ∧
      (SweepLabels validConfig s.database 30000 ↔
        ∀ b ∈ s.database.batches, ¬ AbandonedLast validConfig s.database 30000 b.id) :=
  ⟨_, rfl, sweepLabels_iff (reachable_from_oneSender crashAfterClaim rfl) 30000⟩

/-- Past the lease the only email becomes `DELIVERY_UNKNOWN` and its batch stays `SCHEDULED`. -/
theorem not_sweepLabels_past_lease : ∃ s,
    (system validConfig).Reachable TransitionSystem.anyStep s ∧
      (∀ x ∈ s.executions, x.stage.isRunning = false) ∧
      (reconcileEmailQueue validConfig s.database 30001).database.emails.map ScheduledEmail.status =
        [.deliveryUnknown] ∧
      (reconcileEmailQueue validConfig s.database 30001).database.batches.map EmailBatch.status =
        [.scheduled] ∧
      ¬ SweepLabels validConfig s.database 30001 :=
  ⟨_, reachable_from_oneSender crashAfterClaim rfl, by decide, by decide, by decide, by decide⟩

end Delivery

end EmailScheduler
