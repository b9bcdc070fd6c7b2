import EmailScheduler.Api.ListTraversal
import EmailScheduler.Refinement

/-!
# The two lists of the dashboard

The dashboard shows a user's emails in two lists, of the emails that are under way and of those that
have come to an end. A client that reads both lists to their ends has read every email of the user
exactly once, and as many emails as the user's batches have valid leads: the lists split the
statuses between them but for `CANCELLED`, which no row of a reachable state has
(`dashboardComplete`).
-/

set_option autoImplicit false

namespace EmailScheduler

open Foundation

/-! ## One list -/

section List

variable {α κ : Type} [LinearOrder κ] {list : EmailList} {item : Tables → StoredEmail → α}
  {position : α → Cursor} {key : Cursor → κ} {schema : CursorSchema} {config : AppConfig}
  {user : Uuid} {limit : Field Int} {senderId : Field Uuid} {input : ListInput} {t : Tables}

/-- A client that reads a list of tables that do not change reads its items. -/
theorem exists_wholeList (hschema : StandardTexts schema) (hlist : PagedList list item position key)
    (ht : Pageable t) (user : Uuid)
    (hinput : listInput config ⟨.missing, limit, senderId⟩ = .ok input) :
    ∃ n items, followCursors schema (listRoute config user list item) limit senderId .missing
      (List.replicate n t) = some items ∧
        items.Perm (shownItems list item user input.senderId t) := by
  have hpositions : ∀ n : Nat, ∀ e ∈ ((fun _ => t) n).emails,
      list.position e ∈ (t.emails.map list.position).toFinset :=
    fun _ e he => List.mem_toFinset.2 (List.mem_map_of_mem he)
  have hend : ∃ n items, followCursors schema (listRoute config user list item) limit senderId
      .missing ((List.range n).map fun _ => t) = some items :=
    exists_followCursors hschema hlist hinput (fun _ => ht) hpositions
  obtain ⟨n, items, hitems⟩ := hend
  rw [List.map_const', List.length_range] at hitems
  refine ⟨n, items, hitems, ?_⟩
  have hstates : ∀ t' ∈ List.replicate n t, Pageable t' := by
    intro t' ht'
    rw [List.eq_of_mem_replicate ht']
    exact ht
  rw [followCursors_eq hschema hlist hinput _ hstates .missing none rfl,
    List.map_replicate] at hitems
  exact perm_of_followPages (one_le_limit hinput) (primaryKey_shownItems hlist ht _) hitems

end List

/-! ## Both lists -/

variable {config : AppConfig} {lib : Libraries} {user : Uuid} {t : Tables}

/-- Both lists of a user, read to their ends. -/
structure DashboardComplete (user : Uuid) (t : Tables) (scheduled : List ScheduledItem)
    (sent : List SentItem) : Prop where
  underWay : ∀ i ∈ scheduled, ∃ e ∈ ownEmails user t, i = scheduledItem t e ∧
    e.status.isTerminal = false
  ended : ∀ i ∈ sent, ∃ e ∈ ownEmails user t, i = sentItem t e ∧ e.status.isTerminal = true
  once : (scheduled.map ScheduledItem.id ++ sent.map SentItem.id).Perm
    ((ownEmails user t).map fun e => e.id)
  recipients : scheduled.length + sent.length =
    ((ownBatches user t).map fun b => b.validRecipientCount).sum

/-- The emails that the first list shows. -/
def scheduledEmails (user : Uuid) (t : Tables) : List StoredEmail :=
  (ownEmails user t).filter fun e => scheduledDashboardStatuses.contains e.status

/-- Those that the second list shows. -/
def sentEmails (user : Uuid) (t : Tables) : List StoredEmail :=
  (ownEmails user t).filter fun e => sentDashboardStatuses.contains e.status

theorem matching_none (list : EmailList) (user : Uuid) (t : Tables) :
    t.emails.filter (list.matching user none t) =
      (ownEmails user t).filter fun e => list.statuses.contains e.status := by
  unfold ownEmails
  rw [List.filter_filter]
  congr 1
  funext e
  unfold EmailList.matching
  dsimp only
  rw [Bool.and_true, Bool.and_comm]

/-- The two lists of statuses split them, but for `CANCELLED`. -/
theorem isTerminal_of_scheduled {status : ScheduledEmailStatus}
    (h : scheduledDashboardStatuses.contains status = true) : status.isTerminal = false := by
  cases status <;> simp_all [scheduledDashboardStatuses, ScheduledEmailStatus.isTerminal]

theorem contains_sent {status : ScheduledEmailStatus} (h : status ≠ .cancelled) :
    sentDashboardStatuses.contains status = !scheduledDashboardStatuses.contains status := by
  cases status <;> simp_all [scheduledDashboardStatuses, sentDashboardStatuses]

/-- **The two lists split the emails** of a user, if none is cancelled. -/
theorem perm_scheduled_sent (h : ∀ e ∈ ownEmails user t, e.status ≠ .cancelled) :
    (scheduledEmails user t ++ sentEmails user t).Perm (ownEmails user t) := by
  have hsent : sentEmails user t =
      (ownEmails user t).filter fun e => !scheduledDashboardStatuses.contains e.status :=
    List.filter_congr fun e he => contains_sent (h e he)
  rw [hsent]
  exact List.filter_append_perm _ _

/-- A user has an email for each valid lead of the own batches. -/
theorem length_ownEmails (h : BatchesFilled t.database) (user : Uuid) :
    (ownEmails user t).length = ((ownBatches user t).map fun b => b.validRecipientCount).sum := by
  have hids : ((ownBatches user t).map fun b => b.id).Nodup := by
    have hkey : PrimaryKey (fun b : StoredBatch => b.id) t.batches := by
      have hnodup := h.ids
      rw [PrimaryKey, Tables.database, List.map_map] at hnodup
      exact hnodup
    exact hkey.filter _
  -- The rows of each batch, counted by the batch they belong to.
  have hcounts : ((ownBatches user t).map fun b => b.validRecipientCount) =
      ((ownBatches user t).map fun b => b.id).map fun id =>
        t.emails.countP fun e => decide (e.batchId = id) := by
    rw [List.map_map]
    apply List.map_congr_left
    intro b hb
    have hlength := (h.rows _ (List.mem_map_of_mem (mem_ownBatches.1 hb).1)).length
    rw [← hlength, Database.emailsOf, ← List.countP_eq_length_filter,
      Tables.database, List.countP_map]
    rfl
  rw [hcounts, sum_countP_eq hids (fun e : StoredEmail => e.batchId), ownEmails,
    ← List.countP_eq_length_filter]
  congr 1
  funext e
  rw [Bool.eq_iff_iff, ownsEmail_iff, decide_eq_true_eq, List.mem_map]
  constructor
  · rintro ⟨b, hb, hid, hown⟩
    exact ⟨b, mem_ownBatches.2 ⟨hb, hown⟩, hid⟩
  · rintro ⟨b, hb, hid⟩
    obtain ⟨hb, hown⟩ := mem_ownBatches.1 hb
    exact ⟨b, hb, hid, hown⟩

/-- No row of a filled batch is cancelled. -/
theorem BatchesFilled.ne_cancelled (h : BatchesFilled t.database) {e : StoredEmail}
    (he : e ∈ t.emails) : e.status ≠ .cancelled := by
  have hmem : e.toScheduledEmail ∈ t.database.emails := List.mem_map_of_mem he
  obtain ⟨b, hb, hid⟩ := h.emailBatch _ hmem
  exact (h.rows b hb).notCancelled _ (t.database.mem_emailsOf.2 ⟨hmem, hid.symm⟩)

theorem dashboardComplete_of_perm (h : BatchesFilled t.database) {scheduled : List ScheduledItem}
    {sent : List SentItem}
    (hscheduled : scheduled.Perm ((scheduledEmails user t).map (scheduledItem t)))
    (hsent : sent.Perm ((sentEmails user t).map (sentItem t))) :
    DashboardComplete user t scheduled sent := by
  have hcancelled : ∀ e ∈ ownEmails user t, e.status ≠ .cancelled := fun e he =>
    h.ne_cancelled (List.mem_of_mem_filter he)
  have hsplit := perm_scheduled_sent hcancelled
  refine ⟨?_, ?_, ?_, ?_⟩
  · intro i hi
    obtain ⟨e, he, rfl⟩ := List.mem_map.1 (hscheduled.mem_iff.1 hi)
    obtain ⟨hown, hstatus⟩ := List.mem_filter.1 he
    exact ⟨e, hown, rfl, isTerminal_of_scheduled hstatus⟩
  · intro i hi
    obtain ⟨e, he, rfl⟩ := List.mem_map.1 (hsent.mem_iff.1 hi)
    obtain ⟨hown, hstatus⟩ := List.mem_filter.1 he
    refine ⟨e, hown, rfl, ?_⟩
    cases hs : e.status <;> simp_all [sentDashboardStatuses, ScheduledEmailStatus.isTerminal]
  · have hids := (hscheduled.map ScheduledItem.id).append (hsent.map SentItem.id)
    rw [List.map_map, List.map_map] at hids
    refine hids.trans ?_
    have hmap := hsplit.map fun e => e.id
    rwa [List.map_append] at hmap
  · rw [hscheduled.length_eq, hsent.length_eq, List.length_map, List.length_map,
      ← List.length_append,
      hsplit.length_eq, length_ownEmails h]

namespace Application

variable {s : Application} {P : Application → ApplicationEvent → Prop}

/-- No two stored emails have one id. -/
theorem primaryKey_storedEmails (h : (system config lib).Reachable P s) :
    PrimaryKey (fun e : StoredEmail => e.id) s.tables.emails := by
  have hsynced : s.tables.database = { s.delivery.database with attempts := [] } :=
    synced_of_reachable h
  have hemails : s.tables.emails.map (fun e => e.toScheduledEmail) = s.delivery.database.emails :=
    congrArg Database.emails hsynced
  have hids := Delivery.primaryKey_emails (delivery_reachable h)
  unfold PrimaryKey at hids ⊢
  rw [← hemails, List.map_map] at hids
  exact hids

/-- **The dashboard is complete.** In a state that any logins, requests and steps of the worker lead
to, a client that follows the cursors of both lists to their ends has read each email of the user
once, in the list that its status belongs to, and one email for each valid lead of the user's
batches. -/
theorem dashboardComplete (h : (system config lib).Reachable P s)
    (hreadable : ReadablePositions s.tables) {schema : CursorSchema}
    (hschema : StandardTexts schema) {limit : Field Int} {input : ListInput}
    (hinput : listInput config ⟨.missing, limit, .missing⟩ = .ok input) (user : Uuid) :
    ∃ n m scheduled sent,
      followCursors schema (getScheduled config user) limit .missing .missing
          (List.replicate n s.tables) = some scheduled ∧
        followCursors schema (getSent config user) limit .missing .missing
          (List.replicate m s.tables) = some sent ∧
        DashboardComplete user s.tables scheduled sent := by
  have hpageable : Pageable s.tables := ⟨hreadable, primaryKey_storedEmails h⟩
  obtain ⟨-, -, hsender, -⟩ := listInput_eq_ok hinput
  have hnone : input.senderId = none := (Option.some.inj hsender).symm
  obtain ⟨n, scheduled, hscheduled, hperm⟩ :=
    exists_wholeList hschema pagedList_scheduledList hpageable user hinput
  obtain ⟨m, sent, hsent, hperm'⟩ :=
    exists_wholeList hschema pagedList_sentList hpageable user hinput
  rw [shownItems, hnone, matching_none] at hperm hperm'
  exact ⟨n, m, scheduled, sent, hscheduled, hsent,
    dashboardComplete_of_perm (batchesFilled_of_reachable h) hperm hperm'⟩

/-- One of two emails has been sent; the ids are UUIDs. -/
theorem dashboardComplete_of_sentOnce : ∃ s t,
    (system validConfig testLibraries).run TransitionSystem.anyStep
        (firstBatch 0x40008000000000000000) start = some s ∧
      (system validConfig testLibraries).run TransitionSystem.anyStep
        (working validConfig (sentOnce 0x40008000000000000000) s) s = some t ∧
      (ownEmails 1 t.tables).map (fun e => e.status) = [.sent, .scheduled] ∧
      ∃ n m scheduled sent,
        followCursors plainCursors (getScheduled validConfig 1) (.value 1) .missing .missing
            (List.replicate n t.tables) = some scheduled ∧
          followCursors plainCursors (getSent validConfig 1) (.value 1) .missing .missing
            (List.replicate m t.tables) = some sent ∧
          DashboardComplete 1 t.tables scheduled sent := by
  have hrun : ((system validConfig testLibraries).run TransitionSystem.anyStep
      (firstBatch 0x40008000000000000000) start).any (fun s =>
        ((system validConfig testLibraries).run TransitionSystem.anyStep
          (working validConfig (sentOnce 0x40008000000000000000) s) s).any fun t =>
            decide ((ownEmails 1 t.tables).map (fun e => e.status) = [.sent, .scheduled] ∧
              (∀ e ∈ t.tables.emails, IsRfcUuid e.id) ∧
              (∀ e ∈ t.tables.emails, FourDigitYear e.nextAttemptAt) ∧
              ∀ e ∈ t.tables.emails, FourDigitYear e.updatedAt)) = true := by
    decide +kernel
  obtain ⟨s, hs, hrest⟩ := (Option.any_eq_true _ _).1 hrun
  obtain ⟨t, ht, hcheck⟩ := (Option.any_eq_true _ _).1 hrest
  obtain ⟨hstatuses, hrfc, hnext, hupdated⟩ := of_decide_eq_true hcheck
  exact ⟨s, t, hs, ht, hstatuses, dashboardComplete
    ((TransitionSystem.reachable_of_run _ start_init hs).trans (TransitionSystem.steps_of_run _ ht))
    ⟨hrfc, hnext, hupdated⟩ standardTexts_plainCursors
    (by decide +kernel : listInput validConfig ⟨.missing, .value 1, .missing⟩ =
      .ok ⟨none, 1, none⟩) 1⟩

end Application

end EmailScheduler
