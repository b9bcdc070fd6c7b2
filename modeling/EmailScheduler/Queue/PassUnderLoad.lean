import EmailScheduler.Queue.EmailQueue
import EmailScheduler.Delivery.Rows

/-!
# A pass while workers run

A pass of `enqueueEmailBatch` or `reconcileEmailQueue` whose page queries are interleaved with steps
of the delivery system. Each page query starts from a cursor row that the pass has just made
available to the workers. Once a worker has claimed it the row no longer matches `where`, and `skip:
1` drops the first row after it instead: that row is not enqueued although its status never changed.

The router's list endpoints continue from a key comparison instead of a cursor and `skip`.
-/

set_option autoImplicit false

namespace EmailScheduler

open Foundation

/-- The delivery system, a pass over its rows, and the ids of the rows that have been in the pass's
scope since it began. -/
structure PassState where
  delivery : Delivery
  pass : EnqueuePass
  remained : List Uuid

inductive PassEvent where
  | worker (event : DeliveryEvent)
  | page (now : Int)

/-- The ids of the rows in scope. -/
def PassScope.ids (scope : PassScope) (rows : List ScheduledEmail) : List Uuid :=
  (rows.filter scope.selects).map ScheduledEmail.id

theorem PassScope.mem_ids {scope : PassScope} {rows : List ScheduledEmail} {id : Uuid} :
    id ∈ scope.ids rows ↔ ∃ e ∈ rows, scope.selects e = true ∧ e.id = id := by
  simp only [ids, List.mem_map, List.mem_filter, and_assoc]

namespace PassState

/-- The rows that a page query reads. -/
abbrev rows (s : PassState) : List ScheduledEmail := s.delivery.database.emails

/-- A step of a worker or an iteration of the pass. The run ends when the pass returns. -/
def step (config : AppConfig) (scope : PassScope) (event : PassEvent) (s : PassState) :
    Option PassState :=
  if s.pass.returned then none
  else
    match event with
    | .worker event => (Delivery.step config event s.delivery).map fun d =>
        ⟨d, s.pass, s.remained.filter fun id => id ∈ scope.ids d.database.emails⟩
    | .page now => some { s with pass := scope.fetch config now s.rows s.pass }

/-- A pass starts on any rows with distinct ids. -/
def system (config : AppConfig) (scope : PassScope) : TransitionSystem PassState PassEvent where
  init s := PrimaryKey ScheduledEmail.id s.rows ∧ s.pass = {} ∧ s.remained = scope.ids s.rows
  step := step config scope

/-- Every row that was in scope during the whole pass was passed to `addBulk` under its own job
id. -/
def Covered (s : PassState) : Prop := ∀ e ∈ s.rows, e.id ∈ s.remained → s.pass.Handed e

instance (s : PassState) : Decidable s.Covered :=
  inferInstanceAs (Decidable (∀ e ∈ s.rows, e.id ∈ s.remained → s.pass.Handed e))

/-- The row that `skip: 1` drops at a page query is the cursor's own, or is not among `kept`. -/
def skipsCursorRow (scope : PassScope) (kept : List Uuid) (s : PassState) : PassEvent → Bool
  | .worker _ => true
  | .page _ => (skippedRow scope.selects ScheduledEmail.id s.pass.cursor s.rows).all fun e =>
      decide (s.pass.cursor = some e.id ∨ e.id ∉ kept)

/-- The condition on the steps of a run. -/
def SkipsCursorRow (scope : PassScope) (kept : List Uuid) (s : PassState) (event : PassEvent) :
    Prop :=
  s.skipsCursorRow scope kept event = true

instance (scope : PassScope) (kept : List Uuid) (s : PassState) (event : PassEvent) :
    Decidable (SkipsCursorRow scope kept s event) :=
  inferInstanceAs (Decidable (_ = true))

variable {config : AppConfig} {scope : PassScope} {s t : PassState} {event : PassEvent}

/-! ## Steps -/

theorem step_cases (h : (system config scope).step event s = some t) :
    s.pass.returned = false ∧
      ((∃ e d, event = .worker e ∧ (Delivery.system config).step e s.delivery = some d ∧
          t = ⟨d, s.pass, s.remained.filter fun id => id ∈ scope.ids d.database.emails⟩) ∨
        ∃ now, event = .page now ∧
          t = { s with pass := scope.fetch config now s.rows s.pass }) := by
  simp only [system, step] at h
  split at h
  next => cases h
  next hrunning =>
    refine ⟨by simpa using hrunning, ?_⟩
    cases event with
    | worker e =>
        obtain ⟨d, hd, rfl⟩ := Option.map_eq_some_iff.1 h
        exact Or.inl ⟨e, d, rfl, hd, rfl⟩
    | page now =>
        cases h
        exact Or.inr ⟨now, rfl, rfl⟩

/-- What every state of a run satisfies: ids are distinct, a row that remained is in scope, and the
jobs passed on so far are behind the loop. -/
structure PassInv (scope : PassScope) (s : PassState) : Prop where
  key : PrimaryKey ScheduledEmail.id s.rows
  remained : ∀ id ∈ s.remained, ∃ e ∈ s.rows, scope.selects e = true ∧ e.id = id
  jobs : ∀ job ∈ s.pass.jobs, ¬ s.pass.Waits job.data.scheduledEmailId

theorem passInv_init (h : (system config scope).init s) : PassInv scope s := by
  obtain ⟨hkey, hpass, hremained⟩ := h
  refine ⟨hkey, fun id hid => ?_, fun job hjob => ?_⟩
  · rw [hremained] at hid
    exact PassScope.mem_ids.1 hid
  · rw [hpass] at hjob
    cases hjob

theorem passInv_step (hinv : PassInv scope s) (h : (system config scope).step event s = some t) :
    PassInv scope t := by
  obtain ⟨hrunning, ⟨e, d, -, hd, rfl⟩ | ⟨now, -, rfl⟩⟩ := step_cases h
  · obtain ⟨f, new, hrows⟩ := Delivery.emailsStep hd
    refine ⟨hrows.primaryKey hinv.key, fun id hid => ?_, hinv.jobs⟩
    have hmem := (List.mem_filter.1 hid).2
    exact PassScope.mem_ids.1 (of_decide_eq_true hmem)
  · refine ⟨hinv.key, hinv.remained, fun job hjob => ?_⟩
    have hjob : job ∈ s.pass.jobs ++
        enqueueEmailRows (s.pass.page scope.selects config.pageSize s.rows) now := by
      rw [← EnqueuePass.fetch_jobs]
      exact hjob
    rcases List.mem_append.1 hjob with hold | hnew
    · exact (EnqueuePass.not_waits_fetch config.one_le_pageSize hinv.key hrunning
        (hinv.jobs job hold)).1
    · obtain ⟨e, he, rfl⟩ := List.mem_map.1 hnew
      exact EnqueuePass.not_waits_of_mem_page config.one_le_pageSize hinv.key he

/-! ## Rows that are handed over -/

/-- Every row that remained and is to be kept is handed over or still to come. -/
def OnTrack (kept : List Uuid) (s : PassState) : Prop :=
  ∀ e ∈ s.rows, e.id ∈ s.remained → e.id ∈ kept → s.pass.Handed e ∨ s.pass.Waits e.id

theorem onTrack_init (kept : List Uuid) (h : (system config scope).init s) : OnTrack kept s := by
  intro e _ _ _
  rw [h.2.1]
  exact Or.inr ⟨rfl, fun c hc => by cases hc⟩

/-- **Step lemma.** A page query that skips the cursor's row, or a row that need not be kept, leaves
every row on track; so does every step of a worker. -/
theorem onTrack_step {kept : List Uuid} (hinv : PassInv scope s)
    (hskip : SkipsCursorRow scope kept s event) (h : (system config scope).step event s = some t)
    (htrack : OnTrack kept s) : OnTrack kept t := by
  obtain ⟨hrunning, ⟨e, d, -, hd, rfl⟩ | ⟨now, rfl, rfl⟩⟩ := step_cases h
  · -- A change of the database keeps ids, and new rows have not remained.
    intro e' he' hremained hkept
    obtain ⟨f, new, hrows⟩ := Delivery.emailsStep hd
    have hold := (List.mem_filter.1 hremained).1
    rcases hrows.mem he' with ⟨e, he, rfl, hstep⟩ | hnew
    · rw [hstep.id_eq] at hold hkept ⊢
      rcases htrack e he hold hkept with ⟨job, hjob, hid, hdata⟩ | hwaits
      · exact Or.inl ⟨job, hjob, hid.trans hstep.bullJobId_eq.symm, hdata.trans hstep.id_eq.symm⟩
      · exact Or.inr hwaits
    · obtain ⟨e, he, -, hid⟩ := hinv.remained _ hold
      exact absurd hid.symm ((hrows.new_rows e' hnew).fresh e he)
  · -- The next page hands a waiting row over, unless the cursor jumps past it.
    intro e he hremained hkept
    rcases htrack e he hremained hkept with hhanded | hwaits
    · exact Or.inl (EnqueuePass.handed_fetch hhanded)
    · obtain ⟨q, hq, hscope, hid⟩ := hinv.remained e.id hremained
      rw [hinv.key.eq_of_key_eq hq he hid] at hscope
      refine EnqueuePass.handed_or_waits_fetch config.one_le_pageSize hinv.key he hscope hwaits ?_
      intro hskipped
      simp only [SkipsCursorRow, skipsCursorRow, hskipped, Option.all_some, decide_eq_true_eq]
        at hskip
      rcases hskip with hcursor | hnot
      · exact Nat.lt_irrefl _ (hwaits.2 e.id hcursor)
      · exact hnot hkept

/-! ## Rows that are lost -/

/-- An id that the loop has passed without handing a job over. -/
def Lost (id : Uuid) (s : PassState) : Prop :=
  ¬ s.pass.Waits id ∧ ∀ job ∈ s.pass.jobs, job.data.scheduledEmailId ≠ id

theorem lost_fetch {now : Int} {id : Uuid}
    (hjobs : ∀ job ∈ s.pass.jobs, job.data.scheduledEmailId ≠ id)
    (h : ¬ (scope.fetch config now s.rows s.pass).Waits id ∧
      ∀ e ∈ s.pass.page scope.selects config.pageSize s.rows, e.id ≠ id) :
    Lost id { s with pass := scope.fetch config now s.rows s.pass } := by
  refine ⟨h.1, fun job hjob => ?_⟩
  have hjob : job ∈ s.pass.jobs ++
      enqueueEmailRows (s.pass.page scope.selects config.pageSize s.rows) now := by
    rw [← EnqueuePass.fetch_jobs]
    exact hjob
  rcases List.mem_append.1 hjob with hold | hnew
  · exact hjobs job hold
  · obtain ⟨e, he, rfl⟩ := List.mem_map.1 hnew
    exact h.2 e he

/-- What is lost stays lost. -/
theorem lost_step {id : Uuid} (hinv : PassInv scope s)
    (h : (system config scope).step event s = some t) (hlost : Lost id s) : Lost id t := by
  obtain ⟨hrunning, ⟨e, d, -, -, rfl⟩ | ⟨now, -, rfl⟩⟩ := step_cases h
  · exact hlost
  · exact lost_fetch hlost.2
      (EnqueuePass.not_waits_fetch config.one_le_pageSize hinv.key hrunning hlost.1)

/-- A page query that skips another row than the cursor's loses it. -/
theorem lost_of_skips {kept : List Uuid} (hinv : PassInv scope s)
    (hskip : ¬ SkipsCursorRow scope kept s event)
    (h : (system config scope).step event s = some t) :
    ∃ id ∈ kept, Lost id t := by
  obtain ⟨hrunning, ⟨e, d, rfl, -, -⟩ | ⟨now, rfl, rfl⟩⟩ := step_cases h
  · exact absurd rfl hskip
  · cases hskipped : skippedRow scope.selects ScheduledEmail.id s.pass.cursor s.rows with
    | none => simp [SkipsCursorRow, skipsCursorRow, hskipped] at hskip
    | some e =>
        simp only [SkipsCursorRow, skipsCursorRow, hskipped, Option.all_some, decide_eq_true_eq,
          not_or, not_not] at hskip
        obtain ⟨hne, hkept⟩ := hskip
        have hwaits : s.pass.Waits e.id := by
          refine ⟨hrunning, fun c hc => Nat.lt_of_le_of_ne ((mem_of_skippedRow hskipped).2 c hc) ?_⟩
          rintro rfl
          exact hne hc
        refine ⟨e.id, hkept, lost_fetch (fun job hjob heq => ?_)
          (EnqueuePass.not_waits_of_skipped config.one_le_pageSize hinv.key hskipped)⟩
        exact hinv.jobs job hjob (by rw [heq]; exact hwaits)

/-! ## Whole passes -/

variable {events : List PassEvent}

theorem passInv_of_steps (hinv : PassInv scope s)
    (h : (system config scope).Steps TransitionSystem.anyStep s t) : PassInv scope t :=
  h.invariant hinv fun _ _ _ _ hstep hinv => passInv_step hinv hstep

theorem lost_of_steps {id : Uuid} (hinv : PassInv scope s) (hlost : Lost id s)
    (h : (system config scope).Steps TransitionSystem.anyStep s t) : Lost id t := by
  have hend : PassInv scope t ∧ Lost id t :=
    h.invariant (I := fun s => PassInv scope s ∧ Lost id s) ⟨hinv, hlost⟩
      fun _ _ _ _ hstep hboth => ⟨passInv_step hboth.1 hstep, lost_step hboth.1 hstep hboth.2⟩
  exact hend.2

/-- A run that skips cursor rows only covers the scope when it returns. -/
theorem covered_of_steps (hs : (system config scope).init s)
    (h : (system config scope).Steps (SkipsCursorRow scope t.remained) s t)
    (hreturned : t.pass.returned = true) : t.Covered := by
  have hend : PassInv scope t ∧ OnTrack t.remained t :=
    h.invariant (I := fun s => PassInv scope s ∧ OnTrack t.remained s)
      ⟨passInv_init hs, onTrack_init _ hs⟩ fun _ _ _ hskip hstep hboth =>
        ⟨passInv_step hboth.1 hstep, onTrack_step hboth.1 hskip hstep hboth.2⟩
  intro e he hremained
  rcases hend.2 e he hremained hremained with hhanded | hwaits
  · exact hhanded
  · rw [hwaits.1] at hreturned
    cases hreturned

/-- Nothing is lost in a state that covers the scope. -/
theorem not_lost_of_covered (hinv : PassInv scope t) (hcovered : t.Covered) {id : Uuid}
    (hid : id ∈ t.remained) : ¬ Lost id t := by
  intro hlost
  obtain ⟨e, he, -, rfl⟩ := hinv.remained id hid
  obtain ⟨job, hjob, -, hdata⟩ := hcovered e he hid
  exact hlost.2 job hjob hdata

/-- A run that ends in a covered scope has skipped cursor rows only. -/
theorem run_of_covered (hinv : PassInv scope s)
    (h : (system config scope).run TransitionSystem.anyStep events s = some t)
    (hcovered : t.Covered) :
    (system config scope).run (SkipsCursorRow scope t.remained) events s = some t := by
  have htinv := passInv_of_steps hinv (TransitionSystem.steps_of_run _ h)
  induction events generalizing s with
  | nil => exact h
  | cons event events ih =>
      simp only [TransitionSystem.run, TransitionSystem.anyStep] at h
      obtain ⟨u, hstep, hrun⟩ := Option.bind_eq_some_iff.1 h
      have huinv := passInv_step hinv hstep
      have hskip : SkipsCursorRow scope t.remained s event := by
        by_contra hnot
        obtain ⟨id, hid, hlost⟩ := lost_of_skips hinv hnot hstep
        exact not_lost_of_covered htinv hcovered hid
          (lost_of_steps huinv hlost (TransitionSystem.steps_of_run _ hrun))
      rw [TransitionSystem.run, if_pos hskip, hstep]
      exact ih huinv hrun

/-- **What a pass under load covers.** When a pass returns, it has enqueued every row that was in
its scope throughout exactly if at each page query the skipped row was the cursor's own, or a row
that left the scope before the pass returned. -/
theorem covered_iff_run (hs : (system config scope).init s)
    (h : (system config scope).run TransitionSystem.anyStep events s = some t)
    (hreturned : t.pass.returned = true) :
    t.Covered ↔
      (system config scope).run (SkipsCursorRow scope t.remained) events s = some t :=
  ⟨run_of_covered (passInv_init hs) h, fun hrun =>
    covered_of_steps hs (TransitionSystem.steps_of_run _ hrun) hreturned⟩

/-! ## Passes that no worker gets in between -/

/-- The iterations of the loop are page queries of a pass. -/
theorem steps_loop (s : PassState) (clock : List Int) :
    (system config scope).Steps (fun _ event => ∃ now, event = .page now) s
      { s with pass := EnqueuePass.loop scope.selects config.pageSize s.rows clock s.pass } := by
  induction clock generalizing s with
  | nil => exact .refl
  | cons now clock ih =>
      rw [EnqueuePass.loop]
      split
      next => exact .refl
      next hrunning =>
        have hstep : (system config scope).step (.page now) s =
            some { s with pass := scope.fetch config now s.rows s.pass } := by
          simp [system, step, hrunning]
        exact (TransitionSystem.Steps.single ⟨now, rfl⟩ hstep).trans
          (ih { s with pass := scope.fetch config now s.rows s.pass })

/-- `enqueueEmailBatch` by itself covers the batch. -/
theorem covered_enqueueEmailBatch {batchId : Uuid} (hs : (system config (.batch batchId)).init s)
    {clock : List Int} (hclock : s.rows.length < clock.length) :
    ∃ t, (system config (.batch batchId)).Steps (fun _ event => ∃ now, event = .page now) s t ∧
      t.pass = enqueueEmailBatch config s.delivery.database batchId clock ∧ t.Covered := by
  obtain ⟨hkey, hpass, hremained⟩ := hs
  refine ⟨_, steps_loop s clock, by rw [hpass]; rfl, ?_⟩
  intro e he hid
  obtain ⟨e', he', hscope, heq⟩ := PassScope.mem_ids.1 (hremained ▸ hid)
  obtain rfl := hkey.eq_of_key_eq he' he heq
  rw [hpass]
  exact EnqueuePass.loop_handed config.one_le_pageSize hkey hclock he hscope

/-! ## One row per page -/

/-- `validConfig` with pages of one row. -/
def onePerPage : AppConfig :=
  { validConfig with
    reconciliationBatchSize := 1
    fields_valid := by decide
    refined := by decide }

/-- Three scheduled emails, with ids 100 to 102, of the batch 10. -/
def threeScheduled : Delivery :=
  (Delivery.step onePerPage (.createBatch
    (Delivery.requestFor ["a@test.invalid", "b@test.invalid", "c@test.invalid"]) 10 fun i =>
      100 + i)
    Delivery.oneSenderStart).getD Delivery.oneSenderStart

/-- The start of a pass. -/
def passStart (scope : PassScope) (delivery : Delivery) : PassState :=
  ⟨delivery, {}, scope.ids delivery.database.emails⟩

/-- Four page queries, with the first email claimed after the last of them. -/
def quietPass : List PassEvent :=
  [.page 0, .worker (.deliver ⟨100, 0, some 3⟩), .page 0, .page 0, .page 0]

theorem covered_after_quietPass : ∃ t,
    (system onePerPage (.batch 10)).run TransitionSystem.anyStep quietPass
      (passStart (.batch 10) threeScheduled) = some t ∧
    t.pass.jobs.map (fun job => job.data.scheduledEmailId) = [100, 101, 102] ∧
    (t.Covered ↔ (system onePerPage (.batch 10)).run (SkipsCursorRow (.batch 10) t.remained)
      quietPass (passStart (.batch 10) threeScheduled) = some t) :=
  ⟨_, rfl, by decide, covered_iff_run ⟨by decide, rfl, rfl⟩ rfl rfl⟩

/-- The first email is claimed as soon as it is enqueued: the next page query skips the second. -/
def claimedCursor : List PassEvent :=
  [.page 0, .worker (.deliver ⟨100, 0, some 3⟩), .worker (.advance 0 ⟨0, 0, .done⟩),
    .worker (.advance 0 ⟨0, 0, .done⟩), .worker (.advance 0 ⟨0, 70, .done⟩), .page 0, .page 0]

theorem not_covered_after_claimedCursor : ∃ t,
    (system onePerPage (.batch 10)).init (passStart (.batch 10) threeScheduled) ∧
    (system onePerPage (.batch 10)).run TransitionSystem.anyStep claimedCursor
      (passStart (.batch 10) threeScheduled) = some t ∧
    t.pass.returned = true ∧
      t.rows.map ScheduledEmail.status = [.processing, .scheduled, .scheduled] ∧
    t.pass.jobs.map (fun job => job.data.scheduledEmailId) = [100, 102] ∧ ¬ t.Covered :=
  ⟨_, ⟨by decide, rfl, rfl⟩, rfl, rfl, by decide, by decide, by decide⟩

end PassState

end EmailScheduler
