import EmailScheduler.Delivery.BatchOutcome

/-!
# An execution and its row

An execution keeps its job, and the row it loads is the row that the job names.
-/

set_option autoImplicit false

namespace EmailScheduler

open Foundation

/-! ## The row an execution has loaded -/

/-- The row an execution has loaded. -/
def Stage.loaded? : Stage → Option LoadedEmail
  | .reserving loaded _ => some loaded
  | .recordingRateLimit loaded _ _ => some loaded
  | .claiming loaded _ => some loaded
  | .claimed loaded _ _ => some loaded
  | .sending d => some d.loaded
  | .recordingAccepted d _ => some d.loaded
  | .recordingFailure d _ => some d.loaded
  | .countingRemaining d _ => some d.loaded
  | .countingUnsuccessful d _ => some d.loaded
  | .labelling d _ _ => some d.loaded
  | _ => none

theorem loaded?_afterSend (d : Sending) (receipt : DeliveryReceipt) :
    (afterSend d receipt).loaded? = some d.loaded := by
  unfold afterSend
  split_ifs <;> rfl

/-- After a step an execution has the row it had before, or the row its query just returned. -/
theorem loaded?_of_advance {config : AppConfig} {job : Job} {input : StepInput} {w w' : World}
    {stage stage' : Stage} (h : advance config job input w stage = some (stage', w'))
    {found : LoadedEmail} (hfound : stage'.loaded? = some found) :
    stage.loaded? = some found ∨
      w.database.findScheduledEmail job.scheduledEmailId = some found := by
  cases advanceCase_of_advance h with
  | due hfind =>
      cases hfound
      exact Or.inr hfind
  | denied => exact Or.inl hfound
  | admitted _ => exact Or.inl hfound
  | claimed _ => exact Or.inl hfound
  | sent => exact Or.inl hfound
  | accepted _ => exact Or.inl hfound
  | notAccepted _ => exact Or.inl hfound
  | failed _ _ => exact Or.inl hfound
  | countedRemaining _ => exact Or.inl hfound
  | countedUnsuccessful => exact Or.inl hfound
  | caughtRemaining => exact Or.inl hfound
  | caughtUnsuccessful => exact Or.inl hfound
  | caughtLabel _ => exact Or.inl hfound
  -- The other cases end in a stage without a row.
  | _ => cases hfound

theorem Stage.loaded?_of_delivery? {stage : Stage} {p : LoadedEmail × ClaimedEmail}
    (h : stage.delivery? = some p) : stage.loaded? = some p.1 := by
  cases stage <;> cases h <;> rfl

namespace Delivery

variable {config : AppConfig} {P : Delivery → DeliveryEvent → Prop} {s t : Delivery}
  {event : DeliveryEvent} {i : Nat}

/-- The job of an execution. -/
def jobOf? (s : Delivery) (i : Nat) : Option Job := s.executions[i]?.map Execution.job

theorem jobOf?_of_getElem? {x : Execution} (h : s.executions[i]? = some x) :
    s.jobOf? i = some x.job := by
  rw [jobOf?, h]
  rfl

theorem jobOf?_moveTo (j : Nat) (stage : Stage) : (s.moveTo j stage).jobOf? i = s.jobOf? i := by
  unfold jobOf? moveTo
  rw [List.getElem?_modify]
  cases s.executions[i]? with
  | none => rfl
  | some x => by_cases h : j = i <;> simp [h]

theorem length_moveTo (j : Nat) (stage : Stage) :
    (s.moveTo j stage).executions.length = s.executions.length :=
  List.length_modify _ _ _

/-- Executions stay and keep their jobs; a delivery adds one. -/
theorem jobOf?_of_step (h : (system config).step event s = some t) :
    (∃ job, event = .deliver job ∧ t.executions = s.executions ++ [⟨job, .loading⟩]) ∨
      t.executions.length = s.executions.length ∧ ∀ i, t.jobOf? i = s.jobOf? i := by
  cases stepCase_of_step h with
  | deliver job => exact Or.inl ⟨job, rfl, rfl⟩
  | advance hx hstage hadvance =>
      exact Or.inr ⟨length_moveTo _ _, fun i => jobOf?_moveTo _ _⟩
  | sendReturns hstage hreceipt =>
      exact Or.inr ⟨length_moveTo _ _, fun i => jobOf?_moveTo _ _⟩
  | sendRefused hstage htransient hpending =>
      exact Or.inr ⟨length_moveTo _ _, fun i => jobOf?_moveTo _ _⟩
  | sendThrows hstage htransient =>
      exact Or.inr ⟨length_moveTo _ _, fun i => jobOf?_moveTo _ _⟩
  | smtpAccepts hpending => exact Or.inr ⟨rfl, fun i => rfl⟩
  | crash hrunning => exact Or.inr ⟨length_moveTo _ _, fun i => jobOf?_moveTo _ _⟩
  | sweep now => exact Or.inr ⟨rfl, fun i => rfl⟩
  | createBatch hleads hok => exact Or.inr ⟨rfl, fun i => rfl⟩
  | updateSender sender => exact Or.inr ⟨rfl, fun i => rfl⟩
  | seed => exact Or.inr ⟨rfl, fun i => rfl⟩
  | tick hclock => exact Or.inr ⟨rfl, fun i => rfl⟩

/-- An execution keeps its job. -/
theorem jobOf?_eq_of_step (h : (system config).step event s = some t) {job : Job}
    (hjob : s.jobOf? i = some job) : t.jobOf? i = some job := by
  rcases jobOf?_of_step h with ⟨new, -, hexecutions⟩ | ⟨-, hsame⟩
  · obtain ⟨x, hx, rfl⟩ := Option.map_eq_some_iff.1 hjob
    have hlt : i < s.executions.length := (List.getElem?_eq_some_iff.1 hx).1
    rw [jobOf?, hexecutions, List.getElem?_append_left hlt, hx]
    rfl
  · rw [hsame i]
    exact hjob

/-- An execution that runs after a step ran before it, for the same job, or it has just been
started. -/
theorem isRunning_of_step (h : (system config).step event s = some t)
    (hrunning : (t.stageOf i).isRunning = true) :
    ((s.stageOf i).isRunning = true ∧ t.jobOf? i = s.jobOf? i) ∨
      ∃ job, event = .deliver job ∧ i = s.executions.length ∧ t.jobOf? i = some job := by
  -- An execution keeps its job.
  have hkept : (s.stageOf i).isRunning = true →
      (s.stageOf i).isRunning = true ∧ t.jobOf? i = s.jobOf? i := by
    intro hold
    obtain ⟨x, hx, -⟩ := exists_of_stageOf_ne_crashed (ne_crashed_of_isRunning hold)
    have hjob := jobOf?_of_getElem? hx
    exact ⟨hold, (jobOf?_eq_of_step h hjob).trans hjob.symm⟩
  cases stageStep_of_step h i with
  | same heq =>
      left
      apply hkept
      rw [← heq]
      exact hrunning
  | delivered job hevent hstage heq =>
      right
      subst hevent
      cases h
      rcases Decidable.em (i = s.executions.length) with hi | hi
      · refine ⟨job, rfl, hi, ?_⟩
        rw [hi]
        simp [jobOf?]
      · rw [stageOf_append, if_neg hi, hstage] at hrunning
        cases hrunning
  | crashed _ heq =>
      rw [heq] at hrunning
      cases hrunning
  | advanced input _ _ hadvance =>
      left
      apply hkept
      cases hstage : s.stageOf i with
      | finished outcome => rw [hstage] at hadvance; cases hadvance
      | crashed => rw [hstage] at hadvance; cases hadvance
      | _ => rfl
  | returned _ _ hstage _ _ =>
      left
      apply hkept
      rw [hstage]
      rfl
  | threw _ _ hstage _ _ =>
      left
      apply hkept
      rw [hstage]
      rfl

/-- No operation crashes an execution. -/
theorem ne_crashed_of_advance {job : Job} {input : StepInput} {w w' : World}
    {stage stage' : Stage} (h : advance config job input w stage = some (stage', w')) :
    stage' ≠ .crashed := by
  intro heq
  rw [heq] at h
  cases advanceCase_of_advance h

/-- An execution crashes by a crash only. -/
theorem crashed_of_step (h : (system config).step event s = some t) :
    event = .crash i ∨ (s.stageOf i ≠ .crashed → t.stageOf i ≠ .crashed) := by
  cases stageStep_of_step h i with
  | same heq =>
      right
      rw [heq]
      exact id
  | delivered job _ hstage _ => exact Or.inr fun hne => absurd hstage hne
  | crashed hevent _ => exact Or.inl hevent
  | advanced input _ _ hadvance => exact Or.inr fun _ => ne_crashed_of_advance hadvance
  | returned d receipt _ heq _ =>
      right
      intro _ hcrashed
      rw [heq] at hcrashed
      have hloaded := loaded?_afterSend d receipt
      rw [hcrashed] at hloaded
      cases hloaded
  | threw d error _ heq _ =>
      right
      intro _
      rw [heq]
      exact Stage.noConfusion

/-- In every state reached, an execution has loaded the row that its job names. -/
theorem loaded_id_eq (h : (system config).Reachable P s) {job : Job} {loaded : LoadedEmail}
    (hjob : s.jobOf? i = some job) (hloaded : (s.stageOf i).loaded? = some loaded) :
    loaded.email.id = job.scheduledEmailId := by
  revert i job loaded
  apply h.invariant (I := fun s => ∀ {i job loaded}, s.jobOf? i = some job →
    (s.stageOf i).loaded? = some loaded → loaded.email.id = job.scheduledEmailId)
  · rintro s ⟨-, -, -, -, -, -, hexecutions⟩ i job loaded hjob
    rw [jobOf?, hexecutions] at hjob
    cases hjob
  · intro s event t _ hstep hinv i job loaded hjob hloaded
    -- The job is the job before: a new execution has not loaded anything.
    have hold : ∀ {found}, (s.stageOf i).loaded? = some found → s.jobOf? i = some job := by
      intro found hfound
      obtain ⟨x, hx, -⟩ := exists_of_stageOf_ne_crashed (s := s) (i := i)
        (by intro heq; rw [heq] at hfound; cases hfound)
      have hkept := jobOf?_eq_of_step hstep (jobOf?_of_getElem? hx)
      rw [hjob] at hkept
      exact (jobOf?_of_getElem? hx).trans hkept.symm
    cases stageStep_of_step hstep i with
    | same heq =>
        rw [heq] at hloaded
        exact hinv (hold hloaded) hloaded
    | delivered _ _ _ heq => rw [heq] at hloaded; cases hloaded
    | crashed _ heq => rw [heq] at hloaded; cases hloaded
    | @advanced x input _ hx hadvance =>
        have hxjob := jobOf?_eq_of_step hstep (jobOf?_of_getElem? hx)
        rw [hjob, Option.some.injEq] at hxjob
        rcases loaded?_of_advance hadvance hloaded with hbefore | hfind
        · exact hinv (hold hbefore) hbefore
        · rw [hxjob]
          exact (Database.findScheduledEmail_eq_some _ hfind).2.1
    | returned d receipt hstage heq =>
        rw [heq, loaded?_afterSend] at hloaded
        have hbefore : (s.stageOf i).loaded? = some loaded := by rw [hstage]; exact hloaded
        exact hinv (hold hbefore) hbefore
    | threw d error hstage heq =>
        rw [heq] at hloaded
        have hbefore : (s.stageOf i).loaded? = some loaded := by rw [hstage]; exact hloaded
        exact hinv (hold hbefore) hbefore

end Delivery

end EmailScheduler
