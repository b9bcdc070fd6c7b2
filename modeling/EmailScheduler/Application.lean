import EmailScheduler.Api.SenderPolicies
import EmailScheduler.Api.ScheduleLayout

/-!
# The API and the worker over one database

`Application` is the state of both: the tables as the API sees them, and the delivery system, whose
database has the same senders, batches and emails. A login or a request writes the tables; a step of
the worker writes the database, and the tables follow.

In every state reached from an empty database, every sender has a policy within the bounds of the
configuration, and so has every call of `reserve` that an execution is about to make
(`policiesInRange`).
-/

set_option autoImplicit false

namespace EmailScheduler

open Foundation

structure Application where
  tables : Tables
  delivery : Delivery

/-- A login, a request of a user, or a step of the worker, after which the tables are the given
ones. -/
inductive ApplicationEvent where
  | login (identity : GoogleIdentity) (ctx : LoginContext)
  | request (user : Uuid) (request : EmailRequest) (ctx : RequestContext)
  | work (event : DeliveryEvent) (tables : Tables)

/-- The step of the delivery system is one of the API's. -/
def DeliveryEvent.isRequest : DeliveryEvent → Bool
  | .createBatch _ _ _ | .updateSender _ => true
  | _ => false

namespace Application

/-- The state after the API wrote the tables. -/
def write (s : Application) (t : Tables) : Application where
  tables := t
  delivery := s.delivery.withDatabase { t.database with attempts := s.delivery.database.attempts }

/-- A step of the worker. The times at which rows were written are columns of the tables only. -/
def work (config : AppConfig) (event : DeliveryEvent) (tables : Tables) (s : Application) :
    Option Application :=
  if event.isRequest then none
  else (Delivery.step config event s.delivery).bind fun d =>
    if tables.users = s.tables.users ∧ tables.database = { d.database with attempts := [] } then
      some ⟨tables, d⟩
    else none

/-- One step. -/
def step (config : AppConfig) (lib : Libraries) :
    ApplicationEvent → Application → Option Application
  | .login identity ctx, s => some (s.write (upsertGoogleUser config identity ctx s.tables).2)
  | .request user request ctx, s =>
      some (s.write (serve config lib user ctx request s.tables).tables)
  | .work event tables, s => s.work config event tables

/-- Runs start with an empty database, and nothing delivered. -/
def system (config : AppConfig) (lib : Libraries) :
    TransitionSystem Application ApplicationEvent where
  init s := s.tables = {} ∧ (Delivery.system config).init s.delivery ∧
    s.delivery.database.senders = []
  step := step config lib

variable {config : AppConfig} {lib : Libraries} {s t : Application} {d d' : Delivery}
  {event : DeliveryEvent} {tables : Tables}

theorem work_eq_some (h : s.work config event tables = some t) :
    event.isRequest = false ∧ (Delivery.system config).step event s.delivery = some t.delivery ∧
      t.tables = tables ∧ tables.users = s.tables.users ∧
      tables.database = { t.delivery.database with attempts := [] } := by
  unfold work at h
  split_ifs at h with hrequest
  · obtain ⟨d, hstep, hkept⟩ := Option.bind_eq_some_iff.1 h
    split_ifs at hkept with hguard
    · cases hkept
      exact ⟨Bool.eq_false_iff.2 hrequest, hstep, rfl, hguard.1, hguard.2⟩

/-- The worker does not write senders. -/
theorem senders_of_work (hwork : event.isRequest = false)
    (h : (Delivery.system config).step event d = some d') :
    d'.database.senders = d.database.senders := by
  cases Delivery.stepCase_of_step h with
  | advance hx hstage hadvance =>
      rcases parents_of_advance hadvance with
        ⟨hsenders, -⟩ | ⟨sending, recorded, unsuccessful, hlabel⟩
      · exact hsenders
      · rw [hlabel] at hadvance
        cases hadvance
        -- The label is written on the batch only.
        refine Reply.deliver_snd _ _ _ (R := fun db => db.senders = d.database.senders) rfl ?_
        intro _ db hok
        rw [labelBatch_eq_ok hok]
  | createBatch => cases hwork
  | updateSender => cases hwork
  | _ => rfl

/-- After a step an execution has the row it had before, or one with a sender of the database. -/
theorem loaded?_of_step (h : (Delivery.system config).step event d = some d') {i : Nat}
    {loaded : LoadedEmail} (hloaded : (d'.stageOf i).loaded? = some loaded) :
    (d.stageOf i).loaded? = some loaded ∨ loaded.sender ∈ d.database.senders := by
  cases Delivery.stageStep_of_step h i with
  | same heq => exact Or.inl (heq ▸ hloaded)
  | delivered _ _ _ heq => rw [heq] at hloaded; cases hloaded
  | crashed _ heq => rw [heq] at hloaded; cases hloaded
  | advanced input _ _ hadvance =>
      rcases loaded?_of_advance hadvance hloaded with hbefore | hfind
      · exact Or.inl hbefore
      · exact Or.inr (Database.findScheduledEmail_eq_some _ hfind).2.2.2.2.1
  | returned sending receipt hstage heq =>
      rw [heq, loaded?_afterSend] at hloaded
      rw [hstage]
      exact Or.inl hloaded
  | threw sending error hstage heq =>
      rw [heq] at hloaded
      rw [hstage]
      exact Or.inl hloaded

/-- The policies of the senders and of the loaded rows are within the bounds. -/
structure PolicyInv (config : AppConfig) (s : Application) : Prop where
  senders : PoliciesAccepted config s.tables.senders
  database : s.delivery.database.senders = s.tables.senders.map StoredSender.toEmailSender
  loaded : ∀ i loaded, (s.delivery.stageOf i).loaded? = some loaded →
    AcceptedPolicy config loaded.policy

theorem PolicyInv.sender (hinv : PolicyInv config s) {sender : EmailSender}
    (h : sender ∈ s.delivery.database.senders) : AcceptedPolicy config sender.policy := by
  rw [hinv.database] at h
  obtain ⟨x, hx, rfl⟩ := List.mem_map.1 h
  exact hinv.senders x hx

theorem policyInv_init (h : (system config lib).init s) : PolicyInv config s := by
  obtain ⟨htables, ⟨-, -, -, -, -, -, hexecutions⟩, hsenders⟩ := h
  refine ⟨?_, ?_, ?_⟩
  · rw [htables]
    intro x hx
    cases hx
  · rw [htables, hsenders]
    rfl
  · intro i loaded hloaded
    rw [Delivery.stageOf, hexecutions] at hloaded
    cases hloaded

/-- The API writes policies within the bounds, and no execution. -/
theorem PolicyInv.write (hinv : PolicyInv config s) {t : Tables}
    (h : PoliciesAccepted config t.senders) : PolicyInv config (s.write t) :=
  ⟨h, rfl, hinv.loaded⟩

theorem PolicyInv.work (hinv : PolicyInv config s) (h : s.work config event tables = some t) :
    PolicyInv config t := by
  obtain ⟨hwork, hstep, rfl, -, hdatabase⟩ := work_eq_some h
  have hkept := senders_of_work hwork hstep
  have hsenders : t.tables.senders.map StoredSender.toEmailSender = t.delivery.database.senders :=
    congrArg Database.senders hdatabase
  refine ⟨?_, hsenders.symm, ?_⟩
  · intro x hx
    apply hinv.sender
    rw [← hkept, ← hsenders]
    exact List.mem_map_of_mem hx
  · intro i loaded hloaded
    rcases loaded?_of_step hstep hloaded with hbefore | hsender
    · exact hinv.loaded i loaded hbefore
    · exact hinv.sender hsender

theorem policyInv_of_reachable {P : Application → ApplicationEvent → Prop}
    (h : (system config lib).Reachable P s) : PolicyInv config s := by
  apply h.invariant
  · intro s hs
    exact policyInv_init hs
  · intro s event t _ hstep hinv
    cases event with
    | login identity ctx =>
        cases hstep
        exact hinv.write (hinv.senders.login identity ctx)
    | request user request ctx =>
        cases hstep
        exact hinv.write (hinv.senders.serve request)
    | work event tables => exact hinv.work hstep

/-- **Sender policies stay in range.** Whatever logins, requests and steps of the worker come
before, every sender has a policy within the bounds of the configuration, and an execution that is
about to call `reserve` passes a limit of at least one and a delay that is not negative. -/
theorem policiesInRange (h : (system config lib).Reachable TransitionSystem.anyStep s) :
    (∀ x ∈ s.tables.senders, 1 ≤ x.hourlyLimit ∧ x.hourlyLimit ≤ config.maxEmailsPerHour ∧
      config.minSendDelayMs ≤ x.minimumDelayMs ∧ x.minimumDelayMs ≤ config.maxSendDelayMs) ∧
    ∀ i loaded now, s.delivery.stageOf i = .reserving loaded now →
      1 ≤ loaded.policy.hourlyLimit ∧ 0 ≤ loaded.policy.minimumDelayMs := by
  have hinv := policyInv_of_reachable h
  constructor
  · exact hinv.senders
  · intro i loaded now hstage
    obtain ⟨hlow, -, hlow', -⟩ := hinv.loaded i loaded (by rw [hstage]; rfl)
    exact ⟨hlow, config.zero_le_minSendDelayMs.trans hlow'⟩

/-- Nothing has happened. -/
def start : Application where
  tables := {}
  delivery := ⟨⟨⟨[], [], [], []⟩, Limiter.emptyLimiter, []⟩, []⟩

theorem start_init : (system config lib).init start :=
  ⟨rfl, ⟨rfl, rfl, rfl, rfl, rfl, rfl, rfl⟩, rfl⟩

/-- A login, a batch with another policy than the defaults, and the delivery of its first email up
to `reserve`. -/
def firstReserve : List ApplicationEvent :=
  [.login ⟨"subject", "first@test.invalid", "User", none⟩ ⟨1, 10, 0⟩,
    .request 1 (.postEmailBatches (.ok threeLines) (some "first-batch"))
      ⟨0, 0, 20, fun i => 30 + i, true⟩,
    .work (.deliver ⟨30, 0, some 3⟩) threeLinesServed.tables,
    .work (.advance 0 ⟨1000, 0, .done⟩) threeLinesServed.tables]

/-- The policy that the next step of an execution passes to `reserve`. -/
def reservePolicy? : Stage → Option SenderPolicy
  | .reserving loaded _ => some loaded.policy
  | _ => none

theorem policiesInRange_after_firstReserve : ∃ s,
    (system validConfig testLibraries).run TransitionSystem.anyStep firstReserve start = some s ∧
      reservePolicy? (s.delivery.stageOf 0) = some ⟨10, 100, 2000⟩ ∧
      ∃ loaded now, s.delivery.stageOf 0 = .reserving loaded now ∧
        1 ≤ loaded.policy.hourlyLimit ∧ 0 ≤ loaded.policy.minimumDelayMs := by
  have hrun : ((system validConfig testLibraries).run TransitionSystem.anyStep firstReserve
      start).any (fun s => decide (reservePolicy? (s.delivery.stageOf 0) = some ⟨10, 100, 2000⟩)) =
        true := by decide +kernel
  rw [Option.any_eq_true] at hrun
  obtain ⟨s, hs, hpolicy⟩ := hrun
  rw [decide_eq_true_eq] at hpolicy
  refine ⟨s, hs, hpolicy, ?_⟩
  have hrange := (policiesInRange (TransitionSystem.reachable_of_run firstReserve start_init hs)).2
  cases hstage : s.delivery.stageOf 0 with
  | reserving loaded now => exact ⟨loaded, now, rfl, hrange 0 loaded now hstage⟩
  | _ =>
      rw [hstage] at hpolicy
      cases hpolicy

end Application

end EmailScheduler
