import EmailScheduler.Delivery.Executions
import EmailScheduler.RateLimit.HourlyCap
import Mathlib.Data.List.Dedup

/-!
# The hourly cap of deliveries

Every message handed to the SMTP server was admitted by the limiter (`submission_admitted`), so the
deliveries of an hour are bounded by its admissions. The admissions of an hour stay within the limit
of the sender as long as every call of `reserve` counts in its hour; a reservation kept from an
earlier hour lets an email in on top of a full counter (`not_hourlyCap_after_retry`).
-/

set_option autoImplicit false

namespace EmailScheduler

open Foundation

/-! ## Steps of an execution and the limiter -/

/-- The admission that an execution will send under: the row it loaded, and the `now` it passed. -/
def Stage.admission? : Stage → Option (LoadedEmail × Int)
  | .claiming loaded now => some (loaded, now)
  | .claimed loaded _ now => some (loaded, now)
  | _ => none

theorem admission?_afterSend (d : Sending) (receipt : DeliveryReceipt) :
    (afterSend d receipt).admission? = none := by
  unfold afterSend
  split_ifs <;> rfl

/-- What a step of an execution does to the limiter and to the submissions. -/
inductive AdmissionStep (config : AppConfig) (stage : Stage) (w : World) (stage' : Stage)
    (w' : World) : Prop where
  | other : w'.limiter = w.limiter → w'.submissions = w.submissions →
      (∀ p, stage'.admission? = some p → stage.admission? = some p) →
      AdmissionStep config stage w stage' w'
  | reserved (loaded : LoadedEmail) (now : Int) : stage = .reserving loaded now →
      w'.limiter = (w.limiter.reserve config loaded.policy loaded.email.id now).2 →
      w'.submissions = w.submissions →
      (∀ p, stage'.admission? = some p → p = (loaded, now) ∧
        (w.limiter.reserve config loaded.policy loaded.email.id now).1.admitted = true) →
      AdmissionStep config stage w stage' w'
  | sent (loaded : LoadedEmail) (claim : ClaimedEmail) (now handedOverAt : Int) :
      stage = .claimed loaded claim now → w'.limiter = w.limiter →
      w'.submissions = w.submissions ++ [⟨loaded.message, loaded.email.senderId,
        claim.processingToken, now, handedOverAt, .pending⟩] →
      stage'.admission? = none → AdmissionStep config stage w stage' w'

theorem admissionStep_of_advance {config : AppConfig} {job : Job} {input : StepInput}
    {w w' : World} {stage stage' : Stage}
    (h : advance config job input w stage = some (stage', w')) :
    AdmissionStep config stage w stage' w' := by
  cases advanceCase_of_advance h with
  | @threw stage e w' heq =>
      have hnone : ∀ p, (Stage.finished (.threw e)).admission? ≠ some p := by
        intro p hp
        cases hp
      cases stage with
      | reserving loaded now =>
          -- The script may have run, but the execution does not learn that it was admitted.
          obtain ⟨-, rfl⟩ := Prod.mk.inj (Option.some.inj heq)
          cases input.reply with
          | done => exact .reserved loaded now rfl rfl rfl fun p hp => absurd hp (hnone p)
          | refused e => exact .other rfl rfl fun p hp => absurd hp (hnone p)
          | lost e => exact .reserved loaded now rfl rfl rfl fun p hp => absurd hp (hnone p)
      | claimed => cases heq
      | sending => cases heq
      | finished => cases heq
      | crashed => cases heq
      | _ =>
          obtain ⟨-, rfl⟩ := Prod.mk.inj (Option.some.inj heq)
          exact .other rfl rfl fun p hp => absurd hp (hnone p)
  | denied => exact .reserved _ _ rfl rfl rfl fun p hp => by cases hp
  | admitted hadmitted =>
      refine .reserved _ _ rfl rfl rfl fun p hp => ?_
      cases hp
      exact ⟨rfl, hadmitted⟩
  | claimed _ => exact .other rfl rfl fun p hp => hp
  | sent => exact .sent _ _ _ _ rfl rfl rfl rfl
  -- No other stage is past the limiter.
  | _ => exact .other rfl rfl fun p hp => by cases hp

/-- If an execution of the sender is about to call `reserve`, the call counts in its hour. -/
def Stage.CountsAdmission (config : AppConfig) (senderId : Uuid) (limiter : Limiter) :
    Stage → Prop
  | .reserving loaded now => loaded.email.senderId = senderId →
      limiter.CountsInHour config loaded.policy loaded.email.id now
  | _ => True

instance (config : AppConfig) (senderId : Uuid) (limiter : Limiter) (stage : Stage) :
    Decidable (stage.CountsAdmission config senderId limiter) := by
  cases stage <;> unfold Stage.CountsAdmission <;> infer_instance

/-- No step of an execution writes a sender. -/
theorem senders_of_advance {config : AppConfig} {job : Job} {input : StepInput} {w w' : World}
    {stage stage' : Stage} (h : advance config job input w stage = some (stage', w')) :
    w'.database.senders = w.database.senders := by
  rcases parents_of_advance h with ⟨hsenders, -⟩ | ⟨d, recorded, unsuccessful, rfl⟩
  · exact hsenders
  · -- The label is written on a batch.
    cases h
    refine Reply.deliver_snd _ _ _ (R := fun db => db.senders = _) rfl fun _ db hok => ?_
    rw [labelBatch_eq_ok hok]

namespace Delivery

variable {config : AppConfig} {s t : Delivery} {event : DeliveryEvent} {senderId : Uuid}
  {limit : Nat}

/-! ## Every message was admitted -/

/-- A change of the limiter in a step: none, or one call, or the clock. -/
inductive LimiterStep (config : AppConfig) (s : Delivery) (event : DeliveryEvent) :
    Limiter → Prop where
  | same : LimiterStep config s event s.world.limiter
  | reserved {i : Nat} {input : StepInput} {loaded : LoadedEmail} {now : Int} :
      event = .advance i input → s.stageOf i = .reserving loaded now →
      LimiterStep config s event
        (s.world.limiter.reserve config loaded.policy loaded.email.id now).2
  | seeded (policy : SenderPolicy) (acceptedCount : Nat) (lastAcceptedAt : Option Int)
      (now : Int) : LimiterStep config s event
        (s.world.limiter.seed config policy acceptedCount lastAcceptedAt now)
  | ticked {clock : Int} : s.world.limiter.clock ≤ clock →
      LimiterStep config s event { s.world.limiter with clock := clock }

/-- **Step rule for the limiter.** -/
theorem limiterStep (h : (system config).step event s = some t) :
    LimiterStep config s event t.world.limiter := by
  cases stepCase_of_step h with
  | @advance i input x stage' w hx hstage hadvance =>
      show LimiterStep config s _ w.limiter
      rw [← hstage] at hadvance
      cases admissionStep_of_advance hadvance with
      | other hlimiter _ _ => rw [hlimiter]; exact .same
      | reserved loaded now hreserving hlimiter _ _ =>
          rw [hlimiter]
          exact .reserved rfl hreserving
      | sent _ _ _ _ _ hlimiter _ _ => rw [hlimiter]; exact .same
  | deliver job => exact .same
  | sendReturns hstage hreceipt => exact .same
  | sendRefused hstage htransient hpending => exact .same
  | sendThrows hstage htransient => exact .same
  | smtpAccepts hpending => exact .same
  | crash hrunning => exact .same
  | sweep now => exact .same
  | createBatch hleads hok => exact .same
  | updateSender sender => exact .same
  | seed policy acceptedCount lastAcceptedAt now => exact .seeded _ _ _ _
  | tick hclock => exact .ticked hclock

/-- The limiter admitted an email of a sender at `now`. -/
def Admitted (s : Delivery) (senderId emailId : Uuid) (now : Int) : Prop :=
  ∃ a ∈ admissions senderId s.world.limiter.history, a.emailId = emailId ∧ a.now = now

/-- Admissions are never forgotten. -/
theorem admitted_of_step (h : (system config).step event s = some t) {emailId : Uuid} {now : Int}
    (hadmitted : Admitted s senderId emailId now) : Admitted t senderId emailId now := by
  obtain ⟨a, ha, hemail, hnow⟩ := hadmitted
  refine ⟨a, ?_, hemail, hnow⟩
  have hlimiter := limiterStep h
  generalize t.world.limiter = limiter at hlimiter ⊢
  cases hlimiter with
  -- The history only grows.
  | same => exact ha
  | reserved _ _ => exact mem_admissions_cons _ ha
  | seeded policy acceptedCount lastAcceptedAt now => exact ha
  | ticked _ => exact ha

theorem mem_settle {m : Nat} {status : Fate} {x : Submission}
    (h : x ∈ (s.settle m status).submissions) : ∃ y ∈ s.submissions, y.message = x.message ∧
      y.senderId = x.senderId ∧ y.admittedAt = x.admittedAt := by
  obtain ⟨n, hn⟩ := List.mem_iff_getElem?.1 h
  have hmodify : (s.submissions.modify m fun x => { x with status := status })[n]? = some x := hn
  rw [List.getElem?_modify] at hmodify
  obtain ⟨y, hy, hyx⟩ := Option.map_eq_some_iff.1 hmodify
  refine ⟨y, List.mem_of_getElem? hy, ?_⟩
  split at hyx <;> subst hyx <;> exact ⟨rfl, rfl, rfl⟩

/-- A message after a step was there before, or an execution just sent it under its admission. -/
theorem submission_of_step (h : (system config).step event s = some t) {x : Submission}
    (hx : x ∈ t.submissions) :
    (∃ y ∈ s.submissions, y.message = x.message ∧ y.senderId = x.senderId ∧
        y.admittedAt = x.admittedAt) ∨
      ∃ i loaded, (s.stageOf i).admission? = some (loaded, x.admittedAt) ∧
        x.message = loaded.message ∧ x.senderId = loaded.email.senderId := by
  cases stepCase_of_step h with
  | @advance i input _ stage' w _ hstage hadvance =>
      have hx' : x ∈ w.submissions := hx
      rw [← hstage] at hadvance
      cases admissionStep_of_advance hadvance with
      | other _ hsame _ =>
          rw [hsame] at hx'
          exact Or.inl ⟨x, hx', rfl, rfl, rfl⟩
      | reserved _ _ _ _ hsame _ =>
          rw [hsame] at hx'
          exact Or.inl ⟨x, hx', rfl, rfl, rfl⟩
      | sent loaded claim now _ hclaimed _ happend _ =>
          -- The step that sends carries the admission that the execution holds.
          rw [happend, List.mem_append, List.mem_singleton] at hx'
          rcases hx' with hold | rfl
          · exact Or.inl ⟨x, hold, rfl, rfl, rfl⟩
          · exact Or.inr ⟨i, loaded, by rw [hclaimed]; rfl, rfl, rfl⟩
  | sendRefused hstage htransient hpending => exact Or.inl (mem_settle hx)
  | smtpAccepts hpending => exact Or.inl (mem_settle hx)
  | deliver job => exact Or.inl ⟨x, hx, rfl, rfl, rfl⟩
  | sendReturns hstage hreceipt => exact Or.inl ⟨x, hx, rfl, rfl, rfl⟩
  | sendThrows hstage htransient => exact Or.inl ⟨x, hx, rfl, rfl, rfl⟩
  | crash hrunning => exact Or.inl ⟨x, hx, rfl, rfl, rfl⟩
  | sweep now => exact Or.inl ⟨x, hx, rfl, rfl, rfl⟩
  | createBatch hleads hok => exact Or.inl ⟨x, hx, rfl, rfl, rfl⟩
  | updateSender sender => exact Or.inl ⟨x, hx, rfl, rfl, rfl⟩
  | seed => exact Or.inl ⟨x, hx, rfl, rfl, rfl⟩
  | tick hclock => exact Or.inl ⟨x, hx, rfl, rfl, rfl⟩

/-- Executions past the limiter, and the messages they sent, were admitted. -/
structure AdmittedInv (s : Delivery) : Prop where
  executing : ∀ i p, (s.stageOf i).admission? = some p →
    Admitted s p.1.email.senderId p.1.email.id p.2
  submitted : ∀ x ∈ s.submissions, Admitted s x.senderId x.message.scheduledEmailId x.admittedAt

theorem admittedInv_init (h : (system config).init s) : AdmittedInv s := by
  obtain ⟨-, -, -, -, -, hsubmissions, hexecutions⟩ := h
  constructor
  · intro i p hp
    rw [stageOf, hexecutions] at hp
    cases hp
  · intro x hx
    rw [hsubmissions] at hx
    cases hx

theorem admittedInv_step (h : (system config).step event s = some t) (hinv : AdmittedInv s) :
    AdmittedInv t := by
  constructor
  · intro i p hp
    cases stageStep_of_step h i with
    | same heq =>
        rw [heq] at hp
        exact admitted_of_step h (hinv.executing i p hp)
    | delivered _ _ _ heq => rw [heq] at hp; cases hp
    | crashed _ heq => rw [heq] at hp; cases hp
    | advanced input _ _ hadvance =>
        cases admissionStep_of_advance hadvance with
        | other _ _ hkept => exact admitted_of_step h (hinv.executing i p (hkept p hp))
        | reserved loaded now _ hlimiter _ hadmitted =>
            -- The call that just admitted the email is the most recent one.
            obtain ⟨rfl, hdecision⟩ := hadmitted p hp
            rw [Admitted, hlimiter, Limiter.reserve_history]
            exact ⟨_, mem_admissions_cons_admitted loaded.policy _ _ hdecision _, rfl, rfl⟩
        | sent _ _ _ _ _ _ _ hnone => rw [hnone] at hp; cases hp
    | returned d receipt _ heq => rw [heq, admission?_afterSend] at hp; cases hp
    | threw d error _ heq => rw [heq] at hp; cases hp
  · intro x hx
    rcases submission_of_step h hx with ⟨y, hy, hmessage, hsender, hnow⟩ |
      ⟨i, loaded, hadmission, hmessage, hsender⟩
    · rw [← hmessage, ← hsender, ← hnow]
      exact admitted_of_step h (hinv.submitted y hy)
    · rw [hmessage, hsender]
      exact admitted_of_step h (hinv.executing i _ hadmission)

/-- **No message bypasses the limiter.** In every state reached, whatever fails on the way, the
limiter admitted the email of every message handed to the server, at the time kept with it. -/
theorem submission_admitted {P : Delivery → DeliveryEvent → Prop}
    (h : (system config).Reachable P s) :
    ∀ x ∈ s.submissions, Admitted s x.senderId x.message.scheduledEmailId x.admittedAt := by
  have hinv : AdmittedInv s :=
    h.invariant (fun s hs => admittedInv_init hs) fun s event t _ hstep hinv =>
      admittedInv_step hstep hinv
  exact hinv.submitted

/-! ## The policy of a sender -/

/-- A step that gives a sender no other limit. -/
def FixedLimit (senderId : Uuid) (limit : Nat) : Delivery → DeliveryEvent → Prop
  | _, .createBatch input _ _ => input.senderId = senderId → input.hourlyLimit = limit
  | _, .updateSender sender => sender.id = senderId → sender.hourlyLimit = limit
  | _, _ => True

instance (senderId : Uuid) (limit : Nat) (s : Delivery) (event : DeliveryEvent) :
    Decidable (FixedLimit senderId limit s event) :=
  match event with
  | .createBatch input _ _ =>
      inferInstanceAs (Decidable (input.senderId = senderId → input.hourlyLimit = limit))
  | .updateSender sender =>
      inferInstanceAs (Decidable (sender.id = senderId → sender.hourlyLimit = limit))
  | .deliver _ | .advance _ _ | .sendReturns _ _ | .sendThrows _ _ | .smtpAccepts _ | .crash _
  | .sweep _ | .seed _ _ _ _ | .tick _ => .isTrue trivial

/-- A row that an execution has loaded is the row it had before, or was just found. -/
theorem loaded_of_step (h : (system config).step event s = some t) {i : Nat} {loaded : LoadedEmail}
    (hloaded : (t.stageOf i).loaded? = some loaded) :
    (s.stageOf i).loaded? = some loaded ∨ ∃ id, s.database.findScheduledEmail id = some loaded := by
  cases stageStep_of_step h i with
  | same heq =>
      rw [heq] at hloaded
      exact Or.inl hloaded
  | delivered _ _ _ heq => rw [heq] at hloaded; cases hloaded
  | crashed _ heq => rw [heq] at hloaded; cases hloaded
  | @advanced x input _ _ hadvance =>
      rcases loaded?_of_advance hadvance hloaded with hold | hfind
      · exact Or.inl hold
      · exact Or.inr ⟨x.job.scheduledEmailId, hfind⟩
  | returned d receipt hstage heq =>
      rw [heq, loaded?_afterSend] at hloaded
      rw [hstage]
      exact Or.inl hloaded
  | threw d error hstage heq =>
      rw [heq] at hloaded
      rw [hstage]
      exact Or.inl hloaded

/-- The limit is the one stored for the sender, and the one that executions have loaded with it. -/
structure LimitInv (senderId : Uuid) (limit : Nat) (s : Delivery) : Prop where
  stored : ∀ x ∈ s.database.senders, x.id = senderId → x.hourlyLimit = limit
  loaded : ∀ i loaded, (s.stageOf i).loaded? = some loaded → loaded.email.senderId = senderId →
    loaded.policy.hourlyLimit = limit

theorem stored_of_step (h : (system config).step event s = some t)
    (hfixed : FixedLimit senderId limit s event)
    (hstored : ∀ x ∈ s.database.senders, x.id = senderId → x.hourlyLimit = limit) :
    ∀ x ∈ t.database.senders, x.id = senderId → x.hourlyLimit = limit := by
  cases stepCase_of_step h with
  | @advance i input x stage' w hx hstage hadvance =>
      -- Executions read senders and write none.
      have hsenders : w.database.senders = s.database.senders := senders_of_advance hadvance
      show ∀ x ∈ w.database.senders, _
      rw [hsenders]
      exact hstored
  | @createBatch input batchId newId batch db hleads hok =>
      obtain ⟨-, -, -, -, -, hdb⟩ := createBatchTransaction_eq_ok hok
      intro x hx hid
      rw [withDatabase_database, hdb] at hx
      obtain ⟨y, hy, rfl⟩ := mem_updateMany.1 hx
      by_cases hsender : y.id = input.senderId
      · -- The policy of the request.
        simp only [hsender, decide_true, if_true] at hid ⊢
        exact hfixed hid
      · simp only [hsender, decide_false, Bool.false_eq_true, if_false] at hid ⊢
        exact hstored y hy hid
  | updateSender sender =>
      intro x hx hid
      obtain ⟨y, hy, rfl⟩ := mem_updateMany.1 hx
      by_cases hsender : y.id = sender.id
      · simp only [hsender, decide_true, if_true] at hid ⊢
        exact hfixed hid
      · simp only [hsender, decide_false, Bool.false_eq_true, if_false] at hid ⊢
        exact hstored y hy hid
  | deliver job => exact hstored
  | sendReturns hstage hreceipt => exact hstored
  | sendRefused hstage htransient hpending => exact hstored
  | sendThrows hstage htransient => exact hstored
  | smtpAccepts hpending => exact hstored
  | crash hrunning => exact hstored
  | sweep now => exact hstored
  | seed => exact hstored
  | tick hclock => exact hstored

theorem limitInv_step (h : (system config).step event s = some t)
    (hfixed : FixedLimit senderId limit s event) (hinv : LimitInv senderId limit s) :
    LimitInv senderId limit t := by
  constructor
  · exact stored_of_step h hfixed hinv.stored
  · intro i loaded hloaded hsender
    -- A policy is loaded together with the row, from the sender stored at that time.
    rcases loaded_of_step h hloaded with hold | ⟨id, hfind⟩
    · exact hinv.loaded i loaded hold hsender
    · obtain ⟨-, -, -, -, hmem, hid⟩ := s.database.findScheduledEmail_eq_some hfind
      exact hinv.stored loaded.sender hmem (hid.trans hsender)

/-! ## The cap -/

/-- A step that admits no email of the sender past the counter of the hour. -/
def CountsAdmission (config : AppConfig) (senderId : Uuid) : Delivery → DeliveryEvent → Prop
  | s, .advance i _ => (s.stageOf i).CountsAdmission config senderId s.world.limiter
  | _, _ => True

instance (config : AppConfig) (senderId : Uuid) (s : Delivery) (event : DeliveryEvent) :
    Decidable (CountsAdmission config senderId s event) :=
  match event with
  | .advance i _ =>
      inferInstanceAs (Decidable ((s.stageOf i).CountsAdmission config senderId s.world.limiter))
  | .deliver _ | .sendReturns _ _ | .sendThrows _ _ | .smtpAccepts _ | .crash _ | .sweep _
  | .createBatch _ _ _ | .updateSender _ | .seed _ _ _ _ | .tick _ => .isTrue trivial

/-- The distinct emails of a sender that the limiter admitted in the hour that starts at `start` and
that the SMTP server accepted. -/
def acceptedIn (s : Delivery) (senderId : Uuid) (start : Int) : List Uuid :=
  (((admissionsIn senderId start s.world.limiter.history).map Admission.emailId).filter fun id =>
    s.submissions.any fun x => decide (x.senderId = senderId ∧
      x.message.scheduledEmailId = id ∧ x.status = .accepted)).dedup

/-- In no hour are more emails of the sender admitted and accepted than its limit. -/
def HourlyCap (s : Delivery) (senderId : Uuid) (limit : Nat) : Prop :=
  ∀ start, (s.acceptedIn senderId start).length ≤ limit

/-- An accepted message counts in the hour of the admission it was sent under. -/
theorem mem_acceptedIn {P : Delivery → DeliveryEvent → Prop} (h : (system config).Reachable P s)
    {x : Submission} (hx : x ∈ s.submissions) (hstatus : x.status = .accepted) :
    x.message.scheduledEmailId ∈ s.acceptedIn x.senderId (hourStart x.admittedAt) := by
  obtain ⟨a, ha, hemail, hnow⟩ := submission_admitted h x hx
  rw [acceptedIn, List.mem_dedup, List.mem_filter]
  constructor
  · rw [← hemail, ← hnow]
    apply List.mem_map_of_mem
    exact List.mem_filter.2 ⟨ha, decide_eq_true rfl⟩
  · exact List.any_eq_true.2 ⟨x, hx, decide_eq_true ⟨rfl, rfl, hstatus⟩⟩

/-- Under the cap the messages accepted on admissions of one hour are for no more emails than the
limit. -/
theorem HourlyCap.accepted_le {P : Delivery → DeliveryEvent → Prop}
    (hcap : HourlyCap s senderId limit)
    (h : (system config).Reachable P s) (start : Int) :
    ((s.submissions.filter fun x => decide (x.senderId = senderId ∧ x.status = .accepted ∧
      hourStart x.admittedAt = start)).map fun x => x.message.scheduledEmailId).dedup.length ≤
        limit := by
  refine Nat.le_trans ((List.nodup_dedup _).length_le_of_subset ?_) (hcap start)
  intro id hid
  obtain ⟨x, hx, rfl⟩ := List.mem_map.1 (List.mem_dedup.1 hid)
  obtain ⟨hmem, haccepted⟩ := List.mem_filter.1 hx
  obtain ⟨rfl, hstatus, rfl⟩ := of_decide_eq_true haccepted
  exact mem_acceptedIn h hmem hstatus

theorem capInv_step (h : (system config).step event s = some t)
    (hcounts : CountsAdmission config senderId s event) (hlimit : LimitInv senderId limit s)
    (hinv : Limiter.CapInv config senderId limit s.world.limiter) :
    Limiter.CapInv config senderId limit t.world.limiter := by
  have hlimiter := limiterStep h
  generalize t.world.limiter = limiter at hlimiter ⊢
  cases hlimiter with
  | same => exact hinv
  | @reserved i input loaded now hevent hstage =>
      subst hevent
      -- The execution passes the policy it loaded, which has the fixed limit.
      apply Limiter.capInv_reserve hinv
      · intro hsender
        exact hlimit.loaded i loaded (by rw [hstage]; rfl) hsender
      · intro hsender
        rw [CountsAdmission, hstage] at hcounts
        exact hcounts hsender
  | seeded policy acceptedCount lastAcceptedAt now =>
      exact Limiter.capInv_seed hinv policy acceptedCount lastAcceptedAt now
  | ticked hclock => exact Limiter.capInv_tick hinv hclock

/-- Under the invariant the emails admitted in an hour are among its reservations. -/
theorem hourlyCap_of_capInv (hinv : Limiter.CapInv config senderId limit s.world.limiter) :
    HourlyCap s senderId limit := by
  intro start
  have hsub : s.acceptedIn senderId start ⊆
      -- Distinct emails that are among the reservations are no more than the reservations.
      newReservations senderId start s.world.limiter.history := by
    intro id hid
    rw [acceptedIn, List.mem_dedup, List.mem_filter] at hid
    obtain ⟨a, ha, rfl⟩ := List.mem_map.1 hid.1
    obtain ⟨hadmitted, hstart⟩ := List.mem_filter.1 ha
    rw [decide_eq_true_eq] at hstart
    have hmem := hinv.admitted a hadmitted
    rw [hstart] at hmem
    exact hmem
  have hnodup : (s.acceptedIn senderId start).Nodup := List.nodup_dedup _
  exact Nat.le_trans (hnodup.length_le_of_subset hsub) (hinv.capped start)

/-- **Hourly cap.** In every run in which the limit of a sender stays fixed and every admission of
the sender counts in its hour, no hour delivers more emails of the sender than the limit. -/
theorem hourlyCap_of_steps (config : AppConfig) {s₀ : Delivery} (h₀ : (system config).init s₀)
    (hlimit : ∀ x ∈ s₀.database.senders, x.id = senderId → x.hourlyLimit = limit)
    (h : (system config).Steps (fun s event => FixedLimit senderId limit s event ∧
      CountsAdmission config senderId s event) s₀ s) : HourlyCap s senderId limit := by
  have hend : LimitInv senderId limit s ∧
      Limiter.CapInv config senderId limit s.world.limiter := by
    refine h.invariant (I := fun s => LimitInv senderId limit s ∧
      Limiter.CapInv config senderId limit s.world.limiter) ?_ ?_
    · obtain ⟨-, -, -, hredis, hhistory, -, hexecutions⟩ := h₀
      refine ⟨⟨hlimit, ?_⟩, Limiter.capInv_init hredis hhistory⟩
      intro i loaded hloaded
      rw [stageOf, hexecutions] at hloaded
      cases hloaded
    · rintro s event t ⟨hfixed, hcounts⟩ hstep ⟨hinv, hcap⟩
      exact ⟨limitInv_step hstep hfixed hinv, capInv_step hstep hcounts hinv hcap⟩
  exact hourlyCap_of_capInv hend.2

/-- An email is admitted in the last second of an hour and refused by the server; in the next hour
two others fill the limit of two. -/
def fullHour : List DeliveryEvent :=
  [.tick 3599000, .createBatch (requestFor ["a@test.invalid", "b@test.invalid", "c@test.invalid"])
      10 (fun i => 100 + i),
    .deliver ⟨100, 0, some 3⟩, .advance 0 ⟨3599000, 0, .done⟩, .advance 0 ⟨0, 0, .done⟩,
    .advance 0 ⟨3599000, 70, .done⟩, .advance 0 ⟨0, 0, .done⟩,
    .sendThrows 0 (.object (.string "ECONNECTION") .other), .advance 0 ⟨3599500, 0, .done⟩,
    .tick 3600000, .deliver ⟨101, 0, some 3⟩, .advance 1 ⟨3600000, 0, .done⟩,
    .advance 1 ⟨0, 0, .done⟩, .advance 1 ⟨3600000, 71, .done⟩, .advance 1 ⟨0, 0, .done⟩,
    .smtpAccepts 1,
    .tick 3601000, .deliver ⟨102, 0, some 3⟩, .advance 2 ⟨3601000, 0, .done⟩,
    .advance 2 ⟨0, 0, .done⟩, .advance 2 ⟨3601000, 72, .done⟩, .advance 2 ⟨0, 0, .done⟩,
    .smtpAccepts 2]

/-- The retry of the refused email, in the hour that is full. -/
def retryInFullHour : List DeliveryEvent :=
  [.tick 3602000, .deliver ⟨100, 1, some 3⟩, .advance 3 ⟨3602000, 0, .done⟩,
    .advance 3 ⟨0, 0, .done⟩, .advance 3 ⟨3602000, 73, .done⟩, .advance 3 ⟨0, 0, .done⟩,
    .smtpAccepts 3]

theorem hourlyCap_after_fullHour : ∃ s,
    (system validConfig).run (fun s event => FixedLimit 1 2 s event ∧
      CountsAdmission validConfig 1 s event) fullHour oneSenderStart = some s ∧
      s.acceptedIn 1 3600000 = [102, 101] ∧ HourlyCap s 1 2 :=
  ⟨_, rfl, by decide, hourlyCap_of_steps validConfig (oneSenderStart_init validConfig)
    (by decide) (TransitionSystem.steps_of_run fullHour rfl)⟩

/-- The reservation from the hour before admits a third email. -/
theorem not_hourlyCap_after_retry : ∃ s,
    (system validConfig).run (FixedLimit 1 2) (fullHour ++ retryInFullHour) oneSenderStart =
        some s ∧
      s.acceptedIn 1 3600000 = [100, 102, 101] ∧ ¬ HourlyCap s 1 2 :=
  ⟨_, rfl, by decide, fun h => absurd (h 3600000) (by decide)⟩

end Delivery

end EmailScheduler
