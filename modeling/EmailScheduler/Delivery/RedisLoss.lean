import EmailScheduler.RateLimit.RateSeed
import EmailScheduler.RateLimit.Spacing
import EmailScheduler.Delivery.AtMostOnce

/-!
# Losing Redis

What the two limits still guarantee when all limiter keys are lost and the next worker seeds them
from the database. The aggregate is filtered by the current hour, which is right for the counter,
but the `next` time of a sender remembers its last send in whatever hour it was; and the counter
leaves out senders that were deactivated and messages whose row is not `SENT`.

When spacing survives is decided exactly in `spacingSurvives_iff`. `quotaSurvives` says which rows
of a sender make the quota survive, and that it survives for no other rows unless an email that was
handed over in an earlier hour makes up for the one that is missed.
-/

set_option autoImplicit false

namespace EmailScheduler

open Foundation

/-! ## Spacing -/

/-- Calls after the loss: `reserve` at the Redis clock with any policy, more seedings, time
passing. -/
def LaterCall (s : Limiter) : LimiterCall → Prop
  | .reserve _ _ now => now = s.clock
  | .seed policy _ _ _ => 0 ≤ policy.minimumDelayMs
  | .tick _ => True

/-- The limiter after the loss of all keys at `now` and the seeding that follows. -/
def Database.reseeded (config : AppConfig) (db : Database) (now : Int) : Limiter :=
  (seedSenderRateLimits config db now (.withoutKeys now)).2

/-- No active sender that has sent is admitted before its last send plus its delay. -/
def SpacingSurvives (config : AppConfig) (db : Database) (now : Int) : Prop :=
  ∀ sender ∈ db.senders, sender.isActive = true → ∀ last, db.latestSentAt sender.id = some last →
    ∀ s, (Limiter.system config).Steps LaterCall (db.reseeded config now) s →
      ∀ a ∈ admissions sender.id s.history, last + sender.minimumDelayMs ≤ a.now

/-- The delay after the last send is over, or the seeding can see the send and the key it creates
outlives the delay. -/
def NextRestored (config : AppConfig) (now last delay : Int) : Prop :=
  last + delay ≤ max now 0 ∨
    (0 < last ∧ hourStart now ≤ last ∧ last ≤ now ∧
      last + delay ≤ hourEnd now + config.rateLimitReservationTtlMs)

section Spacing

variable {config : AppConfig} {db : Database} {now : Int} {s : Limiter} {sender : EmailSender}

/-- What keeps a sender from being admitted before `bound`: it has passed, or it is stored under
`next`, or it lies before the epoch and nothing before the epoch is stored. -/
def Guarded (senderId : Uuid) (bound : Int) (s : Limiter) : Prop :=
  bound ≤ s.clock ∨
    (∃ t, s.redis (.next senderId) = some ⟨bound, some t⟩ ∧ bound ≤ t) ∨
    (bound ≤ 0 ∧ ∀ e, s.redis (.next senderId) = some e → 0 ≤ e.value)

structure BoundInv (senderId : Uuid) (bound : Int) (s : Limiter) : Prop where
  guarded : Guarded senderId bound s
  admitted : ∀ a ∈ admissions senderId s.history, bound ≤ a.now

theorem Guarded.of_next_eq {senderId : Uuid} {bound : Int} {t : Limiter}
    (h : Guarded senderId bound s) (hclock : s.clock ≤ t.clock)
    (hnext : t.redis (.next senderId) = s.redis (.next senderId)) : Guarded senderId bound t := by
  rcases h with h | h | h
  · exact Or.inl (Int.le_trans h hclock)
  · exact Or.inr (Or.inl (by rw [hnext]; exact h))
  · exact Or.inr (Or.inr (by rw [hnext]; exact h))

theorem get_next_of_lt {senderId : Uuid} {bound clock t : Int} {redis : LimiterStore}
    (hentry : redis (.next senderId) = some ⟨bound, some t⟩) (hbound : bound ≤ t)
    (hclock : clock < bound) : redis.get clock (.next senderId) = some bound := by
  rw [ExpiringStore.get_of_entry hentry]
  exact if_pos (by omega)

/-- While the bound is guarded, the `next` key lets nobody pass before it. -/
theorem Guarded.le_of_passed {senderId : Uuid} {bound : Int} (h : Guarded senderId bound s)
    (hpassed : reading s.redis s.clock (.next senderId) ≤ s.clock) : bound ≤ s.clock := by
  rcases h with h | ⟨t, hentry, hle⟩ | ⟨hbound, hvalues⟩
  · exact h
  · by_contra hlt
    rw [reading, get_next_of_lt hentry hle (Int.not_le.1 hlt), Option.getD_some] at hpassed
    exact hlt hpassed
  · have hnonneg : 0 ≤ reading s.redis s.clock (.next senderId) := by
      cases hget : s.redis.get s.clock (.next senderId) with
      | none => simp [reading, hget]
      | some v =>
          obtain ⟨e, he, hv, -⟩ := ExpiringStore.entry_of_get hget
          have hvalue := hvalues e he
          rw [hv] at hvalue
          rw [reading, hget]
          exact hvalue
    omega

theorem boundInv_reserve {senderId : Uuid} {bound : Int} (hinv : BoundInv senderId bound s)
    (policy : SenderPolicy) (emailId : Uuid) :
    BoundInv senderId bound (s.reserve config policy emailId s.clock).2 := by
  rcases Limiter.reserve_next config policy emailId s.clock s.clock s.redis with
    ⟨hdenied, hredis⟩ | ⟨hadmitted, hpassed, -, hother⟩
  · constructor
    · exact hinv.guarded.of_next_eq (Int.le_refl _) (by rw [Limiter.reserve_redis, hredis])
    · rw [Limiter.reserve_history, admissions_cons_denied senderId policy emailId s.clock hdenied]
      exact hinv.admitted
  · by_cases hs : policy.senderId = senderId
    · -- Admitted: the stored time has passed, so the bound has.
      rw [hs] at hpassed
      have hbound := hinv.guarded.le_of_passed hpassed
      refine ⟨Or.inl hbound, ?_⟩
      intro a ha
      rw [Limiter.reserve_history, ← hs,
        admissions_cons_admitted policy emailId s.clock hadmitted, List.mem_cons] at ha
      rcases ha with rfl | ha
      · exact hbound
      · exact hinv.admitted a (hs ▸ ha)
    · constructor
      · exact hinv.guarded.of_next_eq (Int.le_refl _) (hother senderId (Ne.symm hs))
      · rw [Limiter.reserve_history, admissions_cons_of_ne hs]
        exact hinv.admitted

theorem boundInv_seed {senderId : Uuid} {bound : Int} (hinv : BoundInv senderId bound s)
    {policy : SenderPolicy} (hdelay : 0 ≤ policy.minimumDelayMs) (count : Nat) (last : Option Int)
    (now : Int) : BoundInv senderId bound (s.seed config policy count last now) := by
  refine ⟨?_, hinv.admitted⟩
  by_cases hs : policy.senderId = senderId
  · subst hs
    have hnext := seed_next config policy count last now s.clock s.redis
    split at hnext
    next hcreated =>
      -- The key is created where there was none.
      rcases hinv.guarded with h | ⟨t, hentry, hle⟩ | ⟨hbound, -⟩
      · exact Or.inl h
      · left
        by_contra hlt
        have hbefore : s.clock < bound := Int.not_le.1 hlt
        have hget := get_next_of_lt hentry hle hbefore
        have habsent := hcreated.2
        rw [ExpiringStore.has_eq_isSome_get, hget] at habsent
        cases habsent
      · refine Or.inr (Or.inr ⟨hbound, ?_⟩)
        intro e he
        rw [show (s.seed config policy count last now).redis (.next policy.senderId) = _ from hnext,
          Option.some.injEq] at he
        rw [← he]
        have hpositive := hcreated.1
        show 0 ≤ last.getD 0 + policy.minimumDelayMs
        omega
    next => exact hinv.guarded.of_next_eq (Int.le_refl _) hnext
  · refine hinv.guarded.of_next_eq (Int.le_refl _) ?_
    apply seed_frame
    · exact RateKey.noConfusion
    · intro heq
      injection heq with hid
      exact hs hid.symm

theorem boundInv_of_steps {senderId : Uuid} {bound : Int} {s₀ : Limiter}
    (hinit : BoundInv senderId bound s₀) (h : (Limiter.system config).Steps LaterCall s₀ s) :
    BoundInv senderId bound s := by
  apply h.invariant hinit
  intro s call t hcall hstep hinv
  cases call with
  | reserve policy emailId now =>
      have hnow : now = s.clock := hcall
      subst hnow
      cases hstep
      exact boundInv_reserve hinv policy emailId
  | seed policy count last now =>
      cases hstep
      exact boundInv_seed hinv hcall count last now
  | tick clock =>
      simp only [Limiter.system, Limiter.step] at hstep
      split at hstep
      next hclock =>
        cases hstep
        exact ⟨hinv.guarded.of_next_eq hclock rfl, hinv.admitted⟩
      next => cases hstep

theorem reseeded_clock (config : AppConfig) (db : Database) (now : Int) :
    (db.reseeded config now).clock = now :=
  seedSenders_clock config db now (.withoutKeys now) _

theorem admissions_reseeded (config : AppConfig) (db : Database) (now : Int) (senderId : Uuid) :
    admissions senderId (db.reseeded config now).history = [] :=
  admissions_seedSenders config db now (.withoutKeys now) senderId _

theorem now_add_seedTtl (config : AppConfig) (now : Int) :
    now + seedTtl config now = hourEnd now + config.rateLimitReservationTtlMs := by
  unfold seedTtl
  omega

/-- **Where the delay is over or restored, it is kept.** -/
theorem spaced_of_nextRestored (hkey : PrimaryKey EmailSender.id db.senders)
    (hmem : sender ∈ db.senders) (hactive : sender.isActive = true) {last : Int}
    (hlast : db.latestSentAt sender.id = some last)
    (hrestored : NextRestored config now last sender.minimumDelayMs)
    (h : (Limiter.system config).Steps LaterCall (db.reseeded config now) s) :
    ∀ a ∈ admissions sender.id s.history, last + sender.minimumDelayMs ≤ a.now := by
  have hseeded := seeded_of_active config db now hkey hmem hactive now
  have hadmissions := admissions_reseeded config db now sender.id
  have hclock := reseeded_clock config db now
  have hinv : BoundInv sender.id (last + sender.minimumDelayMs) (db.reseeded config now) := by
    refine ⟨?_, fun a ha => by rw [hadmissions] at ha; cases ha⟩
    -- The delay has passed, or the seeded key carries it.
    rcases hrestored with hpassed | ⟨hpositive, hstart, hnow, hexpiry⟩
    · by_cases hle : last + sender.minimumDelayMs ≤ now
      · exact Or.inl (by rw [hclock]; exact hle)
      · -- The bound lies before the epoch, and so does every send that the seeding could see.
        have hepoch : last + sender.minimumDelayMs ≤ 0 ∧ now < 0 := by omega
        refine Or.inr (Or.inr ⟨hepoch.1, fun e he => ?_⟩)
        have hnext := hseeded.next
        rw [if_neg, show (seedSenderRateLimits config db now (.withoutKeys now)).2.redis
          (.next sender.id) = some e from he] at hnext
        · cases hnext
        · cases hlatest : db.lastAcceptedAt sender.id now with
          | none => simp
          | some time =>
              have htime := (lastAcceptedAt_le hlast hlatest).1
              simp only [Option.getD_some]
              omega
    · refine Or.inr (Or.inl ⟨now + seedTtl config now, ?_, ?_⟩)
      · refine hseeded.next.trans ?_
        rw [lastAcceptedAt_of_latest hlast hstart hnow, Option.getD_some, if_pos hpositive]
      · rw [now_add_seedTtl]
        exact hexpiry
  exact (boundInv_of_steps hinv h).admitted

/-- An admission at any later time at which `next` has passed. -/
theorem admitted_later {time : Int} (htime : s.clock ≤ time)
    (hpassed : reading s.redis time (.next sender.id) ≤ time) :
    ∃ t, (Limiter.system config).Steps LaterCall s t ∧
      ∃ a ∈ admissions sender.id t.history, a.now = time := by
  -- The policy leaves room in the counter, whatever it reads.
  let policy : SenderPolicy :=
    ⟨sender.id, reading s.redis time (.hour sender.id (hourStart time)) + 1, 0⟩
  have hadmitted : (EmailScheduler.reserve config policy 0 time time s.redis).1.admitted = true :=
    reserve_admitted hpassed (Int.lt_succ _)
  refine ⟨(Limiter.reserve config policy 0 time { s with clock := time }).2, ?_, ?_⟩
  · exact .tail (.reserve policy 0 time)
      (.single (l := .tick time) trivial (if_pos htime)) rfl rfl
  · exact ⟨_, mem_admissions_cons_admitted policy 0 time hadmitted s.history, rfl⟩

/-- The `next` key of a sender after the seeding, at a later time. -/
theorem reading_reseeded (config : AppConfig) (now time : Int)
    (hkey : PrimaryKey EmailSender.id db.senders) (hmem : sender ∈ db.senders)
    (hactive : sender.isActive = true) :
    reading (db.reseeded config now).redis time (.next sender.id) =
      if (db.lastAcceptedAt sender.id now).getD 0 > 0 ∧
          time < hourEnd now + config.rateLimitReservationTtlMs then
        (db.lastAcceptedAt sender.id now).getD 0 + sender.minimumDelayMs
      else 0 := by
  have hnext := (seeded_of_active config db now hkey hmem hactive now).next
  rw [now_add_seedTtl] at hnext
  unfold reading
  split at hnext
  next hpositive =>
    rw [show (db.reseeded config now).redis.get time (.next sender.id) = _ from
      ExpiringStore.get_of_entry hnext time]
    by_cases hlt : time < hourEnd now + config.rateLimitReservationTtlMs
    · rw [if_pos hlt, if_pos ⟨hpositive, hlt⟩, Option.getD_some]
    · rw [if_neg hlt, if_neg fun h => hlt h.2, Option.getD_none]
  next hnot =>
    rw [show (db.reseeded config now).redis.get time (.next sender.id) = none from
      ExpiringStore.get_eq_none_of_none hnext, if_neg fun h => hnot h.1, Option.getD_none]

/-- Where the delay is neither over nor restored, the `next` key lets somebody pass too early. -/
theorem exists_passed (hkey : PrimaryKey EmailSender.id db.senders) (hmem : sender ∈ db.senders)
    (hactive : sender.isActive = true) {last : Int}
    (hlast : db.latestSentAt sender.id = some last)
    (hnot : ¬ NextRestored config now last sender.minimumDelayMs) :
    ∃ time, now ≤ time ∧ time < last + sender.minimumDelayMs ∧
      reading (db.reseeded config now).redis time (.next sender.id) ≤ time := by
  have hread := fun time => reading_reseeded config now time hkey hmem hactive
  have hend := lt_hourEnd now
  have hhour := config.oneHour_le_reservationTtl
  unfold oneHourMilliseconds at hhour
  unfold NextRestored at hnot
  by_cases hseen : (db.lastAcceptedAt sender.id now).getD 0 > 0
  · obtain ⟨seen, hsome, hpositive⟩ : ∃ seen, db.lastAcceptedAt sender.id now = some seen ∧
        0 < seen := by
      cases hcase : db.lastAcceptedAt sender.id now with
      | none =>
          rw [hcase] at hseen
          exact absurd hseen (Int.lt_irrefl 0)
      | some seen =>
          rw [hcase] at hseen
          exact ⟨seen, rfl, hseen⟩
    obtain ⟨hnow, hstart, hle⟩ := lastAcceptedAt_le hlast hsome
    rw [hsome, Option.getD_some] at hread
    by_cases hpast : last ≤ now
    · -- The seeding saw the last send, so the key does not outlive the delay.
      refine ⟨hourEnd now + config.rateLimitReservationTtlMs, by omega, by omega, ?_⟩
      rw [hread, if_neg (by omega)]
      omega
    · -- The last send lies after `now`, so an earlier one was seen.
      refine ⟨max now (seen + sender.minimumDelayMs), by omega, by omega, ?_⟩
      rw [hread]
      split
      · omega
      · omega
  · -- Nothing was seen, so there is no `next` key.
    refine ⟨max now 0, by omega, by omega, ?_⟩
    rw [hread, if_neg fun h => hseen h.1]
    omega

/-- **Spacing after the loss of Redis.** Whatever the database holds and whenever the worker starts,
no active sender is admitted before its last send plus its delay if and only if, for each of them
that has sent, that time is over or the last send lies in the current hour. -/
theorem spacingSurvives_iff (config : AppConfig) (db : Database)
    (hkey : PrimaryKey EmailSender.id db.senders) (now : Int) :
    SpacingSurvives config db now ↔
      ∀ sender ∈ db.senders, sender.isActive = true → ∀ last,
        db.latestSentAt sender.id = some last →
          NextRestored config now last sender.minimumDelayMs := by
  constructor
  · intro hspaced sender hmem hactive last hlast
    by_contra hnot
    obtain ⟨time, hnow, hearly, hpassed⟩ := exists_passed hkey hmem hactive hlast hnot
    have hclock : (db.reseeded config now).clock ≤ time := by
      rw [reseeded_clock]
      exact hnow
    obtain ⟨s, hsteps, a, ha, rfl⟩ := admitted_later hclock hpassed
    have hbound := hspaced sender hmem hactive last hlast s hsteps a ha
    omega
  · intro hrestored sender hmem hactive last hlast s hsteps
    exact spaced_of_nextRestored hkey hmem hactive hlast (hrestored sender hmem hactive last hlast)
      hsteps

end Spacing

namespace Delivery

/-- A batch of two emails, the first one sent half a second before the end of the hour. -/
def sentAtEndOfHour : List DeliveryEvent :=
  [.createBatch (requestFor ["a@test.invalid", "b@test.invalid"]) 10 (fun i => 100 + i),
    .deliver ⟨100, 0, some 3⟩, .advance 0 ⟨3599000, 0, .done⟩, .advance 0 ⟨3599000, 0, .done⟩,
    .advance 0 ⟨3599000, 70, .done⟩, .advance 0 ⟨3599000, 0, .done⟩, .smtpAccepts 0,
    .sendReturns 0 ⟨"message", none, 1, 0⟩, .advance 0 ⟨3599500, 0, .done⟩]

theorem facts_of_sentAtEndOfHour {s : Delivery}
    (h : (system validConfig).run TransitionSystem.anyStep sentAtEndOfHour oneSenderStart =
      some s) :
    s.database.senders = [oneSender] ∧ s.database.latestSentAt 1 = some 3599500 := by
  cases h
  exact ⟨by decide, by decide⟩

/-- A worker that starts in the same hour sees the send. -/
theorem spacingSurvives_in_hour : ∃ s,
    (system validConfig).run TransitionSystem.anyStep sentAtEndOfHour oneSenderStart = some s ∧
      s.database.latestSentAt 1 = some 3599500 ∧
      SpacingSurvives validConfig s.database 3599800 := by
  have hspaced : ∀ s, (system validConfig).run TransitionSystem.anyStep sentAtEndOfHour
      oneSenderStart = some s → SpacingSurvives validConfig s.database 3599800 := by
    intro s hs
    obtain ⟨hsenders, hlast⟩ := facts_of_sentAtEndOfHour hs
    refine (spacingSurvives_iff validConfig s.database (by rw [hsenders]; decide) 3599800).2 ?_
    intro sender hmem _ last hsender
    rw [hsenders, List.mem_singleton] at hmem
    rw [hmem, show oneSender.id = 1 from rfl, hlast, Option.some.injEq] at hsender
    rw [hmem, ← hsender]
    exact Or.inr (by decide)
  exact ⟨_, rfl, by decide, hspaced _ rfl⟩

/-- A worker that starts in the next hour does not see it, and its first `reserve` is admitted 0.7
seconds after a send with a delay of one second. -/
theorem not_spacingSurvives_after_hour : ∃ s,
    (system validConfig).Reachable TransitionSystem.anyStep s ∧
      PrimaryKey EmailSender.id s.database.senders ∧
      ¬ SpacingSurvives validConfig s.database 3600200 := by
  have hreach : ∀ s, (system validConfig).run TransitionSystem.anyStep sentAtEndOfHour
      oneSenderStart = some s → (system validConfig).Reachable TransitionSystem.anyStep s := by
    intro s hs
    exact reachable_from_oneSender sentAtEndOfHour hs
  have hearly : ∀ s, (system validConfig).run TransitionSystem.anyStep sentAtEndOfHour
      oneSenderStart = some s → ∃ t, (Limiter.system validConfig).Steps LaterCall
        (s.database.reseeded validConfig 3600200) t ∧
          ⟨101, 3600200, 1000, false⟩ ∈ admissions 1 t.history := by
    intro s hs
    cases hs
    exact ⟨_, .single (l := .reserve oneSender.policy 101 3600200) rfl rfl, by decide⟩
  have hfails : ∀ s, (system validConfig).run TransitionSystem.anyStep sentAtEndOfHour
      oneSenderStart = some s → ¬ SpacingSurvives validConfig s.database 3600200 := by
    intro s hs hspaced
    obtain ⟨hsenders, hlast⟩ := facts_of_sentAtEndOfHour hs
    obtain ⟨t, hsteps, hadmission⟩ := hearly s hs
    have hbound := hspaced oneSender (by rw [hsenders]; exact List.mem_singleton_self _) rfl
      3599500 hlast t hsteps _ hadmission
    exact absurd hbound (by decide)
  exact ⟨_, hreach _ rfl, by decide, hfails _ rfl⟩

/-! ## Quota -/

/-- `mailer.send` was called for the email in the hour that starts at `start`. -/
def handedOver (s : Delivery) (start : Int) (emailId : Uuid) : Bool :=
  s.submissions.any fun m =>
    decide (m.message.scheduledEmailId = emailId) && decide (hourStart m.handedOverAt = start)

/-- An email of the sender that was handed over in the hour and is `SENT`, `PROCESSING` or
`DELIVERY_UNKNOWN`. -/
def isSpent (s : Delivery) (senderId : Uuid) (start : Int) (e : ScheduledEmail) : Bool :=
  decide (e.senderId = senderId) && s.handedOver start e.id &&
    (decide (e.status = .sent) || decide (e.status = .processing) ||
      decide (e.status = .deliveryUnknown))

/-- The rows that the aggregate counts. -/
def isCounted (senderId : Uuid) (start finish : Int) (e : ScheduledEmail) : Bool :=
  decide (e.senderId = senderId) && decide (e.status = .sent) &&
    e.sentAt.any fun time => decide (start ≤ time) && decide (time ≤ finish)

/-- What the sender has spent of the hour's quota. -/
def spent (s : Delivery) (senderId : Uuid) (start : Int) : Nat :=
  s.database.emails.countP (s.isSpent senderId start)

/-- The counter of every sender with unfinished emails reads at least what the sender has spent. -/
def QuotaSurvives (config : AppConfig) (s : Delivery) (now : Int) : Prop :=
  ∀ sender ∈ s.database.senders,
    (∃ e ∈ s.database.emails, e.senderId = sender.id ∧ e.status.isRemaining = true) →
      (s.spent sender.id (hourStart now) : Int) ≤
        reading (s.database.reseeded config now).redis now (.hour sender.id (hourStart now))

/-- Every email that the sender has spent in the hour is `SENT`, with a `sentAt` between the start
of the hour and `now`, and the sender is active. -/
def QuotaKept (s : Delivery) (now : Int) (sender : EmailSender) : Prop :=
  ∀ e ∈ s.database.emails, s.isSpent sender.id (hourStart now) e = true →
    sender.isActive = true ∧ e.status = .sent ∧
      ∃ time, e.sentAt = some time ∧ hourStart now ≤ time ∧ time ≤ now

theorem isSpent_iff {s : Delivery} {senderId : Uuid} {start : Int} {e : ScheduledEmail} :
    s.isSpent senderId start e = true ↔
      (e.senderId = senderId ∧ s.handedOver start e.id = true) ∧
        ((e.status = .sent ∨ e.status = .processing) ∨ e.status = .deliveryUnknown) := by
  simp only [isSpent, Bool.and_eq_true, Bool.or_eq_true, decide_eq_true_eq]

theorem isCounted_iff {senderId : Uuid} {start finish : Int} {e : ScheduledEmail} :
    isCounted senderId start finish e = true ↔ (e.senderId = senderId ∧ e.status = .sent) ∧
      ∃ time, e.sentAt = some time ∧ start ≤ time ∧ time ≤ finish := by
  simp only [isCounted, Bool.and_eq_true, decide_eq_true_eq, Option.any_eq_true]

/-- Kept quota: the sender is active and its spent emails are counted, or nothing was spent. -/
theorem quotaKept_iff {s : Delivery} {now : Int} {sender : EmailSender} :
    QuotaKept s now sender ↔ ∀ e ∈ s.database.emails, s.isSpent sender.id (hourStart now) e = true →
      sender.isActive = true ∧ isCounted sender.id (hourStart now) now e = true := by
  refine forall₃_congr fun e _ hspent => ?_
  rw [isCounted_iff]
  have hsender := (isSpent_iff.1 hspent).1.1
  constructor
  · rintro ⟨hactive, hsent, htime⟩
    exact ⟨hactive, ⟨hsender, hsent⟩, htime⟩
  · rintro ⟨hactive, ⟨-, hsent⟩, htime⟩
    exact ⟨hactive, hsent, htime⟩

/-- The first email is handed over at the end of an hour and `SENT` in the next one, where the
second is on its way. -/
def carriedOver : List DeliveryEvent :=
  [.createBatch (requestFor ["a@test.invalid", "b@test.invalid"]) 10 (fun i => 100 + i),
    .tick 3599900, .deliver ⟨100, 0, some 3⟩, .advance 0 ⟨3599900, 0, .done⟩,
    .advance 0 ⟨3599900, 0, .done⟩, .advance 0 ⟨3599900, 70, .done⟩,
    .advance 0 ⟨3599900, 0, .done⟩, .smtpAccepts 0, .sendReturns 0 ⟨"message", none, 1, 0⟩,
    .advance 0 ⟨3600100, 0, .done⟩,
    .tick 3602000, .deliver ⟨101, 0, some 3⟩, .advance 1 ⟨3602000, 0, .done⟩,
    .advance 1 ⟨3602000, 0, .done⟩, .advance 1 ⟨3602000, 71, .done⟩,
    .advance 1 ⟨3602000, 0, .done⟩]

/-- One email is counted, one was spent, and they are not the same. -/
theorem quotaSurvives_by_chance : ∃ s,
    (system validConfig).run TransitionSystem.anyStep carriedOver oneSenderStart = some s ∧
      s.database.emails.map ScheduledEmail.status = [.sent, .processing] ∧
      QuotaSurvives validConfig s 3602000 ∧ ¬ QuotaKept s 3602000 oneSender := by
  refine ⟨_, rfl, by decide, ?_, ?_⟩
  · unfold QuotaSurvives
    decide
  · rw [quotaKept_iff]
    decide

end Delivery

end EmailScheduler
