import EmailScheduler.RateLimit.History

/-!
# Seeding the limiter from the database

`worker/rate-seed.ts`: at the start of a worker the counter of the current hour and the `next` time
of every active sender are created, where they are missing, from the `SENT` rows of the hour. The
loop is modelled at one instant of the Redis clock; `now` is the time the worker read before it.
-/

set_option autoImplicit false

namespace EmailScheduler

open Foundation

/-- The rows of the aggregate: `SENT` emails of a sender with `sentAt` between two times. -/
def Database.acceptedBetween (db : Database) (senderId : Uuid) (start finish : Int) :
    List ScheduledEmail :=
  db.emails.filter fun e => decide (e.senderId = senderId) && decide (e.status = .sent) &&
    e.sentAt.any fun time => decide (start ≤ time) && decide (time ≤ finish)

/-- `_count.id`. -/
def Database.acceptedCount (db : Database) (senderId : Uuid) (now : Int) : Nat :=
  (db.acceptedBetween senderId (hourStart now) now).length

/-- `_max.sentAt`. -/
def Database.lastAcceptedAt (db : Database) (senderId : Uuid) (now : Int) : Option Int :=
  ((db.acceptedBetween senderId (hourStart now) now).filterMap ScheduledEmail.sentAt).max?

/-- The policy of a sender row. -/
def EmailSender.policy (sender : EmailSender) : SenderPolicy :=
  ⟨sender.id, sender.hourlyLimit, sender.minimumDelayMs⟩

/-- The body of the loop in `seedSenderRateLimits`. -/
def seedSender (config : AppConfig) (db : Database) (now : Int) (limiter : Limiter)
    (sender : EmailSender) : Limiter :=
  limiter.seed config sender.policy (db.acceptedCount sender.id now)
    (db.lastAcceptedAt sender.id now) now

/-- `seedSenderRateLimits`: the number of senders it returns, and the limiter. -/
def seedSenderRateLimits (config : AppConfig) (db : Database) (now : Int) (limiter : Limiter) :
    Nat × Limiter :=
  let senders := db.senders.filter EmailSender.isActive
  (senders.length, senders.foldl (seedSender config db now) limiter)

/-- Redis after the loss of all limiter keys. -/
def Limiter.withoutKeys (clock : Int) : Limiter := ⟨ExpiringStore.empty, clock, []⟩

/-! ## The aggregate -/

/-- The times at which emails of a sender were sent. -/
def Database.sentTimes (db : Database) (senderId : Uuid) : List Int :=
  (db.emails.filter fun e => decide (e.senderId = senderId) && decide (e.status = .sent)).filterMap
    ScheduledEmail.sentAt

/-- The last time at which an email of a sender was sent. -/
def Database.latestSentAt (db : Database) (senderId : Uuid) : Option Int :=
  (db.sentTimes senderId).max?

section Aggregate

variable {db : Database} {senderId : Uuid} {now last time : Int}

/-- The aggregate ranges over the send times of the current hour up to now. -/
theorem mem_acceptedTimes {start finish : Int} :
    time ∈ (db.acceptedBetween senderId start finish).filterMap ScheduledEmail.sentAt ↔
      time ∈ db.sentTimes senderId ∧ start ≤ time ∧ time ≤ finish := by
  simp only [Database.acceptedBetween, Database.sentTimes, List.mem_filterMap, List.mem_filter,
    Bool.and_eq_true, decide_eq_true_eq]
  constructor
  · rintro ⟨e, ⟨he, hrow, hwindow⟩, htime⟩
    rw [htime] at hwindow
    simp only [Option.any_some, Bool.and_eq_true, decide_eq_true_eq] at hwindow
    exact ⟨⟨e, ⟨he, hrow⟩, htime⟩, hwindow⟩
  · rintro ⟨⟨e, ⟨he, hrow⟩, htime⟩, hwindow⟩
    refine ⟨e, ⟨he, hrow, ?_⟩, htime⟩
    rw [htime]
    simpa using hwindow

theorem latestSentAt_eq_some :
    db.latestSentAt senderId = some last ↔
      last ∈ db.sentTimes senderId ∧ ∀ time ∈ db.sentTimes senderId, time ≤ last :=
  List.max?_eq_some_iff

theorem lastAcceptedAt_eq_some :
    db.lastAcceptedAt senderId now = some last ↔
      (last ∈ db.sentTimes senderId ∧ hourStart now ≤ last ∧ last ≤ now) ∧
        ∀ time ∈ db.sentTimes senderId, hourStart now ≤ time → time ≤ now → time ≤ last := by
  rw [Database.lastAcceptedAt, List.max?_eq_some_iff, mem_acceptedTimes]
  refine and_congr_right fun _ => ?_
  constructor
  · intro h time htime hstart hnow
    exact h time (mem_acceptedTimes.2 ⟨htime, hstart, hnow⟩)
  · intro h time htime
    obtain ⟨hsent, hstart, hnow⟩ := mem_acceptedTimes.1 htime
    exact h time hsent hstart hnow

/-- In the current hour the last send is the last accepted one. -/
theorem lastAcceptedAt_of_latest (h : db.latestSentAt senderId = some last)
    (hstart : hourStart now ≤ last) (hnow : last ≤ now) :
    db.lastAcceptedAt senderId now = some last := by
  obtain ⟨hmem, hmax⟩ := latestSentAt_eq_some.1 h
  exact lastAcceptedAt_eq_some.2 ⟨⟨hmem, hstart, hnow⟩, fun time htime _ _ => hmax time htime⟩

/-- The aggregate misses a last send that is not in the current hour. -/
theorem lastAcceptedAt_le (h : db.latestSentAt senderId = some last)
    (hlast : db.lastAcceptedAt senderId now = some time) :
    time ≤ now ∧ hourStart now ≤ time ∧ time ≤ last := by
  obtain ⟨⟨hmem, hstart, hnow⟩, -⟩ := lastAcceptedAt_eq_some.1 hlast
  exact ⟨hnow, hstart, (latestSentAt_eq_some.1 h).2 time hmem⟩

end Aggregate

/-! ## The keys after seeding -/

section Keys

variable (config : AppConfig) (db : Database) (now : Int) (limiter : Limiter)

/-- Seeding a sender writes no key of another one. -/
theorem seedSender_of_ne {sender : EmailSender} {senderId : Uuid} (h : senderId ≠ sender.id)
    (start : Int) :
    (seedSender config db now limiter sender).redis (.hour senderId start) =
        limiter.redis (.hour senderId start) ∧
      (seedSender config db now limiter sender).redis (.next senderId) =
        limiter.redis (.next senderId) := by
  constructor
  · apply seed_frame
    · intro heq
      injection heq with hid
      exact h hid
    · exact RateKey.noConfusion
  · apply seed_frame
    · exact RateKey.noConfusion
    · intro heq
      injection heq with hid
      exact h hid

theorem seedSender_hour {sender : EmailSender}
    (h : limiter.redis (.hour sender.id (hourStart now)) = none) :
    (seedSender config db now limiter sender).redis (.hour sender.id (hourStart now)) =
      some ⟨db.acceptedCount sender.id now, some (limiter.clock + seedTtl config now)⟩ := by
  refine (seed_hour config sender.policy (db.acceptedCount sender.id now)
    (db.lastAcceptedAt sender.id now) now limiter.clock limiter.redis).trans (if_neg ?_)
  rw [ExpiringStore.has_eq_isSome_get,
    show limiter.redis.get limiter.clock (.hour sender.policy.senderId (hourStart now)) = none from
      ExpiringStore.get_eq_none_of_none h]
  simp

theorem seedSender_next {sender : EmailSender} (h : limiter.redis (.next sender.id) = none) :
    (seedSender config db now limiter sender).redis (.next sender.id) =
      if (db.lastAcceptedAt sender.id now).getD 0 > 0 then
        some ⟨(db.lastAcceptedAt sender.id now).getD 0 + sender.minimumDelayMs,
          some (limiter.clock + seedTtl config now)⟩
      else none := by
  have hhas : limiter.redis.has limiter.clock (.next sender.policy.senderId) = false := by
    rw [ExpiringStore.has_eq_isSome_get,
      show limiter.redis.get limiter.clock (.next sender.policy.senderId) = none from
        ExpiringStore.get_eq_none_of_none h]
    rfl
  refine (seed_next config sender.policy (db.acceptedCount sender.id now)
    (db.lastAcceptedAt sender.id now) now limiter.clock limiter.redis).trans ?_
  rw [hhas, show limiter.redis (.next sender.policy.senderId) = none from h]
  simp only [and_true]
  rfl

/-- The entries that seeding creates for a sender, at a time of the Redis clock. -/
structure Seeded (config : AppConfig) (db : Database) (now clock : Int) (sender : EmailSender)
    (redis : LimiterStore) : Prop where
  hour : redis (.hour sender.id (hourStart now)) =
    some ⟨db.acceptedCount sender.id now, some (clock + seedTtl config now)⟩
  next : redis (.next sender.id) =
    if (db.lastAcceptedAt sender.id now).getD 0 > 0 then
      some ⟨(db.lastAcceptedAt sender.id now).getD 0 + sender.minimumDelayMs,
        some (clock + seedTtl config now)⟩
    else none

theorem seedSenders_clock (senders : List EmailSender) :
    (senders.foldl (seedSender config db now) limiter).clock = limiter.clock := by
  induction senders generalizing limiter with
  | nil => rfl
  | cons x senders ih => exact ih _

/-- Seeding admits nobody. -/
theorem admissions_seedSenders (senderId : Uuid) (senders : List EmailSender) :
    admissions senderId (senders.foldl (seedSender config db now) limiter).history =
      admissions senderId limiter.history := by
  induction senders generalizing limiter with
  | nil => rfl
  | cons x senders ih => exact ih _

/-- A sender that is not in the loop keeps its keys. -/
theorem seedSenders_of_not_mem {senderId : Uuid} (senders : List EmailSender)
    (h : ∀ x ∈ senders, senderId ≠ x.id) (start : Int) :
    (senders.foldl (seedSender config db now) limiter).redis (.hour senderId start) =
        limiter.redis (.hour senderId start) ∧
      (senders.foldl (seedSender config db now) limiter).redis (.next senderId) =
        limiter.redis (.next senderId) := by
  induction senders generalizing limiter with
  | nil => exact ⟨rfl, rfl⟩
  | cons x senders ih =>
      obtain ⟨hhour, hnext⟩ := ih (seedSender config db now limiter x)
        (fun y hy => h y (List.mem_cons_of_mem _ hy))
      obtain ⟨hhour', hnext'⟩ := seedSender_of_ne config db now limiter (h x List.mem_cons_self)
        start
      exact ⟨hhour.trans hhour', hnext.trans hnext'⟩

/-- A sender in the loop gets its entries. -/
theorem seedSenders_of_mem (senders : List EmailSender)
    (hkey : PrimaryKey EmailSender.id senders) {sender : EmailSender} (hmem : sender ∈ senders)
    (hhour : limiter.redis (.hour sender.id (hourStart now)) = none)
    (hnext : limiter.redis (.next sender.id) = none) :
    Seeded config db now limiter.clock sender
      (senders.foldl (seedSender config db now) limiter).redis := by
  induction senders generalizing limiter with
  | nil => cases hmem
  | cons x senders ih =>
      obtain ⟨hnew, htail⟩ := List.nodup_cons.1 hkey
      rcases List.mem_cons.1 hmem with rfl | hmem
      · -- The other senders of the loop do not touch the entries.
        have hother : ∀ y ∈ senders, sender.id ≠ y.id := by
          intro y hy heq
          exact hnew (List.mem_map.2 ⟨y, hy, heq.symm⟩)
        obtain ⟨hhour', hnext'⟩ := seedSenders_of_not_mem config db now
          (seedSender config db now limiter sender) senders hother (hourStart now)
        exact ⟨hhour'.trans (seedSender_hour config db now limiter hhour),
          hnext'.trans (seedSender_next config db now limiter hnext)⟩
      · have hne : sender.id ≠ x.id := by
          intro heq
          exact hnew (List.mem_map.2 ⟨sender, hmem, heq⟩)
        obtain ⟨hhour', hnext'⟩ := seedSender_of_ne config db now limiter hne (hourStart now)
        exact ih _ htail hmem (hhour'.trans hhour) (hnext'.trans hnext)

/-- **After the loss of all keys** seeding restores the entries of every active sender, -/
theorem seeded_of_active (hkey : PrimaryKey EmailSender.id db.senders) {sender : EmailSender}
    (hmem : sender ∈ db.senders) (hactive : sender.isActive = true) (clock : Int) :
    Seeded config db now clock sender
      (seedSenderRateLimits config db now (.withoutKeys clock)).2.redis := by
  exact seedSenders_of_mem config db now (.withoutKeys clock) _ (hkey.filter _)
    (List.mem_filter.2 ⟨hmem, hactive⟩) rfl rfl

end Keys

end EmailScheduler
