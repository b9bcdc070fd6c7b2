import EmailScheduler.Config
import EmailScheduler.Schema
import EmailScheduler.Foundation.ExpiringStore
import EmailScheduler.Foundation.Transition

/-!
# The per-sender rate limiter

`rate-limit/sender-rate-limiter.ts`: the two Lua scripts, the TypeScript around them, and the runs
of their calls. A script runs atomically at a time of the Redis clock; the `now` that a caller
passes is a separate argument, taken by the caller before the call.

All keys share one prefix, `<BULLMQ_PREFIX>:email-rate:v1:{<senderId>}`; `RateKey` names what
follows it. Numbers in the scripts are integers, and `tostring` prints integers below `10^14`
without loss, so values are stored as integers.
-/

set_option autoImplicit false

namespace EmailScheduler

open Foundation

/-- The keys of the limiter: `hour:<hourStart>`, `next` and `reservation:<emailId>` of a sender. -/
inductive RateKey where
  | hour (senderId : Uuid) (hourStart : Int)
  | next (senderId : Uuid)
  | reservation (senderId emailId : Uuid)
deriving DecidableEq, Repr

/-- The keys of the limiter in Redis. -/
abbrev LimiterStore := ExpiringStore RateKey Int

structure SenderPolicy where
  senderId : Uuid
  hourlyLimit : Int
  minimumDelayMs : Int
deriving DecidableEq, Repr

structure RateLimitDecision where
  admitted : Bool
  nextAvailableAt : Int
  existingReservation : Bool
deriving DecidableEq, Repr

/-- `hourWindow(now).start`. -/
def hourStart (now : Int) : Int := now / oneHourMilliseconds * oneHourMilliseconds

/-- `hourWindow(now).end`. -/
def hourEnd (now : Int) : Int := hourStart now + oneHourMilliseconds

/-- The arguments `KEYS` of a script. -/
structure RateKeys where
  count : RateKey
  next : RateKey
  reservation : RateKey

/-- `keys`. -/
def rateKeys (senderId emailId : Uuid) (start : Int) : RateKeys :=
  ⟨.hour senderId start, .next senderId, .reservation senderId emailId⟩

/-- `tonumber(redis.call('GET', key) or '0')`. -/
def reading (redis : LimiterStore) (clock : Int) (key : RateKey) : Int :=
  (redis.get clock key).getD 0

/-- `reserveScript`: the reply, three numbers, and the keys afterwards. -/
def reserveScript (keys : RateKeys) (now hourEnd limit minimumDelay reservationTtl : Int)
    (clock : Int) (redis : LimiterStore) : (Int × Int × Int) × LimiterStore :=
  let count := reading redis clock keys.count
  let nextAt := reading redis clock keys.next
  let hasReservation := redis.has clock keys.reservation
  let existing : Int := if hasReservation then 1 else 0
  if !hasReservation && decide (count ≥ limit) then
    let retryAt := if nextAt > hourEnd then nextAt else hourEnd
    ((0, retryAt, 0), redis)
  else if nextAt > now then
    ((0, nextAt, existing), redis)
  else
    let redis := if !hasReservation then
        let redis := redis.setPx clock keys.reservation now reservationTtl
        let redis := redis.incr clock keys.count
        redis.pexpireAt clock keys.count (hourEnd + reservationTtl)
      else redis
    let admittedNextAt := now + minimumDelay
    ((1, now, existing), redis.setPx clock keys.next admittedNextAt reservationTtl)

/-- `seedScript`. -/
def seedScript (count next : RateKey) (acceptedCount lastAcceptedAt minimumDelay ttl : Int)
    (clock : Int) (redis : LimiterStore) : LimiterStore :=
  let redis := redis.setIfAbsent clock count acceptedCount ttl
  if lastAcceptedAt > 0 then
    redis.setIfAbsent clock next (lastAcceptedAt + minimumDelay) ttl
  else redis

/-- `SenderRateLimiter.reserve` at `clock`. -/
def reserve (config : AppConfig) (policy : SenderPolicy) (scheduledEmailId : Uuid)
    (now clock : Int) (redis : LimiterStore) : RateLimitDecision × LimiterStore :=
  let result := reserveScript (rateKeys policy.senderId scheduledEmailId (hourStart now)) now
    (hourEnd now) policy.hourlyLimit policy.minimumDelayMs config.rateLimitReservationTtlMs clock
    redis
  (⟨decide (result.1.1 = 1), result.1.2.1, decide (result.1.2.2 = 1)⟩, result.2)

/-- `SenderRateLimiter.seed` at `clock`. -/
def seed (config : AppConfig) (policy : SenderPolicy) (acceptedCount : Nat)
    (lastAcceptedAt : Option Int) (now clock : Int) (redis : LimiterStore) :
    LimiterStore :=
  let keys := rateKeys policy.senderId 0 (hourStart now)
  let ttl := hourEnd now - now + config.rateLimitReservationTtlMs
  seedScript keys.count keys.next acceptedCount (lastAcceptedAt.getD 0) policy.minimumDelayMs ttl
    clock redis

/-! ## Windows -/

theorem hourStart_le (now : Int) : hourStart now ≤ now := by
  unfold hourStart oneHourMilliseconds
  omega

theorem lt_hourEnd (now : Int) : now < hourEnd now := by
  unfold hourEnd hourStart oneHourMilliseconds
  omega

/-- Two times in one window are less than an hour apart. -/
theorem lt_add_hour_of_hourStart_eq {a b : Int} (h : hourStart a = hourStart b) :
    b < a + oneHourMilliseconds := by
  have ha := hourStart_le a
  have hb := lt_hourEnd b
  unfold hourEnd at hb
  omega

/-! ## What a call does -/

/-- The keys after an admission without a reservation: the reservation is made, the counter of the
window of `now` is raised and kept until the TTL after the window, and `next` moves on. -/
def grantReservation (config : AppConfig) (policy : SenderPolicy) (emailId : Uuid)
    (now clock : Int) (redis : LimiterStore) : LimiterStore :=
  (((redis.setPx clock (.reservation policy.senderId emailId) now
      config.rateLimitReservationTtlMs).incr clock
        (.hour policy.senderId (hourStart now))).pexpireAt clock
          (.hour policy.senderId (hourStart now))
          (hourEnd now + config.rateLimitReservationTtlMs)).setPx clock
    (.next policy.senderId) (now + policy.minimumDelayMs) config.rateLimitReservationTtlMs

section Reserve

variable {config : AppConfig} {policy : SenderPolicy} {emailId : Uuid} {now clock : Int}
  {redis : LimiterStore}

theorem grantReservation_hour (config : AppConfig) (policy : SenderPolicy) (emailId : Uuid)
    (now clock : Int) (redis : LimiterStore) :
    grantReservation config policy emailId now clock redis
        (.hour policy.senderId (hourStart now)) =
      some ⟨reading redis clock (.hour policy.senderId (hourStart now)) + 1,
        some (hourEnd now + config.rateLimitReservationTtlMs)⟩ := by
  rw [grantReservation, ExpiringStore.setPx_of_ne _ (by simp),
    ExpiringStore.pexpireAt_incr_self,
    ExpiringStore.get_congr (ExpiringStore.setPx_of_ne _ (by simp) _ _ _)]
  rfl

theorem grantReservation_reservation (config : AppConfig) (policy : SenderPolicy) (emailId : Uuid)
    (now clock : Int) (redis : LimiterStore) :
    grantReservation config policy emailId now clock redis
        (.reservation policy.senderId emailId) =
      some ⟨now, some (clock + config.rateLimitReservationTtlMs)⟩ := by
  rw [grantReservation, ExpiringStore.setPx_of_ne _ (by simp),
    ExpiringStore.pexpireAt_of_ne _ (by simp), ExpiringStore.incr_of_ne _ (by simp),
    ExpiringStore.setPx_self]

theorem grantReservation_next (config : AppConfig) (policy : SenderPolicy) (emailId : Uuid)
    (now clock : Int) (redis : LimiterStore) :
    grantReservation config policy emailId now clock redis (.next policy.senderId) =
      some ⟨now + policy.minimumDelayMs, some (clock + config.rateLimitReservationTtlMs)⟩ :=
  ExpiringStore.setPx_self _ _ _ _ _

theorem grantReservation_frame {key : RateKey}
    (hhour : key ≠ .hour policy.senderId (hourStart now))
    (hnext : key ≠ .next policy.senderId) (hres : key ≠ .reservation policy.senderId emailId) :
    grantReservation config policy emailId now clock redis key = redis key := by
  rw [grantReservation, ExpiringStore.setPx_of_ne _ hnext,
    ExpiringStore.pexpireAt_of_ne _ hhour, ExpiringStore.incr_of_ne _ hhour,
    ExpiringStore.setPx_of_ne _ hres]

/-- **The outcomes of `reserve`.** A denial leaves the keys as they are. An admission without a
reservation needs room under the limit and counts; an admission with a reservation does not look
at the counter. Both need the stored `next` to have passed. -/
theorem reserve_cases (config : AppConfig) (policy : SenderPolicy) (emailId : Uuid)
    (now clock : Int) (redis : LimiterStore) :
    ((reserve config policy emailId now clock redis).1.admitted = false ∧
        (reserve config policy emailId now clock redis).2 = redis) ∨
      (reading redis clock (.next policy.senderId) ≤ now ∧
        redis.get clock (.reservation policy.senderId emailId) = none ∧
        reading redis clock (.hour policy.senderId (hourStart now)) < policy.hourlyLimit ∧
        (reserve config policy emailId now clock redis).1 = ⟨true, now, false⟩ ∧
        (reserve config policy emailId now clock redis).2 =
          grantReservation config policy emailId now clock redis) ∨
      (reading redis clock (.next policy.senderId) ≤ now ∧
        (∃ v, redis.get clock (.reservation policy.senderId emailId) = some v) ∧
        (reserve config policy emailId now clock redis).1 = ⟨true, now, true⟩ ∧
        (reserve config policy emailId now clock redis).2 =
          redis.setPx clock (.next policy.senderId) (now + policy.minimumDelayMs)
            config.rateLimitReservationTtlMs) := by
  have hhas := ExpiringStore.has_eq_isSome_get redis clock (.reservation policy.senderId emailId)
  -- The script asks for a reservation first, then for the hour, then for the spacing.
  cases hres : redis.get clock (.reservation policy.senderId emailId) with
  | none =>
      rw [hres, Option.isSome_none] at hhas
      by_cases hfull : reading redis clock (.hour policy.senderId (hourStart now)) ≥
          policy.hourlyLimit
      · left
        simp [reserve, reserveScript, rateKeys, hhas, hfull]
      · by_cases hnext : reading redis clock (.next policy.senderId) > now
        · left
          simp [reserve, reserveScript, rateKeys, hhas, hfull, hnext]
        · right; left
          simp [reserve, reserveScript, rateKeys, grantReservation, hhas, hfull, hnext]
          omega
  | some v =>
      rw [hres, Option.isSome_some] at hhas
      by_cases hnext : reading redis clock (.next policy.senderId) > now
      · left
        simp [reserve, reserveScript, rateKeys, hhas, hnext]
      · right; right
        simp [reserve, reserveScript, rateKeys, hhas, hnext]
        omega

/-- A denied call names a later time. -/
theorem lt_nextAvailableAt_of_denied
    (h : (reserve config policy emailId now clock redis).1.admitted = false) :
    now < (reserve config policy emailId now clock redis).1.nextAvailableAt := by
  have hend := lt_hourEnd now
  unfold reserve reserveScript rateKeys at h ⊢
  dsimp only at h ⊢
  split at h
  next hfull =>
    rw [if_pos hfull]
    dsimp only
    split
    next hlater => omega
    next => exact hend
  next hroom =>
    rw [if_neg hroom]
    split at h
    next hnext =>
      rw [if_pos hnext]
      exact hnext
    next => cases h

/-- A call writes no key but its own three. -/
theorem reserve_frame {key : RateKey} (hhour : key ≠ .hour policy.senderId (hourStart now))
    (hnext : key ≠ .next policy.senderId) (hres : key ≠ .reservation policy.senderId emailId) :
    (reserve config policy emailId now clock redis).2 key = redis key := by
  rcases reserve_cases config policy emailId now clock redis with
    ⟨-, h⟩ | ⟨-, -, -, -, h⟩ | ⟨-, -, -, h⟩
  · rw [h]
  · rw [h]
    exact grantReservation_frame hhour hnext hres
  · rw [h, ExpiringStore.setPx_of_ne _ hnext]

/-- With `next` passed and room under the limit, the call is admitted. -/
theorem reserve_admitted (hnext : reading redis clock (.next policy.senderId) ≤ now)
    (hcount : reading redis clock (.hour policy.senderId (hourStart now)) < policy.hourlyLimit) :
    (reserve config policy emailId now clock redis).1.admitted = true := by
  have hcount' : ¬ policy.hourlyLimit ≤
      reading redis clock (.hour policy.senderId (hourStart now)) := by omega
  have hnext' : ¬ now < reading redis clock (.next policy.senderId) := by omega
  simp [reserve, reserveScript, rateKeys, hcount', hnext']

end Reserve

section Seed

variable (config : AppConfig) (policy : SenderPolicy) (acceptedCount : Nat)
  (lastAcceptedAt : Option Int) (now clock : Int) (redis : LimiterStore)

/-- The lifetime that `seed` gives to the keys it creates. -/
def seedTtl : Int :=
  hourEnd now - now + config.rateLimitReservationTtlMs

/-- `seed` creates the counter of the current window if there is none. -/
theorem seed_hour :
    seed config policy acceptedCount lastAcceptedAt now clock redis
        (.hour policy.senderId (hourStart now)) =
      if redis.has clock (.hour policy.senderId (hourStart now)) then
        redis (.hour policy.senderId (hourStart now))
      else some ⟨acceptedCount, some (clock + seedTtl config now)⟩ := by
  rw [seed, seedScript, ← seedTtl]
  split
  · rw [ExpiringStore.setIfAbsent_of_ne _ (by simp [rateKeys])]
    exact ExpiringStore.setIfAbsent_self _ _ _ _ _
  · exact ExpiringStore.setIfAbsent_self _ _ _ _ _

/-- `seed` creates `next` from the last accepted send if there is none. -/
theorem seed_next :
    seed config policy acceptedCount lastAcceptedAt now clock redis (.next policy.senderId) =
      if lastAcceptedAt.getD 0 > 0 ∧ redis.has clock (.next policy.senderId) = false then
        some ⟨lastAcceptedAt.getD 0 + policy.minimumDelayMs, some (clock + seedTtl config now)⟩
      else redis (.next policy.senderId) := by
  have hcount := ExpiringStore.setIfAbsent_of_ne redis
    (show RateKey.next policy.senderId ≠ .hour policy.senderId (hourStart now) by simp) clock
    (acceptedCount : Int) (seedTtl config now)
  rw [seed, seedScript, ← seedTtl]
  by_cases hlast : lastAcceptedAt.getD 0 > 0
  · rw [if_pos hlast]
    refine (ExpiringStore.setIfAbsent_self _ _ _ _ _).trans ?_
    rw [ExpiringStore.has_eq_isSome_get, rateKeys, ExpiringStore.get_congr hcount,
      ← ExpiringStore.has_eq_isSome_get]
    cases redis.has clock (.next policy.senderId) with
    | true => simpa using hcount
    | false => simp [hlast]
  · rw [if_neg hlast, if_neg (fun h => hlast h.1)]
    exact hcount

/-- `seed` writes no key but the current counter and `next`. -/
theorem seed_frame {key : RateKey} (hhour : key ≠ .hour policy.senderId (hourStart now))
    (hnext : key ≠ .next policy.senderId) :
    seed config policy acceptedCount lastAcceptedAt now clock redis key = redis key := by
  unfold seed seedScript
  split
  · exact (ExpiringStore.setIfAbsent_of_ne _ hnext _ _ _).trans
      (ExpiringStore.setIfAbsent_of_ne _ hhour _ _ _)
  · exact ExpiringStore.setIfAbsent_of_ne _ hhour _ _ _

variable {config policy acceptedCount lastAcceptedAt now clock redis}

/-- `seed` keeps the value of every key that is present. -/
theorem seed_get_of_get {key : RateKey} {v : Int} (h : redis.get clock key = some v) :
    (seed config policy acceptedCount lastAcceptedAt now clock redis).get clock key = some v := by
  have hhas : redis.has clock key = true := by
    rw [ExpiringStore.has_eq_isSome_get, h]
    rfl
  suffices hsame :
    seed config policy acceptedCount lastAcceptedAt now clock redis key = redis key by
    rw [ExpiringStore.get_congr hsame]
    exact h
  by_cases hk : key = .hour policy.senderId (hourStart now)
  · subst hk
    rw [seed_hour, if_pos hhas]
  · by_cases hn : key = .next policy.senderId
    · subst hn
      rw [seed_next, hhas]
      simp
    · exact seed_frame _ _ _ _ _ _ _ hk hn

end Seed

end EmailScheduler
