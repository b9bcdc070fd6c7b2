import EmailScheduler.RateLimit.History

/-!
# Minimum spacing between admissions

Every admission stores `now + minimumDelayMs` under the sender's `next` key, and no admission is
made before the stored time. The key itself expires after the reservation TTL, whatever the delay,
so the stored time outlives the delay exactly when the delay is at most the TTL. The schema compares
the TTL with one hour only.

`minimumSpacing_iff` decides the question for every configuration: all runs under it are spaced if
and only if its largest delay is at most its reservation TTL.
-/

set_option autoImplicit false

namespace EmailScheduler

open Foundation

/-- The policies that the API accepts under a configuration. -/
def AcceptedPolicy (config : AppConfig) (policy : SenderPolicy) : Prop :=
  1 ≤ policy.hourlyLimit ∧ policy.hourlyLimit ≤ config.maxEmailsPerHour ∧
    config.minSendDelayMs ≤ policy.minimumDelayMs ∧ policy.minimumDelayMs ≤ config.maxSendDelayMs

/-- Any two admissions of the sender are at least the earlier one's delay apart. -/
def Spaced (senderId : Uuid) (history : List LimiterEvent) : Prop :=
  (admissions senderId history).Pairwise fun later earlier =>
    earlier.now + earlier.minimumDelayMs ≤ later.now

namespace Limiter

/-- Calls of `reserve` at the Redis clock, with policies that satisfy `allowed`; time passes. -/
def ReserveOnly (allowed : SenderPolicy → Prop) (s : Limiter) : LimiterCall → Prop
  | .reserve policy _ now => now = s.clock ∧ allowed policy
  | .seed _ _ _ _ => False
  | .tick _ => True

/-- The state of the `next` keys in a run: a stored time is at most its expiry, and every
admission's earliest successor has passed or is covered by the reading of `next`. -/
structure SpacingInv (s : Limiter) : Prop where
  expiry : ∀ senderId e, s.redis (.next senderId) = some e →
    ∃ t, e.expiresAt = some t ∧ e.value ≤ t
  covered : ∀ senderId, ∀ a ∈ admissions senderId s.history,
    a.now + a.minimumDelayMs ≤ s.clock ∨
      a.now + a.minimumDelayMs ≤ reading s.redis s.clock (.next senderId)
  spaced : ∀ senderId, Spaced senderId s.history

variable {config : AppConfig} {s : Limiter}

/-- A call of `reserve` denies and keeps the keys, or admits at a time when `next` has passed and
stores the caller's time plus the delay under `next`. -/
theorem reserve_next (config : AppConfig) (policy : SenderPolicy) (emailId : Uuid) (now clock : Int)
    (redis : LimiterStore) :
    ((EmailScheduler.reserve config policy emailId now clock redis).1.admitted = false ∧
        (EmailScheduler.reserve config policy emailId now clock redis).2 = redis) ∨
      ((EmailScheduler.reserve config policy emailId now clock redis).1.admitted = true ∧
        reading redis clock (.next policy.senderId) ≤ now ∧
        (EmailScheduler.reserve config policy emailId now clock redis).2 (.next policy.senderId) =
          some ⟨now + policy.minimumDelayMs, some (clock + config.rateLimitReservationTtlMs)⟩ ∧
        ∀ other, other ≠ policy.senderId →
          (EmailScheduler.reserve config policy emailId now clock redis).2 (.next other) =
            redis (.next other)) := by
  rcases reserve_cases config policy emailId now clock redis with
    h | ⟨hnext, -, -, hd, hstore⟩ | ⟨hnext, -, hd, hstore⟩
  · exact Or.inl h
  · right
    rw [hd, hstore]
    refine ⟨rfl, hnext, grantReservation_next _ _ _ _ _ _, fun other hne => ?_⟩
    exact grantReservation_frame (by simp) (by simpa using hne) (by simp)
  · right
    rw [hd, hstore]
    refine ⟨rfl, hnext, ExpiringStore.setPx_self _ _ _ _ _, fun other hne => ?_⟩
    rw [ExpiringStore.setPx_of_ne _ (by simpa using hne)]

theorem spacingInv_init (h : (system config).init s) : SpacingInv s := by
  obtain ⟨hredis, hhistory⟩ := h
  refine ⟨?_, ?_, ?_⟩
  · intro senderId e he
    rw [hredis] at he
    cases he
  · intro senderId a ha
    rw [hhistory] at ha
    cases ha
  · intro senderId
    rw [Spaced, hhistory]
    exact List.Pairwise.nil

theorem spacingInv_tick (hinv : SpacingInv s) {clock : Int} (hclock : s.clock ≤ clock) :
    SpacingInv { s with clock := clock } := by
  refine ⟨hinv.expiry, fun senderId a ha => ?_, hinv.spaced⟩
  rcases hinv.covered senderId a ha with h | h
  · exact Or.inl (Int.le_trans h hclock)
  · rcases ExpiringStore.get_later s.redis hclock (.next senderId) with
      hsame | ⟨-, e, t, he, ht, hle, hget⟩
    · right
      show _ ≤ (s.redis.get clock (.next senderId)).getD 0
      rw [hsame]
      exact h
    · -- The key expired on the way: its stored time is at most its expiry.
      left
      obtain ⟨t', ht', hv⟩ := hinv.expiry senderId e he
      rw [ht, Option.some.injEq] at ht'
      have hread : reading s.redis s.clock (.next senderId) = e.value := by
        simp [reading, hget]
      show _ ≤ clock
      omega

theorem spacingInv_reserve (hinv : SpacingInv s) (policy : SenderPolicy) (emailId : Uuid)
    (hdelay : policy.minimumDelayMs ≤ config.rateLimitReservationTtlMs) :
    SpacingInv (s.reserve config policy emailId s.clock).2 := by
  have hhour := config.oneHour_le_reservationTtl
  unfold oneHourMilliseconds at hhour
  rcases reserve_next config policy emailId s.clock s.clock s.redis with
    ⟨hd, hredis⟩ | ⟨hd, hpassed, hself, hother⟩
  · -- Denied: neither the keys nor the admissions change.
    refine ⟨?_, ?_, ?_⟩
    · rw [reserve_redis, hredis]
      exact hinv.expiry
    · intro senderId
      rw [reserve_history, reserve_redis, reserve_clock, hredis,
        admissions_cons_denied senderId policy emailId s.clock hd]
      exact hinv.covered senderId
    · intro senderId
      rw [Spaced, reserve_history, admissions_cons_denied senderId policy emailId s.clock hd]
      exact hinv.spaced senderId
  · have hearlier : ∀ a ∈ admissions policy.senderId s.history,
        -- Admitted: the stored time has passed, and it covers every earlier admission.
        a.now + a.minimumDelayMs ≤ s.clock := by
      intro a ha
      rcases hinv.covered policy.senderId a ha with h | h
      · exact h
      · exact Int.le_trans h hpassed
    refine ⟨fun senderId e he => ?_, fun senderId a ha => ?_, fun senderId => ?_⟩
    · rw [reserve_redis] at he
      -- The stored time does not outlive its key, because the delay is at most the TTL.
      by_cases hs : senderId = policy.senderId
      · subst hs
        rw [hself, Option.some.injEq] at he
        subst he
        exact ⟨_, rfl, Int.add_le_add_left hdelay s.clock⟩
      · rw [hother senderId hs] at he
        exact hinv.expiry senderId e he
    · rw [reserve_history] at ha
      rw [reserve_redis, reserve_clock]
      by_cases hs : senderId = policy.senderId
      · subst hs
        rw [admissions_cons_admitted policy emailId s.clock hd, List.mem_cons] at ha
        rcases ha with rfl | ha
        · right
          rw [reading, ExpiringStore.get_of_entry hself, if_pos (by omega)]
          exact Int.le_refl _
        · exact Or.inl (hearlier a ha)
      · rw [admissions_cons_of_ne (Ne.symm hs)] at ha
        have hread : reading (EmailScheduler.reserve config policy emailId s.clock s.clock
            s.redis).2 s.clock (.next senderId) = reading s.redis s.clock (.next senderId) := by
          unfold reading
          rw [ExpiringStore.get_congr (hother senderId hs)]
        rw [hread]
        exact hinv.covered senderId a ha
    · rw [Spaced, reserve_history]
      by_cases hs : senderId = policy.senderId
      · subst hs
        rw [admissions_cons_admitted policy emailId s.clock hd, List.pairwise_cons]
        exact ⟨hearlier, hinv.spaced policy.senderId⟩
      · rw [admissions_cons_of_ne (Ne.symm hs)]
        exact hinv.spaced senderId

/-- In a run whose delays are all at most the reservation TTL, admissions are spaced. -/
theorem spaced_of_delay_le_ttl {allowed : SenderPolicy → Prop}
    (hallowed : ∀ p, allowed p → p.minimumDelayMs ≤ config.rateLimitReservationTtlMs)
    (h : (system config).Reachable (ReserveOnly allowed) s) (senderId : Uuid) :
    Spaced senderId s.history := by
  refine (h.invariant (I := SpacingInv) (fun s hs => spacingInv_init hs) ?_).spaced senderId
  intro s call t hP hstep hinv
  cases call with
  | reserve policy emailId now =>
      obtain ⟨rfl, hpolicy⟩ := hP
      cases hstep
      exact spacingInv_reserve hinv policy emailId (hallowed policy hpolicy)
  | seed => exact hP.elim
  | tick clock =>
      simp only [system, step] at hstep
      split at hstep
      next hclock =>
        cases hstep
        exact spacingInv_tick hinv hclock
      next => cases hstep

/-! ## A delay above the TTL -/

/-- The policy with the largest delay that the API accepts, and room for one email an hour. -/
def widestPolicy (config : AppConfig) (senderId : Uuid) : SenderPolicy :=
  ⟨senderId, 1, config.maxSendDelayMs⟩

theorem acceptedPolicy_widest (config : AppConfig) (senderId : Uuid) :
    AcceptedPolicy config (widestPolicy config senderId) :=
  ⟨Int.le_refl _, config.one_le_maxEmailsPerHour, config.minSendDelayMs_le_max, Int.le_refl _⟩

/-- One email admitted with the widest policy, then the clock at the reservation TTL. -/
def afterExpiry (config : AppConfig) : Limiter :=
  { (emptyLimiter.reserve config (widestPolicy config 0) 1 0).2 with
    clock := config.rateLimitReservationTtlMs }

theorem first_admitted (config : AppConfig) :
    (EmailScheduler.reserve config (widestPolicy config 0) 1 0 emptyLimiter.clock
      emptyLimiter.redis).1.admitted = true :=
  reserve_admitted (by simp [reading, emptyLimiter])
    (by simp [reading, emptyLimiter, widestPolicy])

/-- The first admission stored `next` with the TTL as its expiry, so `next` has passed. -/
theorem next_afterExpiry (config : AppConfig) :
    reading (afterExpiry config).redis (afterExpiry config).clock (.next 0) ≤
      config.rateLimitReservationTtlMs := by
  have hhour := config.oneHour_le_reservationTtl
  unfold oneHourMilliseconds at hhour
  rcases reserve_next config (widestPolicy config 0) 1 0 emptyLimiter.clock emptyLimiter.redis with
    ⟨h, -⟩ | ⟨-, -, hself, -⟩
  · rw [first_admitted] at h
    cases h
  · have hentry : (afterExpiry config).redis (.next 0) =
        some ⟨0 + config.maxSendDelayMs, some (0 + config.rateLimitReservationTtlMs)⟩ := hself
    have hexpired : ¬ (afterExpiry config).clock < 0 + config.rateLimitReservationTtlMs := by
      show ¬ config.rateLimitReservationTtlMs < _
      omega
    rw [reading, ExpiringStore.get_of_entry hentry, if_neg hexpired, Option.getD_none]
    omega

/-- The TTL is at least an hour, so the second email meets the counter of a later window. -/
theorem hour_afterExpiry (config : AppConfig) :
    reading (afterExpiry config).redis (afterExpiry config).clock
      (.hour 0 (hourStart config.rateLimitReservationTtlMs)) = 0 := by
  have hhour := config.oneHour_le_reservationTtl
  have hne : hourStart config.rateLimitReservationTtlMs ≠ hourStart 0 := by
    unfold oneHourMilliseconds at hhour
    unfold hourStart oneHourMilliseconds
    omega
  have hkey : RateKey.hour 0 (hourStart config.rateLimitReservationTtlMs) ≠
      .hour (widestPolicy config 0).senderId (hourStart 0) := by
    simpa [widestPolicy] using hne
  have hframe : (EmailScheduler.reserve config (widestPolicy config 0) 1 0 emptyLimiter.clock
      emptyLimiter.redis).2 (.hour 0 (hourStart config.rateLimitReservationTtlMs)) = none :=
    reserve_frame hkey (by simp) (by simp)
  have hnone : (afterExpiry config).redis
      (.hour 0 (hourStart config.rateLimitReservationTtlMs)) = none := hframe
  rw [reading, ExpiringStore.get_eq_none_of_none hnone, Option.getD_none]

theorem steps_afterExpiry (config : AppConfig) :
    (system config).Steps (ReserveOnly (AcceptedPolicy config)) emptyLimiter
      (afterExpiry config) := by
  have hhour := config.oneHour_le_reservationTtl
  unfold oneHourMilliseconds at hhour
  refine .tail (.tick config.rateLimitReservationTtlMs)
    (.single (l := .reserve (widestPolicy config 0) 1 0) ⟨rfl, acceptedPolicy_widest config 0⟩ rfl)
    trivial ?_
  have hclock : (0 : Int) ≤ config.rateLimitReservationTtlMs := by omega
  exact if_pos hclock

/-- Under every configuration two emails of one sender can be admitted with the largest delay, the
reservation TTL apart. -/
theorem admitted_afterExpiry (config : AppConfig) :
    ∃ s, (system config).Reachable (ReserveOnly (AcceptedPolicy config)) s ∧
      ∃ later earlier : Admission, admissions 0 s.history = [later, earlier] ∧
        later.now = config.rateLimitReservationTtlMs ∧ earlier.now = 0 ∧
        earlier.minimumDelayMs = config.maxSendDelayMs := by
  have hcount : reading (afterExpiry config).redis (afterExpiry config).clock
      (.hour 0 (hourStart config.rateLimitReservationTtlMs)) < 1 := by
    rw [hour_afterExpiry]
    exact Int.zero_lt_one
  have hadmit : (EmailScheduler.reserve config (widestPolicy config 0) 2
      config.rateLimitReservationTtlMs (afterExpiry config).clock
      (afterExpiry config).redis).1.admitted = true :=
    reserve_admitted (next_afterExpiry config) hcount
  refine ⟨((afterExpiry config).reserve config (widestPolicy config 0) 2
    config.rateLimitReservationTtlMs).2, ⟨emptyLimiter, ⟨rfl, rfl⟩, ?_⟩, ?_⟩
  · exact .tail (.reserve (widestPolicy config 0) 2 config.rateLimitReservationTtlMs)
      (steps_afterExpiry config) ⟨rfl, acceptedPolicy_widest config 0⟩ rfl
  · have hfirst : admissions 0 (afterExpiry config).history = [⟨1, 0, config.maxSendDelayMs, _⟩] :=
      admissions_cons_admitted (widestPolicy config 0) 1 0 (first_admitted config) []
    have hsecond := admissions_cons_admitted (widestPolicy config 0) 2
      config.rateLimitReservationTtlMs hadmit (afterExpiry config).history
    rw [show (widestPolicy config 0).senderId = 0 from rfl, hfirst] at hsecond
    exact ⟨_, _, hsecond, rfl, rfl, rfl⟩

/-- **Minimum spacing.** Under a configuration, every run of `reserve` calls with policies that the
API accepts keeps the admissions of every sender apart by the earlier delay, if and only if the
largest delay is at most the reservation TTL. -/
theorem minimumSpacing_iff (config : AppConfig) :
    (∀ s, (system config).Reachable (ReserveOnly (AcceptedPolicy config)) s →
        ∀ senderId, Spaced senderId s.history) ↔
      config.maxSendDelayMs ≤ config.rateLimitReservationTtlMs := by
  constructor
  · intro h
    obtain ⟨s, hreach, later, earlier, hadm, hlater, hearlier, hdelay⟩ :=
      admitted_afterExpiry config
    have hspaced := h s hreach 0
    rw [Spaced, hadm, List.pairwise_cons] at hspaced
    have := hspaced.1 earlier (List.mem_singleton_self earlier)
    omega
  · intro hle s hreach senderId
    refine spaced_of_delay_le_ttl (fun p hp => ?_) hreach senderId
    exact Int.le_trans hp.2.2.2 hle

/-- A configuration that allows delays of two hours and keeps reservations for one. -/
def twoHourDelayConfig : AppConfig where
  toEnvironment := { validConfig.toEnvironment with
    maxSendDelayMs := 7200000
    rateLimitReservationTtlMs := 3600000 }
  fields_valid := by decide
  refined := by decide

/-- Two admissions of one sender, one hour apart under a delay of two hours. -/
theorem minimumSpacing_fails : ¬ ∀ config : AppConfig, ∀ s,
    (system config).Reachable (ReserveOnly (AcceptedPolicy config)) s →
      ∀ senderId, Spaced senderId s.history := by
  intro h
  obtain ⟨s, hreach, later, earlier, hadm, hlater, hearlier, hdelay⟩ :=
    admitted_afterExpiry twoHourDelayConfig
  have hspaced := h twoHourDelayConfig s hreach 0
  rw [Spaced, hadm, List.pairwise_cons] at hspaced
  have hgap := hspaced.1 earlier (List.mem_singleton_self earlier)
  rw [hlater, hearlier, hdelay] at hgap
  revert hgap
  decide

end Limiter

end EmailScheduler
