import EmailScheduler.RateLimit.EarliestTime

/-!
# Senders do not share a limiter

All senders share one Redis, but the keys of a call belong to its sender. So the decisions for a
sender are those of a limiter that only this sender uses: a run and the run of the sender's own
calls alone, under the same clock, admit and deny the same emails of the sender at the same times,
with the same times to wait (`senderIsolation`).
-/

set_option autoImplicit false

namespace EmailScheduler

open Foundation

/-- The call is of the sender, or moves the clock. -/
def LimiterCall.concerns (senderId : Uuid) : LimiterCall → Bool
  | .reserve policy _ _ => decide (policy.senderId = senderId)
  | .seed policy _ _ _ => decide (policy.senderId = senderId)
  | .tick _ => true

/-- The event is of the sender. -/
def LimiterEvent.concerns (senderId : Uuid) : LimiterEvent → Bool
  | .reserved policy _ _ _ => decide (policy.senderId = senderId)
  | .seeded policy _ _ _ => decide (policy.senderId = senderId)

/-- The calls of the sender and the moves of the clock. -/
def ownCalls (senderId : Uuid) (calls : List LimiterCall) : List LimiterCall :=
  calls.filter (LimiterCall.concerns senderId)

/-- What the sender was answered, most recent first. -/
def ownEvents (senderId : Uuid) (history : List LimiterEvent) : List LimiterEvent :=
  history.filter (LimiterEvent.concerns senderId)

/-- The stores have the same keys of the sender. -/
abbrev SameKeys (senderId : Uuid) (redis redis' : LimiterStore) : Prop :=
  redis.AgreeOn (fun key => key.senderId = senderId) redis'

variable {config : AppConfig} {policy : SenderPolicy} {emailId senderId : Uuid} {now clock : Int}
  {redis redis' : LimiterStore}

theorem reading_of_sameKeys (h : SameKeys senderId redis redis') {key : RateKey}
    (hkey : key.senderId = senderId) (clock : Int) :
    reading redis clock key = reading redis' clock key := by
  unfold reading
  rw [h.get hkey]

/-- **A call of the sender reads and writes keys of the sender.** -/
theorem reserve_of_sameKeys (h : SameKeys policy.senderId redis redis') :
    (reserve config policy emailId now clock redis).1 =
        (reserve config policy emailId now clock redis').1 ∧
      SameKeys policy.senderId (reserve config policy emailId now clock redis).2
        (reserve config policy emailId now clock redis').2 := by
  have hcount : reading redis clock (.hour policy.senderId (hourStart now)) =
      reading redis' clock (.hour policy.senderId (hourStart now)) :=
        reading_of_sameKeys h rfl clock
  have hnext : reading redis clock (.next policy.senderId) =
      reading redis' clock (.next policy.senderId) := reading_of_sameKeys h rfl clock
  have hhas := h.has (k := .reservation policy.senderId emailId) rfl clock
  unfold reserve reserveScript rateKeys
  dsimp only
  rw [hcount, hnext, hhas]
  -- Both scripts take the same branch.
  split
  · exact ⟨rfl, h⟩
  · split
    · exact ⟨rfl, h⟩
    · refine ⟨rfl, ?_⟩
      dsimp only
      split
      · exact (((h.setPx _ _ _ _).incr rfl _).pexpireAt rfl _ _).setPx _ _ _ _
      · exact h.setPx _ _ _ _

theorem seed_of_sameKeys (h : SameKeys policy.senderId redis redis') (acceptedCount : Nat)
    (lastAcceptedAt : Option Int) :
    SameKeys policy.senderId (seed config policy acceptedCount lastAcceptedAt now clock redis)
      (seed config policy acceptedCount lastAcceptedAt now clock redis') := by
  unfold seed seedScript rateKeys
  dsimp only
  have hcount := h.setIfAbsent (k := .hour policy.senderId (hourStart now)) rfl clock
    acceptedCount (hourEnd now - now + config.rateLimitReservationTtlMs)
  split
  · exact hcount.setIfAbsent rfl _ _ _
  · exact hcount

/-- An event is new for the sender, or it is not. -/
theorem ownEvents_cons (event : LimiterEvent) {history history' : List LimiterEvent}
    (h : ownEvents senderId history = ownEvents senderId history') :
    ownEvents senderId (event :: history) = ownEvents senderId (event :: history') := by
  unfold ownEvents at h ⊢
  rw [List.filter_cons, List.filter_cons, h]

theorem ownEvents_cons_of_other {event : LimiterEvent} (h : event.concerns senderId = false)
    (history : List LimiterEvent) :
    ownEvents senderId (event :: history) = ownEvents senderId history :=
  List.filter_cons_of_neg (by simp [h])

namespace Limiter

/-- Two limiters that the sender cannot tell apart. -/
structure Alike (senderId : Uuid) (s t : Limiter) : Prop where
  keys : SameKeys senderId s.redis t.redis
  clock : s.clock = t.clock
  events : ownEvents senderId s.history = ownEvents senderId t.history

variable {s t u : Limiter} {call : LimiterCall}

/-- A call of another sender changes nothing for this one. -/
theorem Alike.skip (h : Alike senderId s t) (hother : call.concerns senderId = false)
    (hstep : step config call s = some u) : Alike senderId u t := by
  cases call with
  | reserve policy emailId now =>
      cases hstep
      have hne : ∀ key : RateKey, key.senderId = senderId → key.senderId ≠ policy.senderId := by
        rintro key rfl hsame
        simp [LimiterCall.concerns, hsame] at hother
      refine ⟨h.keys.trans_of_frame fun key hkey => ?_, h.clock, ?_⟩
      · exact reserve_otherSender policy (hne key hkey)
      · have hevent : LimiterEvent.concerns senderId (.reserved policy emailId now
            (EmailScheduler.reserve config policy emailId now s.clock s.redis).1) = false := hother
        exact (ownEvents_cons_of_other hevent _).trans h.events
  | seed policy acceptedCount lastAcceptedAt now =>
      cases hstep
      have hne : ∀ key : RateKey, key.senderId = senderId → key.senderId ≠ policy.senderId := by
        rintro key rfl hsame
        simp [LimiterCall.concerns, hsame] at hother
      refine ⟨h.keys.trans_of_frame fun key hkey => ?_, h.clock, ?_⟩
      · exact seed_otherSender policy acceptedCount lastAcceptedAt (hne key hkey)
      · have hevent : LimiterEvent.concerns senderId
            (.seeded policy acceptedCount lastAcceptedAt now) = false := hother
        exact (ownEvents_cons_of_other hevent _).trans h.events
  | tick clock => cases hother

/-- A call of the sender has the same effect on both, and the same answer. -/
theorem Alike.both (h : Alike senderId s t) (hown : call.concerns senderId = true)
    (hstep : step config call s = some u) :
    ∃ v, step config call t = some v ∧ Alike senderId u v := by
  cases call with
  | reserve policy emailId now =>
      cases hstep
      obtain rfl : policy.senderId = senderId := of_decide_eq_true hown
      have hdecision : (EmailScheduler.reserve config policy emailId now s.clock s.redis).1 =
          (EmailScheduler.reserve config policy emailId now s.clock t.redis).1 :=
        (reserve_of_sameKeys h.keys).1
      refine ⟨_, rfl, ?_, h.clock, ?_⟩
      · rw [reserve_redis, reserve_redis, ← h.clock]
        exact (reserve_of_sameKeys h.keys).2
      · rw [reserve_history, reserve_history, ← h.clock, hdecision]
        exact ownEvents_cons _ h.events
  | seed policy acceptedCount lastAcceptedAt now =>
      cases hstep
      obtain rfl : policy.senderId = senderId := of_decide_eq_true hown
      refine ⟨_, rfl, ?_, h.clock, ?_⟩
      · unfold seed
        dsimp only
        rw [← h.clock]
        exact seed_of_sameKeys h.keys acceptedCount lastAcceptedAt
      · exact ownEvents_cons _ h.events
  | tick clock =>
      simp only [step] at hstep
      split_ifs at hstep with hle
      cases hstep
      refine ⟨_, if_pos (h.clock ▸ hle), h.keys, rfl, h.events⟩

/-- Runs with the same calls of the sender, by induction on the calls. -/
theorem Alike.run {calls : List LimiterCall} (h : Alike senderId s t)
    (hrun : (system config).run TransitionSystem.anyStep calls s = some u) :
    ∃ v, (system config).run TransitionSystem.anyStep (ownCalls senderId calls) t = some v ∧
      Alike senderId u v := by
  induction calls generalizing s t with
  | nil =>
      cases hrun
      exact ⟨t, rfl, h⟩
  | cons call calls ih =>
      rw [TransitionSystem.run_anyStep_cons] at hrun
      obtain ⟨s', hstep, hrest⟩ := Option.bind_eq_some_iff.1 hrun
      unfold ownCalls
      cases hown : call.concerns senderId with
      | false =>
          rw [List.filter_cons_of_neg (by simp [hown])]
          exact ih (h.skip hown hstep) hrest
      | true =>
          obtain ⟨t', ht', halike⟩ := h.both hown hstep
          obtain ⟨v, hv, hend⟩ := ih halike hrest
          refine ⟨v, ?_, hend⟩
          rw [List.filter_cons_of_pos hown, TransitionSystem.run_anyStep_cons]
          exact Option.bind_eq_some_iff.2 ⟨t', ht', hv⟩

/-- **Senders do not share a limiter.** What a sender is answered in a run is what it is answered
when only its own calls are made, under the same clock; so two runs with the same calls of the
sender give it the same decisions, whatever other senders do. -/
theorem senderIsolation {calls : List LimiterCall}
    (hrun : (system config).run TransitionSystem.anyStep calls s = some u) (senderId : Uuid) :
    (∃ v, (system config).run TransitionSystem.anyStep (ownCalls senderId calls) s = some v ∧
      ownEvents senderId u.history = ownEvents senderId v.history) ∧
    ∀ calls' u', ownCalls senderId calls' = ownCalls senderId calls →
      (system config).run TransitionSystem.anyStep calls' s = some u' →
        ownEvents senderId u'.history = ownEvents senderId u.history := by
  have hsame : Alike senderId s s := ⟨fun _ _ => rfl, rfl, rfl⟩
  obtain ⟨v, hv, halike⟩ := hsame.run hrun
  refine ⟨⟨v, hv, halike.events⟩, fun calls' u' hcalls hrun' => ?_⟩
  obtain ⟨v', hv', halike'⟩ := hsame.run hrun'
  rw [hcalls, hv] at hv'
  cases hv'
  exact halike'.events.trans halike.events.symm

/-- Calls of two senders with a limit of one. -/
def twoSenders : List LimiterCall :=
  [.reserve ⟨1, 1, 0⟩ 10 0, .reserve ⟨2, 1, 0⟩ 20 0, .tick 5, .reserve ⟨2, 1, 0⟩ 21 5]

/-- The second sender is admitted once, as if it were alone. -/
theorem senderIsolation_of_twoSenders : ∃ u v,
    (system validConfig).run TransitionSystem.anyStep twoSenders emptyLimiter = some u ∧
      (admissions 2 u.history).map Admission.emailId = [20] ∧
      (system validConfig).run TransitionSystem.anyStep
        [.reserve ⟨2, 1, 0⟩ 20 0, .tick 5, .reserve ⟨2, 1, 0⟩ 21 5] emptyLimiter = some v ∧
      ownEvents 2 u.history = ownEvents 2 v.history := by
  have hsame : ∀ u, (system validConfig).run TransitionSystem.anyStep twoSenders emptyLimiter =
      some u → ∃ v, (system validConfig).run TransitionSystem.anyStep (ownCalls 2 twoSenders)
        emptyLimiter = some v ∧ ownEvents 2 u.history = ownEvents 2 v.history :=
    fun u hrun => (senderIsolation hrun 2).1
  obtain ⟨v, hv, hevents⟩ := hsame _ rfl
  exact ⟨_, v, rfl, by decide +kernel, hv, hevents⟩

end Limiter

end EmailScheduler
