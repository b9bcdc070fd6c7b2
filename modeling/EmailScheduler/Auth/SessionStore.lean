import Mathlib.Data.List.Induction
import EmailScheduler.Foundation.ExpiringStore
import EmailScheduler.Foundation.JsonSchema
import EmailScheduler.Foundation.Transition

/-!
# The session store

`RedisSessionStore` of `auth/redis-session-store.ts`: sessions as JSON texts in Redis, under keys
that begin with a prefix, with a time to live that `touch` renews. Other parts of the program write
other keys of the same Redis.

`Sessions` is what the store is for: for each id the session that was set last, up to a deadline.
Whatever is set, touched, destroyed, written elsewhere and however much time passes, `get` returns
what `Sessions` holds (`get_of_run`): a session that was destroyed or has expired does not come back
by a `touch`, and the text is always read.

The commands are atomic, so any interleaving of the calls of several requests is a list of events.
The clock of Redis and the clock of the process, which `set` and `touch` read, are independent.
-/

set_option autoImplicit false

namespace EmailScheduler

open Foundation

/-- The value that `express-session` gives for `JSON.stringify`, and the time of `cookie.expires`.
Its cookie is an object. -/
structure SessionData where
  json : Json
  expires : Option Int
  writable : json.Writable
  cookie : ∃ members, json.member? "cookie" = some (.object members)

/-- What `get` hands to its callback. -/
inductive StoredSession where
  | missing
  | session (json : Json)
  | error

/-- `z.object({ cookie: z.record(z.string(), z.unknown()) }).passthrough()`. -/
def storedSessionSchema : JsonSchema Json
  | some json =>
      match json.member? "cookie" with
      | some (.object _) => some json
      | _ => none
  | none => none

structure SessionStore where
  keyPrefix : String
  defaultTtlMs : Int

namespace SessionStore

variable (store : SessionStore) (redis : ExpiringStore String String) (clock : Int) (id : String)

def key : String := store.keyPrefix ++ id

def get : StoredSession :=
  match redis.get clock (store.key id) with
  | none => .missing
  | some stored =>
      match (parseJson stored).bind fun parsed => storedSessionSchema (some parsed) with
      | none => .error
      | some session => .session session

/-- The time to live of a session at a time of the process. -/
def ttlMs (data : SessionData) (now : Int) : Int :=
  match data.expires with
  | some expires => max (expires - now) 1
  | none => store.defaultTtlMs

/-- `none` is an error for the callback. -/
def set (data : SessionData) (now : Int) : Option (ExpiringStore String String) :=
  redis.psetex clock (store.key id) (store.ttlMs data now) data.json.text

def destroy : ExpiringStore String String := redis.del (store.key id)

def touch (data : SessionData) (now : Int) : ExpiringStore String String :=
  redis.pexpire clock (store.key id) (store.ttlMs data now)

end SessionStore

/-! ## Runs -/

/-- Redis and its clock. -/
structure SharedRedis where
  keys : ExpiringStore String String
  clock : Int

inductive SessionEvent where
  | set (id : String) (data : SessionData) (now : Int)
  | touch (id : String) (data : SessionData) (now : Int)
  | destroy (id : String)
  /-- A key that is none of the store's gets an entry or loses it. -/
  | other (key : String) (entry : Option (Entry String))
  | elapse (ms : Nat)

namespace SharedRedis

variable (store : SessionStore)

/-- One command. It fails where a callback gets an error. -/
def step : SessionEvent → SharedRedis → Option SharedRedis
  | .set id data now, s =>
      (store.set s.keys s.clock id data now).map fun keys => { s with keys := keys }
  | .touch id data now, s => some { s with keys := store.touch s.keys s.clock id data now }
  | .destroy id, s => some { s with keys := store.destroy s.keys id }
  | .other key entry, s =>
      if store.keyPrefix.toList <+: key.toList then none
      else some { s with keys := fun k => if k = key then entry else s.keys k }
  | .elapse ms, s => some { s with clock := s.clock + ms }

/-- Runs start without sessions. -/
def system : TransitionSystem SharedRedis SessionEvent where
  init s := ∀ id, s.keys (store.key id) = none
  step := step store

end SharedRedis

/-! ## What the store is for -/

/-- A session and when it ends. -/
structure LiveSession where
  json : Json
  deadline : Int

/-- The session of each id, if it has one, and the time. -/
structure Sessions where
  session : String → Option LiveSession
  clock : Int

namespace Sessions

variable (store : SessionStore)

/-- The session of an id that has not ended. -/
def live (s : Sessions) (id : String) : Option LiveSession :=
  (s.session id).filter fun session => decide (s.clock < session.deadline)

def update (s : Sessions) (id : String) (session : Option LiveSession) : Sessions :=
  { s with session := fun j => if j = id then session else s.session j }

/-- Setting begins a session, touching moves the end of one that lasts, destroying ends it. -/
def step : SessionEvent → Sessions → Sessions
  | .set id data now, s => s.update id (some ⟨data.json, s.clock + store.ttlMs data now⟩)
  | .touch id data now, s =>
      match s.live id with
      | none => s
      | some session => s.update id (some ⟨session.json, s.clock + store.ttlMs data now⟩)
  | .destroy id, s => s.update id none
  | .other _ _, s => s
  | .elapse ms, s => { s with clock := s.clock + ms }

/-- The sessions after a list of events. -/
def after (events : List SessionEvent) (clock : Int) : Sessions :=
  events.foldl (fun s event => step store event s) ⟨fun _ => none, clock⟩

end Sessions

/-! ## The store does what it is for -/

variable {store : SessionStore} {id : String} {data : SessionData} {now : Int}

theorem key_injective {a b : String} (h : store.key a = store.key b) : a = b := by
  have hlists := congrArg String.toList h
  simp only [SessionStore.key, String.toList_append] at hlists
  exact String.toList_inj.1 (List.append_cancel_left hlists)

theorem prefix_key (id : String) : store.keyPrefix.toList <+: (store.key id).toList := by
  rw [SessionStore.key, String.toList_append]
  exact List.prefix_append _ _

theorem ttlMs_pos (hstore : 0 < store.defaultTtlMs) : 0 < store.ttlMs data now := by
  unfold SessionStore.ttlMs
  split
  · omega
  · exact hstore

/-- The entry of a session. -/
def LiveSession.entry (session : LiveSession) : Entry String :=
  ⟨session.json.text, some session.deadline⟩

/-- Redis has the entries of the sessions, and each can be read. -/
structure Holds (store : SessionStore) (s : SharedRedis) (a : Sessions) : Prop where
  clock : s.clock = a.clock
  entry : ∀ id, s.keys (store.key id) = (a.session id).map LiveSession.entry
  readable : ∀ id session, a.session id = some session → session.json.Writable ∧
    storedSessionSchema (some session.json) = some session.json

/-- A live session is a key that is present. -/
theorem Holds.lookup {s : SharedRedis} {a : Sessions} (h : Holds store s a) (id : String) :
    s.keys.lookup s.clock (store.key id) = (a.live id).map LiveSession.entry := by
  unfold ExpiringStore.lookup Sessions.live
  rw [h.entry, h.clock, Option.filter_map]
  rfl

/-- **What `get` returns.** -/
theorem Holds.get {s : SharedRedis} {a : Sessions} (h : Holds store s a) (id : String) :
    store.get s.keys s.clock id = match a.live id with
      | none => .missing
      | some session => .session session.json := by
  unfold SessionStore.get ExpiringStore.get
  rw [h.lookup id]
  cases hlive : a.live id with
  | none => rfl
  | some session =>
      obtain ⟨hwritable, hschema⟩ := h.readable id session (Option.filter_eq_some_iff.1 hlive).1
      simp only [Option.map_some, LiveSession.entry]
      rw [parseJson_text hwritable, Option.bind_some, hschema]

/-- The entry of one id changes as its session does. -/
theorem Holds.update {s : SharedRedis} {a : Sessions} (h : Holds store s a)
    {keys : ExpiringStore String String} {session : Option LiveSession}
    (hself : keys (store.key id) = session.map LiveSession.entry)
    (hother : ∀ j, j ≠ store.key id → keys j = s.keys j)
    (hreadable : ∀ x, session = some x → x.json.Writable ∧
      storedSessionSchema (some x.json) = some x.json) :
    Holds store { s with keys := keys } (a.update id session) := by
  refine ⟨h.clock, fun j => ?_, fun j x hx => ?_⟩
  · dsimp only [Sessions.update]
    by_cases hj : j = id
    · rw [hj, hself, if_pos rfl]
    · rw [hother _ fun hkey => hj (key_injective hkey), h.entry j, if_neg hj]
  · by_cases hj : j = id
    · exact hreadable x (by simpa [Sessions.update, hj] using hx)
    · exact h.readable j x (by simpa [Sessions.update, hj] using hx)

theorem storedSessionSchema_json (data : SessionData) :
    storedSessionSchema (some data.json) = some data.json := by
  obtain ⟨members, hcookie⟩ := data.cookie
  unfold storedSessionSchema
  dsimp only
  rw [hcookie]

/-- **One event.** -/
theorem Holds.step (hstore : 0 < store.defaultTtlMs) {s t : SharedRedis} {a : Sessions}
    (h : Holds store s a) {event : SessionEvent}
    (hstep : (SharedRedis.system store).step event s = some t) :
    Holds store t (Sessions.step store event a) := by
  cases event with
  | set id data now =>
      simp only [SharedRedis.system, SharedRedis.step, SessionStore.set, ExpiringStore.psetex,
        if_pos (ttlMs_pos hstore), Option.map_some, Option.some.injEq] at hstep
      subst hstep
      refine h.update ?_ (fun j hj => ExpiringStore.setPx_of_ne _ hj _ _ _) ?_
      · rw [ExpiringStore.setPx_self, h.clock]
        rfl
      · rintro x hx
        cases hx
        exact ⟨data.writable, storedSessionSchema_json data⟩
  | touch id data now =>
      cases hstep
      have httl : 0 < store.ttlMs data now := ttlMs_pos hstore
      have hlookup := h.lookup id
      unfold Sessions.step
      dsimp only
      cases hlive : a.live id with
      | none =>
          -- The key is not present, so nothing is written.
          rw [hlive] at hlookup
          rw [SessionStore.touch, ExpiringStore.pexpire_of_absent hlookup httl]
          exact h
      | some session =>
          rw [hlive] at hlookup
          refine h.update ?_ (fun j hj => ExpiringStore.pexpire_of_ne _ hj _ _) ?_
          · rw [SessionStore.touch, ExpiringStore.pexpire_self hlookup httl, h.clock]
            rfl
          · rintro x hx
            cases hx
            exact h.readable id session (Option.filter_eq_some_iff.1 hlive).1
  | destroy id =>
      cases hstep
      refine h.update (ExpiringStore.del_self _ _) (fun j hj => ExpiringStore.del_of_ne _ hj) ?_
      rintro x hx
      cases hx
  | other key entry =>
      simp only [SharedRedis.system, SharedRedis.step] at hstep
      split_ifs at hstep with hprefix
      cases hstep
      refine ⟨h.clock, fun j => ?_, h.readable⟩
      have hne : store.key j ≠ key := by
        rintro rfl
        exact hprefix (prefix_key j)
      dsimp only
      rw [if_neg hne, h.entry j]
      rfl
  | elapse ms =>
      cases hstep
      exact ⟨congrArg (· + (ms : Int)) h.clock, h.entry, h.readable⟩

/-- **A run**, by induction at its end. -/
theorem holds_of_run (hstore : 0 < store.defaultTtlMs) {events : List SessionEvent}
    {s t : SharedRedis} {a : Sessions} (h : Holds store s a)
    (hrun : (SharedRedis.system store).run TransitionSystem.anyStep events s = some t) :
    Holds store t (events.foldl (fun a event => Sessions.step store event a) a) := by
  induction events generalizing s a with
  | nil =>
      cases hrun
      exact h
  | cons event events ih =>
      rw [TransitionSystem.run_anyStep_cons] at hrun
      obtain ⟨u, hstep, hrest⟩ := Option.bind_eq_some_iff.1 hrun
      exact ih (h.step hstore hstep) hrest

/-- The event ends or replaces the session of an id. -/
def SessionEvent.ends (id : String) : SessionEvent → Prop
  | .set j _ _ | .destroy j => j = id
  | _ => False

/-- The last thing that was set for an id, and nothing has ended it. -/
def SetLast (id : String) (json : Json) (events : List SessionEvent) : Prop :=
  ∃ before data now after, events = before ++ .set id data now :: after ∧ data.json = json ∧
    ∀ event ∈ after, ¬ event.ends id

theorem SetLast.snoc {json : Json} {events : List SessionEvent} (h : SetLast id json events)
    {event : SessionEvent} (hkeeps : ¬ event.ends id) : SetLast id json (events ++ [event]) := by
  obtain ⟨before, data, now, after, rfl, hjson, hnone⟩ := h
  refine ⟨before, data, now, after ++ [event], by simp, hjson, ?_⟩
  intro x hx
  rcases List.mem_append.1 hx with hx | hx
  · exact hnone x hx
  · rw [List.mem_singleton.1 hx]
    exact hkeeps

/-- A session that is held was set and not ended since, by induction at the end of the run. -/
theorem setLast_of_session {events : List SessionEvent} {clock : Int} {session : LiveSession}
    (h : (Sessions.after store events clock).session id = some session) :
    SetLast id session.json events := by
  induction events using List.reverseRecOn generalizing session with
  | nil => cases h
  | append_singleton events event ih =>
      rw [Sessions.after, List.foldl_append] at h
      change (Sessions.step store event (Sessions.after store events clock)).session id =
        some session at h
      cases event with
      | set j data now =>
          by_cases hj : id = j
          · subst hj
            simp only [Sessions.step, Sessions.update, if_true, Option.some.injEq] at h
            subst h
            exact ⟨events, data, now, [], rfl, rfl, by simp⟩
          · simp only [Sessions.step, Sessions.update, hj, if_false] at h
            exact (ih h).snoc fun hends => hj hends.symm
      | touch j data now =>
          simp only [Sessions.step] at h
          cases hlive : (Sessions.after store events clock).live j with
          | none =>
              rw [hlive] at h
              exact (ih h).snoc fun hends => hends
          | some held =>
              rw [hlive] at h
              by_cases hj : id = j
              -- A touch moves the deadline and keeps the text.
              · subst hj
                simp only [Sessions.update, if_true, Option.some.injEq] at h
                subst h
                exact (ih (Option.filter_eq_some_iff.1 hlive).1).snoc fun hends => hends
              · simp only [Sessions.update, hj, if_false] at h
                exact (ih h).snoc fun hends => hends
      | destroy j =>
          by_cases hj : id = j
          · simp [Sessions.step, Sessions.update, hj] at h
          · simp only [Sessions.step, Sessions.update, hj, if_false] at h
            exact (ih h).snoc fun hends => hj hends.symm
      | other key entry => exact (ih h).snoc fun hends => hends
      | elapse ms => exact (ih h).snoc fun hends => hends

/-- **Sessions.** After any run of the store and of other users of the same Redis, `get` returns the
session that lives under the id, which is the one that was set last and not destroyed since, or
finds none; its text is always read, and a callback of `set` gets no error. -/
theorem get_of_run (hstore : 0 < store.defaultTtlMs) {events : List SessionEvent}
    {s t : SharedRedis}
    (hinit : (SharedRedis.system store).init s)
    (hrun : (SharedRedis.system store).run TransitionSystem.anyStep events s = some t)
    (id : String) :
    store.get t.keys t.clock id = (match (Sessions.after store events s.clock).live id with
      | none => .missing
      | some session => .session session.json) ∧
    (∀ json, store.get t.keys t.clock id = .session json → SetLast id json events) ∧
    ∀ data now, (store.set t.keys t.clock id data now).isSome = true := by
  have hstart : Holds store s ⟨fun _ => none, s.clock⟩ := ⟨rfl, hinit, by rintro id session ⟨⟩⟩
  have hget := (holds_of_run hstore hstart hrun).get id
  change store.get t.keys t.clock id = match (Sessions.after store events s.clock).live id with
    | none => .missing
    | some session => .session session.json at hget
  refine ⟨hget, fun json hjson => ?_, fun data now => ?_⟩
  · rw [hget] at hjson
    cases hlive : (Sessions.after store events s.clock).live id with
    | none =>
        rw [hlive] at hjson
        cases hjson
    | some session =>
        rw [hlive] at hjson
        cases hjson
        exact setLast_of_session (Option.filter_eq_some_iff.1 hlive).1
  · rw [SessionStore.set, ExpiringStore.psetex, if_pos (ttlMs_pos hstore)]
    rfl

/-- A session that expires an hour after 0. -/
def hourSession : SessionData where
  json := .object [("cookie", .object []), ("user", .string "1")]
  expires := some 3600000
  writable := by simp
  cookie := ⟨[], rfl⟩

/-- A session is touched in time, and another one after it was destroyed. -/
def touchedSessions : List SessionEvent :=
  [.set "a" hourSession 0, .set "b" hourSession 0, .elapse 3000000, .touch "a" hourSession 0,
    .destroy "b", .touch "b" hourSession 0, .other "rate:a" none, .elapse 3000000]

theorem get_of_touchedSessions : ∃ t,
    (SharedRedis.system ⟨"session:", 1000⟩).run TransitionSystem.anyStep touchedSessions
        ⟨ExpiringStore.empty, 0⟩ = some t ∧
      SessionStore.get ⟨"session:", 1000⟩ t.keys t.clock "a" = .session hourSession.json ∧
      SessionStore.get ⟨"session:", 1000⟩ t.keys t.clock "b" = .missing := by
  have hget : ∀ t, (SharedRedis.system ⟨"session:", 1000⟩).run TransitionSystem.anyStep
      touchedSessions ⟨ExpiringStore.empty, 0⟩ = some t → ∀ id,
        SessionStore.get ⟨"session:", 1000⟩ t.keys t.clock id =
          match (Sessions.after ⟨"session:", 1000⟩ touchedSessions 0).live id with
          | none => .missing
          | some session => .session session.json :=
    fun t hrun id => (get_of_run (by decide) (fun _ => rfl) hrun id).1
  exact ⟨_, rfl, (hget _ rfl "a").trans rfl, (hget _ rfl "b").trans rfl⟩

end EmailScheduler
