import EmailScheduler.Foundation.Transition
import Mathlib.Logic.Function.Basic
import Mathlib.Tactic.Common

/-!
# Leases with tokens

Workers act on keys through leases. A claim takes a free key under a token that was never issued
before; its holder sends at most one message; the key becomes free again only through a holder whose
message was refused. A key can be closed at any time, also while it is held, and a closed key stays
closed. Messages are accepted at any time after they were sent, in any order.

`LeaseState.Inv` is the invariant of the protocol, `accepted_unique` its safety: at most one message
per key is ever accepted, whatever the workers do and wherever they stop.
-/

set_option autoImplicit false

namespace Foundation

universe u v w

/-- The state of a key. -/
inductive Hold (T : Type v) where
  | free
  | held (token : T)
  | closed
deriving DecidableEq, Repr

/-- What became of a message. -/
inductive Fate where
  | pending
  | accepted
  | refused
deriving DecidableEq, Repr

/-- A message sent for a key under the token of a claim. -/
structure Message (K : Type u) (T : Type v) where
  key : K
  token : T
  fate : Fate
deriving DecidableEq, Repr

/-- What a worker holds: nothing, a claim, a claim with its message sent, or a claim whose message
is known to be refused. Messages are named by their position. -/
inductive Holder (K : Type u) (T : Type v) where
  | idle
  | claimed (key : K) (token : T)
  | sent (key : K) (token : T) (message : Nat)
  | refused (key : K) (token : T) (message : Nat)
deriving DecidableEq, Repr

/-- The state of the protocol. -/
structure LeaseState (K : Type u) (T : Type v) (W : Type w) where
  hold : K → Hold T
  issued : List T
  worker : W → Holder K T
  messages : List (Message K T)

/-- The actions of the protocol. -/
inductive LeaseAction (K : Type u) (T : Type v) (W : Type w) where
  | issue (token : T)
  | claim (worker : W) (key : K) (token : T)
  | send (worker : W)
  | accept (message : Nat)
  | refuse (worker : W)
  | close (which : K → Bool)
  | release (worker : W)
  | leave (worker : W)

variable {K : Type u} {T : Type v} {W : Type w}

/-- The token a worker holds. -/
def Holder.token? : Holder K T → Option T
  | .idle => none
  | .claimed _ token | .sent _ token _ | .refused _ token _ => some token

/-- Close a held key. -/
def Hold.close : Hold T → Hold T
  | .held _ => .closed
  | h => h

namespace LeaseState

section Actions

variable [DecidableEq K] [DecidableEq T] [DecidableEq W]

/-- One action. -/
def step : LeaseAction K T W → LeaseState K T W → Option (LeaseState K T W)
  | .issue token, s => some { s with issued := s.issued ++ [token] }
  | .claim worker key token, s =>
      if s.hold key = .free ∧ s.worker worker = .idle ∧ token ∉ s.issued then
        some { s with
          hold := Function.update s.hold key (.held token)
          issued := s.issued ++ [token]
          worker := Function.update s.worker worker (.claimed key token) }
      else none
  | .send worker, s =>
      match s.worker worker with
      | .claimed key token => some { s with
          worker := Function.update s.worker worker (.sent key token s.messages.length)
          messages := s.messages ++ [⟨key, token, .pending⟩] }
      | _ => none
  | .accept message, s =>
      match s.messages[message]? with
      | some ⟨key, token, .pending⟩ =>
          some { s with messages := s.messages.set message ⟨key, token, .accepted⟩ }
      | _ => none
  | .refuse worker, s =>
      match s.worker worker with
      | .sent key token message =>
          match s.messages[message]? with
          | some ⟨key', token', .pending⟩ => some { s with
              worker := Function.update s.worker worker (.refused key token message)
              messages := s.messages.set message ⟨key', token', .refused⟩ }
          | _ => none
      | _ => none
  | .close which, s =>
      some { s with hold := fun key => if which key then (s.hold key).close else s.hold key }
  | .release worker, s =>
      match s.worker worker with
      | .refused key token _ =>
          if s.hold key = .held token then
            some { s with
              hold := Function.update s.hold key .free
              worker := Function.update s.worker worker .idle }
          else none
      | _ => none
  | .leave worker, s => some { s with worker := Function.update s.worker worker .idle }

/-- Runs start with every key free or closed, no worker holding a claim, and no message sent. -/
def system : TransitionSystem (LeaseState K T W) (LeaseAction K T W) where
  init s := (∀ key token, s.hold key ≠ .held token) ∧ (∀ worker, s.worker worker = .idle) ∧
    s.messages = []
  step := step

end Actions

/-! ## The invariant -/

/-- A claim or a message that may still lead to an acceptance, or has. -/
def Live (s : LeaseState K T W) (key : K) (token : T) : Prop :=
  (∃ worker, s.worker worker = .claimed key token) ∨
    ∃ (message : Nat) (fate : Fate),
      s.messages[message]? = some ⟨key, token, fate⟩ ∧ fate ≠ .refused

/-- What relates holds, workers and messages. Tokens tell claims apart, a free key has nothing live,
and what is live for a held key carries the token it is held under. -/
structure Inv (s : LeaseState K T W) : Prop where
  held_issued : ∀ key token, s.hold key = .held token → token ∈ s.issued
  worker_issued : ∀ worker token, (s.worker worker).token? = some token → token ∈ s.issued
  message_issued : ∀ message ∈ s.messages, message.token ∈ s.issued
  not_live_of_free : ∀ key token, s.hold key = .free → ¬ s.Live key token
  live_of_held : ∀ key token token', s.hold key = .held token → s.Live key token' → token' = token
  live_unique : ∀ key token token', s.Live key token → s.Live key token' → token = token'
  worker_unique : ∀ worker worker' token, (s.worker worker).token? = some token →
    (s.worker worker').token? = some token → worker = worker'
  message_unique : ∀ (m n : Nat) a b, s.messages[m]? = some a → s.messages[n]? = some b →
    a.token = b.token → m = n
  unsent : ∀ worker key token, s.worker worker = .claimed key token →
    ∀ message ∈ s.messages, message.token ≠ token
  sent : ∀ worker key token (m : Nat), s.worker worker = .sent key token m →
    ∃ fate, s.messages[m]? = some ⟨key, token, fate⟩
  refused : ∀ worker key token (m : Nat), s.worker worker = .refused key token m →
    s.messages[m]? = some ⟨key, token, .refused⟩

variable {s : LeaseState K T W}

/-- Issuing a token elsewhere changes nothing else. -/
theorem inv_issue (hinv : Inv s) (token : T) : Inv { s with issued := s.issued ++ [token] } :=
  { hinv with
    held_issued := fun key t h => List.mem_append_left _ (hinv.held_issued key t h)
    worker_issued := fun worker t h => List.mem_append_left _ (hinv.worker_issued worker t h)
    message_issued := fun message h => List.mem_append_left _ (hinv.message_issued message h) }

/-- Closing keys leaves fewer of them free or held. -/
theorem inv_close (hinv : Inv s) (which : K → Bool) :
    Inv { s with hold := fun key => if which key then (s.hold key).close else s.hold key } := by
  -- A key that was closed is neither free nor held, so both facts come from the state before.
  have hclose : ∀ h : Hold T, ∀ token, h.close ≠ .held token := by
    intro h token
    cases h <;> simp [Hold.close]
  have hfree : ∀ key, (if which key then (s.hold key).close else s.hold key) = .free →
      s.hold key = .free := by
    intro key h
    split at h
    · cases hk : s.hold key with
      | free => rfl
      | held token => simp [hk, Hold.close] at h
      | closed => simp [hk, Hold.close] at h
    · exact h
  have hheld : ∀ key token, (if which key then (s.hold key).close else s.hold key) = .held token →
      s.hold key = .held token := by
    intro key token h
    split at h
    · exact absurd h (hclose _ _)
    · exact h
  exact { hinv with
    held_issued := fun key token h => hinv.held_issued key token (hheld key token h)
    not_live_of_free := fun key token h => hinv.not_live_of_free key token (hfree key h)
    live_of_held := fun key token token' h => hinv.live_of_held key token token'
      (hheld key token h) }

/-- Nothing is live under the token of a refused message. -/
theorem not_live_of_refused (hinv : Inv s) {worker : W} {key : K} {token : T} {m : Nat}
    (hw : s.worker worker = .refused key token m) : ¬ s.Live key token := by
  have hm := hinv.refused worker key token m hw
  rintro (⟨worker', hw'⟩ | ⟨n, fate, hn, hfate⟩)
  -- The holder itself has sent, so no claim is left under its token.
  · have heq := hinv.worker_unique worker worker' token (by rw [hw]; rfl) (by rw [hw']; rfl)
    subst heq
    rw [hw] at hw'
    cases hw'
  -- Its message is the only one under the token, and it is refused.
  · have heq := hinv.message_unique m n _ _ hm hn rfl
    subst heq
    rw [hm] at hn
    cases hn
    exact hfate rfl

/-- What a pending message turns into; the others stay. -/
theorem getElem?_set_fate {messages : List (Message K T)} {m n : Nat} {key : K} {token : T}
    {fate : Fate} {a : Message K T} (hm : messages[m]? = some ⟨key, token, .pending⟩)
    (hn : (messages.set m ⟨key, token, fate⟩)[n]? = some a) :
    (n = m ∧ a = ⟨key, token, fate⟩) ∨ (n ≠ m ∧ messages[n]? = some a) := by
  by_cases heq : n = m
  · subst heq
    rw [List.getElem?_set_self (List.getElem?_eq_some_iff.1 hm).1] at hn
    exact Or.inl ⟨rfl, (Option.some.inj hn).symm⟩
  · rw [List.getElem?_set_ne (Ne.symm heq)] at hn
    exact Or.inr ⟨heq, hn⟩

/-- Settling a pending message makes nothing live that was not. -/
theorem inv_setFate (hinv : Inv s) {m : Nat} {key : K} {token : T}
    (hm : s.messages[m]? = some ⟨key, token, .pending⟩) (fate : Fate) :
    Inv { s with messages := s.messages.set m ⟨key, token, fate⟩ } := by
  -- Every message was there before under the same token, and was not refused if it is not now.
  have hsource : ∀ (n : Nat) a, (s.messages.set m ⟨key, token, fate⟩)[n]? = some a →
      ∃ fate', s.messages[n]? = some ⟨a.key, a.token, fate'⟩ ∧
        (a.fate ≠ .refused → fate' ≠ .refused) := by
    intro n a hn
    rcases getElem?_set_fate hm hn with ⟨rfl, rfl⟩ | ⟨-, hn⟩
    · exact ⟨.pending, hm, by simp⟩
    · exact ⟨a.fate, hn, id⟩
  have hlive : ∀ key' token', Live { s with messages := s.messages.set m ⟨key, token, fate⟩ }
      key' token' → s.Live key' token' := by
    rintro key' token' (hw | ⟨n, f, hn, hf⟩)
    · exact Or.inl hw
    · obtain ⟨f', hn', hf'⟩ := hsource n _ hn
      exact Or.inr ⟨n, f', hn', hf' hf⟩
  have hmem : ∀ a ∈ s.messages.set m ⟨key, token, fate⟩, ∃ b ∈ s.messages, b.token = a.token := by
    intro a ha
    obtain ⟨n, hn⟩ := List.mem_iff_getElem?.1 ha
    obtain ⟨f', hn', -⟩ := hsource n a hn
    exact ⟨_, List.mem_of_getElem? hn', rfl⟩
  exact { hinv with
    message_issued := fun a ha => by
      obtain ⟨b, hb, heq⟩ := hmem a ha
      rw [← heq]
      exact hinv.message_issued b hb
    not_live_of_free := fun key' t h hl => hinv.not_live_of_free key' t h (hlive key' t hl)
    live_of_held := fun key' t t' h hl => hinv.live_of_held key' t t' h (hlive key' t' hl)
    live_unique := fun key' t t' hl hl' =>
      hinv.live_unique key' t t' (hlive key' t hl) (hlive key' t' hl')
    message_unique := fun n n' a b hn hn' hab => by
      obtain ⟨f, hn, -⟩ := hsource n a hn
      obtain ⟨f', hn', -⟩ := hsource n' b hn'
      exact hinv.message_unique n n' _ _ hn hn' hab
    unsent := fun worker key' t hw a ha => by
      obtain ⟨b, hb, heq⟩ := hmem a ha
      rw [← heq]
      exact hinv.unsent worker key' t hw b hb
    sent := fun worker key' t n hw => by
      obtain ⟨f, hn⟩ := hinv.sent worker key' t n hw
      by_cases heq : n = m
      · subst heq
        rw [hm] at hn
        cases hn
        exact ⟨fate, List.getElem?_set_self (List.getElem?_eq_some_iff.1 hm).1⟩
      · exact ⟨f, (List.getElem?_set_ne (Ne.symm heq)).trans hn⟩
    refused := fun worker key' t n hw => by
      -- A refused message is not the pending one that is settled.
      have hn := hinv.refused worker key' t n hw
      have hne : m ≠ n := by
        rintro rfl
        rw [hm] at hn
        cases hn
      exact (List.getElem?_set_ne hne).trans hn }

section Workers

variable [DecidableEq W]

/-- What a worker holds after another one, or it itself, has let go. -/
theorem worker_of_leave {worker worker' : W} {h : Holder K T}
    (hw : Function.update s.worker worker .idle worker' = h) (hne : h ≠ .idle) :
    s.worker worker' = h := by
  rw [Function.update_apply] at hw
  split at hw
  · exact absurd hw.symm hne
  · exact hw

theorem token?_of_leave {worker worker' : W} {token : T}
    (hw : (Function.update s.worker worker .idle worker').token? = some token) :
    (s.worker worker').token? = some token := by
  rw [Function.update_apply] at hw
  split at hw
  · cases hw
  · exact hw

/-- A worker that lets go leaves less live. -/
theorem inv_leave (hinv : Inv s) (worker : W) :
    Inv { s with worker := Function.update s.worker worker .idle } := by
  have hlive : ∀ key token,
      Live { s with worker := Function.update s.worker worker .idle } key token →
        s.Live key token := by
    rintro key token (⟨worker', hw⟩ | hm)
    · exact Or.inl ⟨worker', worker_of_leave hw (by simp)⟩
    · exact Or.inr hm
  exact { hinv with
    worker_issued := fun worker' token h => hinv.worker_issued worker' token (token?_of_leave h)
    not_live_of_free := fun key token h hl => hinv.not_live_of_free key token h (hlive key token hl)
    live_of_held := fun key token token' h hl =>
      hinv.live_of_held key token token' h (hlive key token' hl)
    live_unique := fun key token token' hl hl' =>
      hinv.live_unique key token token' (hlive key token hl) (hlive key token' hl')
    worker_unique := fun w₁ w₂ token h₁ h₂ =>
      hinv.worker_unique w₁ w₂ token (token?_of_leave h₁) (token?_of_leave h₂)
    unsent := fun worker' key token h =>
      hinv.unsent worker' key token (worker_of_leave h (by simp))
    sent := fun worker' key token m h =>
      hinv.sent worker' key token m (worker_of_leave h (by simp))
    refused := fun worker' key token m h =>
      hinv.refused worker' key token m (worker_of_leave h (by simp)) }

/-- What a worker holds after one of them was given `h`. -/
theorem worker_of_update {worker worker' : W} {h h' : Holder K T}
    (hw : Function.update s.worker worker h worker' = h') :
    (worker' = worker ∧ h = h') ∨ (worker' ≠ worker ∧ s.worker worker' = h') := by
  rw [Function.update_apply] at hw
  split at hw
  next heq => exact Or.inl ⟨heq, hw⟩
  next hne => exact Or.inr ⟨hne, hw⟩

/-- Sending turns a claim into a message; what is live stays live. -/
theorem inv_send (hinv : Inv s) {worker : W} {key : K} {token : T}
    (hw : s.worker worker = .claimed key token) :
    Inv { s with
      worker := Function.update s.worker worker (.sent key token s.messages.length)
      messages := s.messages ++ [⟨key, token, .pending⟩] } := by
  have htoken : token ∈ s.issued := hinv.worker_issued worker token (by rw [hw]; rfl)
  -- A message is an old one or the new one, which is last.
  have hold : ∀ (m : Nat) a, (s.messages ++ [(⟨key, token, .pending⟩ : Message K T)])[m]? = some a →
      (s.messages[m]? = some a) ∨ (m = s.messages.length ∧ a = ⟨key, token, .pending⟩) := by
    intro m a hm
    rw [List.getElem?_append] at hm
    split at hm
    · exact Or.inl hm
    next hlen =>
      rw [List.getElem?_singleton] at hm
      split at hm
      next hzero => exact Or.inr ⟨by omega, (Option.some.inj hm).symm⟩
      next => cases hm
  have hkeep : ∀ (m : Nat) a, s.messages[m]? = some a →
      (s.messages ++ [(⟨key, token, .pending⟩ : Message K T)])[m]? = some a := by
    intro m a hm
    rw [List.getElem?_append_left (List.getElem?_eq_some_iff.1 hm).1, hm]
  have hlive : ∀ key' token', Live { s with
      worker := Function.update s.worker worker (.sent key token s.messages.length)
      messages := s.messages ++ [⟨key, token, .pending⟩] } key' token' → s.Live key' token' := by
    rintro key' token' (⟨worker', hw'⟩ | ⟨m, fate, hm, hfate⟩)
    · rcases worker_of_update hw' with ⟨-, h⟩ | ⟨-, h⟩
      · cases h
      · exact Or.inl ⟨worker', h⟩
    · rcases hold m _ hm with hm | ⟨-, heq⟩
      · exact Or.inr ⟨m, fate, hm, hfate⟩
      -- The new message is live for the key as the claim was that it comes from.
      · cases heq
        exact Or.inl ⟨worker, hw⟩
  have htoken? : ∀ worker' t, (Function.update s.worker worker
      (.sent key token s.messages.length) worker').token? = some t →
        (s.worker worker').token? = some t := by
    intro worker' t ht
    rw [Function.update_apply] at ht
    split at ht
    next heq => rwa [heq, hw]
    next => exact ht
  have hfresh := hinv.unsent worker key token hw
  refine ⟨hinv.held_issued, ?_, ?_, ?_, ?_, ?_, ?_, ?_, ?_, ?_, ?_⟩
  · exact fun worker' t ht => hinv.worker_issued worker' t (htoken? worker' t ht)
  · intro message hm
    rcases List.mem_append.1 hm with hm | hm
    · exact hinv.message_issued message hm
    · rw [List.mem_singleton.1 hm]
      exact htoken
  · exact fun key' t h hl => hinv.not_live_of_free key' t h (hlive key' t hl)
  · exact fun key' t t' h hl => hinv.live_of_held key' t t' h (hlive key' t' hl)
  · exact fun key' t t' hl hl' => hinv.live_unique key' t t' (hlive key' t hl) (hlive key' t' hl')
  · exact fun w₁ w₂ t h₁ h₂ => hinv.worker_unique w₁ w₂ t (htoken? w₁ t h₁) (htoken? w₂ t h₂)
  · intro m n a b hm hn hab
    -- No message had the token while it was only claimed, so the new message is the first one.
    rcases hold m a hm with hm | ⟨rfl, rfl⟩
    · rcases hold n b hn with hn | ⟨rfl, rfl⟩
      · exact hinv.message_unique m n a b hm hn hab
      · exact absurd hab (hfresh a (List.mem_of_getElem? hm))
    · rcases hold n b hn with hn | ⟨rfl, rfl⟩
      · exact absurd hab.symm (hfresh b (List.mem_of_getElem? hn))
      · rfl
  · intro worker' key' t hw' message hm
    -- Another claim is under another token, so the new message is not its own.
    rcases worker_of_update hw' with ⟨-, h⟩ | ⟨hne, h⟩
    · cases h
    · rcases List.mem_append.1 hm with hm | hm
      · exact hinv.unsent worker' key' t h message hm
      · rw [List.mem_singleton.1 hm]
        rintro rfl
        exact hne (hinv.worker_unique worker' worker token (by rw [h]; rfl) (by rw [hw]; rfl))
  · intro worker' key' t m hw'
    rcases worker_of_update hw' with ⟨-, h⟩ | ⟨-, h⟩
    · cases h
      exact ⟨.pending, by simp⟩
    · obtain ⟨fate, hm⟩ := hinv.sent worker' key' t m h
      exact ⟨fate, hkeep m _ hm⟩
  · intro worker' key' t m hw'
    rcases worker_of_update hw' with ⟨-, h⟩ | ⟨-, h⟩
    · cases h
    · exact hkeep m _ (hinv.refused worker' key' t m h)

/-- A claim of a free key under a new token. -/
theorem inv_claim [DecidableEq K] (hinv : Inv s) {worker : W} {key : K} {token : T}
    (hfree : s.hold key = .free) (hnew : token ∉ s.issued) :
    Inv { s with
      hold := Function.update s.hold key (.held token)
      issued := s.issued ++ [token]
      worker := Function.update s.worker worker (.claimed key token) } := by
  have hlive : ∀ key' token', Live { s with
      -- Nothing was live for a free key, so for this key the claim itself is all that is live.
      hold := Function.update s.hold key (.held token)
      issued := s.issued ++ [token]
      worker := Function.update s.worker worker (.claimed key token) } key' token' →
        (key' = key ∧ token' = token) ∨ (key' ≠ key ∧ s.Live key' token') := by
    rintro key' token' (⟨worker', hw⟩ | hm)
    · rcases worker_of_update hw with ⟨-, h⟩ | ⟨-, h⟩
      · cases h
        exact Or.inl ⟨rfl, rfl⟩
      · refine Or.inr ⟨?_, Or.inl ⟨worker', h⟩⟩
        rintro rfl
        exact hinv.not_live_of_free _ _ hfree (Or.inl ⟨worker', h⟩)
    · refine Or.inr ⟨?_, Or.inr hm⟩
      rintro rfl
      exact hinv.not_live_of_free _ _ hfree (Or.inr hm)
  have htoken? : ∀ worker' t,
      (Function.update s.worker worker (.claimed key token) worker').token? = some t →
        (worker' = worker ∧ t = token) ∨ (s.worker worker').token? = some t := by
    intro worker' t ht
    rw [Function.update_apply] at ht
    split at ht
    next heq => exact Or.inl ⟨heq, (Option.some.inj ht).symm⟩
    next => exact Or.inr ht
  -- Each field is decided by whether the key, the worker or the token is the one of the claim.
  refine ⟨?_, ?_, ?_, ?_, ?_, ?_, ?_, hinv.message_unique, ?_, ?_, ?_⟩
  · intro key' t h
    simp only [Function.update_apply] at h
    split at h
    · cases h
      exact List.mem_append_right _ (List.mem_singleton_self token)
    · exact List.mem_append_left _ (hinv.held_issued key' t h)
  · intro worker' t ht
    rcases htoken? worker' t ht with ⟨-, rfl⟩ | ht
    · exact List.mem_append_right _ (List.mem_singleton_self _)
    · exact List.mem_append_left _ (hinv.worker_issued worker' t ht)
  · exact fun message hm => List.mem_append_left _ (hinv.message_issued message hm)
  · intro key' t h hl
    simp only [Function.update_apply] at h
    split at h
    · cases h
    next hne =>
      rcases hlive key' t hl with ⟨rfl, -⟩ | ⟨-, hl⟩
      · exact hne rfl
      · exact hinv.not_live_of_free key' t h hl
  · intro key' t t' h hl
    simp only [Function.update_apply] at h
    split at h
    next heq =>
      cases h
      rcases hlive key' t' hl with ⟨-, rfl⟩ | ⟨hne, -⟩
      · rfl
      · exact absurd heq hne
    next hne =>
      rcases hlive key' t' hl with ⟨heq, -⟩ | ⟨-, hl⟩
      · exact absurd heq hne
      · exact hinv.live_of_held key' t t' h hl
  · intro key' t t' hl hl'
    rcases hlive key' t hl with ⟨rfl, rfl⟩ | ⟨hne, hl⟩
    · rcases hlive _ t' hl' with ⟨-, rfl⟩ | ⟨hne, -⟩
      · rfl
      · exact absurd rfl hne
    · rcases hlive key' t' hl' with ⟨rfl, -⟩ | ⟨-, hl'⟩
      · exact absurd rfl hne
      · exact hinv.live_unique key' t t' hl hl'
  · intro w₁ w₂ t h₁ h₂
    -- The token is new, so no other worker has it.
    rcases htoken? w₁ t h₁ with ⟨rfl, rfl⟩ | hold₁
    · rcases htoken? w₂ _ h₂ with ⟨rfl, -⟩ | hold₂
      · rfl
      · exact absurd (hinv.worker_issued w₂ _ hold₂) hnew
    · rcases htoken? w₂ t h₂ with ⟨rfl, rfl⟩ | hold₂
      · exact absurd (hinv.worker_issued w₁ _ hold₁) hnew
      · exact hinv.worker_unique w₁ w₂ t hold₁ hold₂
  · intro worker' key' t hw message hm
    rcases worker_of_update hw with ⟨-, h⟩ | ⟨-, h⟩
    · cases h
      rintro rfl
      exact hnew (hinv.message_issued message hm)
    · exact hinv.unsent worker' key' t h message hm
  · intro worker' key' t m hw
    rcases worker_of_update hw with ⟨-, h⟩ | ⟨-, h⟩
    · cases h
    · exact hinv.sent worker' key' t m h
  · intro worker' key' t m hw
    rcases worker_of_update hw with ⟨-, h⟩ | ⟨-, h⟩
    · cases h
    · exact hinv.refused worker' key' t m h

/-- A holder may learn that its message is refused. -/
theorem inv_learn (hinv : Inv s) {worker : W} {key : K} {token : T} {m : Nat}
    (hw : s.worker worker = .sent key token m)
    (hm : s.messages[m]? = some ⟨key, token, .refused⟩) :
    Inv { s with worker := Function.update s.worker worker (.refused key token m) } := by
  -- Learning of a refusal changes neither tokens nor what is live, only what the worker knows.
  have htoken? : ∀ worker' t,
      (Function.update s.worker worker (.refused key token m) worker').token? = some t →
        (s.worker worker').token? = some t := by
    intro worker' t ht
    rw [Function.update_apply] at ht
    split at ht
    next heq => rwa [heq, hw]
    next => exact ht
  have hlive : ∀ key' token',
      Live { s with worker := Function.update s.worker worker (.refused key token m) }
        key' token' → s.Live key' token' := by
    rintro key' token' (⟨worker', hw'⟩ | hm')
    · rcases worker_of_update hw' with ⟨-, h⟩ | ⟨-, h⟩
      · cases h
      · exact Or.inl ⟨worker', h⟩
    · exact Or.inr hm'
  exact { hinv with
    worker_issued := fun worker' t h => hinv.worker_issued worker' t (htoken? worker' t h)
    not_live_of_free := fun key' t h hl => hinv.not_live_of_free key' t h (hlive key' t hl)
    live_of_held := fun key' t t' h hl => hinv.live_of_held key' t t' h (hlive key' t' hl)
    live_unique := fun key' t t' hl hl' =>
      hinv.live_unique key' t t' (hlive key' t hl) (hlive key' t' hl')
    worker_unique := fun w₁ w₂ t h₁ h₂ =>
      hinv.worker_unique w₁ w₂ t (htoken? w₁ t h₁) (htoken? w₂ t h₂)
    unsent := fun worker' key' t hw' => by
      rcases worker_of_update hw' with ⟨-, h⟩ | ⟨-, h⟩
      · cases h
      · exact hinv.unsent worker' key' t h
    sent := fun worker' key' t n hw' => by
      rcases worker_of_update hw' with ⟨-, h⟩ | ⟨-, h⟩
      · cases h
      · exact hinv.sent worker' key' t n h
    refused := fun worker' key' t n hw' => by
      rcases worker_of_update hw' with ⟨-, h⟩ | ⟨-, h⟩
      · cases h
        exact hm
      · exact hinv.refused worker' key' t n h }

/-- A key can be released by the holder of a refused message: nothing is live for it. -/
theorem inv_release [DecidableEq K] (hinv : Inv s) {worker : W} {key : K} {token : T} {m : Nat}
    (hw : s.worker worker = .refused key token m) (hhold : s.hold key = .held token) :
    Inv { s with
      hold := Function.update s.hold key .free
      worker := Function.update s.worker worker .idle } := by
  have hleave := inv_leave hinv worker
  -- What is live for a held key is live under its token, and that token's message is refused.
  have hdead : ∀ token', ¬ s.Live key token' := by
    intro token' hl
    have heq := hinv.live_of_held key token token' hhold hl
    subst heq
    exact not_live_of_refused hinv hw hl
  have hlive : ∀ key' token',
      Live { s with
        hold := Function.update s.hold key .free
        worker := Function.update s.worker worker .idle } key' token' → s.Live key' token' := by
    rintro key' token' (⟨worker', hw'⟩ | hm)
    · exact Or.inl ⟨worker', worker_of_leave hw' (by simp)⟩
    · exact Or.inr hm
  have hheld : ∀ key' token', Function.update s.hold key .free key' = .held token' →
      s.hold key' = .held token' := by
    intro key' token' h
    rw [Function.update_apply] at h
    split at h
    · cases h
    · exact h
  exact { hleave with
    held_issued := fun key' token' h => hinv.held_issued key' token' (hheld key' token' h)
    not_live_of_free := fun key' token' h hl => by
      by_cases hk : key' = key
      · subst hk
        exact hdead token' (hlive key' token' hl)
      · simp only [Function.update_of_ne hk] at h
        exact hinv.not_live_of_free key' token' h (hlive key' token' hl)
    live_of_held := fun key' t t' h hl =>
      hinv.live_of_held key' t t' (hheld key' t h) (hlive key' t' hl) }

end Workers

section Runs

variable [DecidableEq K] [DecidableEq T] [DecidableEq W]

theorem inv_init (h : (system (K := K) (T := T) (W := W)).init s) : Inv s := by
  obtain ⟨hhold, hworker, hmessages⟩ := h
  -- Without workers and messages every clause is about nothing.
  have hlive : ∀ key token, ¬ s.Live key token := by
    rintro key token (⟨worker, hw⟩ | ⟨m, fate, hm, -⟩)
    · rw [hworker] at hw
      cases hw
    · rw [hmessages] at hm
      cases hm
  refine ⟨?_, ?_, ?_, ?_, ?_, ?_, ?_, ?_, ?_, ?_, ?_⟩
  · exact fun key token h => absurd h (hhold key token)
  · intro worker token h
    rw [hworker] at h
    cases h
  · intro message h
    rw [hmessages] at h
    cases h
  · exact fun key token _ => hlive key token
  · exact fun key token token' _ h => absurd h (hlive key token')
  · exact fun key token token' h => absurd h (hlive key token)
  · intro worker worker' token h
    rw [hworker] at h
    cases h
  · intro m n a b h
    rw [hmessages] at h
    cases h
  · intro worker key token h
    rw [hworker] at h
    cases h
  · intro worker key token m h
    rw [hworker] at h
    cases h
  · intro worker key token m h
    rw [hworker] at h
    cases h

/-- **Step rule.** Every action keeps the invariant. -/
theorem inv_step (hinv : Inv s) {a : LeaseAction K T W} {t : LeaseState K T W}
    (h : step a s = some t) : Inv t := by
  cases a with
  | issue token =>
      cases h
      exact inv_issue hinv token
  | claim worker key token =>
      simp only [step] at h
      split at h
      next hguard =>
        cases h
        exact inv_claim hinv hguard.1 hguard.2.2
      next => cases h
  | send worker =>
      simp only [step] at h
      split at h
      next key token hw =>
        cases h
        exact inv_send hinv hw
      next => cases h
  | accept message =>
      simp only [step] at h
      split at h
      next key token hm =>
        cases h
        exact inv_setFate hinv hm .accepted
      next => cases h
  | refuse worker =>
      simp only [step] at h
      split at h
      next key token m hw =>
        split at h
        next key' token' hm =>
          cases h
          -- The message is the worker's own, so the worker learns the fate of what it sent.
          obtain ⟨fate, hsent⟩ := hinv.sent worker key token m hw
          rw [hm] at hsent
          cases hsent
          exact inv_learn (inv_setFate hinv hm .refused) hw
            (List.getElem?_set_self (List.getElem?_eq_some_iff.1 hm).1)
        next => cases h
      next => cases h
  | close which =>
      cases h
      exact inv_close hinv which
  | release worker =>
      simp only [step] at h
      split at h
      next key token m hw =>
        split at h
        next hhold =>
          cases h
          exact inv_release hinv hw hhold
        next => cases h
      next => cases h
  | leave worker =>
      cases h
      exact inv_leave hinv worker

theorem inv_of_reachable {P : LeaseState K T W → LeaseAction K T W → Prop}
    (h : (system (K := K) (T := T) (W := W)).Reachable P s) : Inv s :=
  h.invariant (fun _ hs => inv_init hs) fun _ _ _ _ hstep hinv => inv_step hinv hstep

end Runs

/-! ## Safety -/

/-- **At most one acceptance.** Two accepted messages for one key are the same message. -/
theorem accepted_unique (hinv : Inv s) {key : K} {m n : Nat} {token token' : T}
    (hm : s.messages[m]? = some ⟨key, token, .accepted⟩)
    (hn : s.messages[n]? = some ⟨key, token', .accepted⟩) : m = n := by
  have htoken := hinv.live_unique key token token' (Or.inr ⟨m, _, hm, by simp⟩)
    (Or.inr ⟨n, _, hn, by simp⟩)
  exact hinv.message_unique m n _ _ hm hn htoken

/-- Two workers whose tokens are both current for a key are the same worker. -/
theorem current_unique (hinv : Inv s) {key : K} {worker worker' : W} {token token' : T}
    (hw : (s.worker worker).token? = some token) (hw' : (s.worker worker').token? = some token')
    (hcur : s.hold key = .held token) (hcur' : s.hold key = .held token') : worker = worker' := by
  rw [hcur] at hcur'
  cases hcur'
  exact hinv.worker_unique worker worker' token hw hw'

end LeaseState

end Foundation
