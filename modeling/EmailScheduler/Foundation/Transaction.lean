import Mathlib.Tactic.Common

/-!
# Actions on a store, and transactions

An action runs on a store. It returns a value or throws, and either way it leaves a store behind: an
action that throws may have written before. `transaction body` runs `body` and takes its writes back
if it throws.

Three properties have a rule for each way to build an action:

* `RollsBack x`: where `x` throws, the store is the one it started with;
* `Commutes view P x y`: started where `P` holds, `x` returns or throws what `y` does on the part of
  the store that `view` shows, and the store it leaves shows there what `y` leaves;
* `Throws x Q`: the errors of `x` meet `Q`.
-/

set_option autoImplicit false

namespace Foundation

/-- A computation on a store that returns or throws. -/
def Action (σ ε α : Type) : Type := σ → Except ε α × σ

namespace Action

variable {σ τ ε ε' α β γ : Type}

protected def pure (a : α) : Action σ ε α := fun s => (.ok a, s)

/-- The second action runs only if the first one returns. -/
protected def bind (x : Action σ ε α) (f : α → Action σ ε β) : Action σ ε β := fun s =>
  match x s with
  | (.ok a, s') => f a s'
  | (.error e, s') => (.error e, s')

instance : Monad (Action σ ε) where
  pure := Action.pure
  bind := Action.bind

/-- Return what the store shows. -/
def read (f : σ → α) : Action σ ε α := fun s => (.ok (f s), s)

/-- Change the store. -/
def write (f : σ → σ) : Action σ ε Unit := fun s => (.ok (), f s)

protected def throw (e : ε) : Action σ ε α := fun s => (.error e, s)

/-- Return or throw without touching the store. -/
def ofExcept (r : Except ε α) : Action σ ε α := fun s => (r, s)

/-- Throw `e` where the store meets a condition. -/
def throwIf (p : σ → Bool) (e : ε) : Action σ ε Unit := fun s =>
  (if p s then .error e else .ok (), s)

/-- Run an action on a condition. -/
def when (c : Bool) (x : Action σ ε Unit) : Action σ ε Unit := if c then x else Action.pure ()

/-- Throw another error instead. -/
def mapError (f : ε → ε') (x : Action σ ε α) : Action σ ε' α := fun s =>
  match x s with
  | (.ok a, s') => (.ok a, s')
  | (.error e, s') => (.error (f e), s')

/-- Go on with a handler where the action throws. -/
def catchError (x : Action σ ε α) (handler : ε → Action σ ε α) : Action σ ε α := fun s =>
  match x s with
  | (.ok a, s') => (.ok a, s')
  | (.error e, s') => handler e s'

/-- Run the body, and keep its writes only if it returns. -/
def transaction (body : Action σ ε α) : Action σ ε α := fun s =>
  match body s with
  | (.ok a, s') => (.ok a, s')
  | (.error e, _) => (.error e, s)

theorem bind_apply (x : Action σ ε α) (f : α → Action σ ε β) (s : σ) :
    (x >>= f) s = match x s with
      | (.ok a, s') => f a s'
      | (.error e, s') => (.error e, s') := rfl

/-- A last step that only changes the value returned. -/
theorem snd_bind_pure (x : Action σ ε α) (g : α → β) (s : σ) :
    ((x >>= fun a => pure (g a)) s).2 = (x s).2 := by
  rw [bind_apply]
  rcases x s with ⟨_ | a, t⟩ <;> rfl

theorem bind_of_ok {x : Action σ ε α} {f : α → Action σ ε β} {s t : σ} {a : α}
    (h : x s = (.ok a, t)) : (x >>= f) s = f a t := by
  rw [bind_apply, h]

theorem transaction_of_ok {x : Action σ ε α} {s t : σ} {a : α} (h : x s = (.ok a, t)) :
    transaction x s = (.ok a, t) := by
  rw [transaction, h]

theorem read_of_eq {f : σ → α} {s : σ} {a : α} (h : f s = a) :
    (read f : Action σ ε α) s = (.ok a, s) := by
  rw [read, h]

theorem throwIf_of_not {p : σ → Bool} {e : ε} {s : σ} (h : p s = false) :
    throwIf p e s = (.ok (), s) := by
  rw [throwIf, h]
  rfl

/-- A sequence returns if both of its actions do. -/
theorem bind_eq_ok {x : Action σ ε α} {f : α → Action σ ε β} {s s' : σ} {b : β}
    (h : (x >>= f) s = (.ok b, s')) : ∃ a t, x s = (.ok a, t) ∧ f a t = (.ok b, s') := by
  rw [bind_apply] at h
  split at h
  next a t hx => exact ⟨a, t, hx, h⟩
  next => cases h

theorem transaction_eq_ok {x : Action σ ε α} {s s' : σ} {a : α}
    (h : transaction x s = (.ok a, s')) : x s = (.ok a, s') := by
  unfold transaction at h
  split at h
  next hx =>
    cases h
    exact hx
  next => cases h

theorem mapError_eq_ok {f : ε → ε'} {x : Action σ ε α} {s s' : σ} {a : α}
    (h : mapError f x s = (.ok a, s')) : x s = (.ok a, s') := by
  unfold mapError at h
  split at h
  next hx =>
    cases h
    exact hx
  next => cases h

theorem read_eq_ok {f : σ → α} {s s' : σ} {a : α}
    (h : (read f : Action σ ε α) s = (.ok a, s')) : f s = a ∧ s' = s := by
  cases h
  exact ⟨rfl, rfl⟩

theorem ofExcept_eq_ok {r : Except ε α} {s s' : σ} {a : α}
    (h : ofExcept r s = (.ok a, s')) : r = .ok a ∧ s' = s := by
  cases h
  exact ⟨rfl, rfl⟩

theorem throwIf_eq_ok {p : σ → Bool} {e : ε} {s s' : σ} {u : Unit}
    (h : throwIf p e s = (.ok u, s')) : p s = false ∧ s' = s := by
  unfold throwIf at h
  split at h
  · cases h
  next hp =>
    cases h
    exact ⟨by simpa using hp, rfl⟩

/-! ## Rolling back -/

/-- The store is never touched. -/
def ReadOnly (x : Action σ ε α) : Prop := ∀ s, (x s).2 = s

/-- Whoever throws has not touched the store. -/
def RollsBack (x : Action σ ε α) : Prop := ∀ s e s', x s = (.error e, s') → s' = s

theorem readOnly_read (f : σ → α) : ReadOnly (read f : Action σ ε α) := fun _ => rfl

theorem readOnly_ofExcept (r : Except ε α) : ReadOnly (ofExcept r : Action σ ε α) := fun _ => rfl

theorem readOnly_throwIf (p : σ → Bool) (e : ε) : ReadOnly (throwIf p e) := fun _ => rfl

/-- A sequence ends with its first action or with its second. -/
theorem bind_cases (x : Action σ ε α) (f : α → Action σ ε β) (s : σ) :
    (∃ e s', x s = (.error e, s') ∧ (x >>= f) s = (.error e, s')) ∨
      ∃ a s', x s = (.ok a, s') ∧ (x >>= f) s = f a s' := by
  rw [bind_apply]
  rcases x s with ⟨e | a, s'⟩
  · exact Or.inl ⟨e, s', rfl, rfl⟩
  · exact Or.inr ⟨a, s', rfl, rfl⟩

theorem ReadOnly.bind {x : Action σ ε α} {f : α → Action σ ε β} (hx : ReadOnly x)
    (hf : ∀ a, ReadOnly (f a)) : ReadOnly (x >>= f) := by
  intro s
  have hsame := hx s
  rcases bind_cases x f s with ⟨e, s', hfirst, hrun⟩ | ⟨a, s', hfirst, hrun⟩
  · rw [hfirst] at hsame
    rw [hrun]
    exact hsame
  · rw [hfirst] at hsame
    rw [hrun, hf a s']
    exact hsame

/-- The store after a first action that does not touch it. -/
theorem ReadOnly.snd_bind {x : Action σ ε α} (hx : ReadOnly x) {f : α → Action σ ε β} {s : σ}
    {R : σ → Prop} (h₀ : R s) (h : ∀ a, x s = (.ok a, s) → R (f a s).2) : R ((x >>= f) s).2 := by
  have hsame := hx s
  rcases bind_cases x f s with ⟨e, s', hfirst, hrun⟩ | ⟨a, s', hfirst, hrun⟩
  · rw [hfirst] at hsame
    rw [hrun, hsame]
    exact h₀
  · rw [hfirst] at hsame
    obtain rfl : s' = s := hsame
    rw [hrun]
    exact h a hfirst

namespace RollsBack

variable {x : Action σ ε α} {f : α → Action σ ε β}

/-- What relates a store to itself, and to the store of every run that returns. -/
theorem snd (hx : RollsBack x) {R : σ → σ → Prop} {s : σ} (hrefl : R s s)
    (hok : ∀ a s', x s = (.ok a, s') → R s s') : R s (x s).2 := by
  rcases hrun : x s with ⟨e | a, s'⟩
  · rw [hx s e s' hrun]
    exact hrefl
  · exact hok a s' hrun

theorem of_readOnly (h : ReadOnly x) : RollsBack x := by
  intro s e s' herror
  have hsame := h s
  rw [herror] at hsame
  exact hsame

theorem bind (hx : ReadOnly x) (hf : ∀ a, RollsBack (f a)) : RollsBack (x >>= f) := by
  intro s e s' herror
  rw [bind_apply] at herror
  split at herror
  next a t hok =>
    have hsame := hx s
    rw [hok] at hsame
    exact (hf a t e s' herror).trans hsame
  next e' t herror' =>
    cases herror
    have hsame := hx s
    rw [herror'] at hsame
    exact hsame

/-- A last step that cannot throw. -/
theorem bind_pure (hx : RollsBack x) (g : α → β) : RollsBack (x >>= fun a => pure (g a)) := by
  intro s e s' herror
  rw [bind_apply] at herror
  split at herror
  next => cases herror
  next e' t herror' =>
    cases herror
    exact hx s _ _ herror'

/-- **A transaction rolls back**, whatever its body has written. -/
theorem transaction (x : Action σ ε α) : RollsBack (transaction x) := by
  intro s e s' herror
  unfold Action.transaction at herror
  split at herror
  · cases herror
  · cases herror
    rfl

theorem mapError (g : ε → ε') (hx : RollsBack x) : RollsBack (mapError g x) := by
  intro s e s' herror
  unfold Action.mapError at herror
  split at herror
  next => cases herror
  next e' t herror' =>
    cases herror
    exact hx s _ _ herror'

/-- A handler runs on the store that the action started with. -/
theorem catchError {h : ε → Action σ ε α} (hx : RollsBack x) (hhandler : ∀ e, RollsBack (h e)) :
    RollsBack (catchError x h) := by
  intro s e s' herror
  unfold Action.catchError at herror
  split at herror
  next => cases herror
  next e' t herror' =>
    rw [hx s _ _ herror'] at herror
    exact hhandler e' s e s' herror

end RollsBack

/-! ## Looking at a part of the store -/

/-- From a store with `P`, a value is returned only in a store with `Q`. -/
def Ensures (P : σ → Prop) (x : Action σ ε α) (Q : α → σ → Prop) : Prop :=
  ∀ s, P s → ∀ a s', x s = (.ok a, s') → Q a s'

/-- From a store with `P`, `x` does what `y` does on what `view` shows. -/
def Commutes (view : σ → τ) (P : σ → Prop) (x : Action σ ε α) (y : Action τ ε α) : Prop :=
  ∀ s, P s → y (view s) = ((x s).1, view (x s).2)

theorem ensures_of_readOnly {P : σ → Prop} {x : Action σ ε α} (h : ReadOnly x) :
    Ensures P x fun _ => P := by
  intro s hs a s' hok
  have hsame := h s
  rw [hok] at hsame
  cases hsame
  exact hs

theorem ensures_true (P : σ → Prop) (x : Action σ ε α) : Ensures P x fun _ _ => True :=
  fun _ _ _ _ _ => trivial

theorem ensures_ofExcept (P : σ → Prop) (r : Except ε α) :
    Ensures P (ofExcept r) fun a s => P s ∧ r = .ok a := by
  intro s hs a s' hok
  obtain ⟨hr, rfl⟩ := ofExcept_eq_ok hok
  exact ⟨hs, hr⟩

/-- What is read is what the store shows. -/
theorem ensures_read (P : σ → Prop) (f : σ → α) :
    Ensures P (read f : Action σ ε α) fun a s => P s ∧ f s = a := by
  intro s hs a s' hok
  obtain ⟨hread, rfl⟩ := read_eq_ok hok
  exact ⟨hs, hread⟩

namespace Commutes

variable {view : σ → τ} {P : σ → Prop} {Q : α → σ → Prop} {x : Action σ ε α} {y : Action τ ε α}
  {f : α → Action σ ε β} {g : α → Action τ ε β}

theorem pure (a : α) : Commutes view P (pure a : Action σ ε α) (pure a) := fun _ _ => rfl

theorem ofExcept (r : Except ε α) : Commutes view P (ofExcept r) (ofExcept r) := fun _ _ => rfl

theorem read {f : σ → α} {g : τ → α} (h : ∀ s, P s → g (view s) = f s) :
    Commutes view P (read f : Action σ ε α) (read g) := by
  intro s hs
  rw [Action.read, Action.read, h s hs]

theorem throwIf {p : σ → Bool} {q : τ → Bool} {e : ε} (h : ∀ s, P s → q (view s) = p s) :
    Commutes view P (throwIf p e) (throwIf q e) := by
  intro s hs
  rw [Action.throwIf, Action.throwIf, h s hs]

theorem write {f : σ → σ} {g : τ → τ} (h : ∀ s, P s → g (view s) = view (f s)) :
    Commutes view P (write f : Action σ ε Unit) (write g) := by
  intro s hs
  rw [Action.write, Action.write, h s hs]

theorem weaken {P' : σ → Prop} (h : Commutes view P' x y) (hP : ∀ s, P s → P' s) :
    Commutes view P x y := fun s hs => h s (hP s hs)

theorem when {x : Action σ ε Unit} {y : Action τ ε Unit} (c : Bool) (h : Commutes view P x y) :
    Commutes view P (when c x) (when c y) := by
  cases c with
  | false => exact fun _ _ => rfl
  | true => exact h

/-- **Sequences.** The second actions agree on every store that the first one can leave. -/
theorem bind (hx : Commutes view P x y) (hQ : Ensures P x Q)
    (hf : ∀ a, Commutes view (Q a) (f a) (g a)) : Commutes view P (x >>= f) (y >>= g) := by
  intro s hs
  rw [bind_apply, bind_apply, hx s hs]
  rcases hrun : x s with ⟨_ | a, t⟩
  · rfl
  · exact hf a t (hQ s hs a t hrun)

/-- **Transactions** show their writes or take them back on both sides. -/
theorem transaction (hx : Commutes view P x y) :
    Commutes view P (transaction x) (transaction y) := by
  intro s hs
  rw [Action.transaction, Action.transaction, hx s hs]
  rcases x s with ⟨_ | a, t⟩ <;> rfl

/-- An action that throws without a write can be followed by a handler. -/
theorem catchError {h : ε → Action σ ε α} {k : ε → Action τ ε α} (hx : Commutes view P x y)
    (hback : RollsBack x) (hhandler : ∀ e, Commutes view P (h e) (k e)) :
    Commutes view P (catchError x h) (catchError y k) := by
  intro s hs
  rw [Action.catchError, Action.catchError, hx s hs]
  rcases hrun : x s with ⟨e | a, t⟩
  · rw [hback s e t hrun]
    exact hhandler e s hs
  · rfl

theorem mapError (h : ε → ε') (hx : Commutes view P x y) :
    Commutes view P (mapError h x) (mapError h y) := by
  intro s hs
  rw [Action.mapError, Action.mapError, hx s hs]
  rcases x s with ⟨_ | a, t⟩ <;> rfl

end Commutes

/-! ## What is thrown -/

/-- Every error that the action throws is such an error. -/
def Throws (x : Action σ ε α) (Q : ε → Prop) : Prop := ∀ s e s', x s = (.error e, s') → Q e

namespace Throws

variable {x : Action σ ε α} {f : α → Action σ ε β} {Q : ε → Prop}

theorem pure (a : α) : Throws (pure a : Action σ ε α) Q := by
  intro s e s' herror
  cases herror

theorem read (f : σ → α) : Throws (read f : Action σ ε α) Q := by
  intro s e s' herror
  cases herror

theorem throw {e : ε} (h : Q e) : Throws (Action.throw e : Action σ ε α) Q := by
  intro s e' s' herror
  cases herror
  exact h

theorem throwIf {p : σ → Bool} {e : ε} (h : Q e) : Throws (throwIf p e) Q := by
  intro s e' s' herror
  unfold Action.throwIf at herror
  split at herror
  · cases herror
    exact h
  · cases herror

theorem ofExcept {r : Except ε α} (h : ∀ e, r = .error e → Q e) :
    Throws (ofExcept r : Action σ ε α) Q := by
  intro s e s' herror
  exact h e (congrArg Prod.fst herror)

/-- **Sequences.** -/
theorem bind (hx : Throws x Q) (hf : ∀ a, Throws (f a) Q) : Throws (x >>= f) Q := by
  intro s e s' herror
  rcases bind_cases x f s with ⟨e', t, hfirst, hrun⟩ | ⟨a, t, -, hrun⟩
  · rw [hrun] at herror
    cases herror
    exact hx s _ _ hfirst
  · rw [hrun] at herror
    exact hf a t e s' herror

/-- What a handler throws is thrown on behalf of the action. -/
theorem catchError {h : ε → Action σ ε α} (hx : Throws x Q) (hhandler : ∀ e, Q e → Throws (h e) Q) :
    Throws (catchError x h) Q := by
  intro s e s' herror
  unfold Action.catchError at herror
  split at herror
  next => cases herror
  next e' t hfirst => exact hhandler e' (hx s e' t hfirst) t e s' herror

end Throws

end Action

end Foundation
