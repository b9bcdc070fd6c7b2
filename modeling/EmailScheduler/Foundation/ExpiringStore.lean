import Mathlib.Order.Basic

/-!
# Key-value stores with expiring keys

The store keeps the last entry written under each key together with the time at which the key
expires, if any. A key is present at `clock` exactly while `clock` is before its expiry, so expiry
needs no step of its own: reading at a later clock is enough.

`setPx`, `incr` and `pexpireAt` are the commands `SET … PX`, `INCR` and `PEXPIREAT`; `psetex`,
`pexpire` and `del` are `PSETEX`, `PEXPIRE` and `DEL`.
-/

set_option autoImplicit false

namespace Foundation

universe u v

/-- A stored value and its expiry; `none` is a key without expiry. -/
structure Entry (V : Type v) where
  value : V
  expiresAt : Option Int

/-- An entry is present strictly before its expiry. -/
def Entry.alive {V : Type v} (clock : Int) (e : Entry V) : Bool :=
  match e.expiresAt with
  | none => true
  | some t => decide (clock < t)

/-- The entries last written. -/
abbrev ExpiringStore (K : Type u) (V : Type v) := K → Option (Entry V)

namespace ExpiringStore

variable {K : Type u} {V : Type v}

/-- The store without keys. -/
def empty : ExpiringStore K V := fun _ => none

/-- The entry under `k` at `clock`. -/
def lookup (s : ExpiringStore K V) (clock : Int) (k : K) : Option (Entry V) :=
  (s k).filter (Entry.alive clock)

/-- `GET`. -/
def get (s : ExpiringStore K V) (clock : Int) (k : K) : Option V :=
  (lookup s clock k).map Entry.value

/-- `EXISTS`. -/
def has (s : ExpiringStore K V) (clock : Int) (k : K) : Bool := (lookup s clock k).isSome

/-- Replace the entry under `k`. -/
def put [DecidableEq K] (s : ExpiringStore K V) (k : K) (e : Entry V) : ExpiringStore K V :=
  fun j => if j = k then some e else s j

/-- `SET k value PX ttl`: the previous expiry is discarded. -/
def setPx [DecidableEq K] (s : ExpiringStore K V) (clock : Int) (k : K) (value : V) (ttl : Int) :
    ExpiringStore K V :=
  put s k ⟨value, some (clock + ttl)⟩

/-- `SET k value PX ttl` if `EXISTS k` is `0`. -/
def setIfAbsent [DecidableEq K] (s : ExpiringStore K V) (clock : Int) (k : K) (value : V)
    (ttl : Int) : ExpiringStore K V :=
  if has s clock k then s else setPx s clock k value ttl

/-- `INCR k`: an absent key starts at `0` without expiry, a present key keeps its expiry. -/
def incr [DecidableEq K] (s : ExpiringStore K Int) (clock : Int) (k : K) : ExpiringStore K Int :=
  match lookup s clock k with
  | none => put s k ⟨1, none⟩
  | some e => put s k { e with value := e.value + 1 }

/-- `PEXPIREAT k t`: no effect on an absent key. -/
def pexpireAt [DecidableEq K] (s : ExpiringStore K V) (clock : Int) (k : K) (t : Int) :
    ExpiringStore K V :=
  match lookup s clock k with
  | none => s
  | some e => put s k { e with expiresAt := some t }

/-- `DEL k`. -/
def del [DecidableEq K] (s : ExpiringStore K V) (k : K) : ExpiringStore K V :=
  fun j => if j = k then none else s j

/-- `PSETEX k ttl value`: an error unless the time is positive. -/
def psetex [DecidableEq K] (s : ExpiringStore K V) (clock : Int) (k : K) (ttl : Int) (value : V) :
    Option (ExpiringStore K V) :=
  if 0 < ttl then some (setPx s clock k value ttl) else none

/-- `PEXPIRE k ttl`: a time that is not positive deletes the key. -/
def pexpire [DecidableEq K] (s : ExpiringStore K V) (clock : Int) (k : K) (ttl : Int) :
    ExpiringStore K V :=
  if 0 < ttl then pexpireAt s clock k (clock + ttl) else del s k

@[simp] theorem get_empty (clock : Int) (k : K) :
    get (empty : ExpiringStore K V) clock k = none := rfl

theorem get_eq_none_of_none {s : ExpiringStore K V} {clock : Int} {k : K} (h : s k = none) :
    get s clock k = none := by
  simp [get, lookup, h]

/-- Reading an entry with expiry `t`. -/
theorem get_of_entry {s : ExpiringStore K V} {k : K} {v : V} {t : Int}
    (h : s k = some ⟨v, some t⟩) (clock : Int) :
    get s clock k = if clock < t then some v else none := by
  by_cases ht : clock < t
  · simp [get, lookup, h, Option.filter_some, Entry.alive, ht]
  · simp [get, lookup, h, Option.filter_some, Entry.alive, ht]

theorem entry_of_get {s : ExpiringStore K V} {clock : Int} {k : K} {v : V}
    (h : get s clock k = some v) : ∃ e, s k = some e ∧ e.value = v ∧ e.alive clock = true := by
  obtain ⟨e, he, rfl⟩ := Option.map_eq_some_iff.1 h
  obtain ⟨hs, ha⟩ := Option.filter_eq_some_iff.1 he
  exact ⟨e, hs, rfl, ha⟩

theorem has_eq_isSome_get (s : ExpiringStore K V) (clock : Int) (k : K) :
    has s clock k = (get s clock k).isSome := by
  simp [has, get]

/-- What depends on one key only is not changed by writes elsewhere. -/
theorem get_congr {s t : ExpiringStore K V} {k : K} (h : s k = t k) (clock : Int) :
    get s clock k = get t clock k := by
  simp [get, lookup, h]

/-- At a later clock a key reads the same, or it has expired in between. -/
theorem get_later (s : ExpiringStore K V) {c c' : Int} (hc : c ≤ c') (k : K) :
    get s c' k = get s c k ∨
      (get s c' k = none ∧ ∃ e t, s k = some e ∧ e.expiresAt = some t ∧ t ≤ c' ∧
        get s c k = some e.value) := by
  cases hk : s k with
  | none =>
      left
      rw [get_eq_none_of_none hk, get_eq_none_of_none hk]
  | some e =>
      rcases e with ⟨v, expiry⟩
      cases expiry with
      | none =>
          left
          simp [get, lookup, hk, Option.filter_some, Entry.alive]
      | some t =>
          rw [get_of_entry hk, get_of_entry hk]
          by_cases h : c' < t
          · left
            rw [if_pos h, if_pos (by omega)]
          · by_cases h' : c < t
            · right
              exact ⟨if_neg h, _, t, rfl, rfl, by omega, if_pos h'⟩
            · left
              rw [if_neg h, if_neg h']

section Writes

variable [DecidableEq K]

@[simp] theorem put_self (s : ExpiringStore K V) (k : K) (e : Entry V) : put s k e k = some e :=
  if_pos rfl

theorem put_of_ne (s : ExpiringStore K V) {j k : K} (h : j ≠ k) (e : Entry V) :
    put s k e j = s j :=
  if_neg h

@[simp] theorem setPx_self (s : ExpiringStore K V) (clock : Int) (k : K) (v : V) (ttl : Int) :
    setPx s clock k v ttl k = some ⟨v, some (clock + ttl)⟩ :=
  put_self s k _

theorem setPx_of_ne (s : ExpiringStore K V) {j k : K} (h : j ≠ k) (clock : Int) (v : V)
    (ttl : Int) : setPx s clock k v ttl j = s j :=
  put_of_ne s h _

theorem setIfAbsent_self (s : ExpiringStore K V) (clock : Int) (k : K) (v : V) (ttl : Int) :
    setIfAbsent s clock k v ttl k =
      if has s clock k then s k else some ⟨v, some (clock + ttl)⟩ := by
  unfold setIfAbsent
  split
  · rfl
  · exact setPx_self s clock k v ttl

theorem setIfAbsent_of_ne (s : ExpiringStore K V) {j k : K} (h : j ≠ k) (clock : Int) (v : V)
    (ttl : Int) : setIfAbsent s clock k v ttl j = s j := by
  unfold setIfAbsent
  split
  · rfl
  · exact setPx_of_ne s h clock v ttl

theorem incr_of_ne (s : ExpiringStore K Int) {j k : K} (h : j ≠ k) (clock : Int) :
    incr s clock k j = s j := by
  unfold incr
  cases lookup s clock k with
  | none => exact put_of_ne s h _
  | some e => exact put_of_ne s h _

theorem pexpireAt_of_ne (s : ExpiringStore K V) {j k : K} (h : j ≠ k) (clock t : Int) :
    pexpireAt s clock k t j = s j := by
  unfold pexpireAt
  cases lookup s clock k with
  | none => rfl
  | some e => exact put_of_ne s h _

@[simp] theorem del_self (s : ExpiringStore K V) (k : K) : del s k k = none := if_pos rfl

theorem del_of_ne (s : ExpiringStore K V) {j k : K} (h : j ≠ k) : del s k j = s j := if_neg h

theorem pexpire_of_ne (s : ExpiringStore K V) {j k : K} (h : j ≠ k) (clock ttl : Int) :
    pexpire s clock k ttl j = s j := by
  unfold pexpire
  split
  · exact pexpireAt_of_ne s h clock _
  · exact del_of_ne s h

/-- `PEXPIRE` brings no key back. -/
theorem pexpire_of_absent {s : ExpiringStore K V} {clock : Int} {k : K}
    (h : lookup s clock k = none)
    {ttl : Int} (httl : 0 < ttl) : pexpire s clock k ttl = s := by
  unfold pexpire pexpireAt
  rw [if_pos httl, h]

theorem pexpire_self {s : ExpiringStore K V} {clock : Int} {k : K} {e : Entry V}
    (h : lookup s clock k = some e) {ttl : Int} (httl : 0 < ttl) :
    pexpire s clock k ttl k = some { e with expiresAt := some (clock + ttl) } := by
  unfold pexpire pexpireAt
  rw [if_pos httl, h]
  exact put_self s k _

/-- The entry left by `INCR k` is the reading, or `0`, plus one, and it is present at once. -/
theorem incr_self (s : ExpiringStore K Int) (clock : Int) (k : K) :
    ∃ e, incr s clock k k = some e ∧ e.value = (get s clock k).getD 0 + 1 ∧
      e.alive clock = true := by
  unfold incr get
  cases h : lookup s clock k with
  | none => exact ⟨_, put_self s k _, rfl, rfl⟩
  | some e =>
      have halive : e.alive clock = true := (Option.filter_eq_some_iff.1 h).2
      exact ⟨_, put_self s k _, rfl, halive⟩

/-- `INCR k` followed by `PEXPIREAT k t` leaves the reading plus one, expiring at `t`. -/
theorem pexpireAt_incr_self (s : ExpiringStore K Int) (clock : Int) (k : K) (t : Int) :
    pexpireAt (incr s clock k) clock k t k = some ⟨(get s clock k).getD 0 + 1, some t⟩ := by
  obtain ⟨e, he, hv, ha⟩ := incr_self s clock k
  have hl : lookup (incr s clock k) clock k = some e := by
    rw [lookup, he, Option.filter_eq_some_iff]
    exact ⟨rfl, ha⟩
  unfold pexpireAt
  rw [hl]
  simp only [put_self, hv]

end Writes

/-! ## Agreeing on some keys -/

/-- The two stores have the same entries under the keys with `p`. -/
def AgreeOn (p : K → Prop) (s t : ExpiringStore K V) : Prop := ∀ k, p k → s k = t k

namespace AgreeOn

variable {p : K → Prop} {s t : ExpiringStore K V}

theorem get (h : AgreeOn p s t) {k : K} (hk : p k) (clock : Int) :
    ExpiringStore.get s clock k = ExpiringStore.get t clock k :=
  get_congr (h k hk) clock

theorem has (h : AgreeOn p s t) {k : K} (hk : p k) (clock : Int) :
    ExpiringStore.has s clock k = ExpiringStore.has t clock k := by
  rw [has_eq_isSome_get, has_eq_isSome_get, h.get hk]

/-- A write that leaves the keys with `p` alone. -/
theorem trans_of_frame (h : AgreeOn p s t) {s' : ExpiringStore K V}
    (hframe : ∀ k, p k → s' k = s k) :
    AgreeOn p s' t := fun k hk => (hframe k hk).trans (h k hk)

variable [DecidableEq K]

theorem put (h : AgreeOn p s t) (k : K) (e : Entry V) :
    AgreeOn p (ExpiringStore.put s k e) (ExpiringStore.put t k e) := by
  intro j hj
  by_cases hsame : j = k
  · rw [hsame, put_self, put_self]
  · rw [put_of_ne s hsame, put_of_ne t hsame, h j hj]

theorem setPx (h : AgreeOn p s t) (clock : Int) (k : K) (v : V) (ttl : Int) :
    AgreeOn p (ExpiringStore.setPx s clock k v ttl) (ExpiringStore.setPx t clock k v ttl) :=
  h.put k _

theorem setIfAbsent (h : AgreeOn p s t) {k : K} (hk : p k) (clock : Int) (v : V) (ttl : Int) :
    AgreeOn p (ExpiringStore.setIfAbsent s clock k v ttl)
      (ExpiringStore.setIfAbsent t clock k v ttl) := by
  unfold ExpiringStore.setIfAbsent
  rw [h.has hk]
  split
  · exact h
  · exact h.setPx clock k v ttl

theorem incr {s t : ExpiringStore K Int} (h : AgreeOn p s t) {k : K} (hk : p k) (clock : Int) :
    AgreeOn p (ExpiringStore.incr s clock k) (ExpiringStore.incr t clock k) := by
  unfold ExpiringStore.incr lookup
  rw [h k hk]
  split
  · exact h.put k _
  · exact h.put k _

theorem pexpireAt (h : AgreeOn p s t) {k : K} (hk : p k) (clock at' : Int) :
    AgreeOn p (ExpiringStore.pexpireAt s clock k at') (ExpiringStore.pexpireAt t clock k at') := by
  unfold ExpiringStore.pexpireAt lookup
  rw [h k hk]
  split
  · exact h
  · exact h.put k _

end AgreeOn

end ExpiringStore

end Foundation
