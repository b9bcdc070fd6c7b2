import Mathlib.Data.List.Nodup
import EmailScheduler.Foundation.Table

/-!
# A job queue with ids

Jobs are added under an id chosen by the caller; adding an id that the queue knows in any state does
nothing. A live job waits, is delayed or is run by a worker. Settling an active job completes it,
delays it, puts it back for another attempt or gives it up. A job that its worker has lost is put
back as it is, and how often that happened is counted. Finished jobs are kept, the newest first, up
to a retention count, and only an id that has dropped out of the lists can be added again.
-/

set_option autoImplicit false

namespace Foundation

universe u v w

/-- A job: how often it may be tried, how often it has been, and how often a worker has lost it. -/
structure QueuedJob (ι : Type u) (δ : Type v) where
  id : ι
  data : δ
  attempts : Nat
  attemptsMade : Nat
  stalledCount : Nat
deriving DecidableEq

/-- Where a job that will still run stands. -/
inductive LiveState (W : Type w) where
  | waiting
  | delayed
  | active (worker : W)
deriving DecidableEq

structure JobQueue (ι : Type u) (δ : Type v) (W : Type w) where
  live : List (QueuedJob ι δ × LiveState W)
  completed : List (QueuedJob ι δ)
  failed : List (QueuedJob ι δ)

/-- What becomes of an active job. -/
inductive Verdict where
  | completed
  | delayed
  | retried
  | failed
deriving DecidableEq

variable {ι : Type u} {δ : Type v} {W : Type w}

/-- A job whose worker threw is tried again while attempts remain. -/
def Verdict.afterThrow (attemptsMade attempts : Nat) : Verdict :=
  if attemptsMade + 1 < attempts then .retried else .failed

theorem Verdict.afterThrow_eq_retried_iff {attemptsMade attempts : Nat} :
    afterThrow attemptsMade attempts = .retried ↔ attemptsMade + 1 < attempts := by
  unfold afterThrow
  split <;> simp_all

theorem Verdict.afterThrow_ne_delayed (attemptsMade attempts : Nat) :
    afterThrow attemptsMade attempts ≠ .delayed := by
  unfold afterThrow
  split
  · exact Verdict.noConfusion
  · exact Verdict.noConfusion

def QueuedJob.afterThrow (job : QueuedJob ι δ) : Verdict :=
  .afterThrow job.attemptsMade job.attempts

namespace JobQueue

/-- A queue without jobs. -/
def empty : JobQueue ι δ W := ⟨[], [], []⟩

/-- All jobs that the queue knows. -/
def jobs (q : JobQueue ι δ W) : List (QueuedJob ι δ) :=
  q.live.map Prod.fst ++ q.completed ++ q.failed

section Operations

variable [DecidableEq ι] (q : JobQueue ι δ W)

/-- Add a job, unless its id is known. -/
def add (job : QueuedJob ι δ) (delayed : Bool) : JobQueue ι δ W :=
  if q.jobs.any fun other => decide (other.id = job.id) then q
  else { q with live := q.live ++ [(job, if delayed then .delayed else .waiting)] }

/-- Add jobs one after the other. -/
def addAll (new : List (QueuedJob ι δ × Bool)) : JobQueue ι δ W :=
  new.foldl (fun q job => q.add job.1 job.2) q

/-- The live job with an id. -/
def find? (id : ι) : Option (QueuedJob ι δ × LiveState W) :=
  q.live.find? fun x => decide (x.1.id = id)

/-- Move a live job to another state. -/
def move (id : ι) (state : LiveState W) : JobQueue ι δ W :=
  { q with live := updateMany (fun x => decide (x.1.id = id)) (fun x => (x.1, state)) q.live }

/-- Put a live job back for another attempt. -/
def retry (id : ι) : JobQueue ι δ W :=
  { q with
    live := updateMany (fun x => decide (x.1.id = id))
      (fun x => ({ x.1 with attemptsMade := x.1.attemptsMade + 1 }, .delayed)) q.live }

/-- Put a live job back that its worker has lost. -/
def putBack (id : ι) : JobQueue ι δ W :=
  { q with
    live := updateMany (fun x => decide (x.1.id = id))
      (fun x => ({ x.1 with stalledCount := x.1.stalledCount + 1 }, .waiting)) q.live }

/-- The live jobs without the one with an id. -/
def liveWithout (id : ι) : List (QueuedJob ι δ × LiveState W) :=
  q.live.filter fun x => decide (x.1.id ≠ id)

/-- Settle a live job. -/
def settle (retention : Nat) (job : QueuedJob ι δ) : Verdict → JobQueue ι δ W
  | .completed =>
      { q with live := q.liveWithout job.id, completed := (job :: q.completed).take retention }
  | .failed => { q with live := q.liveWithout job.id, failed := (job :: q.failed).take retention }
  | .delayed => q.move job.id .delayed
  | .retried => q.retry job.id

end Operations

/-! ## Ids -/

/-- No id occurs twice, in whatever state. -/
def UniqueIds (q : JobQueue ι δ W) : Prop := PrimaryKey QueuedJob.id q.jobs

theorem uniqueIds_empty : UniqueIds (empty : JobQueue ι δ W) := List.nodup_nil

theorem mem_jobs {q : JobQueue ι δ W} {job : QueuedJob ι δ} :
    job ∈ q.jobs ↔ (∃ state, (job, state) ∈ q.live) ∨ job ∈ q.completed ∨ job ∈ q.failed := by
  simp only [jobs, List.mem_append, List.mem_map, Prod.exists, exists_and_right, exists_eq_right,
    or_assoc]

/-- Live jobs are found by their ids, and there is one for an id. -/
theorem UniqueIds.live_eq {q : JobQueue ι δ W} (h : q.UniqueIds)
    {x y : QueuedJob ι δ × LiveState W} (hx : x ∈ q.live) (hy : y ∈ q.live)
    (hid : x.1.id = y.1.id) : x = y := by
  have hlive : PrimaryKey (fun x : QueuedJob ι δ × LiveState W => x.1.id) q.live := by
    unfold UniqueIds PrimaryKey jobs at h
    rw [List.map_append, List.map_append, List.map_map, List.append_assoc] at h
    exact h.of_append_left
  exact hlive.eq_of_key_eq hx hy hid

/-- A live id is not the id of a finished job. -/
theorem UniqueIds.not_finished {q : JobQueue ι δ W} (h : q.UniqueIds)
    {x : QueuedJob ι δ × LiveState W} (hx : x ∈ q.live) {job : QueuedJob ι δ}
    (hjob : job ∈ q.completed ∨ job ∈ q.failed) : job.id ≠ x.1.id := by
  intro hid
  unfold UniqueIds PrimaryKey jobs at h
  rw [List.append_assoc, List.map_append, List.nodup_append] at h
  have hlive : x.1.id ∈ (q.live.map Prod.fst).map QueuedJob.id :=
    List.mem_map_of_mem (List.mem_map_of_mem hx)
  have hdone : job.id ∈ (q.completed ++ q.failed).map QueuedJob.id :=
    List.mem_map_of_mem (List.mem_append.2 hjob)
  exact h.2.2 _ hlive _ hdone hid.symm

section Steps

variable [DecidableEq ι] {q : JobQueue ι δ W} {job : QueuedJob ι δ} {id : ι}

theorem mem_of_find? {x : QueuedJob ι δ × LiveState W} (h : q.find? id = some x) :
    x ∈ q.live ∧ x.1.id = id := by
  refine ⟨List.mem_of_find?_eq_some h, ?_⟩
  have hid := List.find?_some h
  exact of_decide_eq_true hid

/-- A live job is found by its id. -/
theorem UniqueIds.find?_eq (h : q.UniqueIds) {x : QueuedJob ι δ × LiveState W} (hx : x ∈ q.live) :
    q.find? x.1.id = some x := by
  cases hfind : q.find? x.1.id with
  | none =>
      have hnone := List.find?_eq_none.1 hfind x hx
      exact absurd (decide_eq_true rfl) hnone
  | some y =>
      obtain ⟨hy, hid⟩ := mem_of_find? hfind
      rw [h.live_eq hy hx hid]

/-- Adding a job adds a live job or changes nothing. -/
theorem add_cases (q : JobQueue ι δ W) (job : QueuedJob ι δ) (delayed : Bool) :
    ((∃ other ∈ q.jobs, other.id = job.id) ∧ q.add job delayed = q) ∨
      ((∀ other ∈ q.jobs, other.id ≠ job.id) ∧ q.add job delayed =
        { q with live := q.live ++ [(job, if delayed then .delayed else .waiting)] }) := by
  unfold add
  split
  next hknown =>
    rw [List.any_eq_true] at hknown
    obtain ⟨other, hother, hid⟩ := hknown
    exact Or.inl ⟨⟨other, hother, of_decide_eq_true hid⟩, rfl⟩
  next hnew =>
    refine Or.inr ⟨?_, rfl⟩
    intro other hother hid
    apply hnew
    rw [List.any_eq_true]
    exact ⟨other, hother, decide_eq_true hid⟩

theorem add_completed (q : JobQueue ι δ W) (job : QueuedJob ι δ) (delayed : Bool) :
    (q.add job delayed).completed = q.completed := by
  rcases add_cases q job delayed with ⟨-, heq⟩ | ⟨-, heq⟩ <;> rw [heq]

theorem add_failed (q : JobQueue ι δ W) (job : QueuedJob ι δ) (delayed : Bool) :
    (q.add job delayed).failed = q.failed := by
  rcases add_cases q job delayed with ⟨-, heq⟩ | ⟨-, heq⟩ <;> rw [heq]

theorem uniqueIds_add (h : q.UniqueIds) (job : QueuedJob ι δ) (delayed : Bool) :
    (q.add job delayed).UniqueIds := by
  rcases add_cases q job delayed with ⟨-, heq⟩ | ⟨hnew, heq⟩
  · rw [heq]
    exact h
  · rw [heq]
    -- The new job stands behind the live jobs; moving it to the end does not change the ids.
    have hperm : (jobs { q with
        live := q.live ++ [(job, if delayed then .delayed else .waiting)] }).Perm
          (q.jobs ++ [job]) := by
      simp only [jobs, List.map_append, List.map_cons, List.map_nil, List.append_assoc]
      apply List.Perm.append_left
      exact List.perm_append_comm.trans (.of_eq (List.append_assoc _ _ _))
    apply (hperm.map QueuedJob.id).nodup_iff.2
    apply PrimaryKey.append h (show PrimaryKey QueuedJob.id [job] from List.nodup_singleton _)
    intro other hother new hnew' hid
    rw [List.mem_singleton.1 hnew'] at hid
    exact hnew other hother hid

/-- After adding, the id is known. -/
theorem exists_add (q : JobQueue ι δ W) (job : QueuedJob ι δ) (delayed : Bool) :
    ∃ other ∈ (q.add job delayed).jobs, other.id = job.id := by
  rcases add_cases q job delayed with ⟨hknown, heq⟩ | ⟨-, heq⟩
  · rw [heq]
    exact hknown
  · rw [heq]
    refine ⟨job, mem_jobs.2 (Or.inl ⟨if delayed then .delayed else .waiting, ?_⟩), rfl⟩
    exact List.mem_append_right _ (List.mem_singleton_self _)

/-- A live job is an old one or the one added, which is not active. -/
theorem mem_live_add {delayed : Bool} {x : QueuedJob ι δ × LiveState W}
    (h : x ∈ (q.add job delayed).live) :
    x ∈ q.live ∨ x.1 = job ∧ ∀ worker, x.2 ≠ .active worker := by
  rcases add_cases q job delayed with ⟨-, heq⟩ | ⟨-, heq⟩
  · rw [heq] at h
    exact Or.inl h
  · rw [heq, List.mem_append, List.mem_singleton] at h
    rcases h with hold | rfl
    · exact Or.inl hold
    · refine Or.inr ⟨rfl, ?_⟩
      intro worker
      cases delayed <;> simp

theorem mem_live_add_of_mem {x : QueuedJob ι δ × LiveState W} (h : x ∈ q.live)
    (job : QueuedJob ι δ) (delayed : Bool) : x ∈ (q.add job delayed).live := by
  rcases add_cases q job delayed with ⟨-, heq⟩ | ⟨-, heq⟩
  · rw [heq]
    exact h
  · rw [heq]
    exact List.mem_append_left _ h

/-! ## Adding many jobs -/

/-- What every single addition preserves is preserved by adding many. -/
theorem addAll_induction {I : JobQueue ι δ W → Prop} (new : List (QueuedJob ι δ × Bool))
    (h : I q) (hadd : ∀ q, ∀ x ∈ new, I q → I (q.add x.1 x.2)) : I (q.addAll new) := by
  induction new generalizing q with
  | nil => exact h
  | cons x new ih =>
      apply ih
      · exact hadd q x List.mem_cons_self h
      · intro q y hy
        exact hadd q y (List.mem_cons_of_mem _ hy)

theorem addAll_completed (q : JobQueue ι δ W) (new : List (QueuedJob ι δ × Bool)) :
    (q.addAll new).completed = q.completed :=
  addAll_induction (I := fun q' => q'.completed = q.completed) new rfl
    fun q' x _ h => (add_completed q' x.1 x.2).trans h

theorem addAll_failed (q : JobQueue ι δ W) (new : List (QueuedJob ι δ × Bool)) :
    (q.addAll new).failed = q.failed :=
  addAll_induction (I := fun q' => q'.failed = q.failed) new rfl
    fun q' x _ h => (add_failed q' x.1 x.2).trans h

/-- Ids that are known stay known when jobs are added. -/
theorem exists_addAll_of_exists (new : List (QueuedJob ι δ × Bool))
    (h : ∃ other ∈ q.jobs, other.id = id) : ∃ other ∈ (q.addAll new).jobs, other.id = id := by
  apply addAll_induction (I := fun q => ∃ other ∈ q.jobs, other.id = id) new h
  intro q x _ hknown
  obtain ⟨other, hother, hid⟩ := hknown
  refine ⟨other, ?_, hid⟩
  rw [mem_jobs] at hother ⊢
  rw [add_completed, add_failed]
  apply hother.imp_left
  intro hlive
  obtain ⟨state, hstate⟩ := hlive
  exact ⟨state, mem_live_add_of_mem hstate x.1 x.2⟩

/-- **Added ids are known.** -/
theorem exists_addAll (q : JobQueue ι δ W) {new : List (QueuedJob ι δ × Bool)}
    {x : QueuedJob ι δ × Bool} (hx : x ∈ new) :
    ∃ other ∈ (q.addAll new).jobs, other.id = x.1.id := by
  induction new generalizing q with
  | nil => cases hx
  | cons y new ih =>
      rcases List.mem_cons.1 hx with rfl | hx
      · exact exists_addAll_of_exists new (exists_add q x.1 x.2)
      · exact ih (q.add y.1 y.2) hx

/-- A job that the queue knows after adding was known before, or was added. -/
theorem mem_jobs_addAll {new : List (QueuedJob ι δ × Bool)} {known : QueuedJob ι δ}
    (h : known ∈ (q.addAll new).jobs) : known ∈ q.jobs ∨ ∃ x ∈ new, x.1 = known := by
  revert h
  apply addAll_induction (I := fun q' => known ∈ q'.jobs → known ∈ q.jobs ∨ ∃ x ∈ new, x.1 = known)
  · exact Or.inl
  · intro q' x hx ih h
    rw [mem_jobs, add_completed, add_failed] at h
    rcases h with ⟨state, hlive⟩ | hdone
    · rcases mem_live_add hlive with hold | ⟨rfl, -⟩
      · exact ih (mem_jobs.2 (Or.inl ⟨state, hold⟩))
      · exact Or.inr ⟨x, hx, rfl⟩
    · exact ih (mem_jobs.2 (Or.inr hdone))

theorem mem_live_addAll_of_mem {x : QueuedJob ι δ × LiveState W} (h : x ∈ q.live)
    (new : List (QueuedJob ι δ × Bool)) : x ∈ (q.addAll new).live :=
  addAll_induction (I := fun q' => x ∈ q'.live) new h fun _ y _ hx => mem_live_add_of_mem hx y.1 y.2

/-- A live job after adding was live before; or it was added under an id that was not known, and is
not active. -/
theorem mem_live_addAll {new : List (QueuedJob ι δ × Bool)} {x : QueuedJob ι δ × LiveState W}
    (h : x ∈ (q.addAll new).live) :
    x ∈ q.live ∨ (∃ y ∈ new, y.1 = x.1) ∧ (∀ worker, x.2 ≠ .active worker) ∧
      ∀ known ∈ q.jobs, known.id ≠ x.1.id := by
  revert h
  refine (addAll_induction (I := fun q' => (∀ known ∈ q.jobs, known ∈ q'.jobs) ∧
    (x ∈ q'.live → x ∈ q.live ∨ (∃ y ∈ new, y.1 = x.1) ∧ (∀ worker, x.2 ≠ .active worker) ∧
      ∀ known ∈ q.jobs, known.id ≠ x.1.id)) new ⟨fun _ h => h, Or.inl⟩ ?_).2
  rintro q' y hy ⟨hjobs, ih⟩
  rcases add_cases q' y.1 y.2 with ⟨-, heq⟩ | ⟨hnew, heq⟩
  · rw [heq]
    exact ⟨hjobs, ih⟩
  · rw [heq]
    constructor
    · intro known hknown
      have hmem := mem_jobs.1 (hjobs known hknown)
      refine mem_jobs.2 (hmem.imp_left ?_)
      rintro ⟨state, hstate⟩
      exact ⟨state, List.mem_append_left _ hstate⟩
    · intro hx
      rcases List.mem_append.1 hx with hold | hlast
      · exact ih hold
      · obtain rfl := List.mem_singleton.1 hlast
        refine Or.inr ⟨⟨y, hy, rfl⟩, ?_, fun known hknown => hnew known (hjobs known hknown)⟩
        intro worker
        cases y.2 <;> simp

/-- Adding jobs starts none and stops none. -/
theorem active_addAll_iff {new : List (QueuedJob ι δ × Bool)} {worker : W} :
    (job, .active worker) ∈ (q.addAll new).live ↔ (job, .active worker) ∈ q.live := by
  apply addAll_induction (I := fun q' =>
    (job, .active worker) ∈ q'.live ↔ (job, .active worker) ∈ q.live) new Iff.rfl
  intro q' x _ ih
  rw [← ih]
  constructor
  · intro hlive
    rcases mem_live_add hlive with hold | ⟨-, hne⟩
    · exact hold
    · exact absurd rfl (hne worker)
  · intro hlive
    exact mem_live_add_of_mem hlive x.1 x.2

theorem uniqueIds_addAll (h : q.UniqueIds) (new : List (QueuedJob ι δ × Bool)) :
    (q.addAll new).UniqueIds :=
  addAll_induction new h fun _ x _ h => uniqueIds_add h x.1 x.2

/-! ## Moving and settling -/

omit [DecidableEq ι] in
/-- An update of live jobs that keeps ids keeps them unique. -/
theorem uniqueIds_updateMany (h : q.UniqueIds) (p : QueuedJob ι δ × LiveState W → Bool)
    (f : QueuedJob ι δ × LiveState W → QueuedJob ι δ × LiveState W)
    (hf : ∀ x, (f x).1.id = x.1.id) :
    UniqueIds { q with live := updateMany p f q.live } := by
  have hids := map_updateMany (p := p) (fun x : QueuedJob ι δ × LiveState W => x.1.id) hf q.live
  unfold UniqueIds PrimaryKey jobs at h ⊢
  rw [List.map_append, List.map_append, List.map_map] at h ⊢
  exact hids ▸ h

omit [DecidableEq ι] in
/-- An update of live jobs that keeps ids and data keeps them for all jobs. -/
theorem exists_of_mem_jobs_updateMany {p : QueuedJob ι δ × LiveState W → Bool}
    {f : QueuedJob ι δ × LiveState W → QueuedJob ι δ × LiveState W}
    (hf : ∀ x, (f x).1.id = x.1.id ∧ (f x).1.data = x.1.data) {known : QueuedJob ι δ}
    (h : known ∈ jobs { q with live := updateMany p f q.live }) :
    ∃ old ∈ q.jobs, old.id = known.id ∧ old.data = known.data := by
  rcases mem_jobs.1 h with ⟨state, hlive⟩ | hdone
  · obtain ⟨y, hy, heq⟩ := mem_updateMany.1 hlive
    refine ⟨y.1, mem_jobs.2 (Or.inl ⟨y.2, hy⟩), ?_⟩
    split at heq
    next =>
      obtain ⟨hid, hdata⟩ := hf y
      rw [heq] at hid hdata
      exact ⟨hid.symm, hdata.symm⟩
    next =>
      rw [heq]
      exact ⟨rfl, rfl⟩
  · exact ⟨known, mem_jobs.2 (Or.inr hdone), rfl, rfl⟩

/-- A live job after an update of the one with an id: the updated one, or another one as it was. -/
theorem mem_live_updateMany {f : QueuedJob ι δ × LiveState W → QueuedJob ι δ × LiveState W}
    {x : QueuedJob ι δ × LiveState W}
    (h : x ∈ updateMany (fun x => decide (x.1.id = id)) f q.live) :
    (∃ y ∈ q.live, y.1.id = id ∧ x = f y) ∨ x ∈ q.live ∧ x.1.id ≠ id := by
  obtain ⟨y, hy, heq⟩ := mem_updateMany.1 h
  split at heq
  next hid => exact Or.inl ⟨y, hy, of_decide_eq_true hid, heq.symm⟩
  next hid =>
    subst heq
    exact Or.inr ⟨hy, fun hid' => hid (decide_eq_true hid')⟩

/-- The job with the id is live as it was updated. -/
theorem mem_live_updateMany_self (f : QueuedJob ι δ × LiveState W → QueuedJob ι δ × LiveState W)
    {x : QueuedJob ι δ × LiveState W} (hx : x ∈ q.live) :
    f x ∈ updateMany (fun y => decide (y.1.id = x.1.id)) f q.live :=
  mem_updateMany.2 ⟨x, hx, if_pos (decide_eq_true rfl)⟩

/-- The other live jobs are not touched. -/
theorem mem_live_updateMany_of_ne (f : QueuedJob ι δ × LiveState W → QueuedJob ι δ × LiveState W)
    {x : QueuedJob ι δ × LiveState W} (hx : x ∈ q.live) (hne : x.1.id ≠ id) :
    x ∈ updateMany (fun x => decide (x.1.id = id)) f q.live :=
  mem_updateMany.2 ⟨x, hx, if_neg (by simp [hne])⟩

theorem mem_live_updateMany_iff_of_ne
    {f : QueuedJob ι δ × LiveState W → QueuedJob ι δ × LiveState W} (hf : ∀ x, (f x).1.id = x.1.id)
    {x : QueuedJob ι δ × LiveState W} (hne : x.1.id ≠ id) :
    x ∈ updateMany (fun x => decide (x.1.id = id)) f q.live ↔ x ∈ q.live := by
  refine ⟨fun h => ?_, fun h => mem_live_updateMany_of_ne f h hne⟩
  rcases mem_live_updateMany h with ⟨y, -, hid, rfl⟩ | ⟨hold, -⟩
  · exact absurd ((hf y).trans hid) hne
  · exact hold

omit [DecidableEq ι] in
/-- A live job stays live, with its data, in an update that keeps the data. -/
theorem exists_mem_live_updateMany {p : QueuedJob ι δ × LiveState W → Bool}
    {f : QueuedJob ι δ × LiveState W → QueuedJob ι δ × LiveState W}
    (hf : ∀ x, (f x).1.data = x.1.data) {x : QueuedJob ι δ × LiveState W} (h : x ∈ q.live) :
    ∃ y ∈ updateMany p f q.live, y.1.data = x.1.data := by
  refine ⟨_, mem_updateMany.2 ⟨x, h, rfl⟩, ?_⟩
  split
  · exact hf x
  · rfl

theorem uniqueIds_move (h : q.UniqueIds) (id : ι) (state : LiveState W) :
    (q.move id state).UniqueIds :=
  uniqueIds_updateMany h _ _ fun _ => rfl

theorem uniqueIds_putBack (h : q.UniqueIds) (id : ι) : (q.putBack id).UniqueIds :=
  uniqueIds_updateMany h _ _ fun _ => rfl

/-- A live job after a move: the moved one in its new state, or another one as it was. -/
theorem mem_live_move {state : LiveState W} {x : QueuedJob ι δ × LiveState W}
    (h : x ∈ (q.move id state).live) :
    (∃ y ∈ q.live, y.1.id = id ∧ x = (y.1, state)) ∨ x ∈ q.live ∧ x.1.id ≠ id :=
  mem_live_updateMany h

/-- The job that is moved is live in its new state. -/
theorem mem_live_move_self {state : LiveState W} (h : (job, state) ∈ q.live)
    (state' : LiveState W) :
    (job, state') ∈ (q.move job.id state').live :=
  mem_live_updateMany_self (fun x => (x.1, state')) h

/-- A move keeps ids and data. -/
theorem exists_of_mem_jobs_move {state : LiveState W} {known : QueuedJob ι δ}
    (h : known ∈ (q.move id state).jobs) :
    ∃ old ∈ q.jobs, old.id = known.id ∧ old.data = known.data :=
  exists_of_mem_jobs_updateMany (f := fun x => (x.1, state)) (fun _ => ⟨rfl, rfl⟩) h

/-- A move does not touch the other live jobs. -/
theorem mem_live_move_of_ne {state : LiveState W} {x : QueuedJob ι δ × LiveState W}
    (hx : x ∈ q.live) (hne : x.1.id ≠ id) : x ∈ (q.move id state).live :=
  mem_live_updateMany_of_ne _ hx hne

theorem mem_live_move_iff_of_ne {state : LiveState W} {x : QueuedJob ι δ × LiveState W}
    (hne : x.1.id ≠ id) : x ∈ (q.move id state).live ↔ x ∈ q.live :=
  mem_live_updateMany_iff_of_ne (f := fun x => (x.1, state)) (fun _ => rfl) hne

theorem exists_mem_live_move {x : QueuedJob ι δ × LiveState W} (h : x ∈ q.live) (id : ι)
    (state : LiveState W) : ∃ y ∈ (q.move id state).live, y.1.data = x.1.data :=
  exists_mem_live_updateMany (f := fun x => (x.1, state)) (fun _ => rfl) h

theorem mem_live_retry {x : QueuedJob ι δ × LiveState W} (h : x ∈ (q.retry id).live) :
    (∃ y ∈ q.live, y.1.id = id ∧
        x = ({ y.1 with attemptsMade := y.1.attemptsMade + 1 }, .delayed)) ∨
      x ∈ q.live ∧ x.1.id ≠ id :=
  mem_live_updateMany h

theorem exists_mem_live_retry {x : QueuedJob ι δ × LiveState W} (h : x ∈ q.live) (id : ι) :
    ∃ y ∈ (q.retry id).live, y.1.data = x.1.data :=
  exists_mem_live_updateMany
    (f := fun x => ({ x.1 with attemptsMade := x.1.attemptsMade + 1 }, .delayed)) (fun _ => rfl) h

theorem exists_of_mem_jobs_putBack {known : QueuedJob ι δ} (h : known ∈ (q.putBack id).jobs) :
    ∃ old ∈ q.jobs, old.id = known.id ∧ old.data = known.data :=
  exists_of_mem_jobs_updateMany
    (f := fun x => ({ x.1 with stalledCount := x.1.stalledCount + 1 }, .waiting))
    (fun _ => ⟨rfl, rfl⟩) h

theorem mem_live_putBack {x : QueuedJob ι δ × LiveState W} (h : x ∈ (q.putBack id).live) :
    (∃ y ∈ q.live, y.1.id = id ∧
        x = ({ y.1 with stalledCount := y.1.stalledCount + 1 }, .waiting)) ∨
      x ∈ q.live ∧ x.1.id ≠ id :=
  mem_live_updateMany h

/-- The job that is put back waits. -/
theorem mem_live_putBack_self {state : LiveState W} (h : (job, state) ∈ q.live) :
    ({ job with stalledCount := job.stalledCount + 1 }, .waiting) ∈ (q.putBack job.id).live :=
  mem_live_updateMany_self
    (fun x => ({ x.1 with stalledCount := x.1.stalledCount + 1 }, .waiting)) h

theorem mem_live_putBack_iff_of_ne {x : QueuedJob ι δ × LiveState W} (hne : x.1.id ≠ id) :
    x ∈ (q.putBack id).live ↔ x ∈ q.live :=
  mem_live_updateMany_iff_of_ne
    (f := fun x => ({ x.1 with stalledCount := x.1.stalledCount + 1 }, .waiting)) (fun _ => rfl) hne

theorem exists_mem_live_putBack {x : QueuedJob ι δ × LiveState W} (h : x ∈ q.live) (id : ι) :
    ∃ y ∈ (q.putBack id).live, y.1.data = x.1.data :=
  exists_mem_live_updateMany
    (f := fun x => ({ x.1 with stalledCount := x.1.stalledCount + 1 }, .waiting)) (fun _ => rfl) h

theorem mem_liveWithout {x : QueuedJob ι δ × LiveState W} :
    x ∈ q.liveWithout id ↔ x ∈ q.live ∧ x.1.id ≠ id := by
  simp only [liveWithout, List.mem_filter, decide_eq_true_eq]

/-- Removing a live job and keeping it among finished jobs, some of which may be dropped, keeps ids
unique. -/
theorem uniqueIds_finish (h : q.UniqueIds) {state : LiveState W} (hjob : (job, state) ∈ q.live)
    {completed failed : List (QueuedJob ι δ)}
    (hsub : (completed ++ failed).Sublist (job :: (q.completed ++ q.failed)) ∨
      (completed ++ failed).Sublist (q.completed ++ job :: q.failed)) :
    UniqueIds (⟨q.liveWithout job.id, completed, failed⟩ : JobQueue ι δ W) := by
  have hlive : ((q.liveWithout job.id).map Prod.fst).Sublist (q.live.map Prod.fst) :=
    List.filter_sublist.map _
  have hwithout : ∀ other ∈ (q.liveWithout job.id).map Prod.fst, other.id ≠ job.id := by
    intro other hother
    obtain ⟨x, hx, rfl⟩ := List.mem_map.1 hother
    exact (mem_liveWithout.1 hx).2
  unfold UniqueIds PrimaryKey jobs at h ⊢
  rw [List.append_assoc, List.map_append, List.nodup_append] at h ⊢
  obtain ⟨hliveIds, hdoneIds, hdisjoint⟩ := h
  -- The job was live, so its id is new among the finished jobs.
  have hjobLive : job.id ∈ (q.live.map Prod.fst).map QueuedJob.id :=
    List.mem_map_of_mem (List.mem_map_of_mem (f := Prod.fst) hjob)
  have hjobNew : job.id ∉ (q.completed ++ q.failed).map QueuedJob.id :=
    fun hmem => hdisjoint _ hjobLive _ hmem rfl
  have hdone : ((completed ++ failed).map QueuedJob.id).Nodup ∧
      ∀ done ∈ completed ++ failed, done = job ∨ done ∈ q.completed ++ q.failed := by
    rcases hsub with hsub | hsub
    · refine ⟨?_, fun done hmem => List.mem_cons.1 (hsub.subset hmem)⟩
      exact (List.nodup_cons.2 ⟨hjobNew, hdoneIds⟩ :
        ((job :: (q.completed ++ q.failed)).map QueuedJob.id).Nodup).sublist (hsub.map _)
    · have hperm : (q.completed ++ job :: q.failed).Perm (job :: (q.completed ++ q.failed)) :=
        List.perm_middle
      refine ⟨?_, fun done hmem => List.mem_cons.1 (hperm.mem_iff.1 (hsub.subset hmem))⟩
      exact ((hperm.map QueuedJob.id).nodup_iff.2
        (List.nodup_cons.2 ⟨hjobNew, hdoneIds⟩)).sublist (hsub.map _)
  refine ⟨hliveIds.sublist (hlive.map _), hdone.1, ?_⟩
  intro a ha b hb hab
  obtain ⟨other, hother, rfl⟩ := List.mem_map.1 ha
  obtain ⟨done, hmem, rfl⟩ := List.mem_map.1 hb
  rcases hdone.2 done hmem with rfl | hold
  · exact hwithout other hother hab
  · exact hdisjoint _ (List.mem_map_of_mem (hlive.subset hother)) _ (List.mem_map_of_mem hold) hab

theorem uniqueIds_settle (h : q.UniqueIds) {state : LiveState W} (hjob : (job, state) ∈ q.live)
    (retention : Nat) (verdict : Verdict) : (q.settle retention job verdict).UniqueIds := by
  cases verdict with
  | completed =>
      apply uniqueIds_finish h hjob
      left
      exact (List.take_sublist _ _).append (List.Sublist.refl _)
  | failed =>
      apply uniqueIds_finish h hjob
      right
      exact (List.Sublist.refl _).append (List.take_sublist _ _)
  | delayed => exact uniqueIds_move h _ _
  | retried => exact uniqueIds_updateMany h _ _ fun _ => rfl

/-- A job that is finished after settling was finished before, or was settled for good. -/
theorem mem_finished_settle {retention : Nat} {verdict : Verdict} {done : QueuedJob ι δ}
    (h : done ∈ (q.settle retention job verdict).completed ∨
      done ∈ (q.settle retention job verdict).failed) :
    (done ∈ q.completed ∨ done ∈ q.failed) ∨
      done = job ∧ (verdict = .completed ∨ verdict = .failed) := by
  cases verdict with
  | completed =>
      rcases h with h | h
      · rcases List.mem_cons.1 (List.mem_of_mem_take h) with rfl | hold
        · exact Or.inr ⟨rfl, Or.inl rfl⟩
        · exact Or.inl (Or.inl hold)
      · exact Or.inl (Or.inr h)
  | failed =>
      rcases h with h | h
      · exact Or.inl (Or.inl h)
      · rcases List.mem_cons.1 (List.mem_of_mem_take h) with rfl | hold
        · exact Or.inr ⟨rfl, Or.inr rfl⟩
        · exact Or.inl (Or.inr hold)
  | delayed => exact Or.inl h
  | retried => exact Or.inl h

/-- A live job after settling another or the same one: it was live, and is not active if it was
settled itself. -/
theorem mem_live_settle {retention : Nat} {verdict : Verdict} {x : QueuedJob ι δ × LiveState W}
    (h : x ∈ (q.settle retention job verdict).live) :
    (x ∈ q.live ∧ x.1.id ≠ job.id) ∨
      ∃ y ∈ q.live, y.1.id = job.id ∧ x.2 = .delayed ∧ x.1.id = y.1.id ∧ x.1.data = y.1.data ∧
        x.1.attempts = y.1.attempts := by
  cases verdict with
  | completed => exact Or.inl (mem_liveWithout.1 h)
  | failed => exact Or.inl (mem_liveWithout.1 h)
  | delayed =>
      rcases mem_live_move h with ⟨y, hy, hid, rfl⟩ | hold
      · exact Or.inr ⟨y, hy, hid, rfl, rfl, rfl, rfl⟩
      · exact Or.inl hold
  | retried =>
      rcases mem_live_retry h with ⟨y, hy, hid, rfl⟩ | hold
      · exact Or.inr ⟨y, hy, hid, rfl, rfl, rfl, rfl⟩
      · exact Or.inl hold

/-- Every job after settling was there before, with the same id and data. -/
theorem exists_of_mem_jobs_settle {retention : Nat} {verdict : Verdict} {state : LiveState W}
    (hjob : (job, state) ∈ q.live) {known : QueuedJob ι δ}
    (h : known ∈ (q.settle retention job verdict).jobs) :
    ∃ old ∈ q.jobs, old.id = known.id ∧ old.data = known.data := by
  rw [mem_jobs] at h
  rcases h with ⟨state', hlive⟩ | hdone
  · rcases mem_live_settle hlive with ⟨hold, -⟩ | ⟨y, hy, -, -, hid, hdata, -⟩
    · exact ⟨known, mem_jobs.2 (Or.inl ⟨state', hold⟩), rfl, rfl⟩
    · exact ⟨y.1, mem_jobs.2 (Or.inl ⟨y.2, hy⟩), hid.symm, hdata.symm⟩
  · rcases mem_finished_settle hdone with hold | ⟨rfl, -⟩
    · exact ⟨known, mem_jobs.2 (Or.inr hold), rfl, rfl⟩
    · exact ⟨known, mem_jobs.2 (Or.inl ⟨state, hjob⟩), rfl, rfl⟩

/-- Settling one job keeps the others live. -/
theorem mem_live_settle_of_ne {retention : Nat} {verdict : Verdict}
    {x : QueuedJob ι δ × LiveState W} (hx : x ∈ q.live) (hne : x.1.id ≠ job.id) :
    x ∈ (q.settle retention job verdict).live := by
  cases verdict with
  | completed => exact mem_liveWithout.2 ⟨hx, hne⟩
  | failed => exact mem_liveWithout.2 ⟨hx, hne⟩
  | delayed => exact mem_live_updateMany_of_ne _ hx hne
  | retried => exact mem_live_updateMany_of_ne _ hx hne

end Steps

end JobQueue

end Foundation
