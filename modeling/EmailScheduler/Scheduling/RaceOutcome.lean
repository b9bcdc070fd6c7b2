import EmailScheduler.Scheduling.DuplicateRace
import Mathlib.Algebra.GroupWithZero.Nat

/-!
# The outcome of a race

The `catch` block replays the batch of the winner for a call whose insertion of the batch fails with
`P2002`. But the transaction updates the sender first, and a call whose snapshot is older than the
commit of the winner fails there, with `P2034`, which is not caught: a loser is replayed if and only
if its snapshot was not taken before that commit (`losersReplayed_iff`).
-/

set_option autoImplicit false

namespace EmailScheduler

open Foundation

/-- The operations that a call has left at most. -/
def CreationCall.work (c : CreationCall) : Nat :=
  match c.stage with
  | .checking => c.chunkList.length + 6
  | .beginning => c.chunkList.length + 5
  | .updatingSender => c.chunkList.length + 4
  | .creatingBatch => c.chunkList.length + 3
  | .insertingEmails n => c.chunkList.length - n + 2
  | .committing => 1
  | .rereading _ => 1
  | .returned _ => 0
  | .threw _ => 0
  | .crashed => 0

theorem sum_map_set_lt {α : Type} {f : α → Nat} {l : List α} {n : Nat} {a b : α}
    (ha : l[n]? = some a) (h : f b < f a) : ((l.set n b).map f).sum < (l.map f).sum := by
  induction l generalizing n with
  | nil => cases ha
  | cons x l ih =>
      cases n with
      | zero =>
          obtain rfl := Option.some.inj ha
          simpa using h
      | succ n =>
          have htail := ih (n := n) ha
          simpa using htail

namespace Creation

variable {base : Database} {s t : Creation} {i j : Nat} {c d : CreationCall}
  {event : CreationEvent} {stage : CreationStage}

/-! ## Every call ends -/

section Race

variable {userId : Uuid} {idempotencyKey : String} {senderId : Uuid}

theorem inserted_of_holdsSender (h : c.stage.holdsSender = false) :
    c.insertedBatches = [] ∧ c.insertedEmails = [] := by
  have hbatch : c.stage.hasBatch = false := by
    cases hstage : c.stage <;> rw [hstage] at h <;> first | rfl | cases h
  exact ⟨CreationCall.insertedBatches_of_hasBatch hbatch,
    CreationCall.insertedEmails_of_hasBatch hbatch⟩

/-- The call that holds the sender waits for no other call. -/
theorem advance_of_holdsSender (hlock : LockInv s)
    (hrace : RaceInv base userId idempotencyKey senderId s) (hc : s.calls[i]? = some c)
    (hholds : c.stage.holdsSender = true) : ∃ t, s.advance i c = some t := by
  -- The lock on the sender keeps the others from inserting, so there is nothing to wait for.
  have hnone : ∀ d ∈ s.others i, d.insertedBatches = [] ∧ d.insertedEmails = [] := by
    intro d hd
    obtain ⟨j, hj, hget⟩ := List.mem_eraseIdx_iff_getElem?.1 hd
    exact inserted_of_holdsSender (free_of_holdsSender hlock hrace hc hholds hget hj)
  have hbatches : (s.others i).flatMap CreationCall.insertedBatches = [] :=
    List.flatMap_eq_nil_iff.2 fun d hd => (hnone d hd).1
  have hemails : (s.others i).flatMap CreationCall.insertedEmails = [] :=
    List.flatMap_eq_nil_iff.2 fun d hd => (hnone d hd).2
  unfold advance
  cases hstage : c.stage with
  | creatingBatch =>
      dsimp only
      have hwaits : s.batchWaits i c = false := by
        rw [batchWaits, hbatches]
        rfl
      rw [hwaits, if_neg Bool.false_ne_true]
      cases insertBatch s.database c.batch with
      | ok db => exact ⟨_, rfl⟩
      | error e => exact ⟨_, rfl⟩
  | insertingEmails n =>
      dsimp only
      cases c.chunkList[n]? with
      | none => exact ⟨_, rfl⟩
      | some chunk =>
          have hwaits : s.emailsWait i chunk = false := by
            rw [emailsWait, hemails]
            exact List.any_eq_false.2 fun row _ => Bool.false_ne_true
          dsimp only
          rw [hwaits, if_neg Bool.false_ne_true]
          cases createMany { s.database with
            emails := s.database.emails ++ c.insertedEmails } chunk with
          | ok db => exact ⟨_, rfl⟩
          | error e => exact ⟨_, rfl⟩
  | committing => exact ⟨_, rfl⟩
  | checking => rw [hstage] at hholds; cases hholds
  | beginning => rw [hstage] at hholds; cases hholds
  | updatingSender => rw [hstage] at hholds; cases hholds
  | rereading error => rw [hstage] at hholds; cases hholds
  | returned r => rw [hstage] at hholds; cases hholds
  | threw error => rw [hstage] at hholds; cases hholds
  | crashed => rw [hstage] at hholds; cases hholds

theorem step_advance (hc : s.calls[i]? = some c) (h : s.advance i c = some t) :
    step (.advance i) s = some t :=
  Option.bind_eq_some_iff.2 ⟨c, hc, h⟩

/-- **No deadlock.** While a call of a race runs, some call can go on: it, or the one that holds the
sender it waits for. -/
theorem exists_advance (hlock : LockInv s) (hrace : RaceInv base userId idempotencyKey senderId s)
    (hc : s.calls[i]? = some c) (hrunning : c.stage.isRunning = true) :
    ∃ j t, step (.advance j) s = some t := by
  cases hstage : c.stage with
  | updatingSender =>
      cases hwritten : s.senderWrittenSince c with
      | true =>
          refine ⟨i, s.setCall i (c.moveTo (afterTransactionError writeConflict)),
            step_advance hc ?_⟩
          rw [advance, hstage]
          dsimp only
          rw [hwritten, if_pos rfl]
      | false =>
          cases hheld : s.senderHeld i c with
          | true =>
              -- The call waits for the lock, and the call that has it can go on.
              obtain ⟨d, hd, hholds⟩ := List.any_eq_true.1 hheld
              obtain ⟨j, -, hget⟩ := List.mem_eraseIdx_iff_getElem?.1 hd
              obtain ⟨t, ht⟩ :=
                advance_of_holdsSender hlock hrace hget (Bool.and_eq_true_iff.1 hholds).1
              exact ⟨j, t, step_advance hget ht⟩
          | false =>
              refine ⟨i, s.setCall i (c.moveTo .creatingBatch), step_advance hc ?_⟩
              rw [advance, hstage]
              dsimp only
              rw [hwritten, if_neg Bool.false_ne_true, hheld, if_neg Bool.false_ne_true]
  | creatingBatch =>
      obtain ⟨t, ht⟩ := advance_of_holdsSender hlock hrace hc (by rw [hstage]; rfl)
      exact ⟨i, t, step_advance hc ht⟩
  | insertingEmails n =>
      obtain ⟨t, ht⟩ := advance_of_holdsSender hlock hrace hc (by rw [hstage]; rfl)
      exact ⟨i, t, step_advance hc ht⟩
  | committing =>
      obtain ⟨t, ht⟩ := advance_of_holdsSender hlock hrace hc (by rw [hstage]; rfl)
      exact ⟨i, t, step_advance hc ht⟩
  | checking => exact ⟨i, _, step_advance hc (by rw [advance, hstage])⟩
  | beginning => exact ⟨i, _, step_advance hc (by rw [advance, hstage])⟩
  | rereading error => exact ⟨i, _, step_advance hc (by rw [advance, hstage])⟩
  | returned r => rw [hstage] at hrunning; cases hrunning
  | threw error => rw [hstage] at hrunning; cases hrunning
  | crashed => rw [hstage] at hrunning; cases hrunning

end Race

/-- The operations that the calls have left at most. -/
def work (s : Creation) : Nat := (s.calls.map CreationCall.work).sum

theorem work_afterTransactionError_le (c : CreationCall) (error : CreateBatchError) :
    (c.moveTo (afterTransactionError error)).work ≤ 1 := by
  unfold afterTransactionError
  split_ifs
  · exact Nat.le_refl 1
  · exact Nat.zero_le 1

theorem Move.work_lt (h : Move s i c (.advance i) stage) : (c.moveTo stage).work < c.work := by
  have herror := work_afterTransactionError_le c
  cases h with
  | checked hstage =>
      -- The call begins a transaction, or it ends.
      have hwork : c.work = c.chunkList.length + 6 := by rw [CreationCall.work, hstage]
      rw [hwork]
      cases findExistingBatch s.database c.input.userId c.input.idempotencyKey with
      | some existing => exact Nat.succ_pos _
      | none =>
          unfold afterCheck
          split_ifs
          · exact Nat.succ_pos _
          · exact Nat.lt_succ_self (c.chunkList.length + 5)
  | conflicted hstage _ =>
      have hwork : c.work = c.chunkList.length + 4 := by rw [CreationCall.work, hstage]
      have hle := herror writeConflict
      omega
  | locked hstage _ _ =>
      have hwork : c.work = c.chunkList.length + 4 := by rw [CreationCall.work, hstage]
      rw [hwork]
      exact Nat.lt_succ_self (c.chunkList.length + 3)
  | @batchRefused e hstage _ =>
      have hwork : c.work = c.chunkList.length + 3 := by rw [CreationCall.work, hstage]
      have hle := herror e
      omega
  | batchInserted hstage _ _ =>
      have hwork : c.work = c.chunkList.length + 3 := by rw [CreationCall.work, hstage]
      rw [hwork]
      exact Nat.lt_succ_self (c.chunkList.length + 2)
  | @chunksDone n hstage _ =>
      have hwork : c.work = c.chunkList.length - n + 2 := by rw [CreationCall.work, hstage]
      rw [hwork]
      exact Nat.le_add_left 2 (c.chunkList.length - n)
  | @chunkRefused n chunk e hstage _ _ =>
      have hwork : c.work = c.chunkList.length - n + 2 := by rw [CreationCall.work, hstage]
      have hle := herror e
      omega
  | @chunkInserted n chunk db hstage hchunk _ _ =>
      -- One chunk fewer is left.
      have hwork : c.work = c.chunkList.length - n + 2 := by rw [CreationCall.work, hstage]
      have hlt : n < c.chunkList.length := (List.getElem?_eq_some_iff.1 hchunk).1
      show c.chunkList.length - (n + 1) + 2 < c.work
      omega
  | reread hstage =>
      have hwork : c.work = 1 := by rw [CreationCall.work, hstage]
      rw [hwork]
      cases findExistingBatch s.database c.input.userId c.input.idempotencyKey with
      | some racedBatch => exact Nat.zero_lt_one
      | none => exact Nat.zero_lt_one

/-- **Termination.** An operation of a call leaves less to do. -/
theorem work_lt_of_advance (h : step (.advance i) s = some t) : t.work < s.work := by
  generalize hevent : CreationEvent.advance i = event at h
  cases stepCase_of_step h with
  | call input batchId newId => cases hevent
  | @moved _ j c stage hc hmove =>
      subst hevent
      obtain rfl : i = j := by cases hmove <;> rfl
      exact sum_map_set_lt hc hmove.work_lt
  | @began j c hc hstage =>
      refine sum_map_set_lt hc ?_
      have hwork : c.work = c.chunkList.length + 5 := by rw [CreationCall.work, hstage]
      rw [hwork]
      cases findActiveSender s.database c.input.senderId c.input.userId with
      | some sender => exact Nat.lt_succ_self (c.chunkList.length + 4)
      | none => exact Nat.succ_pos _
  | @committed j c hc hstage =>
      refine sum_map_set_lt hc ?_
      have hwork : c.work = 1 := by rw [CreationCall.work, hstage]
      rw [hwork]
      exact Nat.zero_lt_one

/-! ## Who is replayed -/

/-- The transaction of a call took its snapshot before the call at a position committed. -/
def SnapshotBefore (s : Creation) (i : Nat) (c : CreationCall) : Prop :=
  ∃ p n, s.commits[p]? = some i ∧ c.snapshot = some n ∧ n ≤ p

/-- Every other call that has ended, returned the batch of the call at a position, as a replay. -/
def LosersReplayed (s : Creation) (i : Nat) (batch : EmailBatch) : Prop :=
  ∀ j c, s.calls[j]? = some c → j ≠ i → c.stage.isRunning = false →
    c.stage = .returned ⟨batch, true⟩

section Race

variable {userId : Uuid} {idempotencyKey : String} {senderId : Uuid} {w : CreationCall}

/-- There is at most one commit in a race. -/
theorem commits_eq_singleton (h : RaceState base userId idempotencyKey senderId s)
    (hi : i ∈ s.commits) : s.commits = [i] := by
  have hall : (s.commits.filter fun j =>
      s.calls[j]?.any fun c => c.carries userId idempotencyKey) = s.commits := by
    rw [List.filter_eq_self]
    intro j hj
    obtain ⟨d, hd, -⟩ := (h.commits.committed j).1 hj
    have hracer := h.race.racers d (List.mem_of_getElem? hd)
    rw [hd]
    exact carries_iff.2 ⟨hracer.userId, hracer.idempotencyKey⟩
  have hone := length_commits_le_one h.tables h.commits userId idempotencyKey
  rw [hall] at hone
  match hcommits : s.commits, hone, hi with
  | [j], _, hi => rw [List.mem_singleton.1 hi]

/-- Where a call committed, the batch was not there before the race. -/
theorem not_known_of_commit (h : RaceState base userId idempotencyKey senderId s)
    (hi : i ∈ s.commits) : ¬ HasBatch base userId idempotencyKey := by
  rintro ⟨b, hb, huser, hkey⟩
  obtain ⟨d, hd, -⟩ := (h.commits.committed i).1 hi
  have hracer := h.race.racers d (List.mem_of_getElem? hd)
  have hcompatible := compatible_of_tableRows h.tables.batches
  rw [batches_of_serial h.commits.serial] at hcompatible
  have hmem : d.batch ∈ s.commits.filterMap fun j => s.calls[j]?.map CreationCall.batch := by
    refine List.mem_filterMap.2 ⟨i, hi, ?_⟩
    rw [hd]
    rfl
  have hfits := (List.pairwise_append.1 hcompatible).2.2 b hb d.batch hmem
  rw [hracer.batchConflict huser hkey] at hfits
  cases hfits

/-- A loser that ended is replayed if and only if its snapshot was not taken before the commit of
the winner. -/
theorem replayed_iff (h : RaceState base userId idempotencyKey senderId s) (hi : i ∈ s.commits)
    (hw : s.calls[i]? = some w) (hc : s.calls[j]? = some c) (hj : j ≠ i)
    (hended : c.stage.isRunning = false) :
    c.stage = .returned ⟨w.batch, true⟩ ↔ ¬ SnapshotBefore s i c := by
  have hcommits := commits_eq_singleton h hi
  have hexpected := h.race.expected c (List.mem_of_getElem? hc)
  unfold Expected at hexpected
  constructor
  · rintro hstage ⟨p, n, hp, hn, hle⟩
    rw [hstage] at hexpected
    have hpos : 1 ≤ n := (hexpected rfl).resolve_left (not_known_of_commit h hi) n hn
    -- The only commit is the first one.
    rw [hcommits] at hp
    have hzero : p < 1 := (List.getElem?_eq_some_iff.1 hp).1
    omega
  · intro hafter
    cases hstage : c.stage with
    | returned r =>
        obtain ⟨w', hw', hwstage⟩ := (h.commits.committed i).1 hi
        obtain rfl := Option.some.inj (hw.symm.trans hw')
        have hracer := h.race.racers c (List.mem_of_getElem? hc)
        have hwracer := h.race.racers w (List.mem_of_getElem? hw)
        obtain ⟨hstored, huser, hkey⟩ := h.commits.stored c (List.mem_of_getElem? hc) r hstage
        obtain ⟨hwstored, hwuser, hwkey⟩ := h.commits.stored w (List.mem_of_getElem? hw) _ hwstage
        -- One batch is stored for the user and the key.
        have hconflict : batchConflict r.batch w.batch = true := by
          refine Bool.or_eq_true_iff.2 (Or.inr (Bool.and_eq_true_iff.2 ⟨?_, ?_⟩))
          · exact decide_eq_true
              ((huser.trans hracer.userId).trans (hwuser.trans hwracer.userId).symm)
          · exact decide_eq_true
              ((hkey.trans hracer.idempotencyKey).trans (hwkey.trans hwracer.idempotencyKey).symm)
        have hsame : r.batch = w.batch :=
          (compatible_of_tableRows h.tables.batches).eq_of_conflict batchConflict_comm hstored
            hwstored hconflict
        obtain ⟨batch, replayed⟩ := r
        obtain rfl : batch = w.batch := hsame
        cases replayed with
        | true => rfl
        | false =>
            have hmem := (writer_iff h.commits hc).2 ⟨_, hstage⟩
            rw [hcommits, List.mem_singleton] at hmem
            exact absurd hmem hj
    | threw error =>
        rw [hstage] at hexpected
        obtain ⟨n, hn, hlt⟩ := hexpected
        rw [hcommits] at hlt
        refine absurd ⟨0, n, ?_, hn, Nat.le_of_lt_succ hlt⟩ hafter
        rw [hcommits]
        rfl
    | crashed =>
        rw [hstage] at hexpected
        exact hexpected.elim
    | checking => rw [hstage] at hended; cases hended
    | beginning => rw [hstage] at hended; cases hended
    | updatingSender => rw [hstage] at hended; cases hended
    | creatingBatch => rw [hstage] at hended; cases hended
    | insertingEmails n => rw [hstage] at hended; cases hended
    | committing => rw [hstage] at hended; cases hended
    | rereading error => rw [hstage] at hended; cases hended

/-- **The outcome of a race.** In every state reached after a commit, the losers that ended are
replayed if and only if none of them took its snapshot before that commit. While a call runs, some
call can go on, and no call goes on forever, so every loser ends. -/
theorem losersReplayed_iff {s₀ : Creation} (h₀ : system.init s₀) (hmade : RowsMade s₀.database)
    (hsender : (findActiveSender s₀.database senderId userId).isSome = true)
    (h : system.Steps (Duplicates userId idempotencyKey senderId) s₀ s) (hi : i ∈ s.commits)
    (hw : s.calls[i]? = some w) :
    (LosersReplayed s i w.batch ↔ ∀ j c, s.calls[j]? = some c → j ≠ i →
        c.stage.isRunning = false → ¬ SnapshotBefore s i c) ∧
      ((∃ c ∈ s.calls, c.stage.isRunning = true) → ∃ j t, step (.advance j) s = some t) ∧
      ∀ j t, step (.advance j) s = some t → t.work < s.work := by
  have hstate := raceState_of_steps h₀ hmade hsender h
  refine ⟨?_, ?_, ?_⟩
  · constructor
    · intro hreplayed j c hc hj hended
      exact (replayed_iff hstate hi hw hc hj hended).1 (hreplayed j c hc hj hended)
    · intro hafter j c hc hj hended
      exact (replayed_iff hstate hi hw hc hj hended).2 (hafter j c hc hj hended)
  · rintro ⟨c, hc, hrunning⟩
    obtain ⟨j, hj⟩ := List.mem_iff_getElem?.1 hc
    exact exists_advance hstate.lock hstate.race hj hrunning
  · intro j t ht
    exact work_lt_of_advance ht

end Race

/-- Two requests check before either is stored, and the second one opens its transaction after the
commit of the first. -/
def lateRace : List CreationEvent :=
  [.call (duplicateRequest 1) 10 (fun i => 100 + i),
    .call (duplicateRequest 1) 20 (fun i => 200 + i),
    .advance 0, .advance 1, .advance 0, .advance 0, .advance 0, .advance 0, .advance 0, .advance 0,
    .advance 1, .advance 1, .advance 1, .advance 1]

/-- The same requests, with both transactions open before the commit. -/
def earlyRace : List CreationEvent :=
  [.call (duplicateRequest 1) 10 (fun i => 100 + i),
    .call (duplicateRequest 1) 20 (fun i => 200 + i),
    .advance 0, .advance 1, .advance 0, .advance 1, .advance 0, .advance 0, .advance 0, .advance 0,
    .advance 0, .advance 1]

/-- In the late race the second request finds the key taken, and is replayed. -/
theorem stages_of_lateRace : ∃ (s : Creation) (w : CreationCall),
    system.run (Duplicates 1 "request" 1) lateRace twoSenders = some s ∧ s.commits = [0] ∧
      s.calls[0]? = some w ∧ s.calls.map (fun c => c.stage) =
        [.returned ⟨createdBatch (duplicateRequest 1) 10, false⟩,
          .returned ⟨createdBatch (duplicateRequest 1) 10, true⟩] :=
  ⟨_, _, rfl, rfl, rfl, by decide⟩

theorem losersReplayed_after_lateRace : ∃ (s : Creation) (w : CreationCall),
    system.run (Duplicates 1 "request" 1) lateRace twoSenders = some s ∧
      (LosersReplayed s 0 w.batch ↔ ∀ j c, s.calls[j]? = some c → j ≠ 0 →
        c.stage.isRunning = false → ¬ SnapshotBefore s 0 c) := by
  obtain ⟨s, w, hrun, hcommits, hw, -⟩ := stages_of_lateRace
  refine ⟨s, w, hrun, (losersReplayed_iff (show system.init twoSenders from
      ⟨⟨List.Pairwise.nil, List.Pairwise.nil, by simp [twoSenders]⟩, rfl, rfl⟩)
    (by simp [RowsMade, twoSenders]) rfl (TransitionSystem.steps_of_run lateRace hrun) ?_ hw).1⟩
  rw [hcommits]
  exact List.mem_singleton_self 0

/-- In the early race the sender was written since its snapshot, and the second request throws. -/
theorem not_losersReplayed_after_earlyRace : ∃ (s : Creation) (w : CreationCall),
    system.run (Duplicates 1 "request" 1) earlyRace twoSenders = some s ∧ s.commits = [0] ∧
      s.calls[0]? = some w ∧
      s.calls.map (fun c => c.stage) =
        [.returned ⟨createdBatch (duplicateRequest 1) 10, false⟩, .threw writeConflict] ∧
      ¬ LosersReplayed s 0 w.batch := by
  refine ⟨_, _, rfl, rfl, rfl, by decide, ?_⟩
  intro hreplayed
  cases hreplayed 1 _ rfl (by decide) rfl

end Creation

end EmailScheduler
