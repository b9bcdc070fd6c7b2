import EmailScheduler.Scheduling.Statements
import EmailScheduler.Foundation.Transition
import EmailScheduler.Foundation.UniqueIndex

/-!
# Concurrent calls of `createEmailBatch`

Calls of `createEmailBatch` over one database, interleaved statement by statement. The transaction
runs at Serializable isolation. Its statements can meet those of other calls as follows:

* the snapshot is taken by the first statement, the query of the sender;
* `emailSender.update` fails with `P2034` if a transaction that committed after the snapshot wrote
  the sender, and waits while an open transaction holds it;
* an insertion fails with `P2002` if a unique index finds a committed row, which the snapshot need
  not show, and waits for the end of an open transaction that inserted such a row;
* a transaction that fails leaves nothing behind.

A statement that waits has no step. Any operation may also fail for another reason, and a process
may die.
-/

set_option autoImplicit false

namespace EmailScheduler

open Foundation

structure CreatedBatchResult where
  batch : EmailBatch
  replayed : Bool
deriving DecidableEq, Repr

/-- Where a call is. `insertingEmails` counts the chunks that are inserted. -/
inductive CreationStage where
  | checking
  | beginning
  | updatingSender
  | creatingBatch
  | insertingEmails (inserted : Nat)
  | committing
  | rereading (error : CreateBatchError)
  | returned (result : CreatedBatchResult)
  | threw (error : CreateBatchError)
  | crashed
deriving DecidableEq, Repr

namespace CreationStage

/-- The call has not ended. -/
def isRunning : CreationStage → Bool
  | .returned _ | .threw _ | .crashed => false
  | _ => true

/-- The transaction is open and has updated the sender, so it holds the row. -/
def holdsSender : CreationStage → Bool
  | .creatingBatch | .insertingEmails _ | .committing => true
  | _ => false

end CreationStage

/-- A call: its input, the ids it will draw, the number of commits that the snapshot of its
transaction shows, and its stage. -/
structure CreationCall where
  input : CreateBatchInput
  batchId : Uuid
  newId : Nat → Uuid
  snapshot : Option Nat
  stage : CreationStage

namespace CreationCall

variable (c : CreationCall)

/-- `createdBatch` of the call. -/
def batch : EmailBatch := createdBatch c.input c.batchId

/-- `emailRows` of the call. -/
def rows : List ScheduledEmail := emailRows c.input c.batchId c.newId

/-- `chunks(emailRows, insertionChunkSize)`. -/
def chunkList : List (List ScheduledEmail) := chunks c.rows insertionChunkSize

/-- The call at another stage. -/
def moveTo (stage : CreationStage) : CreationCall := { c with stage := stage }

/-- The batches inserted by the open transaction of the call. -/
def insertedBatches : List EmailBatch :=
  match c.stage with
  | .insertingEmails _ | .committing => [c.batch]
  | _ => []

/-- The emails inserted by the open transaction of the call. -/
def insertedEmails : List ScheduledEmail :=
  match c.stage with
  | .insertingEmails n => (c.chunkList.take n).flatten
  | .committing => c.rows
  | _ => []

/-- What the transaction writes. -/
def write (db : Database) : Database :=
  { updateSenderPolicy db c.input.senderId c.input with
    batches := db.batches ++ [c.batch]
    emails := db.emails ++ c.rows }

end CreationCall

/-- The database, the calls, and the positions of those whose transaction committed, in order. -/
structure Creation where
  database : Database
  commits : List Nat
  calls : List CreationCall

/-- What happens in one step. -/
inductive CreationEvent where
  | call (input : CreateBatchInput) (batchId : Uuid) (newId : Nat → Uuid)
  | advance (i : Nat)
  | fail (i : Nat) (error : CreateBatchError)
  | crash (i : Nat)

/-! ## Continuations -/

/-- After the first `findExistingBatch`. -/
def afterCheck (input : CreateBatchInput) : Option EmailBatch → CreationStage
  | some existing => .returned ⟨existing, true⟩
  | none =>
      if input.parsedLeads.leads.length = 0 then .threw (noValidRecipients input) else .beginning

/-- The `catch` block, up to its query. -/
def afterTransactionError (error : CreateBatchError) : CreationStage :=
  if error = uniqueViolation then .rereading error else .threw error

/-- After `emailSender.findFirst`. -/
def afterSender : Option EmailSender → CreationStage
  | none => afterTransactionError senderNotFound
  | some _ => .updatingSender

/-- After the `findExistingBatch` of the `catch` block. -/
def afterReread (error : CreateBatchError) : Option EmailBatch → CreationStage
  | some racedBatch => .returned ⟨racedBatch, true⟩
  | none => .threw error

/-- After an operation that failed by itself: the queries outside the transaction are not
guarded. -/
def CreationStage.afterFailure (error : CreateBatchError) : CreationStage → CreationStage
  | .checking | .rereading _ => .threw error
  | _ => afterTransactionError error

/-! ## Steps -/

namespace Creation

variable (s : Creation)

/-- Replace a call. -/
def setCall (i : Nat) (c : CreationCall) : Creation := { s with calls := s.calls.set i c }

/-- The other calls. -/
def others (i : Nat) : List CreationCall := s.calls.eraseIdx i

/-- A transaction that committed after the snapshot of a call wrote the sender of the call. -/
def senderWrittenSince (c : CreationCall) : Bool :=
  c.snapshot.any fun n => (s.commits.drop n).any fun j =>
    s.calls[j]?.any fun d => decide (d.input.senderId = c.input.senderId)

/-- An open transaction of another call holds the sender of a call. -/
def senderHeld (i : Nat) (c : CreationCall) : Bool :=
  (s.others i).any fun d => d.stage.holdsSender && decide (d.input.senderId = c.input.senderId)

/-- A unique index finds a batch of another open transaction. -/
def batchWaits (i : Nat) (c : CreationCall) : Bool :=
  ((s.others i).flatMap CreationCall.insertedBatches).any (batchConflict c.batch)

/-- A unique index finds an email of another open transaction. -/
def emailsWait (i : Nat) (chunk : List ScheduledEmail) : Bool :=
  chunk.any fun row => ((s.others i).flatMap CreationCall.insertedEmails).any (emailConflict row)

/-- The commit of a call, which then returns its batch. A reply to `COMMIT` that is lost on the way,
so that the call throws although its rows are stored, is not modelled. -/
def commit (i : Nat) (c : CreationCall) : Creation where
  database := c.write s.database
  commits := s.commits ++ [i]
  calls := s.calls.set i (c.moveTo (.returned ⟨c.batch, false⟩))

/-- The next operation of a call. -/
def advance (i : Nat) (c : CreationCall) : Option Creation :=
  match c.stage with
  | .checking => some (s.setCall i (c.moveTo (afterCheck c.input
      (findExistingBatch s.database c.input.userId c.input.idempotencyKey))))
  | .beginning => some (s.setCall i { c with
      snapshot := some s.commits.length
      stage := afterSender (findActiveSender s.database c.input.senderId c.input.userId) })
  | .updatingSender =>
      if s.senderWrittenSince c then
        some (s.setCall i (c.moveTo (afterTransactionError writeConflict)))
      else if s.senderHeld i c then none
      else some (s.setCall i (c.moveTo .creatingBatch))
  | .creatingBatch =>
      if s.batchWaits i c then none
      else
        match insertBatch s.database c.batch with
        | .error e => some (s.setCall i (c.moveTo (afterTransactionError e)))
        | .ok _ => some (s.setCall i (c.moveTo (.insertingEmails 0)))
  | .insertingEmails n =>
      match c.chunkList[n]? with
      | none => some (s.setCall i (c.moveTo .committing))
      | some chunk =>
          if s.emailsWait i chunk then none
          else
            match createMany { s.database with
                emails := s.database.emails ++ c.insertedEmails } chunk with
            | .error e => some (s.setCall i (c.moveTo (afterTransactionError e)))
            | .ok _ => some (s.setCall i (c.moveTo (.insertingEmails (n + 1))))
  | .committing => some (s.commit i c)
  | .rereading error => some (s.setCall i (c.moveTo (afterReread error
      (findExistingBatch s.database c.input.userId c.input.idempotencyKey))))
  | .returned _ => none
  | .threw _ => none
  | .crashed => none

/-- One step. -/
def step : CreationEvent → Creation → Option Creation
  | .call input batchId newId, s =>
      some { s with calls := s.calls ++ [⟨input, batchId, newId, none, .checking⟩] }
  | .advance i, s => s.calls[i]?.bind (s.advance i)
  | .fail i error, s => s.calls[i]?.bind fun c =>
      if c.stage.isRunning then some (s.setCall i (c.moveTo (c.stage.afterFailure error))) else none
  | .crash i, s => s.calls[i]?.bind fun c =>
      if c.stage.isRunning then some (s.setCall i (c.moveTo .crashed)) else none

/-- The constraints of the schema: unique indexes, and the batch of every email. -/
structure Constraints (db : Database) : Prop where
  batches : Compatible batchConflict db.batches
  emails : Compatible emailConflict db.emails
  batch_of_email : ∀ e ∈ db.emails, ∃ b ∈ db.batches, b.id = e.batchId

/-- Runs start with any database that satisfies its constraints, and without calls. -/
def system : TransitionSystem Creation CreationEvent where
  init s := Constraints s.database ∧ s.commits = [] ∧ s.calls = []
  step := step

/-! ## Inversion of a step -/

/-- A change of the stage of a call that writes nothing to the database, with the guards of its
operation. -/
inductive Move (s : Creation) (i : Nat) (c : CreationCall) :
    CreationEvent → CreationStage → Prop where
  | checked : c.stage = .checking → Move s i c (.advance i)
      (afterCheck c.input (findExistingBatch s.database c.input.userId c.input.idempotencyKey))
  | conflicted : c.stage = .updatingSender → s.senderWrittenSince c = true →
      Move s i c (.advance i) (afterTransactionError writeConflict)
  | locked : c.stage = .updatingSender → s.senderWrittenSince c = false →
      s.senderHeld i c = false → Move s i c (.advance i) .creatingBatch
  | batchRefused {e : CreateBatchError} : c.stage = .creatingBatch →
      insertBatch s.database c.batch = .error e →
      Move s i c (.advance i) (afterTransactionError e)
  | batchInserted {db : Database} : c.stage = .creatingBatch → s.batchWaits i c = false →
      insertBatch s.database c.batch = .ok db → Move s i c (.advance i) (.insertingEmails 0)
  | chunksDone {n : Nat} : c.stage = .insertingEmails n → c.chunkList[n]? = none →
      Move s i c (.advance i) .committing
  | chunkRefused {n : Nat} {chunk : List ScheduledEmail} {e : CreateBatchError} :
      c.stage = .insertingEmails n → c.chunkList[n]? = some chunk →
      createMany { s.database with emails := s.database.emails ++ c.insertedEmails } chunk =
        .error e →
      Move s i c (.advance i) (afterTransactionError e)
  | chunkInserted {n : Nat} {chunk : List ScheduledEmail} {db : Database} :
      c.stage = .insertingEmails n → c.chunkList[n]? = some chunk → s.emailsWait i chunk = false →
      createMany { s.database with emails := s.database.emails ++ c.insertedEmails } chunk =
        .ok db →
      Move s i c (.advance i) (.insertingEmails (n + 1))
  | reread {error : CreateBatchError} : c.stage = .rereading error → Move s i c (.advance i)
      (afterReread error
        (findExistingBatch s.database c.input.userId c.input.idempotencyKey))
  | failed (error : CreateBatchError) : c.stage.isRunning = true →
      Move s i c (.fail i error) (c.stage.afterFailure error)
  | crashed : c.stage.isRunning = true → Move s i c (.crash i) .crashed

/-- **What a step does.** A call starts, moves on without writing, opens its transaction, or
commits. -/
inductive StepCase (s : Creation) : CreationEvent → Creation → Prop where
  | call (input : CreateBatchInput) (batchId : Uuid) (newId : Nat → Uuid) :
      StepCase s (.call input batchId newId)
        { s with calls := s.calls ++ [⟨input, batchId, newId, none, .checking⟩] }
  | moved {event : CreationEvent} {i : Nat} {c : CreationCall} {stage : CreationStage} :
      s.calls[i]? = some c → Move s i c event stage →
      StepCase s event (s.setCall i (c.moveTo stage))
  | began {i : Nat} {c : CreationCall} : s.calls[i]? = some c → c.stage = .beginning →
      StepCase s (.advance i) (s.setCall i { c with
        snapshot := some s.commits.length
        stage := afterSender (findActiveSender s.database c.input.senderId c.input.userId) })
  | committed {i : Nat} {c : CreationCall} : s.calls[i]? = some c → c.stage = .committing →
      StepCase s (.advance i) (s.commit i c)

theorem stepCase_of_advance {s t : Creation} {i : Nat} {c : CreationCall}
    (hc : s.calls[i]? = some c) (h : s.advance i c = some t) : StepCase s (.advance i) t := by
  unfold advance at h
  -- The stages in their order; a call that waits for a lock or has ended takes no step.
  split at h
  next hstage =>
    cases h
    exact .moved hc (.checked hstage)
  next hstage =>
    cases h
    exact .began hc hstage
  next hstage =>
    split at h
    next hwritten =>
      cases h
      exact .moved hc (.conflicted hstage hwritten)
    next hwritten =>
      split at h
      next => cases h
      next hheld =>
        cases h
        exact .moved hc (.locked hstage (Bool.eq_false_iff.2 hwritten) (Bool.eq_false_iff.2 hheld))
  next hstage =>
    split at h
    next => cases h
    next hwaits =>
      split at h
      next e herror =>
        cases h
        exact .moved hc (.batchRefused hstage herror)
      next db hok =>
        cases h
        exact .moved hc (.batchInserted hstage (Bool.eq_false_iff.2 hwaits) hok)
  next n hstage =>
    split at h
    next hnone =>
      cases h
      exact .moved hc (.chunksDone hstage hnone)
    next chunk hsome =>
      split at h
      next => cases h
      next hwaits =>
        split at h
        next e herror =>
          cases h
          exact .moved hc (.chunkRefused hstage hsome herror)
        next db hok =>
          cases h
          exact .moved hc (.chunkInserted hstage hsome (Bool.eq_false_iff.2 hwaits) hok)
  next hstage =>
    cases h
    exact .committed hc hstage
  next error hstage =>
    cases h
    exact .moved hc (.reread hstage)
  next => cases h
  next => cases h
  next => cases h

theorem stepCase_of_step {s t : Creation} {event : CreationEvent} (h : step event s = some t) :
    StepCase s event t := by
  cases event with
  | call input batchId newId =>
      cases h
      exact .call input batchId newId
  | advance i =>
      obtain ⟨c, hc, hadvance⟩ := Option.bind_eq_some_iff.1 h
      exact stepCase_of_advance hc hadvance
  | fail i error =>
      obtain ⟨c, hc, hfail⟩ := Option.bind_eq_some_iff.1 h
      split at hfail
      next hrunning =>
        cases hfail
        exact .moved hc (.failed error hrunning)
      next => cases hfail
  | crash i =>
      obtain ⟨c, hc, hcrash⟩ := Option.bind_eq_some_iff.1 h
      split at hcrash
      next hrunning =>
        cases hcrash
        exact .moved hc (.crashed hrunning)
      next => cases hcrash

end Creation

end EmailScheduler
