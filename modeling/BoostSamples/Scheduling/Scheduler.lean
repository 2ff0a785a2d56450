import Mathlib.Data.List.Sort
import Mathlib.Logic.Function.Basic
import BoostSamples.Transition.System

/-!
# The task scheduler

The threads of a `Scheduler`: the watcher, which runs `Run`, the bodies that it
launches, and the callers of `Schedule`, `StopTask` and `Stop`. Each thread is at a
point of its code, and a step is one access to what the threads share: the mutex, a
status, the running flag, a promise, a future, the condition variable. What is done
to the task list under the mutex goes with the step it belongs to.

The delay of a task is over whenever its body is given its next step. A callback
may call the scheduler, and it ends once its calls have returned.
-/

namespace Scheduling

abbrev TaskPtr := Nat

/-- A body launched by `std::async`, by the number of its launch. -/
abbrev BodyPtr := Nat

abbrev CallPtr := Nat

inductive Status
  | queuedUp
  | pending
  | stopped
  deriving DecidableEq, Repr

/-- The promise of a task: whether its future has been retrieved, and its value. -/
structure Promise where
  retrieved : Bool := false
  value : Option Status := none
  deriving DecidableEq, Repr

/-- A task. Its future is that of the body it was launched with. -/
structure Task (τ : Type*) where
  type : τ
  repeat_ : Bool
  status : Status := .queuedUp
  promise : Promise := {}
  future : Option BodyPtr := none

inductive BodyPc
  | getFuture
  | waitFor
  | callback
  /-- The store after the callback. -/
  | storeDone
  /-- The store of the value of the promise. -/
  | storeReady
  | swap
  /-- The store of the handler. -/
  | storeFailed
  | notify
  | done
  deriving DecidableEq, Repr

structure Body where
  task : TaskPtr
  pc : BodyPc := .getFuture
  /-- The last call that its callback has made. -/
  call : Option CallPtr := none
  deriving DecidableEq, Repr

/-- How a callback ends: it returns, it throws a `std::exception`, which its body catches,
or it throws anything else, which leaves the body. -/
inductive Outcome
  | returned
  | threw
  | escaped
  deriving DecidableEq, Repr

def Outcome.pc : Outcome → BodyPc
  | .returned => .storeDone
  | .threw => .storeFailed
  | .escaped => .done

inductive Op (τ : Type*)
  | schedule (task : TaskPtr)
  | stopTask (type : τ)
  | stop
  deriving DecidableEq, Repr

/-- What follows when a task has been stopped: its entry is erased in `StopTask`, and
the loop goes on in `Stop`. -/
inductive After (τ : Type*)
  | erase (type : τ)
  | next (rest : List TaskPtr)
  deriving DecidableEq, Repr

/-- Where a call is. The part in which `StopTask` and `Stop` stop a task is the same
in both. -/
inductive CallPc (τ : Type*)
  | scheduleLock (task : TaskPtr)
  | scheduleEmplace (task : TaskPtr)
  | stopTaskLock (type : τ)
  | stopTaskFind (type : τ)
  | stopTaskErase (type : τ)
  | unlockNotify
  | notify
  | stopRead
  | stopStore
  | stopLock
  | stopLoop
  | stopClear
  | stopUnlock
  | stopNotify
  | stopJoin
  | statusRead (task : TaskPtr) (after : After τ)
  | statusStore (task : TaskPtr) (after : After τ)
  | setValue (task : TaskPtr) (after : After τ)
  | futureWait (task : TaskPtr) (after : After τ)
  /-- The mutex is released on the way out, by a `return` or by an exception. -/
  | unlockReturn (normal : Bool)
  | done (normal : Bool)
  deriving DecidableEq, Repr

/-- Where `Run` is: an index is that of its iterator, and `count` has counted the
tasks before it that are not pending. -/
inductive Watcher
  | loop
  | lock
  | scan (i : Nat)
  | futureWait (i : Nat) (task : TaskPtr)
  | store (i : Nat) (task : TaskPtr)
  | launch (i : Nat) (task : TaskPtr)
  | scanStopped (i : Nat) (task : TaskPtr)
  | test
  | count (i n : Nat)
  | wait
  | blocked
  | relock
  | unlock
  | done
  deriving DecidableEq, Repr

inductive Thread
  | watcher
  | caller (c : CallPtr)
  deriving DecidableEq, Repr

/-- The scheduler and its threads. The task list is ordered by the types. -/
structure Scheduler (τ : Type*) where
  mutex : Option Thread := none
  isRunning : Bool := true
  taskList : List (τ × TaskPtr) := []
  tasks : TaskPtr → Task τ
  watcher : Watcher := .loop
  bodies : List Body := []
  calls : List (Op τ × CallPc τ) := []

namespace Scheduler

variable {τ : Type*} [LinearOrder τ]

def modifyTask (s : Scheduler τ) (k : TaskPtr) (f : Task τ → Task τ) : Scheduler τ :=
  { s with tasks := Function.update s.tasks k (f (s.tasks k)) }

def setStatus (s : Scheduler τ) (k : TaskPtr) (status : Status) : Scheduler τ :=
  s.modifyTask k fun x => { x with status := status }

def setBody (s : Scheduler τ) (b : BodyPtr) (pc : BodyPc) : Scheduler τ :=
  { s with bodies := s.bodies.modify b fun x => { x with pc := pc } }

def setCall (s : Scheduler τ) (c : CallPtr) (pc : CallPc τ) : Scheduler τ :=
  { s with calls := s.calls.modify c fun x => (x.1, pc) }

def notifyAll (s : Scheduler τ) : Scheduler τ :=
  if s.watcher = .blocked then { s with watcher := .relock } else s

/-- The future of a task is not valid, or its body is done. -/
def ready (s : Scheduler τ) (k : TaskPtr) : Bool :=
  match (s.tasks k).future with
  | none => true
  | some b => s.bodies[b]?.map (·.pc) == some .done

/-- `emplace`; `none` if there is a task of that type. -/
def emplace (l : List (τ × TaskPtr)) (type : τ) (k : TaskPtr) : Option (List (τ × TaskPtr)) :=
  if l.any (·.1 = type) then none
  else some (l.orderedInsert (fun a b => a.1 ≤ b.1) (type, k))

/-- A step of `Run`. -/
def watcherStep (s : Scheduler τ) : Option (Scheduler τ) :=
  match s.watcher with
  | .loop => some { s with watcher := if s.isRunning then .lock else .done }
  | .lock =>
      if s.mutex = none then some { s with mutex := some .watcher, watcher := .scan 0 } else none
  | .scan i =>
      match s.taskList[i]? with
      | none => some { s with watcher := .test }
      | some (_, k) =>
          some { s with
            watcher :=
              if (s.tasks k).status = .queuedUp then .futureWait i k else .scanStopped i k }
  | .futureWait i k => if s.ready k then some { s with watcher := .store i k } else none
  | .store i k => some { s.setStatus k .pending with watcher := .launch i k }
  | .launch i k =>
      some { s.modifyTask k fun x => { x with future := some s.bodies.length } with
        bodies := s.bodies ++ [{ task := k }]
        watcher := .scan (i + 1) }
  | .scanStopped i k =>
      if (s.tasks k).status = .stopped then
        some { s with taskList := s.taskList.eraseIdx i, watcher := .scan i }
      else some { s with watcher := .scan (i + 1) }
  | .test => some { s with watcher := if s.isRunning then .count 0 0 else .unlock }
  | .count i n =>
      match s.taskList[i]? with
      | none => some { s with watcher := if n = 0 then .wait else .unlock }
      | some (_, k) =>
          some { s with
            watcher := .count (i + 1) (if (s.tasks k).status ≠ .pending then n + 1 else n) }
  | .wait => some { s with mutex := none, watcher := .blocked }
  | .blocked => none
  | .relock =>
      if s.mutex = none then some { s with mutex := some .watcher, watcher := .test } else none
  | .unlock => some { s with mutex := none, watcher := .loop }
  | .done => none

def returned (s : Scheduler τ) (call : Option CallPtr) : Bool :=
  match call with
  | none => true
  | some c =>
      match s.calls[c]? with
      | some (_, .done _) => true
      | _ => false

def bodyStep (s : Scheduler τ) (b : BodyPtr) (outcome : Outcome) : Option (Scheduler τ) :=
  match s.bodies[b]? with
  | none => none
  | some x =>
      let task := s.tasks x.task
      match x.pc with
      | .getFuture =>
          if task.promise.retrieved then some (s.setBody b .storeFailed)
          else
            some ((s.modifyTask x.task fun y =>
              { y with promise := { y.promise with retrieved := true } }).setBody b .waitFor)
      | .waitFor =>
          some (s.setBody b (if task.promise.value.isSome then .storeReady else .callback))
      | .callback =>
          if s.returned x.call then some (s.setBody b outcome.pc) else none
      | .storeDone =>
          some ((s.setStatus x.task (if task.repeat_ then .queuedUp else .stopped)).setBody b .swap)
      | .storeReady =>
          some ((s.setStatus x.task (task.promise.value.getD .stopped)).setBody b .swap)
      | .swap => some ((s.modifyTask x.task fun y => { y with promise := {} }).setBody b .notify)
      | .storeFailed => some ((s.setStatus x.task .stopped).setBody b .notify)
      | .notify => some (s.notifyAll.setBody b .done)
      | .done => none

end Scheduler

def Op.pc {τ : Type*} : Op τ → CallPc τ
  | .schedule task => .scheduleLock task
  | .stopTask type => .stopTaskLock type
  | .stop => .stopRead

def After.pc {τ : Type*} : After τ → CallPc τ
  | .erase type => .stopTaskErase type
  | .next [] => .stopClear
  | .next (k :: rest) => .statusRead k (.next rest)

namespace Scheduler

variable {τ : Type*} [LinearOrder τ]

def lock (s : Scheduler τ) (c : CallPtr) (pc : CallPc τ) : Option (Scheduler τ) :=
  if s.mutex = none then some { s.setCall c pc with mutex := some (.caller c) } else none

def unlock (s : Scheduler τ) (c : CallPtr) (pc : CallPc τ) : Scheduler τ :=
  { s.setCall c pc with mutex := none }

def callStep (s : Scheduler τ) (c : CallPtr) : Option (Scheduler τ) :=
  match s.calls[c]? with
  | none => none
  | some (_, pc) =>
      match pc with
      | .scheduleLock task => s.lock c (.scheduleEmplace task)
      | .scheduleEmplace task =>
          match emplace s.taskList (s.tasks task).type task with
          | none => some (s.setCall c (.unlockReturn false))
          | some l => some { s.setCall c .unlockNotify with taskList := l }
      | .stopTaskLock type => s.lock c (.stopTaskFind type)
      | .stopTaskFind type =>
          match s.taskList.find? (·.1 = type) with
          | none => some (s.setCall c (.unlockReturn true))
          | some (_, task) => some (s.setCall c (.statusRead task (.erase type)))
      | .stopTaskErase type =>
          some { s.setCall c .unlockNotify with taskList := s.taskList.eraseP (·.1 = type) }
      | .unlockNotify => some (s.unlock c .notify)
      | .notify => some (s.notifyAll.setCall c (.done true))
      | .stopRead => some (s.setCall c (if s.isRunning then .stopStore else .done true))
      | .stopStore => some { s.setCall c .stopLock with isRunning := false }
      | .stopLock => s.lock c .stopLoop
      | .stopLoop => some (s.setCall c (After.next (s.taskList.map (·.2))).pc)
      | .stopClear => some { s.setCall c .stopUnlock with taskList := [] }
      | .stopUnlock => some (s.unlock c .stopNotify)
      | .stopNotify => some (s.notifyAll.setCall c .stopJoin)
      | .stopJoin => if s.watcher = .done then some (s.setCall c (.done true)) else none
      | .statusRead task after =>
          some (s.setCall c
            (if (s.tasks task).status ≠ .pending then .statusStore task after
              else .setValue task after))
      | .statusStore task after => some ((s.setStatus task .stopped).setCall c after.pc)
      | .setValue task after =>
          if (s.tasks task).promise.value.isSome then some (s.setCall c (.unlockReturn false))
          else
            some ((s.modifyTask task fun y =>
              { y with promise := { y.promise with value := some .stopped } }).setCall c
                (.futureWait task after))
      | .futureWait task after => if s.ready task then some (s.setCall c after.pc) else none
      | .unlockReturn normal => some (s.unlock c (.done normal))
      | .done _ => none

def call (s : Scheduler τ) (op : Op τ) : Scheduler τ := { s with calls := s.calls ++ [(op, op.pc)] }

end Scheduler

/-- `wakeUp` is a wake-up without a notification. -/
inductive SchedulerEvent (τ : Type*)
  | watcher
  | wakeUp
  | body (b : BodyPtr) (outcome : Outcome)
  | call (op : Op τ)
  | callFrom (b : BodyPtr) (op : Op τ)
  | caller (c : CallPtr)

namespace Scheduler

variable {τ : Type*} [LinearOrder τ]

def callFrom (s : Scheduler τ) (b : BodyPtr) (op : Op τ) : Option (Scheduler τ) :=
  match s.bodies[b]? with
  | none => none
  | some x =>
      if x.pc = .callback ∧ s.returned x.call then
        some { s.call op with
          bodies := s.bodies.modify b fun x => { x with call := some s.calls.length } }
      else none

def step (s : Scheduler τ) : SchedulerEvent τ → Option (Scheduler τ)
  | .watcher => s.watcherStep
  | .wakeUp => if s.watcher = .blocked then some { s with watcher := .relock } else none
  | .body b outcome => s.bodyStep b outcome
  | .call op => some (s.call op)
  | .callFrom b op => s.callFrom b op
  | .caller c => s.callStep c

/-- A scheduler that has just been constructed, with the task objects as they are
constructed. -/
structure Constructed (s : Scheduler τ) : Prop where
  mutex : s.mutex = none
  isRunning : s.isRunning = true
  taskList : s.taskList = []
  status : ∀ k, (s.tasks k).status = .queuedUp
  promise : ∀ k, (s.tasks k).promise = {}
  future : ∀ k, (s.tasks k).future = none
  watcher : s.watcher = .loop
  bodies : s.bodies = []
  calls : s.calls = []

def system : Transition.System (Scheduler τ) (SchedulerEvent τ) where
  init := Constructed
  step := step

end Scheduler

end Scheduling
