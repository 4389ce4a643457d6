/-
# VioSock.SharedTimer -- one timer for many requests

The writes of a device, the reads of a socket and the selects of a device share a
`VIOSOCK_TIMER` each.  A request stores what is left of its timeout; every expiry of the timer
takes the period of the timer off what is left, or, for selects, the time that has passed since
the timer was set, and completes the requests that are within the tolerance with
`STATUS_IO_TIMEOUT`.  Starting a request sets the timer again only if the timer has longer to run.

Requests without a timeout do not use the timer and are left out.
-/
import KvmGuestDrivers.Theory.Runs
import KvmGuestDrivers.VioSock.TxQueue

namespace KvmGuestDrivers.VioSock

set_option autoImplicit false

open Theory List

/-! ## The clock and the timer -/

/-- The clock of the system; times are in units of 100 ns.  `KeQueryTimeIncrement` is 15.625 ms or
less, which the tolerance covers. -/
structure TickClock where
  increment : Nat
  positive : 0 < increment
  fine : (increment : Int) ≤ timerTolerance

variable (c : TickClock)

def TickClock.ticks (time : Nat) : Int := ((time / c.increment : Nat) : Int)

def longlongMax : Int := 2 ^ 63 - 1

def longlong (x : Int) : Int := x.bmod (2 ^ 64)

structure SockTimer where
  startTime : Int
  timeout : Int
  startRefs : Nat

/-- Whose timer it is: `TxTimer` of a device, `ReadTimer` of a socket, `SelectTimer` of a device. -/
inductive TimerUser where
  | write
  | read
  | select
  deriving DecidableEq

inductive TimedPlace where
  | queued
  | starting
  /-- A read that `VIOSockReadDequeueCb` has taken from `ReadQueue`. -/
  | retrieved
  /-- A write that `VIOSockTxTimerFunc` or `VIOSockTxDequeue` leaves to the cancel routine. -/
  | cancelling
  deriving DecidableEq

structure TimedRequest where
  id : Nat
  timeout : Int
  counter : Int
  place : TimedPlace
  /-- An entry without a request, which `VIOSockSendResetNoSock` queues. -/
  memory : Bool
  /-- The timeout that it was given, which nothing reads. -/
  given : Int
  started : Nat
  expiries : Nat

structure TimerRun where
  now : Nat
  timer : SockTimer
  armed : Nat
  /-- When the timer of the operating system is due. -/
  due : Option Nat
  callbacks : Nat
  requests : List TimedRequest
  lCounter : Int
  /-- `VIOSockReadTimerFunc` is walking through the queue. -/
  scanning : Bool
  least : Int
  setTimer : Bool
  /-- The requests that were completed with `STATUS_IO_TIMEOUT`, and when that was decided. -/
  timedOut : List (TimedRequest × Nat)
  nextId : Nat

variable (s : TimerRun)

section Timer

def timerPassed : Int := (c.ticks s.now - s.timer.startTime) * c.increment

def arm (timeout : Int) : TimerRun :=
  { s with
      timer := { s.timer with startTime := c.ticks s.now, timeout := timeout }
      armed := s.now
      due := some (s.now + timeout.toNat) }

def atLeast (timeout : Int) : Int :=
  if timeout ≤ timerTolerance then timerTolerance + 1 else timeout

/-- Whether a request of this timeout sets the timer.  A select's timeout comes from the caller,
and the sum may wrap. -/
def SetsTimer (timeout : Int) : Prop :=
  s.timer.startTime = 0 ∨ longlong (timeout + timerTolerance) < s.timer.timeout - timerPassed c s

instance (timeout : Int) : Decidable (SetsTimer c s timeout) :=
  inferInstanceAs (Decidable (_ ∨ _))

def addRef : TimerRun :=
  { s with timer := { s.timer with startRefs := (s.timer.startRefs + 1) % 2 ^ 32 } }

def timerStart (timeout : Int) : TimerRun :=
  if timeout = 0 ∨ timeout = longlongMax then s
  else if SetsTimer c s (atLeast timeout) then arm c (addRef s) (atLeast timeout)
  else addRef s

def clear : TimerRun :=
  { s with timer := { s.timer with startTime := 0, timeout := 0 } }

def timerSet (timeout : Int) : TimerRun :=
  if timeout = 0 ∨ timeout = longlongMax then clear s else arm c s (atLeast timeout)

def timerCancel : TimerRun := { clear s with due := none }

def dropRef : TimerRun :=
  let startRefs := if s.timer.startRefs = 0 then 2 ^ 32 - 1 else s.timer.startRefs - 1
  { s with timer := { s.timer with startRefs := startRefs } }

def timerDeref (stop : Bool) : TimerRun :=
  if (dropRef s).timer.startRefs = 0 ∧ stop = true then timerCancel (dropRef s) else dropRef s

end Timer

/-! ## The users of the timer -/

/-- The request is completed with `STATUS_IO_TIMEOUT`; this counts as an expiry. -/
def timeOut (r : TimedRequest) : TimerRun :=
  { s with timedOut := s.timedOut ++ [({ r with expiries := r.expiries + 1 }, s.now)] }

def keep (r : TimedRequest) : TimerRun := { s with requests := s.requests ++ [r] }

def lower (left : Int) : TimerRun :=
  { s with least := if left < s.least then left else s.least, setTimer := true }

def startWalk : TimerRun :=
  { s with requests := [], least := longlongMax, setTimer := false, scanning := true }

variable (unmarked : Nat → Bool)

/-- A turn of the loop of `VIOSockTxTimerFunc`; `unmarked` are the requests that are not being
cancelled. -/
def txVisit (s : TimerRun) (r : TimedRequest) : TimerRun :=
  if r.place ≠ .queued ∨ r.timeout = 0 then keep s r
  else if r.timeout ≤ s.timer.timeout + timerTolerance then
    if r.memory then timerDeref s false
    else if unmarked r.id then timeOut (timerDeref s false) r
    else keep s { r with place := .cancelling }
  else
    let left := r.timeout - s.timer.timeout
    keep (lower s left) { r with timeout := left, expiries := r.expiries + 1 }

def txTimerWalk (s : TimerRun) : TimerRun :=
  let t := s.requests.foldl (txVisit unmarked) (startWalk { s with callbacks := s.callbacks - 1 })
  { (if t.setTimer then timerSet c t t.least else t) with scanning := false }

/-- `VIOSockReadTimerFunc`, before its loop.  The counter is shared with the other sockets. -/
def readTimerBegin : TimerRun :=
  { s with
      callbacks := s.callbacks - 1
      lCounter := long (s.lCounter + 1)
      least := longlongMax
      scanning := true }

/-- A turn of its loop, under `RxLock`, for the request at `i`; `retrieved` tells whether the
framework hands it over. -/
def readTimerVisit (i : Nat) (retrieved : Bool) : TimerRun :=
  match s.requests[i]? with
  | none => s
  | some r =>
    if r.place = .queued ∧ r.timeout ≠ 0 ∧ r.counter < s.lCounter then
      if r.timeout ≤ s.timer.timeout + timerTolerance then
        if retrieved then
          timeOut (timerDeref { s with requests := s.requests.eraseIdx i } false) r
        else s
      else
        let left := r.timeout - s.timer.timeout
        let aged :=
          { r with counter := s.lCounter, timeout := left, expiries := r.expiries + 1 }
        { lower s left with requests := s.requests.set i aged }
    else s

def readTimerEnd : TimerRun :=
  { (if s.least ≠ longlongMax then timerSet c s s.least else s) with scanning := false }

/-- What `VIOSockReadDequeueCb` decides about a request. -/
inductive DequeueEnd where
  | completes
  /-- It is to wait again; `WdfRequestRequeue` may fail. -/
  | requeues (ok : Bool)

/-- `llTimeout` of `VIOSockReadDequeueCb`. -/
def readLeft (r : TimedRequest) : Int :=
  let passed := timerPassed c s
  if passed < r.timeout then r.timeout - passed else timerTolerance

def readRequeue (r : TimedRequest) (llTimeout : Int) (ok : Bool) : TimerRun :=
  if llTimeout ≤ timerTolerance then timeOut s r
  else if ok then
    timerStart c { s with requests := { r with place := .queued } :: s.requests } llTimeout
  else s

/-- `VIOSockReadDequeueCb` with the retrieved request, under `RxLock`. -/
def readDequeue (i : Nat) (r : TimedRequest) (e : DequeueEnd) : TimerRun :=
  let t := timerDeref { s with requests := s.requests.eraseIdx i } true
  match e with
  | .completes => t
  | .requeues ok => readRequeue c t r (readLeft c s r) ok

inductive PktFound where
  | cancelled
  | ready
  | waits
  /-- It waits, and is cancelled before it is marked again. -/
  | recancelled

/-- A turn of the loop of `VIOSockSelectWorkitem`; `passed` is `TimePassed`. -/
def selectVisit (passed : Int) (found : Nat → PktFound) (s : TimerRun) (r : TimedRequest) :
    TimerRun :=
  match found r.id with
  | .cancelled | .ready => timerDeref s true
  | .waits =>
    if r.timeout ≤ passed + timerTolerance then timeOut (timerDeref s true) r
    else keep (lower s (r.timeout - passed)) { r with timeout := r.timeout - passed }
  | .recancelled =>
    if r.timeout ≤ passed + timerTolerance then timeOut (timerDeref s true) r
    else timerDeref (lower s (r.timeout - passed)) true

def selectWorkitem (found : Nat → PktFound) (s : TimerRun) : TimerRun :=
  let t := s.requests.foldl (selectVisit (timerPassed c s) found) (startWalk s)
  { (if t.least ≠ longlongMax then timerSet c t t.least else t) with scanning := false }

variable (user : TimerUser)

def freshRequest (s : TimerRun) (timeout : Int) : TimedRequest :=
  { id := s.nextId, timeout := timeout, counter := 0
    place := if user = .read then .starting else .queued
    memory := false, given := timeout, started := s.now, expiries := 0 }

/-- The entry of a reset; its timeout is what the memory had. -/
def resetEntry (timeout : Int) : TimedRequest :=
  { id := s.nextId, timeout := timeout, counter := 0, place := .queued, memory := true
    given := timeout, started := s.now, expiries := 0 }

inductive TimerOp where
  | pass (time : Nat)
  | fire
  /-- A request is started: `VIOSockTxEnqueue`, `VIOSockReadWithFlags` or `VIOSockSelect`. -/
  | start (timeout : Int)
  /-- `WdfRequestForwardToIoQueue` for a read that has been started. -/
  | forward (i : Nat) (ok : Bool)
  | reset (timeout : Int)
  /-- A queued request is sent, cleaned up or cancelled.  The framework cancels reads. -/
  | leave (i : Nat)
  /-- `VIOSockTxDequeue` leaves a write that is being cancelled to its cancel routine. -/
  | abandon (i : Nat)
  | txTimer (unmarked : Nat → Bool)
  /-- `VIOSockTxEnqueueCancel` for a write that was left to it. -/
  | cancelRoutine (i : Nat)
  | readTimer
  | readVisit (i : Nat) (retrieved : Bool)
  | readTimerEnds
  /-- `VIOSockReadTimerFunc` of another socket. -/
  | otherReadTimer
  /-- `VIOSockReadDequeueCb` retrieves a read, before it acquires `RxLock`. -/
  | retrieve (i : Nat)
  | dequeue (i : Nat) (e : DequeueEnd)
  /-- `VIOSockSelectTimerFunc`, which enqueues the work item. -/
  | selectTimer
  | workitem (found : Nat → PktFound)

/-- What happens to the request at `i`, if it is at that place. -/
def atPlace (i : Nat) (place : TimedPlace) (f : TimedRequest → TimerRun) :
    TimerRun :=
  match s.requests[i]? with
  | none => s
  | some r => if r.place = place then f r else s

/-- The functions of the three users, and the operating system's timer below them.  A timer function
waits for the lock: one that has begun is not stopped by setting the timer again. -/
def timerMove (c : TickClock) (s : TimerRun) (op : TimerOp) : TimerRun :=
  match user, op with
  | _, .pass time => { s with now := s.now + time }
  | _, .fire =>
    match s.due with
    | none => s
    | some d => if d ≤ s.now then { s with due := none, callbacks := s.callbacks + 1 } else s
  | user, .start timeout =>
    let s' := { s with
      requests := s.requests ++ [freshRequest user s timeout], nextId := s.nextId + 1 }
    timerStart c s' timeout
  | .read, .forward i ok => atPlace s i .starting fun r =>
    if ok then { s with requests := s.requests.set i { r with place := .queued } }
    else timerDeref { s with requests := s.requests.eraseIdx i } true
  | .write, .reset timeout =>
    { s with requests := s.requests ++ [resetEntry s timeout], nextId := s.nextId + 1 }
  | .write, .leave i => atPlace s i .queued fun r =>
    let t := { s with requests := s.requests.eraseIdx i }
    if r.timeout ≠ 0 then timerDeref t true else t
  | .read, .leave i => atPlace s i .queued fun _ =>
    { s with requests := s.requests.eraseIdx i }
  | .write, .abandon i => atPlace s i .queued fun r =>
    { s with requests := s.requests.set i { r with place := .cancelling } }
  | .write, .txTimer unmarked =>
    if s.callbacks = 0 then s else txTimerWalk c unmarked s
  | .write, .cancelRoutine i => atPlace s i .cancelling fun _ =>
    timerDeref { s with requests := s.requests.eraseIdx i } true
  | .read, .readTimer =>
    if s.callbacks = 0 ∨ s.scanning = true then s else readTimerBegin s
  | .read, .readVisit i retrieved => if s.scanning then readTimerVisit s i retrieved else s
  | .read, .readTimerEnds => if s.scanning then readTimerEnd c s else s
  | .read, .otherReadTimer => { s with lCounter := long (s.lCounter + 1) }
  | .read, .retrieve i => atPlace s i .queued fun r =>
    { s with requests := s.requests.set i { r with place := .retrieved } }
  | .read, .dequeue i e => atPlace s i .retrieved fun r => readDequeue c s i r e
  | .select, .selectTimer =>
    if s.callbacks = 0 then s
    else
      { s with
          callbacks := s.callbacks - 1
          requests := s.requests.map fun r => { r with expiries := r.expiries + 1 } }
  | .select, .workitem found => selectWorkitem c found s
  | _, _ => s

theorem scanning_fire {user : TimerUser} {c : TickClock} {s : TimerRun}
    (walked : s.scanning = false) :
    (timerMove user c s .fire).scanning = false := by
  simp only [timerMove]
  split
  · exact walked
  split <;> exact walked

def timerStep (c : TickClock) (s : TimerRun) (op : TimerOp) : Except Empty (TimerRun × Unit) :=
  .ok (timerMove user c s op, ())

def timerCreate (now : Nat) : TimerRun :=
  { now := now, timer := ⟨0, 0, 0⟩, armed := now, due := none, callbacks := 0, requests := []
    lCounter := 0, scanning := false, least := longlongMax, setTimer := false, timedOut := []
    nextId := 0 }

def LongTimeouts (_ : TimerRun) : TimerOp → Prop
  | .start timeout => timerTolerance < timeout ∧ timeout ≤ longlongMax
  | _ => True

/-- When no time is charged twice, or for a request that was not there.  A request that is started
has a timeout below `LONGLONG_MAX`, and it sets the timer or finds that it was set within the
tolerance.  The timer is not set again when its function acquires the lock, and while
`VIOSockReadTimerFunc` walks through the queue no read is started or dequeued and no other
socket's function changes the counter. -/
def TimerRegular : TimerOp → Prop
  | .start timeout =>
    timerTolerance < timeout ∧ timeout < longlongMax ∧ s.timer.startRefs + 1 < 2 ^ 32 ∧
      s.scanning = false ∧ (SetsTimer c s timeout ∨ timerPassed c s ≤ timerTolerance)
  | .txTimer _ => s.due = none
  | .readTimer => s.due = none
  | .otherReadTimer => s.scanning = false
  | .dequeue _ _ => s.scanning = false
  | .pass _ | .fire | .forward _ _ | .reset _ | .leave _ | .abandon _ | .cancelRoutine _
  | .readVisit _ _ | .readTimerEnds | .retrieve _ | .selectTimer | .workitem _ => True

variable {time i now : Nat} {timeout left : Int}

section Aging

variable {c} {user} {s : TimerRun} {r new : TimedRequest} {rest : List TimedRequest}
  {f : TimedRequest → TimerRun}

/-! ## The time for which a request is charged -/

def TickClock.shown (c : TickClock) (time : Nat) : Int := c.ticks time * c.increment

theorem TickClock.shown_eq (c : TickClock) (time : Nat) :
    c.shown time = ((c.increment * (time / c.increment) : Nat) : Int) := by
  rw [shown, ticks, Int.natCast_mul, Int.mul_comm]

theorem TickClock.shown_le (c : TickClock) (time : Nat) : c.shown time ≤ time := by
  rw [c.shown_eq]
  exact Int.ofNat_le.mpr (Nat.mul_div_le time c.increment)

/-- The clock is behind by no more than the tolerance. -/
theorem TickClock.le_shown (c : TickClock) (time : Nat) :
    (time : Int) ≤ c.shown time + timerTolerance := by
  have split := Nat.div_add_mod time c.increment
  have small := Nat.mod_lt time c.positive
  have fine := c.fine
  rw [c.shown_eq]
  omega

theorem TickClock.shown_mono (c : TickClock) {a b : Nat} (le : a ≤ b) : c.shown a ≤ c.shown b := by
  rw [c.shown_eq, c.shown_eq]
  exact Int.ofNat_le.mpr (Nat.mul_le_mul_left _ (Nat.div_le_div_right le))

theorem timerPassed_eq (set : s.timer.startTime = c.ticks s.armed) :
    timerPassed c s = c.shown s.now - c.shown s.armed := by
  rw [timerPassed, set, Int.sub_mul, TickClock.shown, TickClock.shown]

/-- What is left of the timeout is what was given, less the time up to `time`, but for the
tolerance once and for every expiry. -/
structure Fair (c : TickClock) (time : Nat) (r : TimedRequest) : Prop where
  low : timerTolerance < r.timeout
  high : r.timeout < longlongMax
  charged :
    r.given ≤ r.timeout + (c.shown time - c.shown r.started) + timerTolerance * (1 + r.expiries)

def NotEarly (r : TimedRequest) (time : Nat) : Prop :=
  r.given ≤ (time - r.started : Int) + 3 * timerTolerance * r.expiries

theorem Fair.mono {a b : Nat} (fair : Fair c a r) (le : a ≤ b) : Fair c b r := by
  have shown := c.shown_mono le
  exact ⟨fair.low, fair.high, by have := fair.charged; omega⟩

/-- A request that runs out within the tolerance is not early. -/
theorem Fair.notEarly {passed : Int} (fair : Fair c time r)
    (out : r.timeout ≤ passed + timerTolerance) (passes : c.shown time + passed ≤ now) :
    NotEarly { r with expiries := r.expiries + 1 } now := by
  have charged := fair.charged
  have started := c.le_shown r.started
  simp only [NotEarly, timerTolerance] at *
  omega

/-- An expiry charges a request that stays for the period, and no more. -/
theorem Fair.expire {period : Int} (fair : Fair c time r) (positive : 0 ≤ period)
    (stays : ¬r.timeout ≤ period + timerTolerance) (passes : (time : Int) + period ≤ now) :
    Fair c now { r with timeout := r.timeout - period, expiries := r.expiries + 1 } := by
  have high := fair.high
  have charged := fair.charged
  have before := c.shown_le time
  have after := c.le_shown now
  simp only [timerTolerance] at *
  refine ⟨?_, ?_, ?_⟩ <;> simp only [timerTolerance] <;> omega

/-- What is left after the time that has passed since the timer was set. -/
theorem Fair.pass (fair : Fair c time r) (le : time ≤ now)
    (stays : ¬r.timeout ≤ c.shown now - c.shown time + timerTolerance) :
    Fair c now { r with timeout := r.timeout - (c.shown now - c.shown time) } := by
  have high := fair.high
  have charged := fair.charged
  have shown := c.shown_mono le
  refine ⟨?_, ?_, ?_⟩ <;> simp only <;> omega

theorem Fair.place (fair : Fair c time r) (place : TimedPlace) :
    Fair c time { r with place := place } := { fair with }

/-! ## The invariant -/

/-- The function that walks has not charged the request. -/
def Unaged (user : TimerUser) (s : TimerRun) (r : TimedRequest) : Prop :=
  s.scanning = false ∨ s.least = longlongMax ∨ user = .read ∧ r.counter < s.lCounter

/-- Every request is charged from no earlier than the tolerance before it was started; `rest` are
the requests that a walk has yet to visit. -/
structure TimerInv (user : TimerUser) (c : TickClock) (s : TimerRun) (rest : List TimedRequest) :
    Prop where
  past : s.armed ≤ s.now
  period : 0 ≤ s.timer.timeout
  programmed : ∀ d, s.due = some d → s.armed + s.timer.timeout ≤ (d : Int)
  expired : s.due = none → s.armed + s.timer.timeout ≤ s.now
  set : s.timer.startTime = 0 ∨ s.timer.startTime = c.ticks s.armed
  -- `VIOSockSendResetNoSock` queues entries without a reference, so that nothing is known about
  -- the references of `TxTimer`; its function does not look at `StartTime`.
  refs : user ≠ .write →
    (s.requests ++ rest).length ≤ s.timer.startRefs ∧ s.timer.startRefs < 2 ^ 32
  running : user ≠ .write → s.requests ++ rest ≠ [] → s.timer.startTime = c.ticks s.armed
  owned : user ≠ .write → ∀ r ∈ s.requests ++ rest, r.memory = false
  fair : ∀ r ∈ s.requests, r.memory = false → Fair c s.now r
  unaged : ∀ r ∈ s.requests, r.memory = false → Unaged user s r → Fair c s.armed r
  waiting : ∀ r ∈ rest, r.memory = false → Fair c s.armed r
  low : s.scanning = true → timerTolerance < s.least ∧ s.least ≤ longlongMax
  quiet : s.scanning = true → user = .read → s.due = none
  notEarly : ∀ e ∈ s.timedOut, NotEarly e.1 e.2

def Kept (user : TimerUser) (c : TickClock) (s : TimerRun) (r : TimedRequest) : Prop :=
  (user ≠ .write → r.memory = false) ∧
    (r.memory = false → Fair c s.now r ∧ (Unaged user s r → Fair c s.armed r))

def Waits (user : TimerUser) (c : TickClock) (s : TimerRun) (r : TimedRequest) : Prop :=
  (user ≠ .write → r.memory = false) ∧ (r.memory = false → Fair c s.armed r)

namespace TimerInv

theorem kept (inv : TimerInv user c s rest) : ∀ r ∈ s.requests, Kept user c s r :=
  fun r member => ⟨fun other => inv.owned other r (mem_append_left _ member),
    fun own => ⟨inv.fair r member own, inv.unaged r member own⟩⟩

theorem waits (inv : TimerInv user c s rest) : ∀ r ∈ rest, Waits user c s r :=
  fun r member =>
    ⟨fun other => inv.owned other r (mem_append_right _ member), inv.waiting r member⟩

theorem relist (inv : TimerInv user c s rest) {l rest' : List TimedRequest}
    (shorter : (l ++ rest').length ≤ (s.requests ++ rest).length)
    (kept : ∀ r ∈ l, Kept user c s r) (waits : ∀ r ∈ rest', Waits user c s r) :
    TimerInv user c { s with requests := l } rest' :=
  { inv with
      refs := fun user => ⟨le_trans shorter (inv.refs user).1, (inv.refs user).2⟩
      running := by
        intro user nonempty
        refine inv.running user fun empty => nonempty ?_
        rw [empty] at shorter
        exact eq_nil_of_length_eq_zero (Nat.le_zero.mp shorter)
      owned := fun other => forall_mem_append.mpr
        ⟨fun r member => (kept r member).1 other, fun r member => (waits r member).1 other⟩
      fair := fun r member own => ((kept r member).2 own).1
      unaged := fun r member own => ((kept r member).2 own).2
      waiting := fun r member => (waits r member).2 }

theorem pop (inv : TimerInv user c s (r :: rest)) : TimerInv user c s rest ∧
      (user ≠ .write → (s.requests ++ rest).length < s.timer.startRefs) := by
  have length : (s.requests ++ r :: rest).length = (s.requests ++ rest).length + 1 := by
    simp only [length_append, length_cons]
    omega
  refine ⟨inv.relist (by omega) inv.kept (forall_mem_cons.mp inv.waits).2, fun user => ?_⟩
  have refs := (inv.refs user).1
  omega

/-- A request leaves with its reference still counted. -/
theorem erase (inv : TimerInv user c s []) (here : s.requests[i]? = some r) :
    TimerInv user c { s with requests := s.requests.eraseIdx i } [] ∧
      (user ≠ .write → (s.requests.eraseIdx i).length < s.timer.startRefs) := by
  obtain ⟨lt, -⟩ := List.getElem?_eq_some_iff.mp here
  have length : (s.requests.eraseIdx i).length = s.requests.length - 1 := length_eraseIdx_of_lt lt
  refine ⟨inv.relist ?_ (fun q member => inv.kept q (mem_of_mem_eraseIdx member)) inv.waits,
    fun user => ?_⟩
  · rw [append_nil, append_nil]
    omega
  · have refs := (inv.refs user).1
    rw [append_nil] at refs
    omega

theorem replace (inv : TimerInv user c s []) (here : s.requests[i]? = some r)
    (own : new.memory = r.memory)
    (fair : r.memory = false → Fair c s.now new ∧ (Unaged user s new → Fair c s.armed new)) :
    TimerInv user c { s with requests := s.requests.set i new } [] := by
  refine inv.relist ?_ (forall_mem_set inv.kept ?_) inv.waits
  · rw [append_nil, append_nil, length_set]
  · rw [Kept, own]
    exact ⟨(inv.kept r (mem_of_getElem? here)).1, fair⟩

theorem keep (inv : TimerInv user c s (r :: rest)) (own : new.memory = r.memory)
    (fair : r.memory = false → Fair c s.now new ∧ (Unaged user s new → Fair c s.armed new)) :
    TimerInv user c (VioSock.keep s new) rest := by
  obtain ⟨next, waits⟩ := forall_mem_cons.mp inv.waits
  refine inv.relist ?_ (forall_mem_concat inv.kept ?_) waits
  · simp only [length_append, length_cons, length_nil]
    omega
  · rw [Kept, own]
    exact ⟨next.1, fair⟩

/-! ## The functions of the timer -/

section

variable (inv : TimerInv user c s rest)

include inv

theorem timeOut (notEarly : NotEarly { r with expiries := r.expiries + 1 } s.now) :
    TimerInv user c (VioSock.timeOut s r) rest := by
  refine { inv with notEarly := ?_ }
  exact forall_mem_concat inv.notEarly notEarly

/-- The timer is stopped when nobody waits; `TxTimer` may be stopped at any time. -/
theorem clear (idle : user ≠ .write → s.requests ++ rest = []) :
    TimerInv user c (VioSock.clear s) rest :=
  { inv with
      period := Int.le_refl 0
      programmed := by
        intro d is
        have later := inv.programmed d is
        have period := inv.period
        show (s.armed : Int) + 0 ≤ d
        omega
      expired := by
        intro _
        have past := inv.past
        show (s.armed : Int) + 0 ≤ s.now
        omega
      set := .inl rfl
      running := fun user nonempty => absurd (idle user) nonempty }

theorem cancel (idle : user ≠ .write → s.requests ++ rest = []) :
    TimerInv user c (timerCancel s) rest :=
  { inv.clear idle with
      programmed := fun d never => nomatch never
      expired := by
        intro _
        have past := inv.past
        show (s.armed : Int) + 0 ≤ s.now
        omega
      quiet := fun _ _ => rfl }

theorem deref (spare : user ≠ .write → (s.requests ++ rest).length < s.timer.startRefs)
    (stop : Bool) : TimerInv user c (timerDeref s stop) rest := by
  have refs : user ≠ .write → (s.requests ++ rest).length ≤ (dropRef s).timer.startRefs ∧
      (dropRef s).timer.startRefs < 2 ^ 32 := by
    intro user
    have enough := spare user
    have small := (inv.refs user).2
    simp only [dropRef]
    split <;> omega
  have dropped : TimerInv user c (dropRef s) rest := { inv with refs := refs }
  rw [timerDeref]
  split
  · rename_i last
    refine dropped.cancel fun user => ?_
    have few := (refs user).1
    rw [last.1] at few
    exact eq_nil_of_length_eq_zero (Nat.le_zero.mp few)
  · exact dropped

theorem lower (longer : timerTolerance < left) : TimerInv user c (VioSock.lower s left) rest := by
  refine { inv with unaged := ?_, low := ?_ }
  · intro r member own young
    refine inv.unaged r member own ?_
    cases walks : s.scanning with
    | false => exact .inl walks
    | true =>
      rcases young with still | last | counter
      · exact .inl still
      · refine .inr (.inl ?_)
        have high := (inv.low walks).2
        have last : (if left < s.least then left else s.least) = longlongMax := last
        split at last <;> omega
      · exact .inr (.inr counter)
  · intro walks
    have low := inv.low walks
    show timerTolerance < (if left < s.least then left else s.least) ∧
      (if left < s.least then left else s.least) ≤ longlongMax
    split <;> omega

end

end TimerInv

theorem atLeast_eq (longer : timerTolerance < timeout) : atLeast timeout = timeout := by
  rw [atLeast, if_neg (by omega)]

theorem timerInv_arm (positive : 0 < timeout)
    (refs : user ≠ .write →
      (s.requests ++ []).length ≤ s.timer.startRefs ∧ s.timer.startRefs < 2 ^ 32)
    (owned : user ≠ .write → ∀ r ∈ s.requests ++ [], r.memory = false)
    (fair : ∀ r ∈ s.requests, r.memory = false → Fair c s.now r)
    (notEarly : ∀ e ∈ s.timedOut, NotEarly e.1 e.2) :
    TimerInv user c { arm c s timeout with scanning := false } [] :=
  { past := le_rfl
    period := Int.le_of_lt positive
    programmed := by
      intro d is
      have is : s.now + timeout.toNat = d := Option.some.inj is
      show (s.now : Int) + timeout ≤ d
      omega
    expired := nofun
    set := .inr rfl
    refs := refs
    running := fun _ _ => rfl
    owned := owned
    fair := fair
    unaged := fun r member own _ => fair r member own
    waiting := fun r member => nomatch member
    low := nofun
    quiet := nofun
    notEarly := notEarly }

theorem TimerInv.setLeast (inv : TimerInv user c s []) (walks : s.scanning = true)
    (lowered : s.least ≠ longlongMax) :
    TimerInv user c { timerSet c s s.least with scanning := false } [] := by
  have low := (inv.low walks).1
  have positive : 0 < s.least := by
    simp only [timerTolerance] at low
    omega
  rw [timerSet, if_neg (by omega), atLeast_eq low]
  exact timerInv_arm positive inv.refs inv.owned inv.fair inv.notEarly

theorem TimerInv.stopWalk (inv : TimerInv user c s [])
    (nobody : s.scanning = true → s.least = longlongMax) :
    TimerInv user c { s with scanning := false } [] :=
  { inv with
      unaged := by
        intro r member own _
        refine inv.unaged r member own ?_
        cases walks : s.scanning with
        | false => exact .inl walks
        | true => exact .inr (.inl (nobody walks))
      low := nofun
      quiet := nofun }

/-- A request is started, or waits again.  It is charged from now on if it sets the timer. -/
theorem TimerInv.start {l : List TimedRequest} (inv : TimerInv user c s [])
    (walked : s.scanning = false) (longer : timerTolerance < timeout) (high : timeout < longlongMax)
    (room : s.timer.startRefs + 1 < 2 ^ 32) (length : l.length ≤ s.requests.length + 1)
    (owned : user ≠ .write → ∀ r ∈ l, r.memory = false)
    (fair : ∀ r ∈ l, r.memory = false →
      r ∈ s.requests ∨ Fair c s.now r ∧ (¬SetsTimer c s timeout → Fair c s.armed r)) :
    TimerInv user c (timerStart c { s with requests := l } timeout) [] := by
  have refs : user ≠ .write → (l ++ []).length ≤ (addRef s).timer.startRefs ∧
      (addRef s).timer.startRefs < 2 ^ 32 := by
    intro user
    have enough := (inv.refs user).1
    rw [append_nil] at enough ⊢
    simp only [addRef]
    omega
  have positive : 0 < timeout := by
    simp only [timerTolerance] at longer
    omega
  have fairNow (r : TimedRequest) (member : r ∈ l) (own : r.memory = false) : Fair c s.now r := by
    rcases fair r member own with old | ⟨now, -⟩
    · exact inv.fair r old own
    · exact now
  rw [timerStart, if_neg (by omega), atLeast_eq longer]
  split
  · have set := timerInv_arm (s := addRef { s with requests := l }) positive refs
      (by rw [append_nil]; exact owned) fairNow inv.notEarly
    rw [← walked] at set
    exact set
  · rename_i joins
    have set : s.timer.startTime = c.ticks s.armed :=
      inv.set.resolve_left fun zero => joins (.inl zero)
    exact { inv with
      refs := refs
      running := fun _ _ => set
      owned := by
        rw [append_nil]
        exact owned
      fair := fairNow
      unaged := fun r member own _ => by
        rcases fair r member own with old | ⟨-, since⟩
        · exact inv.unaged r old own (.inl walked)
        · exact since joins }

/-! ## Writes -/

@[simp] theorem timerDeref_now (s : TimerRun) (stop : Bool) : (timerDeref s stop).now = s.now := by
  rw [timerDeref]
  split <;> rfl

@[simp] theorem timerDeref_armed (s : TimerRun) (stop : Bool) :
    (timerDeref s stop).armed = s.armed := by
  rw [timerDeref]
  split <;> rfl

@[simp] theorem timerDeref_scanning (s : TimerRun) (stop : Bool) :
    (timerDeref s stop).scanning = s.scanning := by
  rw [timerDeref]
  split <;> rfl

theorem timerDeref_startRefs (s : TimerRun) (stop : Bool) : (timerDeref s stop).timer.startRefs =
      if s.timer.startRefs = 0 then 2 ^ 32 - 1 else s.timer.startRefs - 1 := by
  rw [timerDeref]
  split <;> rfl

@[simp] theorem timerDeref_false (s : TimerRun) : timerDeref s false = dropRef s := by
  simp [timerDeref]

theorem TimerInv.startWalk (inv : TimerInv user c s []) (walked : s.scanning = false)
    (write : user ≠ .read) : TimerInv user c (VioSock.startWalk s) s.requests := by
  have start : TimerInv user c { s with requests := [] } s.requests :=
    inv.relist (by simp) nofun fun r member =>
      ⟨(inv.kept r member).1, fun own => inv.unaged r member own (.inl walked)⟩
  exact { start with
    unaged := fun r member => nomatch member
    low := fun _ => ⟨by simp only [VioSock.startWalk]; decide, Int.le_refl _⟩
    quiet := fun _ read => absurd read write }

structure TxWalk (c : TickClock) (s : TimerRun) (rest : List TimedRequest) : Prop where
  inv : TimerInv .write c s rest
  ranOut : s.armed + s.timer.timeout ≤ (s.now : Int)
  walks : s.scanning = true
  unset : s.setTimer = false → s.least = longlongMax

theorem aged_of_lower (walks : s.scanning = true) (high : left < longlongMax)
    (counted : ¬(user = .read ∧ r.counter < s.lCounter)) : ¬Unaged user (lower s left) r := by
  rintro (still | last | counter)
  · exact Bool.false_ne_true (still.symm.trans walks)
  · have last : (if left < s.least then left else s.least) = longlongMax := last
    split at last <;> omega
  · exact counted counter

/-- The walk through the writes visits one. -/
theorem TxWalk.visit (walk : TxWalk c s (r :: rest)) (unmarked : Nat → Bool) :
    TxWalk c (txVisit unmarked s r) rest := by
  have fair := walk.inv.waiting r mem_cons_self
  obtain ⟨popped, -⟩ := walk.inv.pop
  have dropped : TxWalk c (timerDeref s false) rest := by
    refine ⟨popped.deref (fun write => absurd rfl write) false, ?_, ?_, ?_⟩ <;>
      rw [timerDeref_false]
    · exact walk.ranOut
    · exact walk.walks
    · exact walk.unset
  rw [txVisit]
  split
  · refine ⟨walk.inv.keep rfl fun own => ?_, walk.ranOut, walk.walks, walk.unset⟩
    exact ⟨(fair own).mono walk.inv.past, fun _ => fair own⟩
  split
  · rename_i out
    split
    · exact dropped
    rename_i own
    have fair := fair (Bool.eq_false_iff.mpr own)
    split
    · refine ⟨dropped.inv.timeOut ?_, dropped.ranOut, dropped.walks, dropped.unset⟩
      rw [timerDeref_now]
      refine fair.notEarly out ?_
      have shown := c.shown_le s.armed
      have ranOut := walk.ranOut
      omega
    · refine ⟨walk.inv.keep rfl fun own => ?_, walk.ranOut, walk.walks, walk.unset⟩
      exact ⟨(fair.mono walk.inv.past).place _, fun _ => fair.place _⟩
  · rename_i stays
    have lowered : TimerInv .write c (lower s (r.timeout - s.timer.timeout)) (r :: rest) :=
      walk.inv.lower (by omega)
    refine ⟨lowered.keep rfl fun own => ?_, walk.ranOut, walk.walks, nofun⟩
    have aged := (fair own).expire walk.inv.period stays walk.ranOut
    refine ⟨aged, fun young => absurd young (aged_of_lower walk.walks aged.high ?_)⟩
    exact fun read => nomatch read.1

namespace TimerInv

theorem txTimer (inv : TimerInv .write c s []) (walked : s.scanning = false)
    (unset : s.due = none) (unmarked : Nat → Bool) :
    TimerInv .write c (txTimerWalk c unmarked s) [] := by
  have called : TimerInv .write c { s with callbacks := s.callbacks - 1 } [] := { inv with }
  have start : TxWalk c (VioSock.startWalk { s with callbacks := s.callbacks - 1 }) s.requests :=
    ⟨called.startWalk walked (by decide), inv.expired unset, rfl, fun _ => rfl⟩
  have walk : TxWalk c _ [] :=
    foldl_rest (fun _ _ _ walk => walk.visit unmarked) s.requests start
  rw [txTimerWalk]
  split
  · by_cases last : (s.requests.foldl (txVisit unmarked)
        (VioSock.startWalk { s with callbacks := s.callbacks - 1 })).least = longlongMax
    · rw [timerSet, if_pos (.inr last)]
      exact (walk.inv.clear fun other => absurd rfl other).stopWalk fun _ => last
    · exact walk.inv.setLeast walk.walks last
  · rename_i still
    exact walk.inv.stopWalk fun _ => walk.unset (Bool.eq_false_iff.mpr still)

/-! ## Reads -/

theorem mine (inv : TimerInv user c s []) (other : user ≠ .write) (here : s.requests[i]? = some r) :
    r.memory = false :=
  (inv.kept r (mem_of_getElem? here)).1 other

theorem readTimerBegin (inv : TimerInv .read c s []) (walked : s.scanning = false)
    (unset : s.due = none) : TimerInv .read c (VioSock.readTimerBegin s) [] :=
  { inv with
      unaged := fun r member own _ => inv.unaged r member own (.inl walked)
      low := fun _ => ⟨by simp only [VioSock.readTimerBegin]; decide, Int.le_refl _⟩
      quiet := fun _ _ => unset }

theorem readTimerVisit (inv : TimerInv .read c s []) (walks : s.scanning = true)
    (i : Nat) (retrieved : Bool) : TimerInv .read c (VioSock.readTimerVisit s i retrieved) [] := by
  rw [VioSock.readTimerVisit]
  split
  · exact inv
  rename_i r here
  split
  · rename_i found
    have own := inv.mine (by decide) here
    have ranOut := inv.expired (inv.quiet walks rfl)
    have fair : Fair c s.armed r :=
      inv.unaged r (mem_of_getElem? here) own (.inr (.inr ⟨rfl, found.2.2⟩))
    split
    · rename_i out
      split
      · obtain ⟨erased, spare⟩ := inv.erase here
        refine (erased.deref (by rw [append_nil]; exact spare) false).timeOut ?_
        rw [timerDeref_now]
        refine fair.notEarly out ?_
        have shown := c.shown_le s.armed
        show c.shown s.armed + s.timer.timeout ≤ (s.now : Int)
        omega
      · exact inv
    · rename_i stays
      have lowered : TimerInv .read c (VioSock.lower s (r.timeout - s.timer.timeout)) [] :=
        inv.lower (by omega)
      have aged := fair.expire inv.period stays ranOut
      refine lowered.replace here rfl fun _ => ?_
      refine ⟨{ aged with }, fun young => absurd young ?_⟩
      exact aged_of_lower walks aged.high fun read => Int.lt_irrefl _ read.2
  · exact inv

theorem readTimerEnd (inv : TimerInv .read c s []) (walks : s.scanning = true) :
    TimerInv .read c (VioSock.readTimerEnd c s) [] := by
  rw [VioSock.readTimerEnd]
  split
  · rename_i lowered
    exact inv.setLeast walks lowered
  · rename_i nobody
    exact inv.stopWalk fun _ => Decidable.not_not.mp nobody

theorem passed (inv : TimerInv user c s rest) (other : user ≠ .write)
    (nonempty : s.requests ++ rest ≠ []) : timerPassed c s = c.shown s.now - c.shown s.armed :=
  timerPassed_eq (inv.running other nonempty)

theorem readRequeue {llTimeout : Int} (inv : TimerInv .read c s [])
    (walked : s.scanning = false) (own : r.memory = false) (fair : Fair c s.armed r)
    (out : llTimeout ≤ timerTolerance →
      r.timeout ≤ c.shown s.now - c.shown s.armed + timerTolerance)
    (high : llTimeout < longlongMax) (room : s.timer.startRefs + 1 < 2 ^ 32) (ok : Bool) :
    TimerInv .read c (VioSock.readRequeue c s r llTimeout ok) [] := by
  rw [VioSock.readRequeue]
  split
  · rename_i short
    refine inv.timeOut (fair.notEarly (out short) ?_)
    have now := c.shown_le s.now
    omega
  split
  · refine inv.start walked (by omega) high room le_rfl ?_ ?_
    · exact fun other => forall_mem_cons.mpr ⟨own, fun q member => (inv.kept q member).1 other⟩
    · refine forall_mem_cons.mpr ⟨fun _ => .inr ?_, fun q member _ => .inl member⟩
      exact ⟨(fair.place _).mono inv.past, fun _ => fair.place _⟩
  · exact inv

theorem readDequeue (inv : TimerInv .read c s []) (walked : s.scanning = false)
    (here : s.requests[i]? = some r) (e : DequeueEnd) :
    TimerInv .read c (VioSock.readDequeue c s i r e) [] := by
  obtain ⟨erased, spare⟩ := inv.erase here
  have dropped := erased.deref (by rw [append_nil]; exact spare) true
  cases e with
  | completes => exact dropped
  | requeues ok =>
    have own := inv.mine (by decide) here
    have member := mem_of_getElem? here
    have fair : Fair c s.armed r := inv.unaged r member own (.inl walked)
    have shown := c.shown_mono inv.past
    have passed := inv.passed (by decide) (append_ne_nil_of_left_ne_nil (ne_nil_of_mem member) _)
    have high := fair.high
    have positive : 0 < timerTolerance := by decide
    refine dropped.readRequeue ?_ own ?_ ?_ ?_ ?_ ok
    · rw [timerDeref_scanning]
      exact walked
    · rw [timerDeref_armed]
      exact fair
    · rw [timerDeref_now, timerDeref_armed, readLeft]
      intro short
      show r.timeout ≤ c.shown s.now - c.shown s.armed + timerTolerance
      split at short <;> omega
    · rw [readLeft]
      split
      · omega
      · decide
    · have refs := inv.refs (by decide)
      have held := spare (by decide)
      have room : (timerDeref { s with requests := s.requests.eraseIdx i } true).timer.startRefs =
          s.timer.startRefs - 1 := by
        rw [timerDeref_startRefs]
        exact if_neg (by show s.timer.startRefs ≠ 0; omega)
      omega

end TimerInv

/-! ## Selects -/

theorem Fair.lived (fair : Fair c time r) : Fair c time { r with expiries := r.expiries + 1 } := by
  have charged := fair.charged
  refine ⟨fair.low, fair.high, ?_⟩
  simp only [timerTolerance] at *
  omega

structure SelectWalk (c : TickClock) (passed : Int) (s : TimerRun) (rest : List TimedRequest) :
    Prop where
  inv : TimerInv .select c s rest
  is : rest ≠ [] → passed = c.shown s.now - c.shown s.armed
  walks : s.scanning = true

theorem SelectWalk.drop {passed : Int} (walk : SelectWalk c passed s (r :: rest)) :
    SelectWalk c passed (timerDeref s true) rest := by
  obtain ⟨popped, spare⟩ := walk.inv.pop
  refine ⟨popped.deref spare true, fun _ => ?_, ?_⟩
  · rw [timerDeref_now, timerDeref_armed]
    exact walk.is (cons_ne_nil r rest)
  · rw [timerDeref_scanning]
    exact walk.walks

/-- The walk through the select requests visits one. -/
theorem SelectWalk.visit {passed : Int} (walk : SelectWalk c passed s (r :: rest))
    (found : Nat → PktFound) : SelectWalk c passed (selectVisit passed found s r) rest := by
  have own : r.memory = false := (walk.inv.waits r mem_cons_self).1 (by decide)
  have fair := walk.inv.waiting r mem_cons_self own
  have is := walk.is (cons_ne_nil r rest)
  have dropped := walk.drop
  have lowered (stays : ¬r.timeout ≤ passed + timerTolerance) :
      SelectWalk c passed (lower s (r.timeout - passed)) (r :: rest) :=
    ⟨walk.inv.lower (by omega), walk.is, walk.walks⟩
  have timedOut (out : r.timeout ≤ passed + timerTolerance) :
      SelectWalk c passed (VioSock.timeOut (timerDeref s true) r) rest := by
    refine ⟨dropped.inv.timeOut ?_, dropped.is, dropped.walks⟩
    rw [timerDeref_now]
    refine fair.notEarly out ?_
    have now := c.shown_le s.now
    omega
  rw [selectVisit]
  split
  · exact dropped
  · exact dropped
  · split
    · rename_i out
      exact timedOut out
    rename_i stays
    refine ⟨(lowered stays).inv.keep rfl fun _ => ?_, fun _ => is, walk.walks⟩
    have aged : Fair c s.now { r with timeout := r.timeout - passed } := by
      rw [is] at stays ⊢
      exact fair.pass walk.inv.past stays
    refine ⟨aged, fun young => absurd young (aged_of_lower walk.walks aged.high ?_)⟩
    exact fun read => nomatch read.1
  · split
    · rename_i out
      exact timedOut out
    · rename_i stays
      exact (lowered stays).drop

theorem TimerInv.selectWorkitem (inv : TimerInv .select c s []) (walked : s.scanning = false)
    (found : Nat → PktFound) : TimerInv .select c (VioSock.selectWorkitem c found s) [] := by
  have start : SelectWalk c (timerPassed c s) (VioSock.startWalk s) s.requests := by
    refine ⟨inv.startWalk walked (by decide), fun nonempty => ?_, rfl⟩
    exact inv.passed (by decide) (append_ne_nil_of_left_ne_nil nonempty _)
  have walk : SelectWalk c (timerPassed c s) _ [] :=
    foldl_rest (fun _ _ _ walk => walk.visit found)
      s.requests start
  rw [VioSock.selectWorkitem]
  split
  · rename_i lowered
    exact walk.inv.setLeast walk.walks lowered
  · rename_i nobody
    exact walk.inv.stopWalk fun _ => Decidable.not_not.mp nobody

/-! ## Runs -/

theorem scanning_atPlace (walked : s.scanning = false) (i : Nat) (place : TimedPlace)
    (keep : ∀ r, (f r).scanning = false) : (atPlace s i place f).scanning = false := by
  rw [atPlace]
  split
  · exact walked
  split
  · exact keep _
  · exact walked

theorem scanning_timerMove (other : user ≠ .read) (walked : s.scanning = false) (op : TimerOp) :
    (timerMove user c s op).scanning = false := by
  have dropped (l : List TimedRequest) :
      (timerDeref { s with requests := l } true).scanning = false := by
    rw [timerDeref_scanning]
    exact walked
  have started (timeout : Int) : (timerMove user c s (.start timeout)).scanning = false := by
    simp only [timerMove]
    rw [timerStart]
    split
    · exact walked
    split <;> exact walked
  cases user with
  | read => exact absurd rfl other
  | write =>
    cases op with
    | start timeout => exact started timeout
    | fire => exact scanning_fire walked
    | leave i =>
      refine scanning_atPlace walked i _ fun r => ?_
      split
      · exact dropped _
      · exact walked
    | abandon i => exact scanning_atPlace walked i _ fun r => walked
    | cancelRoutine i => exact scanning_atPlace walked i _ fun r => dropped _
    | txTimer =>
      simp only [timerMove]
      split
      · exact walked
      · rfl
    | pass _ | forward _ _ | reset _ | readTimer | readVisit _ _ | readTimerEnds
    | otherReadTimer | retrieve | dequeue | selectTimer | workitem => exact walked
  | select =>
    cases op with
    | start timeout => exact started timeout
    | fire => exact scanning_fire walked
    | selectTimer =>
      simp only [timerMove]
      split <;> exact walked
    | workitem => rfl
    | pass _ | forward _ _ | reset _ | leave _ | abandon _ | cancelRoutine _ | txTimer _
    | readTimer | readVisit _ _ | readTimerEnds | otherReadTimer | retrieve _
    | dequeue => exact walked

section

variable (inv : TimerInv user c s [])

include inv

theorem TimerInv.atPlace (i : Nat) (place : TimedPlace)
    (keep : ∀ r, s.requests[i]? = some r → TimerInv user c (f r) []) :
    TimerInv user c (VioSock.atPlace s i place f) [] := by
  rw [VioSock.atPlace]
  split
  · exact inv
  rename_i r here
  split
  · exact keep r here
  · exact inv

theorem TimerInv.goes (here : s.requests[i]? = some r) (place : TimedPlace) :
    TimerInv user c { s with requests := s.requests.set i { r with place := place } } [] := by
  have member := mem_of_getElem? here
  refine inv.replace here rfl fun own => ?_
  exact ⟨(inv.fair r member own).place place,
    fun young => (inv.unaged r member own young).place place⟩

/-- A request leaves and drops its reference. -/
theorem TimerInv.release (here : s.requests[i]? = some r) :
    TimerInv user c (timerDeref { s with requests := s.requests.eraseIdx i } true) [] := by
  obtain ⟨erased, spare⟩ := inv.erase here
  exact erased.deref (by rw [append_nil]; exact spare) true

/-- A new request sets the timer, or joins one that has just been set. -/
theorem TimerInv.fresh (regular : TimerRegular c s (.start timeout)) :
    TimerInv user c (timerMove user c s (.start timeout)) [] := by
  obtain ⟨longer, high, room, walked, joins⟩ := regular
  have numbered : TimerInv user c { s with nextId := s.nextId + 1 } [] := { inv with }
  have charged (time : Nat) (recent : c.shown s.now - c.shown time ≤ timerTolerance) :
      Fair c time (freshRequest user s timeout) := by
    refine ⟨longer, high, ?_⟩
    simp only [freshRequest]
    omega
  refine numbered.start walked longer high room (by simp) ?_ ?_
  · exact fun other => forall_mem_concat (fun r member => (inv.kept r member).1 other) rfl
  · refine forall_mem_concat (fun r member _ => .inl member) fun own => ?_
    refine .inr ⟨charged s.now (by rw [Int.sub_self]; decide), fun joined => charged s.armed ?_⟩
    have recent := joins.resolve_left joined
    rwa [timerPassed_eq (inv.set.resolve_left fun zero => joined (.inl zero))] at recent

theorem TimerInv.pass (time : Nat) : TimerInv user c { s with now := s.now + time } [] :=
  { inv with
      past := le_trans inv.past (Nat.le_add_right ..)
      expired := by
        intro unset
        have ranOut := inv.expired unset
        show (s.armed : Int) + s.timer.timeout ≤ ((s.now + time : Nat) : Int)
        omega
      fair := fun r member own => (inv.fair r member own).mono (Nat.le_add_right ..) }

/-- The timer function is called when the timer is due. -/
theorem TimerInv.fire : TimerInv user c (timerMove user c s .fire) [] := by
  simp only [timerMove]
  split
  · exact inv
  rename_i d due
  split
  · have ranOut := inv.programmed d due
    exact { inv with
      programmed := fun d never => nomatch never
      expired := fun _ => by
        show (s.armed : Int) + s.timer.timeout ≤ s.now
        omega
      quiet := fun _ _ => rfl }
  · exact inv

end

theorem TimerInv.reset (inv : TimerInv .write c s []) (timeout : Int) :
    TimerInv .write c (timerMove .write c s (.reset timeout)) [] := by
  have old {r : TimedRequest} (member : r ∈ s.requests ++ [resetEntry s timeout])
      (own : r.memory = false) : r ∈ s.requests := by
    rcases mem_append.mp member with member | member
    · exact member
    · obtain rfl := mem_singleton.mp member
      cases own
  exact { inv with
    refs := fun write => absurd rfl write
    running := fun write => absurd rfl write
    owned := fun write => absurd rfl write
    fair := fun r member own => inv.fair r (old member own) own
    unaged := fun r member own => inv.unaged r (old member own) own }

theorem TimerInv.selectTimer (inv : TimerInv .select c s []) :
    TimerInv .select c (timerMove .select c s .selectTimer) [] := by
  simp only [timerMove]
  split
  · exact inv
  have called : TimerInv .select c { s with callbacks := s.callbacks - 1 } [] := { inv with }
  refine called.relist (by simp) (forall_mem_map.mpr fun q there => ?_) called.waits
  obtain ⟨owned, kept⟩ := called.kept q there
  exact ⟨owned, fun own => ⟨(kept own).1.lived, fun young => ((kept own).2 young).lived⟩⟩

theorem TimerInv.write (inv : TimerInv .write c s []) (walked : s.scanning = false) (op : TimerOp)
    (regular : TimerRegular c s op) : TimerInv .write c (timerMove .write c s op) [] := by
  cases op with
  | pass time => exact inv.pass time
  | fire => exact inv.fire
  | start => exact inv.fresh regular
  | reset timeout => exact inv.reset timeout
  | leave i =>
    refine inv.atPlace i _ fun r here => ?_
    split
    · exact inv.release here
    · exact (inv.erase here).1
  | abandon i => exact inv.atPlace i _ fun r here => inv.goes here _
  | cancelRoutine i => exact inv.atPlace i _ fun r here => inv.release here
  | txTimer unmarked =>
    simp only [timerMove]
    split
    · exact inv
    · exact inv.txTimer walked regular unmarked
  | forward _ _ | readTimer | readVisit _ _ | readTimerEnds | otherReadTimer | retrieve _
  | dequeue | selectTimer | workitem => exact inv

theorem TimerInv.read (inv : TimerInv .read c s []) (op : TimerOp) (regular : TimerRegular c s op) :
    TimerInv .read c (timerMove .read c s op) [] := by
  cases op with
  | pass time => exact inv.pass time
  | fire => exact inv.fire
  | start => exact inv.fresh regular
  | forward i ok =>
    refine inv.atPlace i _ fun r here => ?_
    cases ok with
    | false => exact inv.release here
    | true => exact inv.goes here _
  | leave i => exact inv.atPlace i _ fun r here => (inv.erase here).1
  | readTimer =>
    simp only [timerMove]
    split
    · exact inv
    · rename_i may
      have walked : s.scanning = false := Bool.eq_false_iff.mpr fun walks => may (.inr walks)
      exact inv.readTimerBegin walked regular
  | readVisit i retrieved =>
    simp only [timerMove]
    split
    · rename_i walks
      exact inv.readTimerVisit walks i retrieved
    · exact inv
  | readTimerEnds =>
    simp only [timerMove]
    split
    · rename_i walks
      exact inv.readTimerEnd walks
    · exact inv
  | otherReadTimer =>
    exact { inv with unaged := fun r member own _ => inv.unaged r member own (.inl regular) }
  | retrieve i => exact inv.atPlace i _ fun r here => inv.goes here _
  | dequeue i e => exact inv.atPlace i _ fun r here => inv.readDequeue regular here e
  | reset | abandon | txTimer | cancelRoutine | selectTimer | workitem => exact inv

theorem TimerInv.select (inv : TimerInv .select c s []) (walked : s.scanning = false) (op : TimerOp)
    (regular : TimerRegular c s op) : TimerInv .select c (timerMove .select c s op) [] := by
  cases op with
  | pass time => exact inv.pass time
  | fire => exact inv.fire
  | start => exact inv.fresh regular
  | selectTimer => exact inv.selectTimer
  | workitem found => exact inv.selectWorkitem walked found
  | forward _ _ | reset _ | leave _ | abandon _ | txTimer _ | cancelRoutine _ | readTimer
  | readVisit | readTimerEnds | otherReadTimer | retrieve | dequeue => exact inv

theorem timerInv_create (user : TimerUser) (c : TickClock) (now : Nat) :
    TimerInv user c (timerCreate now) [] :=
  { past := le_rfl
    period := Int.le_refl 0
    programmed := fun d never => nomatch never
    expired := fun _ => by
      show (now : Int) + 0 ≤ now
      omega
    set := .inl rfl
    refs := fun _ => ⟨Nat.le_refl 0, Nat.two_pow_pos 32⟩
    running := fun _ nonempty => absurd rfl nonempty
    owned := fun _ r member => nomatch member
    fair := fun r member => nomatch member
    unaged := fun r member => nomatch member
    waiting := fun r member => nomatch member
    low := nofun
    quiet := nofun
    notEarly := fun e member => nomatch member }

/-- **Timeouts do not fire early**: a request that is completed with `STATUS_IO_TIMEOUT` was started
no later than its timeout before, less three times the tolerance for each expiry that it lived
through, the one that completes it included, whoever uses the timer. -/
theorem timeout_not_early {start time : Nat}
    (reach : Reachable (· = timerCreate start) (Next (timerStep user c) (TimerRegular c)) s)
    (member : (r, time) ∈ s.timedOut) :
    r.given ≤ (time - r.started : Int) + 3 * timerTolerance * r.expiries := by
  have inv : TimerInv user c s [] ∧ (user ≠ .read → s.scanning = false) := by
    refine reach.machine_run
      (P := fun s => TimerInv user c s [] ∧ (user ≠ .read → s.scanning = false))
      ⟨timerInv_create user c start, fun _ => rfl⟩ ?_
    rintro s op ⟨inv, walked⟩ regular
    refine ⟨_, (), rfl, ?_, fun other => scanning_timerMove other (walked other) op⟩
    cases user with
    | write => exact inv.write (walked (by decide)) op regular
    | read => exact inv.read op regular
    | select => exact inv.select (walked (by decide)) op regular
  exact inv.1.notEarly (r, time) member

end Aging

/-! ## Fixed runs -/

section Fixed

def milliClock : TickClock := { increment := 10000, positive := by decide, fine := by decide }

instance (op : TimerOp) : Decidable (TimerRegular c s op) := by
  unfold TimerRegular
  split <;> infer_instance

instance (op : TimerOp) : Decidable (LongTimeouts s op) := by
  unfold LongTimeouts
  split <;> infer_instance

/-- Two writes of two seconds are started together, and half a second later one of a second, which
sets the timer again.  It times out when it should, the others at the next expiry. -/
theorem timeout_not_early_shared :
    ∃ (s : TimerRun) (r : TimedRequest) (time : Nat), (r, time) ∈ s.timedOut ∧ r.expiries = 2 ∧
      r.given ≤ (time - r.started : Int) + 3 * timerTolerance * r.expiries := by
  have replay : ∃ s ∈
      attempt (timerStep .write milliClock) (TimerRegular milliClock) (timerCreate 10000)
        [.start 20000000, .start 20000000, .pass 5000000, .start 10000000, .pass 10000000, .fire,
          .txTimer fun _ => true, .pass 10000000, .fire, .txTimer fun _ => true],
      ∃ e ∈ s.timedOut, e.1.expiries = 2 := by
    decide +kernel
  obtain ⟨s, reach, ⟨r, time⟩, there, twice⟩ := reachable_of_replay _ replay
  exact ⟨s, r, time, there, twice, timeout_not_early reach there⟩

/-- A write is started with the longest `SendTimeout` there is, and another one a millisecond
before it times out.  Both time out together, the second one after a millisecond and one expiry:
no multiple of the tolerance that a timeout can exceed at all makes up for that. -/
theorem timeout_early : ∃ (s : TimerRun) (r : TimedRequest) (time : Nat),
      Reachable (· = timerCreate 10000) (Next (timerStep .write milliClock) LongTimeouts) s ∧
      (r, time) ∈ s.timedOut ∧ r.expiries = 1 ∧
      ∀ k : Nat, k ≤ 80000000 →
        (time - r.started : Int) + k * timerTolerance * r.expiries < r.given := by
  have replay : ∃ s ∈ attempt (timerStep .write milliClock) LongTimeouts (timerCreate 10000)
      [.start 42949672940000, .pass 42949672930000, .start 42949672940000, .pass 10000, .fire,
        .txTimer fun _ => true],
      ∃ e ∈ s.timedOut, e.1.given = 42949672940000 ∧ e.2 - e.1.started = 10000 ∧
        e.1.expiries = 1 := by
    decide +kernel
  obtain ⟨s, reach, ⟨r, time⟩, there, given, waited, expiries⟩ := reachable_of_replay _ replay
  dsimp only at waited
  refine ⟨s, r, time, reach, there, expiries, fun k few => ?_⟩
  rw [given, expiries, timerTolerance]
  omega

end Fixed

end KvmGuestDrivers.VioSock
