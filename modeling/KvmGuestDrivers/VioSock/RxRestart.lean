/-
# VioSock.RxRestart -- the receive path waits for the replies to leave

`VIOSockRxVqProcess` stops while `TxQueuedReply` is not below `RxPktNum`, and leaves the packets
that the device has used in the ring.  Who lets the counter fall below the limit has to call it
again: `VIOSockTxDequeue`, which notes the crossing in its local variable `bRestartRx` and looks
at it at the end of the loop, and `VIOSockTxCleanup`.
-/
import KvmGuestDrivers.VioSock.TxDevices

namespace KvmGuestDrivers.VioSock

set_option autoImplicit false

open Theory Function

/-! ## The model -/

structure RestartRun where
  tx : TxRun
  bRestartRx : Nat → Bool
  rxCalls : Nat
  /-- `VIOSockRxVqProcess` has stopped for the replies, and was not called since they fell below
  the limit. -/
  stopped : Bool

variable (rxPktNum : Nat)

variable (s : RestartRun)

def rxVqProcess : RestartRun :=
  { s with
      rxCalls := s.rxCalls + 1
      stopped := s.stopped && !txMoreReplies rxPktNum s.tx.dev }

def sendsReply (d : TxDevice) (inserted : Bool) : Bool :=
  match d.txList with
  | [] => false
  | e :: _ => decide (d.slices ≠ 0) && e.reply && inserted

def noteCrossing (d : TxDevice) (inserted bRestartRx : Bool) : Bool :=
  if sendsReply d inserted then
    decide (long ((loopTurn d inserted).1.txQueuedReply + 1) = long rxPktNum)
  else bRestartRx

/-- What a step of call `i`, which is at `p`, does beside its work on the device, which leads
to `t`. -/
def restartCall (t : TxRun) (i : Nat) (inserted : Bool) : TxPoint → RestartRun
  | .dequeuing => { s with tx := t, bRestartRx := update s.bRestartRx i false }
  | .looping =>
    let bRestartRx := noteCrossing rxPktNum s.tx.dev inserted (s.bRestartRx i)
    let s' := { s with tx := t, bRestartRx := update s.bRestartRx i bRestartRx }
    if (loopTurn s.tx.dev inserted).2 = .done ∧ bRestartRx = true then rxVqProcess rxPktNum s'
    else s'
  | _ => { s with tx := t }

/-- The test of `VIOSockTxCleanup`; `d` is the device after the entries were removed. -/
def cleanupCrosses (lCnt : Nat) (d : TxDevice) : Prop :=
  long lCnt ≠ 0 ∧ long rxPktNum ≤ long (d.txQueuedReply + long lCnt) ∧
    d.txQueuedReply < long rxPktNum

instance (lCnt : Nat) (d : TxDevice) : Decidable (cleanupCrosses rxPktNum lCnt d) :=
  inferInstanceAs (Decidable (_ ∧ _ ∧ _))

/-- The operation `op` of the transmit path has led to `t`. -/
def restartTx (t : TxRun) : TxOp → RestartRun
  | .step i ok _ =>
    match s.tx.calls[i]? with
    | none => { s with tx := t }
    | some p => restartCall rxPktNum s t i ok p
  | .cleanup (some socket) =>
    let lCnt := s.tx.dev.txList.countP fun e => cleaned (some socket) e && e.reply
    if s.tx.dev.locked = false ∧ cleanupCrosses rxPktNum lCnt t.dev then
      rxVqProcess rxPktNum { s with tx := t }
    else { s with tx := t }
  | _ => { s with tx := t }

inductive RestartOp where
  | tx (op : TxOp)
  | rxInterrupt
  /-- A call tests `VIOSockTxMoreReplies`, and stops or goes on. -/
  | rxTest
  | rxEnd

/-- The transmit path of `VioSock.TxQueue` with the variable of each call, and the tests that the
receive path makes. -/
def restartStep (txPktNum rxPktNum : Nat) (s : RestartRun) :
    RestartOp → Except Empty (RestartRun × Unit)
  | .tx op =>
    match txStep txPktNum s.tx op with
    | .ok (t, _) => .ok (restartTx rxPktNum s t op, ())
    | .error e => nomatch e
  | .rxInterrupt => .ok (rxVqProcess rxPktNum s, ())
  | .rxTest =>
    if 0 < s.rxCalls ∧ txMoreReplies rxPktNum s.tx.dev = false then
      .ok ({ s with rxCalls := s.rxCalls - 1, stopped := true }, ())
    else .ok (s, ())
  | .rxEnd => .ok ({ s with rxCalls := s.rxCalls - 1 }, ())

def restartStart (txPktNum : Nat) : RestartRun :=
  { tx := txStart txPktNum, bRestartRx := fun _ => false, rxCalls := 0, stopped := false }

/-! ## What a step does to the counter -/

section Counter

variable {d d' : TxDevice} {ok : Bool} {p q : TxPoint} {e : TxEntry}

/-- Outside the loop only an enqueue moves the counter, and a call in the loop stays there until
a turn of it ends it. -/
theorem TxMove.reply (move : TxMove d ok p d' q) (enqueue : ∀ body, p ≠ .queueing body)
    (turn : p ≠ .looping) :
    d'.txQueuedReply = d.txQueuedReply ∧ (p.inLoop = true → q.inLoop = true) := by
  cases move with
  | stay => exact ⟨rfl, id⟩
  | append body => exact absurd rfl (enqueue body)
  | leave | forget | request | send | putBack => exact absurd rfl turn
  | enter | lock | checked | unchecked | map | unmapped | dropped => exact ⟨rfl, fun _ => rfl⟩
  | _ => exact ⟨rfl, fun inLoop => absurd inLoop Bool.false_ne_true⟩

theorem sendsReply_cons {rest : List TxEntry} (list : d.txList = e :: rest) (free : d.slices ≠ 0) :
    sendsReply d ok = (e.reply && ok) := by
  simp [sendsReply, list, free]

theorem reply_of_isWrite (write : e.isWrite = true) : e.reply = false := by
  obtain ⟨id, body⟩ := e
  cases body <;> first | rfl | cases write

/-- A turn that sends a reply counts it, and goes on; another turn leaves the counter alone, and
goes on in the loop or ends it. -/
theorem TxMove.turn_reply (move : TxMove d ok .looping d' q) :
    if sendsReply d ok then d'.txQueuedReply = long (d.txQueuedReply - 1) ∧ q = .looping
    else d'.txQueuedReply = d.txQueuedReply ∧ (q = .done ∨ q.inLoop = true) := by
  cases move with
  | stay _ waits => cases waits
  | leave =>
    have quiet : sendsReply d ok = false := by
      cases list : d.txList <;> simp_all [sendsReply]
    simp [quiet, leaveLoop]
  | forget e _ list free write | request e _ list free write =>
    simp [sendsReply_cons list free, reply_of_isWrite write, sliced, removeHead, TxPoint.inLoop]
  | send e _ list free _ inserted =>
    rw [sendsReply_cons list free, inserted]
    cases reply : e.reply <;>
      simp [sendControl, txPktInsert, reply, sliced, removeHead, TxPoint.inLoop]
  | putBack e _ list free _ failed =>
    simp [sendsReply_cons list free, failed, sendControl, leaveLoop, txPktFree, sliced, removeHead]

theorem crosses_limit {q limit : Int} (range : long q = q) (before : long limit ≤ q)
    (after : long (q - 1) < long limit) : long (long (q - 1) + 1) = long limit := by
  rw [long_add, Int.sub_add_cancel]
  simp only [long, Int.bmod_def] at *
  omega

end Counter

/-! ## The invariant -/

/-- A call in the loop is going to call `VIOSockRxVqProcess`. -/
def RestartRun.Pending : Prop :=
  ∃ i, ∃ p ∈ s.tx.calls[i]?, p.inLoop = true ∧ s.bRestartRx i = true

/-- A stop that the replies no longer justify has a call in the loop whose `bRestartRx` is set. -/
structure Restarts (rxPktNum : Nat) (s : RestartRun) : Prop where
  range : long s.tx.dev.txQueuedReply = s.tx.dev.txQueuedReply
  restarts : s.stopped = true → long rxPktNum ≤ s.tx.dev.txQueuedReply ∨ s.Pending

/-- A call that has seen the replies fall below the limit sends no further one, and the counter
does not wrap. -/
def RestartRegular : RestartOp → Prop
  | .tx (.step i ok _) => ∀ p ∈ s.tx.calls[i]?,
      match p with
      | .queueing (.control _ true) => s.tx.dev.txQueuedReply + 1 < 2 ^ 31
      | .looping => sendsReply s.tx.dev ok = true → s.stopped = true → s.bRestartRx i = true →
          long rxPktNum ≤ s.tx.dev.txQueuedReply
      | _ => True
  | _ => True

section Invariant

variable {rxPktNum} {txPktNum : Nat} {s} {t : RestartRun} {i : Nat} {p q : TxPoint} {d : TxDevice}
  {ok : Bool}

theorem RestartRun.Pending.moved (pending : s.Pending) (here : s.tx.calls[i]? = some p)
    (calls : t.tx.calls = s.tx.calls.set i q) (others : ∀ j ≠ i, t.bRestartRx j = s.bRestartRx j)
    (own : p.inLoop = true → s.bRestartRx i = true → q.inLoop = true ∧ t.bRestartRx i = true) :
    t.Pending := by
  obtain ⟨j, r, there, inLoop, restarts⟩ := pending
  by_cases same : j = i
  · subst same
    rw [here] at there
    cases there
    refine ⟨j, q, ?_, own inLoop restarts⟩
    rw [calls]
    exact getElem?_moved here q
  · refine ⟨j, r, ?_, inLoop, (others j same).trans restarts⟩
    rw [calls]
    exact (List.getElem?_set_ne (Ne.symm same)).trans there

theorem RestartRun.Pending.started (pending : s.Pending) (p : TxPoint) :
    RestartRun.Pending { s with tx := startCall s.tx p } := by
  obtain ⟨j, r, there, inLoop, restarts⟩ := pending
  refine ⟨j, r, ?_, inLoop, restarts⟩
  exact List.getElem?_append_left (List.getElem?_eq_some_iff.mp there).1 ▸ there

/-- Nothing happened to the counter, and whoever was going to restart still is. -/
theorem Restarts.same (inv : Restarts rxPktNum s)
    (reply : t.tx.dev.txQueuedReply = s.tx.dev.txQueuedReply) (stopped : t.stopped = s.stopped)
    (pending : s.Pending → t.Pending) : Restarts rxPktNum t := by
  constructor
  · rw [reply]
    exact inv.range
  · intro stop
    rw [reply]
    exact (inv.restarts (stopped ▸ stop)).imp_right pending

theorem restarts_rxVqProcess (range : long s.tx.dev.txQueuedReply = s.tx.dev.txQueuedReply) :
    Restarts rxPktNum (rxVqProcess rxPktNum s) := by
  refine ⟨range, fun stop => .inl ?_⟩
  have full : s.stopped = true ∧ txMoreReplies rxPktNum s.tx.dev = false := by
    simpa [rxVqProcess] using stop
  simpa [txMoreReplies, rxVqProcess] using full.2

theorem Restarts.turn (inv : Restarts rxPktNum s) (here : s.tx.calls[i]? = some .looping)
    (eq : loopTurn s.tx.dev ok = (d, q)) (move : TxMove s.tx.dev ok .looping d q)
    (regular : sendsReply s.tx.dev ok = true → s.stopped = true → s.bRestartRx i = true →
      long rxPktNum ≤ s.tx.dev.txQueuedReply) :
    Restarts rxPktNum (restartCall rxPktNum s ⟨d, s.tx.calls.set i q⟩ i ok .looping) := by
  have counted := move.turn_reply
  cases sends : sendsReply s.tx.dev ok with
  | true =>
    rw [if_pos sends] at counted
    obtain ⟨after, rfl⟩ := counted
    simp only [restartCall, noteCrossing, sends, eq, reduceCtorEq, false_and, if_false]
    refine ⟨by rw [after]; exact Int.bmod_bmod, fun stop => ?_⟩
    by_cases above : long rxPktNum ≤ d.txQueuedReply
    · exact .inl above
    right
    by_cases before : long rxPktNum ≤ s.tx.dev.txQueuedReply
    · -- this is the crossing
      rw [after] at above
      have crosses := crosses_limit inv.range before (Int.not_le.mp above)
      exact ⟨i, .looping, getElem?_moved here _, rfl, by simp [after, crosses]⟩
    · -- it came earlier, in another call
      have pending := (inv.restarts stop).resolve_left before
      refine pending.moved here rfl (fun j other => ?_) fun _ restarts => ?_
      · exact update_of_ne other _ _
      · exact absurd (regular sends stop restarts) before
  | false =>
    rw [if_neg (by simp [sends])] at counted
    obtain ⟨after, next⟩ := counted
    simp only [restartCall, noteCrossing, sends, eq, Bool.false_eq_true, if_false]
    split
    · apply restarts_rxVqProcess
      rw [after]
      exact inv.range
    rename_i stays
    refine inv.same after rfl fun pending => ?_
    refine pending.moved here rfl (fun j other => ?_) fun _ restarts => ⟨?_, by simp [restarts]⟩
    · exact update_of_ne other _ _
    · exact next.resolve_left fun done => stays ⟨done, restarts⟩

theorem Restarts.enqueue (inv : Restarts rxPktNum s) {body : TxBody}
    (here : s.tx.calls[i]? = some (.queueing body)) (move : TxMove s.tx.dev ok (.queueing body) d q)
    (regular : ∀ socket, body = .control socket true → s.tx.dev.txQueuedReply + 1 < 2 ^ 31) :
    Restarts rxPktNum { s with tx := ⟨d, s.tx.calls.set i q⟩ } := by
  have outside (pending : s.Pending) :
      RestartRun.Pending { s with tx := ⟨d, s.tx.calls.set i q⟩ } :=
    pending.moved here rfl (fun _ _ => rfl) fun inLoop => absurd inLoop Bool.false_ne_true
  have count : d.txQueuedReply = s.tx.dev.txQueuedReply ∨
      d.txQueuedReply = long (s.tx.dev.txQueuedReply + 1) ∧
        s.tx.dev.txQueuedReply + 1 < 2 ^ 31 := by
    cases move with
    | stay | unmarked => exact .inl rfl
    | append body _ _ _ eq =>
      have replies := congrArg (·.1.txQueuedReply) eq
      cases body with
      | write => cases ok <;> exact .inl replies.symm
      | control socket reply =>
        cases reply with
        | false => exact .inl replies.symm
        | true => exact .inr ⟨replies.symm, regular socket rfl⟩
      | reset => exact .inl replies.symm
  obtain same | ⟨more, room⟩ := count
  · exact inv.same same rfl outside
  have low : -(2 ^ 31) ≤ s.tx.dev.txQueuedReply := by
    have range := inv.range
    simp only [long, Int.bmod_def] at range
    omega
  rw [long_eq (by omega) room] at more
  constructor
  · rw [more]
    exact long_eq (by omega) room
  intro stop
  rw [more]
  refine (inv.restarts stop).imp (fun above => ?_) outside
  omega

theorem Restarts.call (inv : Restarts rxPktNum s) {used : Nat → Bool}
    (here : s.tx.calls[i]? = some p) (eq : txAdvance s.tx.dev ok used p = (d, q))
    (move : TxMove s.tx.dev ok p d q)
    (regular : RestartRegular rxPktNum s (.tx (.step i ok used))) :
    Restarts rxPktNum (restartCall rxPktNum s ⟨d, s.tx.calls.set i q⟩ i ok p) := by
  have regular := regular p here
  by_cases turn : p = .looping
  · subst turn
    exact inv.turn here eq move regular
  by_cases enqueue : ∃ body, p = .queueing body
  · obtain ⟨body, rfl⟩ := enqueue
    refine inv.enqueue here move fun socket control => ?_
    subst control
    exact regular
  obtain ⟨reply, stays⟩ := move.reply (not_exists.mp enqueue) turn
  -- the variable of a call that is not in the loop yet does not matter
  cases p with
  | dequeuing =>
    refine inv.same reply rfl fun pending => ?_
    refine pending.moved here rfl (fun j other => ?_) fun inLoop =>
      absurd inLoop Bool.false_ne_true
    exact update_of_ne other _ _
  | looping => exact absurd rfl turn
  | queueing body => exact absurd ⟨body, rfl⟩ enqueue
  | validating | taking | draining | freeing | locking | checking | mapping | dropping | done =>
    refine inv.same reply rfl fun pending => ?_
    exact pending.moved here rfl (fun _ _ => rfl) fun inLoop restarts => ⟨stays inLoop, restarts⟩

theorem cleanup_crosses {q : Int} {lCnt : Nat} (range : long q = q)
    (counted : d.txQueuedReply = long (q - lCnt)) (before : long rxPktNum ≤ q)
    (after : d.txQueuedReply < long rxPktNum) : cleanupCrosses rxPktNum lCnt d := by
  refine ⟨fun zero => ?_, ?_, after⟩
  · have same : d.txQueuedReply = q := by
      calc d.txQueuedReply = long (q - lCnt) := counted
        _ = long (q - long lCnt) := Int.sub_bmod_bmod.symm
        _ = q := by rw [zero, Int.sub_zero, range]
    omega
  · have back : long (d.txQueuedReply + long lCnt) = q := by
      calc long (d.txQueuedReply + long lCnt) = long (d.txQueuedReply + lCnt) := Int.add_bmod_bmod
        _ = long (q - lCnt + lCnt) := by rw [counted, long_add]
        _ = q := by rw [Int.sub_add_cancel, range]
    rw [back]
    exact before

theorem Restarts.cleanup (inv : Restarts rxPktNum s) (socket : Option Nat)
    (free : s.tx.dev.locked = false) :
    Restarts rxPktNum (restartTx rxPktNum s { s.tx with dev := txCleanup s.tx.dev socket }
      (.cleanup socket)) := by
  cases socket with
  | none => exact inv.same rfl rfl id
  | some socket =>
    simp only [restartTx, free, true_and]
    generalize removed : (s.tx.dev.txList.countP fun e =>
      cleaned (some socket) e && e.reply) = lCnt
    have counted : (txCleanup s.tx.dev (some socket)).txQueuedReply =
        long (s.tx.dev.txQueuedReply - lCnt) := by
      simp [txCleanup, removed]
    have range : long (txCleanup s.tx.dev (some socket)).txQueuedReply =
        (txCleanup s.tx.dev (some socket)).txQueuedReply := by
      exact Int.bmod_bmod
    split
    · exact restarts_rxVqProcess range
    rename_i misses
    refine ⟨range, fun stop => ?_⟩
    by_cases before : long rxPktNum ≤ s.tx.dev.txQueuedReply
    · left
      by_contra below
      exact misses (cleanup_crosses inv.range counted before (Int.not_le.mp below))
    · exact .inr ((inv.restarts stop).resolve_left before)

/-- Apart from the steps of a call and the cleanup, nothing touches the counter. -/
theorem Restarts.effect (inv : Restarts rxPktNum s) {op : TxOp} {t : TxRun}
    (effect : TxEffect s.tx op t) (regular : RestartRegular rxPktNum s (.tx op)) :
    Restarts rxPktNum (restartTx rxPktNum s t op) := by
  cases effect with
  | refused op starts => cases op <;> first | exact inv | cases starts
  | start op starts p =>
    have started := inv.same (t := { s with tx := startCall s.tx p }) rfl rfl (·.started p)
    cases op <;> first | exact started | cases starts
  | absent i ok _ gone =>
    rw [restartTx, gone]
    exact inv
  | step i ok _ here eq move =>
    rw [restartTx, here]
    exact inv.call here eq move regular
  | locked op waits locked =>
    cases op with
    | cleanup socket => cases socket <;> simpa [restartTx, locked] using inv
    | _ => first | exact inv | cases waits
  | callback i inserted =>
    obtain ⟨_, _, _, _, _, same⟩ := txDequeueCallback_frame s.tx.dev i inserted
    exact inv.same (by rw [same]; rfl) rfl id
  | cancel i =>
    obtain ⟨_, _, same⟩ := cancelRequest_frame s.tx.dev i
    exact inv.same (by rw [same]; rfl) rfl id
  | cancelRoutine i =>
    obtain ⟨_, _, _, same⟩ := txEnqueueCancel_frame s.tx.dev i
    exact inv.same (by rw [same]; rfl) rfl id
  | cleanup socket free => exact inv.cleanup socket free
  | timer | header => exact inv.same rfl rfl id

theorem Restarts.step (inv : Restarts rxPktNum s) (op : RestartOp)
    (regular : RestartRegular rxPktNum s op) :
    ∃ t out, restartStep txPktNum rxPktNum s op = .ok (t, out) ∧ Restarts rxPktNum t := by
  cases op with
  | rxInterrupt => exact ⟨_, _, rfl, restarts_rxVqProcess inv.range⟩
  | rxTest =>
    rw [restartStep]
    split
    · rename_i full
      refine ⟨_, _, rfl, inv.range, fun _ => .inl ?_⟩
      simpa [txMoreReplies] using full.2
    · exact ⟨_, _, rfl, inv⟩
  | rxEnd => exact ⟨_, _, rfl, inv.same rfl rfl id⟩
  | tx op =>
    obtain ⟨t, stepped, effect⟩ := txStep_effect txPktNum s.tx op
    exact ⟨_, (), by simp only [restartStep, stepped], inv.effect effect regular⟩

/-- **The receive path is restarted**: once the replies that it has stopped for fell below the
limit, `VIOSockRxVqProcess` was called again, or a call in the loop of `VIOSockTxDequeue` is
going to call it; and when no such call is left it was. -/
theorem rx_restarted (reach : Reachable (· = restartStart txPktNum)
      (Next (restartStep txPktNum rxPktNum) (RestartRegular rxPktNum)) s)
    (stop : s.stopped = true) :
    (long rxPktNum ≤ s.tx.dev.txQueuedReply ∨ s.Pending) ∧
      ((∀ p ∈ s.tx.calls, p.inLoop = false) → long rxPktNum ≤ s.tx.dev.txQueuedReply) := by
  have inv : Restarts rxPktNum s := by
    refine reach.machine_run ⟨rfl, nofun⟩ ?_
    intro s op inv regular
    exact inv.step op regular
  refine ⟨inv.restarts stop, fun quiet => ?_⟩
  refine (inv.restarts stop).resolve_right ?_
  rintro ⟨i, p, there, inLoop, _⟩
  rw [quiet p (List.mem_of_getElem? there)] at inLoop
  cases inLoop

end Invariant

/-! ## Fixed runs -/

section Fixed

instance (op : RestartOp) : Decidable (RestartRegular rxPktNum s op) := by
  unfold RestartRegular
  split
  · refine @Option.decidableForallMem _ _ (fun p => ?_) _
    split <;> infer_instance
  all_goals infer_instance

/-- `n` packets take all slices, `n` replies are queued, and the receive path stops; then the
device uses the packets, and the call for that takes `m` steps. -/
def stopAndSend (n m : Nat) : List RestartOp :=
  ((List.range n).flatMap fun i => .control 0 false true :: goOn i 8).map .tx ++
    ((List.range n).flatMap fun i => .control 0 true true :: goOn (n + i) 7).map .tx ++
    [.rxInterrupt, .rxTest, .tx .interrupt, .tx (.step (2 * n) true fun _ => true)] ++
    (goOn (2 * n) m).map .tx

/-- A ring of one packet: the only reply is sent, and the call has not left the loop. -/
theorem rx_restarted_sent :
    ∃ s : RestartRun, s.stopped = true ∧ s.tx.dev.txQueuedReply = 0 ∧ s.Pending := by
  have replay : ∃ s ∈ attempt (restartStep 1 1) (RestartRegular 1) (restartStart 1)
      (stopAndSend 1 4), s.stopped = true ∧ s.tx.dev.txQueuedReply = 0 := by
    decide +kernel
  obtain ⟨s, reach, stop, empty⟩ := reachable_of_replay _ replay
  refine ⟨s, stop, empty, ?_⟩
  refine (rx_restarted reach stop).1.resolve_left ?_
  rw [empty]
  decide

/-- A ring of two packets: the first reply that is sent sets `bRestartRx`, and the second clears
it.  No call is in progress, the receive path has stopped, and no reply is queued. -/
theorem rx_not_restarted :
    ∃ s, Reachable (· = restartStart 2) (Next (restartStep 2 2) fun _ _ => True) s ∧
      TxIdle s.tx ∧ s.stopped = true ∧ s.tx.dev.txQueuedReply = 0 := by
  refine reachable_of_replay (stopAndSend 2 6) ?_
  decide +kernel

end Fixed

end KvmGuestDrivers.VioSock
