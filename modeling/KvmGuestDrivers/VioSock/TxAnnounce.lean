/-
# VioSock.TxAnnounce -- telling the peer about freed receive space

Every header carries `fwd_cnt`, the bytes that were taken out of the receive buffer so far, and
`VIOSockRxIncTxPkt` notes in `last_fwd_cnt` what the peer has been told.  It does so when the
packet is filled; the packet may still be thrown away, or be overtaken by another one.  A read
asks for a credit update when `last_fwd_cnt` says that the peer sees less than a packet of space.
-/
import KvmGuestDrivers.VioSock.TxCredit
import Mathlib.Data.List.InsertIdx

namespace KvmGuestDrivers.VioSock

set_option autoImplicit false

open Theory List

/-! ## The model -/

/-- The transmit path, and the receive side of one socket. -/
structure AnnounceRun where
  tx : TxRun
  fwdCnt : BitVec 32
  lastFwdCnt : BitVec 32
  rxBytes : BitVec 32
  /-- A read has taken bytes, and not yet looked at the window; it holds `RxLock`. -/
  reading : Bool
  /-- `fwd_cnt` of the most recent header of the socket in the virtqueue. -/
  told : BitVec 32
  /-- `fwd_cnt` of the packet that each call is about to send. -/
  held : Nat → BitVec 32
  mapped : List (TxPkt × BitVec 32)

variable (s : AnnounceRun)

def takeBytes (len : BitVec 32) : AnnounceRun :=
  if len ≤ s.rxBytes then
    { s with
        rxBytes := s.rxBytes - len
        fwdCnt := s.fwdCnt + len
        reading := s.reading || decide (len ≠ 0) }
  else s

/-- `VIOSockRxIncTxPkt` reads `fwd_cnt` twice, without `RxLock`; a read may take `between` bytes
in the meantime.  The header gets the second value. -/
def rxIncTxPkt (between : BitVec 32) : AnnounceRun :=
  takeBytes { s with lastFwdCnt := s.fwdCnt } between

variable (k : Nat)

/-- What a turn of call `i` does to the headers of socket `k`. -/
def announceTurn (s : AnnounceRun) (i : Nat) (inserted : Bool) (between : BitVec 32) :
    AnnounceRun :=
  match s.tx.dev.txList with
  | [] => s
  | e :: _ =>
    if s.tx.dev.slices = 0 ∨ e.socket ≠ some k then s
    else
      let s' := rxIncTxPkt s between
      if e.isWrite then { s' with held := Function.update s'.held i s'.fwdCnt }
      else if inserted then { s' with told := s'.fwdCnt }
      else s'

def announceCallback (s : AnnounceRun) (j : Nat) (inserted : Bool) : AnnounceRun :=
  if s.tx.dev.locked then s
  else
    match s.mapped[j]? with
    | none => s
    | some (pkt, fwdCnt) =>
      { s with
          mapped := s.mapped.eraseIdx j
          told := if inserted = true ∧ pkt.socket = some k then fwdCnt else s.told }

def announceTx (s : AnnounceRun) (between : BitVec 32) : TxOp → AnnounceRun
  | .step i ok _ =>
    match s.tx.calls[i]? with
    | some .looping => announceTurn k s i ok between
    | some (.mapping pkt) => if ok then { s with mapped := s.mapped ++ [(pkt, s.held i)] } else s
    | _ => s
  | .callback j inserted => announceCallback k s j inserted
  | _ => s

variable (bufAlloc : BitVec 32)

def freeSpace (s : AnnounceRun) : BitVec 32 :=
  bufAlloc - (s.fwdCnt - s.lastFwdCnt)

inductive AnnounceOp where
  /-- An operation of the transmit path; `between` matters where it fills a packet. -/
  | tx (op : TxOp) (between : BitVec 32)
  | packet (len : BitVec 32)
  | take (len : BitVec 32)
  /-- The end of `VIOSockReadDequeueCb`; `allocated` is for the entry of a credit update. -/
  | endRead (allocated : Bool)

/-- The transmit path of `VioSock.TxQueue` with the headers of one socket, and the reads that free
its buffer.  A read and a packet that is being filled hold different locks. -/
def announceStep (txPktNum : Nat) (s : AnnounceRun) : AnnounceOp → Except Empty (AnnounceRun × Unit)
  | .tx op between =>
    match txStep txPktNum s.tx op with
    | .ok (t, _) => .ok ({ announceTx k s between op with tx := t }, ())
    | .error e => nomatch e
  | .packet len =>
    if bufAlloc < s.rxBytes + len then .ok (s, ())
    else .ok ({ s with rxBytes := s.rxBytes + len }, ())
  | .take len => .ok (takeBytes s len, ())
  | .endRead allocated =>
    if (freeSpace bufAlloc s).toNat < maxPktBufSize then
      match txStep txPktNum s.tx (.control k false allocated) with
      | .ok (t, _) => .ok ({ s with tx := t, reading := false }, ())
      | .error e => nomatch e
    else .ok ({ s with reading := false }, ())

/-- The connection was set up by packets that said zero. -/
def announceStart (txPktNum : Nat) : AnnounceRun :=
  { tx := txStart txPktNum, fwdCnt := 0, lastFwdCnt := 0, rxBytes := 0, reading := false
    told := 0, held := fun _ => 0, mapped := [] }

def AnnounceIdle : Prop := TxIdle s.tx ∧ s.reading = false

/-! ## The invariant -/

def TxEntry.controlOf (e : TxEntry) : Bool :=
  !e.isWrite && decide (e.socket = some k)

def Queued (d : TxDevice) : Prop := ∃ e ∈ d.txList, e.controlOf k = true

def TxPoint.carries : TxPoint → Bool
  | .checking pkt | .mapping pkt => decide (pkt.socket = some k)
  | _ => false

/-- The call is going to queue a packet of the socket without a request. -/
def TxPoint.asks : TxPoint → Bool
  | .taking (.control socket _) | .queueing (.control socket _) => decide (socket = k)
  | _ => false

/-- A packet with the value of `lastFwdCnt` is on its way. -/
def Carried (s : AnnounceRun) : Prop :=
  (∃ i, ∃ p ∈ s.tx.calls[i]?, p.carries k = true ∧ s.held i = s.lastFwdCnt) ∨
    ∃ m ∈ s.mapped, m.1.socket = some k ∧ m.2 = s.lastFwdCnt

/-- What was noted is in the queue, or on its way; a window that is too small has somebody who asks
for an update. -/
structure Announces (k : Nat) (bufAlloc : BitVec 32) (s : AnnounceRun) : Prop where
  linked : Linked s.tx.dev
  transactions : s.mapped.map Prod.fst = s.tx.dev.transactions
  noted : s.told = s.lastFwdCnt ∨ Carried k s ∨ Queued k s.tx.dev
  window : 2 * maxPktBufSize ≤ bufAlloc.toNat →
    maxPktBufSize ≤ (freeSpace bufAlloc s).toNat ∨ s.reading = true ∨
      Queued k s.tx.dev ∨ ∃ p ∈ s.tx.calls, p.asks k = true

/-- No news is lost.  While a packet of the socket is filled, no bytes are taken; a packet is
thrown away only if it has no news, or newer ones are on their way; it is not inserted after newer
ones; and a credit update finds memory.  The socket stays connected, so that it is not cleaned
up. -/
def AnnounceRegular (s : AnnounceRun) : AnnounceOp → Prop
  | .tx (.step i ok _) between => ∀ p ∈ s.tx.calls[i]?,
      match p with
      | .looping => s.tx.dev.slices ≠ 0 → ∀ e ∈ s.tx.dev.txList.head?, e.socket = some k →
          between = 0 ∧ (e.cancelled = true → s.told = s.fwdCnt)
      | .checking pkt | .mapping pkt =>
        ok = true ∨ pkt.socket ≠ some k ∨ s.told = s.lastFwdCnt ∨ s.held i ≠ s.lastFwdCnt
      | _ => True
  | .tx (.callback j inserted) _ => s.tx.dev.locked = false → ∀ m ∈ s.mapped[j]?,
      m.1.socket = some k →
        if inserted then s.told = s.lastFwdCnt → m.2 = s.lastFwdCnt
        else s.told = s.lastFwdCnt ∨ m.2 ≠ s.lastFwdCnt
  | .tx (.cleanup socket) _ => socket ≠ none ∧ socket ≠ some k
  | .endRead allocated => (freeSpace bufAlloc s).toNat < maxPktBufSize → allocated = true
  | _ => True

/-! ## What the steps of the transmit path keep -/

section Keeps

variable {k} {d d' : TxDevice} {ok : Bool} {used : Nat → Bool} {p q : TxPoint}

theorem Queued.keep (queued : Queued k d)
    (keeps : ∀ e ∈ d.txList, e.controlOf k = true → e ∈ d'.txList) : Queued k d' := by
  obtain ⟨e, member, control⟩ := queued
  exact ⟨e, keeps e member control, control⟩

/-- Outside a turn of the loop no call takes an entry from the list, and only the mapping starts
a transaction. -/
theorem TxMove.keeps (move : TxMove d ok p d' q) (turn : p ≠ .looping)
    (mapping : ∀ pkt, p ≠ .mapping pkt) :
    (∀ e ∈ d.txList, e ∈ d'.txList) ∧ d'.transactions = d.transactions := by
  cases move with
  | append => exact ⟨fun e member => mem_append_left _ member, rfl⟩
  | leave | forget | request | send | putBack => exact absurd rfl turn
  | map pkt => exact absurd rfl (mapping pkt)
  | _ => exact ⟨fun _ => id, rfl⟩

theorem asks_advance (eq : txAdvance d ok used p = (d', q)) (asks : p.asks k = true) :
    Queued k d' ∨ q.asks k = true := by
  cases p with
  | taking body =>
    cases body with
    | control =>
      cases eq
      exact .inr asks
    | write | reset => cases asks
  | queueing body =>
    cases body with
    | control socket reply =>
      simp only [txAdvance] at eq
      split at eq
      · cases eq
        exact .inr asks
      cases eq
      refine .inl ⟨⟨d.nextId, .control socket reply⟩, ?_, ?_⟩
      · simp [txEnqueue, appendEntry]
      · simpa [TxEntry.controlOf, TxEntry.isWrite, TxEntry.socket, TxPoint.asks] using asks
    | write | reset => cases asks
  | validating | draining | freeing | dequeuing | locking | looping | checking | mapping
  | dropping | done => cases asks

theorem control_passTime (passed : Int) {e : TxEntry} (control : e.controlOf k = true) :
    expired passed e = false ∧ passTime passed e = e := by
  obtain ⟨id, body⟩ := e
  cases body with
  | control => exact ⟨by simp [expired, TxEntry.timeout], rfl⟩
  | write => cases control
  | reset => simp [TxEntry.controlOf, TxEntry.socket] at control

section

variable (queued : Queued k d)

include queued

theorem Queued.timer (passed : Int) : Queued k (txTimerFunc d passed) := by
  refine queued.keep fun e member control => ?_
  obtain ⟨stays, same⟩ := control_passTime passed control
  refine mem_map.mpr ⟨e, mem_filter.mpr ⟨member, ?_⟩, same⟩
  rw [stays]
  rfl

theorem Queued.cancel (i : Nat) : Queued k (cancelRequest d i) := by
  unfold cancelRequest
  split
  · rename_i id _ _ _ there
    refine queued.keep fun e member control => ?_
    obtain ⟨j, found⟩ := getElem?_of_mem member
    have other : i ≠ j := by
      rintro rfl
      rw [there] at found
      cases found
      cases control
    exact mem_of_getElem? ((getElem?_set_ne other).trans found)
  · exact queued

theorem Queued.cancelRoutine (linked : Linked d) (i : Nat) : Queued k (txEnqueueCancel d i) := by
  unfold txEnqueueCancel
  split
  · exact queued
  rename_i c there
  refine queued.keep fun e member control => ?_
  refine mem_filter.mpr ⟨member, ?_⟩
  have live : e.cancelled = false := cancelled_of_control (by simp_all [TxEntry.controlOf])
  have other : e.id ≠ c.id := by
    intro same
    have marked := linked.marked c (mem_of_getElem? there) e member same
    rw [live] at marked
    cases marked
  simpa using other

theorem Queued.cleanup {socket : Option Nat} (given : socket ≠ none)
    (other : socket ≠ some k) : Queued k (txCleanup d socket) := by
  refine queued.keep fun e member control => mem_filter.mpr ⟨member, ?_⟩
  have owner : e.socket = some k := by
    simp only [TxEntry.controlOf, Bool.and_eq_true, decide_eq_true_eq] at control
    exact control.2
  simp [cleaned, given, owner, Ne.symm other]

end

end Keeps

/-! ## Steps -/

variable {between : BitVec 32}

section Steps

variable {k} {txPktNum j : Nat} {bufAlloc} {s} {i : Nat} {p q : TxPoint} {d : TxDevice} {ok : Bool}
  {t : TxRun} {pkt : TxPkt}

theorem Carried.moved (carried : Carried k s) (here : s.tx.calls[i]? = some p)
    (calls : t.calls = s.tx.calls.set i q)
    (keeps : p.carries k = true → s.held i = s.lastFwdCnt → q.carries k = true) :
    Carried k { s with tx := t } := by
  obtain ⟨j, r, there, carries, same⟩ | mapped := carried
  · left
    by_cases own : j = i
    · subst own
      rw [here] at there
      cases there
      refine ⟨j, q, ?_, keeps carries same, same⟩
      rw [calls]
      exact getElem?_moved here q
    · refine ⟨j, r, ?_, carries, same⟩
      rw [calls]
      exact (getElem?_set_ne (Ne.symm own)).trans there
  · exact .inr mapped

section

variable (inv : Announces k bufAlloc s)

include inv

/-- The transmit path moves, and the headers of the socket stay as they are. -/
theorem Announces.frame (linked : Linked t.dev)
    (transactions : t.dev.transactions = s.tx.dev.transactions)
    (carried : Carried k s → s.told = s.lastFwdCnt ∨ Carried k { s with tx := t })
    (queued : Queued k s.tx.dev → Queued k t.dev)
    (asked : (∃ p ∈ s.tx.calls, p.asks k = true) →
      Queued k t.dev ∨ ∃ p ∈ t.calls, p.asks k = true) :
    Announces k bufAlloc { s with tx := t } := by
  refine ⟨linked, inv.transactions.trans transactions.symm, ?_, fun large => ?_⟩
  · obtain told | onTheWay | waits := inv.noted
    · exact .inl told
    · exact (carried onTheWay).imp_right .inl
    · exact .inr (.inr (queued waits))
  · obtain wide | reads | waits | calls := inv.window large
    · exact .inl wide
    · exact .inr (.inl reads)
    · exact .inr (.inr (.inl (queued waits)))
    · exact .inr (.inr (asked calls))

theorem Announces.device (linked : Linked d) (transactions : d.transactions = s.tx.dev.transactions)
    (queued : Queued k s.tx.dev → Queued k d) :
    Announces k bufAlloc { s with tx := { s.tx with dev := d } } :=
  inv.frame linked transactions .inr queued .inr

theorem Announces.start (p : TxPoint) : Announces k bufAlloc { s with tx := startCall s.tx p } := by
  refine inv.frame inv.linked rfl (fun carried => .inr ?_) id fun asked => .inr ?_
  · obtain ⟨j, r, there, carries, same⟩ | mapped := carried
    · refine .inl ⟨j, r, ?_, carries, same⟩
      exact (getElem?_append_left (List.getElem?_eq_some_iff.mp there).1).trans there
    · exact .inr mapped
  · obtain ⟨r, member, asks⟩ := asked
    exact ⟨r, mem_append_left _ member, asks⟩

theorem Announces.advance {used : Nat → Bool} (here : s.tx.calls[i]? = some p)
    (eq : txAdvance s.tx.dev ok used p = (d, q)) (move : TxMove s.tx.dev ok p d q)
    (turn : p ≠ .looping) (mapping : ∀ pkt, p ≠ .mapping pkt)
    (carries : p.carries k = true → s.held i = s.lastFwdCnt → s.told ≠ s.lastFwdCnt →
      q.carries k = true) :
    Announces k bufAlloc { s with tx := ⟨d, s.tx.calls.set i q⟩ } := by
  obtain ⟨list, transactions⟩ := move.keeps turn mapping
  refine inv.frame (inv.linked.advance move) transactions (fun carried => ?_) ?_ ?_
  · by_cases told : s.told = s.lastFwdCnt
    · exact .inl told
    · exact .inr (carried.moved here rfl fun own same => carries own same told)
  · intro queued
    exact queued.keep fun e member _ => list e member
  rintro ⟨r, member, asks⟩
  obtain ⟨j, there⟩ := getElem?_of_mem member
  by_cases own : j = i
  · subst own
    rw [here] at there
    cases there
    refine (asks_advance eq asks).imp_right fun still => ⟨_, ?_, still⟩
    exact mem_of_getElem? (getElem?_moved here _)
  · right
    refine ⟨r, mem_of_getElem? ((getElem?_set_ne (Ne.symm own)).trans there), asks⟩

theorem Announces.mapped (here : s.tx.calls[i]? = some (.mapping pkt)) : Announces k bufAlloc
      { s with
          mapped := s.mapped ++ [(pkt, s.held i)]
          tx :=
            { dev := { s.tx.dev with transactions := s.tx.dev.transactions ++ [pkt] }
              calls := s.tx.calls.set i .locking } } := by
  refine ⟨inv.linked.same rfl rfl rfl, ?_, ?_, fun large => ?_⟩
  · rw [map_append, inv.transactions]
    rfl
  · refine inv.noted.imp_right (Or.imp_left fun carried => ?_)
    obtain ⟨j, r, there, carries, same⟩ | ⟨m, member, news⟩ := carried
    · by_cases own : j = i
      · subst own
        rw [here] at there
        cases there
        refine .inr ⟨(pkt, s.held j), mem_append_right _ (mem_singleton_self _), ?_⟩
        exact ⟨by simpa [TxPoint.carries] using carries, same⟩
      · exact .inl ⟨j, r, (getElem?_set_ne (Ne.symm own)).trans there, carries, same⟩
    · exact .inr ⟨m, mem_append_left _ member, news⟩
  · refine (inv.window large).imp_right (Or.imp_right (Or.imp_right ?_))
    exact exists_mem_move here (fun asks => absurd asks Bool.false_ne_true)

end

theorem Carried.erase (carried : Carried k s) {fwdCnt : BitVec 32}
    (there : s.mapped[j]? = some (pkt, fwdCnt))
    (other : pkt.socket = some k → fwdCnt ≠ s.lastFwdCnt) (calls : t.calls = s.tx.calls)
    (told : BitVec 32) :
    Carried k { s with mapped := s.mapped.eraseIdx j, told := told, tx := t } := by
  obtain inCall | ⟨m, member, owner, news⟩ := carried
  · left
    rw [← calls] at inCall
    exact inCall
  obtain ⟨j', found⟩ := getElem?_of_mem member
  refine .inr ⟨m, mem_eraseIdx_iff_getElem?.mpr ⟨j', ?_, found⟩, owner, news⟩
  rintro rfl
  rw [there] at found
  cases found
  exact other owner news

theorem Announces.callback (inv : Announces k bufAlloc s) {inserted : Bool}
    (free : s.tx.dev.locked = false)
    (regular : AnnounceRegular k bufAlloc s (.tx (.callback j inserted) between)) :
    Announces k bufAlloc
      { announceCallback k s j inserted with
          tx := { s.tx with dev := txDequeueCallback s.tx.dev j inserted } } := by
  rw [announceCallback, if_neg (by simp [free])]
  have aligned : s.tx.dev.transactions[j]? = s.mapped[j]?.map Prod.fst := by
    rw [← inv.transactions, getElem?_map]
  cases there : s.mapped[j]? with
  | none =>
    have nothing : txDequeueCallback s.tx.dev j inserted = s.tx.dev := by
      rw [txDequeueCallback, aligned, there]
      rfl
    rw [nothing]
    exact inv
  | some m =>
    obtain ⟨pkt, fwdCnt⟩ := m
    have regular := regular free (pkt, fwdCnt) there
    have queued : Queued k s.tx.dev → Queued k (txDequeueCallback s.tx.dev j inserted) := by
      obtain ⟨_, _, _, _, _, same⟩ := txDequeueCallback_frame s.tx.dev j inserted
      rw [same]
      exact id
    have transactions : (txDequeueCallback s.tx.dev j inserted).transactions =
        s.tx.dev.transactions.eraseIdx j := by
      rw [txDequeueCallback, aligned, there]
      cases inserted <;> rfl
    refine ⟨inv.linked.step (.callback j inserted free), ?_, ?_, fun large => ?_⟩
    · rw [transactions, ← inv.transactions, eraseIdx_map]
    · by_cases news : pkt.socket = some k ∧ fwdCnt = s.lastFwdCnt
      · -- the packet that was waited for: it is inserted, or the peer knows already
        left
        have regular := regular news.1
        cases inserted with
        | true => simp [news]
        | false => simpa [news.2] using regular
      · have other (owner : pkt.socket = some k) : fwdCnt ≠ s.lastFwdCnt :=
          fun same => news ⟨owner, same⟩
        obtain told | carried | waits := inv.noted
        · left
          cases inserted with
          | false => exact told
          | true =>
            have foreign : pkt.socket ≠ some k := fun owner =>
              other owner (regular owner told)
            simpa [foreign] using told
        · exact .inr (.inl (carried.erase there other rfl s.told))
        · exact .inr (.inr (queued waits))
    · exact (inv.window large).imp_right (Or.imp_right (Or.imp_left queued))

theorem rxIncTxPkt_zero (s : AnnounceRun) : rxIncTxPkt s 0 = { s with lastFwdCnt := s.fwdCnt } := by
  simp [rxIncTxPkt, takeBytes]

theorem freeSpace_fresh (large : 2 * maxPktBufSize ≤ bufAlloc.toNat)
    (fresh : s.lastFwdCnt = s.fwdCnt) : maxPktBufSize ≤ (freeSpace bufAlloc s).toNat := by
  have whole : freeSpace bufAlloc s = bufAlloc := by simp [freeSpace, fresh]
  rw [whole]
  omega

/-- A packet of the socket is filled: the window is as large as can be. -/
theorem Announces.filled (inv : Announces k bufAlloc s) (t : TxRun) (linked : Linked t.dev)
    (transactions : t.dev.transactions = s.tx.dev.transactions) {told : BitVec 32}
    {held : Nat → BitVec 32}
    (noted : told = s.fwdCnt ∨
      Carried k { s with tx := t, lastFwdCnt := s.fwdCnt, told := told, held := held } ∨
        Queued k t.dev) :
    Announces k bufAlloc
      { s with tx := t, lastFwdCnt := s.fwdCnt, told := told, held := held } := by
  refine ⟨linked, inv.transactions.trans transactions.symm, noted, fun large => ?_⟩
  exact .inl (freeSpace_fresh large rfl)

theorem announceTurn_other
    (other : s.tx.dev.slices ≠ 0 → ∀ e ∈ s.tx.dev.txList.head?, e.socket ≠ some k) :
    announceTurn k s i ok between = s := by
  rw [announceTurn]
  split
  · rfl
  rename_i e _ list
  refine if_pos (or_iff_not_imp_left.mpr fun free => other free e ?_)
  rw [list]
  rfl

theorem announceTurn_own {e : TxEntry} (free : s.tx.dev.slices ≠ 0)
    (first : s.tx.dev.txList.head? = some e) (owner : e.socket = some k) :
    announceTurn k s i ok 0 = if e.isWrite then
        { s with lastFwdCnt := s.fwdCnt, held := Function.update s.held i s.fwdCnt }
      else if ok then { s with lastFwdCnt := s.fwdCnt, told := s.fwdCnt }
      else { s with lastFwdCnt := s.fwdCnt } := by
  obtain ⟨_, list⟩ := head?_eq_some_iff.mp first
  simp only [announceTurn, list, rxIncTxPkt_zero]
  exact if_neg (by simp [free, owner])

section

variable (inv : Announces k bufAlloc s)

include inv

theorem Announces.turn (here : s.tx.calls[i]? = some .looping)
    (move : TxMove s.tx.dev ok .looping d q)
    (regular : s.tx.dev.slices ≠ 0 → ∀ e ∈ s.tx.dev.txList.head?, e.socket = some k →
      between = 0 ∧ (e.cancelled = true → s.told = s.fwdCnt)) :
    Announces k bufAlloc
      { announceTurn k s i ok between with tx := ⟨d, s.tx.calls.set i q⟩ } := by
  have linked := inv.linked.advance move
  have transactions : d.transactions = s.tx.dev.transactions := by cases move <;> rfl
  by_cases own : s.tx.dev.slices ≠ 0 ∧ ∃ e ∈ s.tx.dev.txList.head?, e.socket = some k
  · obtain ⟨free, e, first, owner⟩ := own
    obtain ⟨rfl, fresh⟩ := regular free e first owner
    have head {e' : TxEntry} {rest : List TxEntry} (list : s.tx.dev.txList = e' :: rest) :
        e' = e := by
      rw [list] at first
      exact Option.some.inj first
    rw [announceTurn_own free first owner]
    cases move with
    | stay _ waits => cases waits
    | leave nothing =>
      rcases nothing with empty | full
      · rw [empty] at first
        cases first
      · exact absurd full free
    | forget _ _ list _ write cancelled =>
      obtain rfl := head list
      rw [if_pos write]
      exact inv.filled ⟨_, s.tx.calls.set i _⟩ linked transactions (.inl (fresh cancelled))
    | request e _ list _ write =>
      obtain rfl := head list
      rw [if_pos write]
      have there := getElem?_moved here (.checking e.pkt)
      refine inv.filled ⟨_, s.tx.calls.set i _⟩ linked transactions
        (.inr (.inl (.inl ⟨i, _, there, ?_⟩)))
      simp [TxPoint.carries, TxEntry.pkt, owner]
    | send _ _ list _ control inserted =>
      obtain rfl := head list
      rw [if_neg (by simp [control]), if_pos inserted]
      exact inv.filled ⟨_, s.tx.calls.set i _⟩ linked transactions (.inl rfl)
    | putBack e _ list _ control failed =>
      -- the entry is back at the head of the list
      obtain rfl := head list
      rw [if_neg (by simp [control]), if_neg (by simp [failed])]
      refine inv.filled ⟨_, s.tx.calls.set i _⟩ linked transactions
        (.inr (.inr ⟨e, mem_cons_self, ?_⟩))
      simp [TxEntry.controlOf, control, owner]
  · have other (free : s.tx.dev.slices ≠ 0) (e : TxEntry) (first : e ∈ s.tx.dev.txList.head?) :
        e.socket ≠ some k := fun owner => own ⟨free, e, first, owner⟩
    have stays {e : TxEntry} {rest : List TxEntry} (list : s.tx.dev.txList = e :: rest)
        (free : s.tx.dev.slices ≠ 0) (x : TxEntry) (member : x ∈ s.tx.dev.txList)
        (control : x.controlOf k = true) : x ∈ rest := by
      rw [list] at member
      refine (mem_cons.mp member).resolve_left ?_
      rintro rfl
      have foreign := other free x (by rw [list]; rfl)
      simp [TxEntry.controlOf, foreign] at control
    rw [announceTurn_other other]
    refine inv.frame linked transactions (fun carried => .inr ?_) (fun queued => ?_) ?_
    · exact carried.moved here rfl fun carries => absurd carries Bool.false_ne_true
    · cases move with
      | stay | leave => exact queued
      | forget _ _ list free | request _ _ list free | send _ _ list free =>
        exact queued.keep (stays list free)
      | putBack _ _ list free =>
        exact queued.keep fun x member control =>
          mem_cons_of_mem _ (stays list free x member control)
    · exact fun calls => .inr
        (exists_mem_move here (fun asks => absurd asks Bool.false_ne_true) calls)

theorem Announces.call {used : Nat → Bool} (here : s.tx.calls[i]? = some p)
    (eq : txAdvance s.tx.dev ok used p = (d, q)) (move : TxMove s.tx.dev ok p d q)
    (regular : AnnounceRegular k bufAlloc s (.tx (.step i ok used) between)) :
    Announces k bufAlloc
      { announceTx k s between (.step i ok used) with tx := ⟨d, s.tx.calls.set i q⟩ } := by
  have regular := regular p here
  -- a packet that is thrown away was not waited for
  have drops {pkt : TxPkt} (regular : ok = true ∨ pkt.socket ≠ some k ∨ s.told = s.lastFwdCnt ∨
      s.held i ≠ s.lastFwdCnt) (failed : ok = false) (owner : pkt.socket = some k)
      (same : s.held i = s.lastFwdCnt) : s.told = s.lastFwdCnt := by
    simpa [failed, owner, same] using regular
  simp only [announceTx, here]
  cases p with
  | looping => exact inv.turn here move regular
  | mapping =>
    cases ok with
    | true =>
      cases eq
      exact inv.mapped here
    | false =>
      cases eq
      refine inv.frame inv.linked rfl (fun carried => ?_) id fun calls => .inr ?_
      · by_cases told : s.told = s.lastFwdCnt
        · exact .inl told
        · refine .inr (carried.moved here rfl fun carries same => absurd ?_ told)
          exact drops regular rfl (by simpa [TxPoint.carries] using carries) same
      · exact exists_mem_move here (fun asks => absurd asks Bool.false_ne_true) calls
  | checking =>
    refine inv.advance here eq move TxPoint.noConfusion (fun _ => TxPoint.noConfusion) ?_
    intro carries same told
    cases ok with
    | true =>
      cases eq
      exact carries
    | false =>
      refine absurd ?_ told
      exact drops regular rfl (by simpa [TxPoint.carries] using carries) same
  | validating | taking | queueing | draining | freeing | dequeuing | locking | dropping | done =>
    refine inv.advance here eq move TxPoint.noConfusion (fun _ => TxPoint.noConfusion) ?_
    exact fun carries => absurd carries Bool.false_ne_true

theorem Announces.take (len : BitVec 32) : Announces k bufAlloc (takeBytes s len) := by
  rw [takeBytes]
  split
  · refine { inv with window := fun large => ?_ }
    by_cases zero : len = 0
    · subst zero
      simpa [freeSpace] using inv.window large
    · exact .inr (.inl (by rw [decide_eq_true zero, Bool.or_true]))
  · exact inv

theorem Announces.endRead {allocated : Bool}
    (regular : AnnounceRegular k bufAlloc s (.endRead allocated)) :
    ∃ t out, announceStep k bufAlloc txPktNum s (.endRead allocated) = .ok (t, out) ∧
      Announces k bufAlloc t := by
  simp only [announceStep]
  by_cases small : (freeSpace bufAlloc s).toNat < maxPktBufSize
  · obtain rfl : allocated = true := regular small
    rw [if_pos small]
    have started := inv.start (.taking (.control k false))
    refine ⟨_, _, rfl, { started with window := fun _ => ?_ }⟩
    refine .inr (.inr (.inr ⟨.taking (.control k false), ?_, ?_⟩))
    · exact mem_append_right _ (mem_singleton_self _)
    · simp [TxPoint.asks]
  · rw [if_neg small]
    refine ⟨_, _, rfl, { inv with window := fun _ => .inl ?_ }⟩
    exact Nat.le_of_not_lt small

theorem Announces.effect {op : TxOp} (effect : TxEffect s.tx op t)
    (regular : AnnounceRegular k bufAlloc s (.tx op between)) :
    Announces k bufAlloc { announceTx k s between op with tx := t } := by
  have linked := inv.linked.step effect
  cases effect with
  | refused op starts => cases op <;> first | exact inv | cases starts
  | start op starts p =>
    have started := inv.start p
    cases op <;> first | exact started | cases starts
  | absent i ok _ gone =>
    rw [announceTx, gone]
    exact inv
  | step i ok _ here eq move => exact inv.call here eq move regular
  | locked op waits locked =>
    cases op with
    | callback =>
      rw [announceTx, announceCallback, if_pos locked]
      exact inv
    | _ => first | exact inv | cases waits
  | callback j _ free => exact inv.callback free regular
  | cancel i =>
    obtain ⟨_, _, same⟩ := cancelRequest_frame s.tx.dev i
    exact inv.device linked (by rw [same]) (·.cancel i)
  | cancelRoutine i =>
    obtain ⟨_, _, _, same⟩ := txEnqueueCancel_frame s.tx.dev i
    exact inv.device linked (by rw [same]) (·.cancelRoutine inv.linked i)
  | timer passed => exact inv.device linked rfl (·.timer passed)
  | cleanup => exact inv.device linked rfl (·.cleanup regular.1 regular.2)
  | header => exact inv.device linked rfl id

theorem Announces.step (op : AnnounceOp) (regular : AnnounceRegular k bufAlloc s op) :
    ∃ t out, announceStep k bufAlloc txPktNum s op = .ok (t, out) ∧ Announces k bufAlloc t := by
  cases op with
  | packet =>
    rw [announceStep]
    split
    · exact ⟨_, _, rfl, inv⟩
    · exact ⟨_, _, rfl, { inv with }⟩
  | take len => exact ⟨_, _, rfl, inv.take len⟩
  | endRead => exact inv.endRead regular
  | tx op =>
    obtain ⟨t, stepped, effect⟩ := txStep_effect txPktNum s.tx op
    exact ⟨_, (), by simp only [announceStep, stepped], inv.effect effect regular⟩

end

theorem announces_start : Announces k bufAlloc (announceStart txPktNum) := by
  refine ⟨creditInv_txStart.linked (k := k), rfl, .inl rfl, fun large => .inl ?_⟩
  exact freeSpace_fresh large rfl

/-- **The peer is told** about freed space: when no call is in progress and no entry waits,
`last_fwd_cnt` is what the last header of the socket said, and the window that the peer computes
from it, when all its bytes are read, has room for a packet; as a number too, if the peer has not
sent more than it was allowed to. -/
theorem peer_told (reach : Reachable (· = announceStart txPktNum)
      (Next (announceStep k bufAlloc txPktNum) (AnnounceRegular k bufAlloc)) s)
    (idle : AnnounceIdle s) (empty : s.tx.dev.txList = []) :
    s.lastFwdCnt = s.told ∧ (2 * maxPktBufSize ≤ bufAlloc.toNat →
        maxPktBufSize ≤ (bufAlloc - (s.fwdCnt - s.told)).toNat ∧
        (s.fwdCnt - s.told ≤ bufAlloc →
          maxPktBufSize ≤ bufAlloc.toNat - (s.fwdCnt - s.told).toNat)) := by
  have inv : Announces k bufAlloc s := by
    refine reach.machine_run announces_start ?_
    intro s op inv regular
    exact inv.step op regular
  have nobody : ¬Queued k s.tx.dev := by
    rintro ⟨e, member, _⟩
    rw [empty] at member
    cases member
  have told : s.told = s.lastFwdCnt := by
    obtain told | carried | queued := inv.noted
    · exact told
    · obtain ⟨i, p, there, carries, _⟩ | ⟨m, member, _⟩ := carried
      · rw [idle.1.1 p (mem_of_getElem? there)] at carries
        cases carries
      have empty := inv.transactions
      rw [idle.1.2.1, map_eq_nil_iff] at empty
      rw [empty] at member
      cases member
    · exact absurd queued nobody
  refine ⟨told.symm, fun large => ?_⟩
  have sees : maxPktBufSize ≤ (bufAlloc - (s.fwdCnt - s.told)).toNat := by
    rw [told]
    obtain wide | reads | queued | ⟨p, member, asks⟩ := inv.window large
    · exact wide
    · rw [idle.2] at reads
      cases reads
    · exact absurd queued nobody
    · rw [idle.1.1 p member] at asks
      cases asks
  refine ⟨sees, fun within => ?_⟩
  rw [← BitVec.toNat_sub_of_le within]
  exact sees

end Steps

/-! ## Fixed runs -/

section Fixed

instance : Decidable (AnnounceIdle s) :=
  inferInstanceAs (Decidable (TxIdle s.tx ∧ s.reading = false))

instance (s : AnnounceRun) : (op : AnnounceOp) → Decidable (AnnounceRegular k bufAlloc s op)
  | .tx (.step ..) _ => @Option.decidableForallMem _ _ (fun
    | .looping | .checking _ | .mapping _ => by infer_instance
    | .validating .. | .taking _ | .queueing _ | .draining | .freeing _ | .dequeuing | .locking
    | .dropping _ | .done => isTrue trivial) _
  | .tx (.write ..) _ | .tx (.control ..) _ | .tx (.resetNoSock ..) _ | .tx .interrupt _
  | .tx (.callback ..) _ | .tx (.cancel _) _ | .tx (.cancelRoutine _) _ | .tx (.timer _) _
  | .tx (.cleanup _) _ | .tx (.header ..) _ | .packet _ | .take _ | .endRead _ => by
    unfold AnnounceRegular; infer_instance

def receiveMuch : List AnnounceOp :=
  List.replicate 15 (.packet 4000) ++ List.replicate 15 (.take 4000) ++ [.endRead true]

/-- The bytes are read, and a packet without a request tells the peer. -/
theorem peer_told_control : ∃ s : AnnounceRun, s.fwdCnt = 60000 ∧ s.lastFwdCnt = s.told ∧
      maxPktBufSize ≤ ((131072 : BitVec 32) - (s.fwdCnt - s.told)).toNat := by
  have replay : ∃ s ∈ attempt (announceStep 0 131072 1) (AnnounceRegular 0 131072) (announceStart 1)
        (receiveMuch ++ (.control 0 false true :: goOn 0 8).map (.tx · 0)),
      AnnounceIdle s ∧ s.tx.dev.txList.length = 0 ∧ s.fwdCnt = 60000 := by
    decide +kernel
  obtain ⟨s, reach, idle, empty, taken⟩ := reachable_of_replay _ replay
  have told := peer_told reach idle (length_eq_zero_iff.mp empty)
  exact ⟨s, taken, told.1, (told.2 (by decide)).1⟩

/-- Bytes are read, a write is queued and cancelled, and `VIOSockTxDequeue` fills a packet for it
before the cancel routine comes; then more bytes are read.  No call is in progress and nothing is
queued: `last_fwd_cnt` is 60000, but the peer was told nothing, sees a window of 11072 bytes, and
nobody is going to tell it more. -/
theorem peer_not_told :
    ∃ s, Reachable (· = announceStart 1) (Next (announceStep 0 131072 1) fun _ _ => True) s ∧
      AnnounceIdle s ∧ s.tx.dev.txList = [] ∧ s.lastFwdCnt = 60000 ∧ s.told = 0 ∧
      ((131072 : BitVec 32) - (s.fwdCnt - s.told)).toNat = 11072 := by
  have replay : ∃ s ∈ attempt (announceStep 0 131072 1) (fun _ _ => True) (announceStart 1)
      (receiveMuch ++
        (queueWrite 0 0 ++ TxOp.cancel 0 :: goOn 0 6 ++ [TxOp.cancelRoutine 0]).map (.tx · 0) ++
        receiveMuch),
      AnnounceIdle s ∧ s.tx.dev.txList.length = 0 ∧ s.lastFwdCnt = 60000 ∧ s.told = 0 ∧
        ((131072 : BitVec 32) - (s.fwdCnt - s.told)).toNat = 11072 := by
    decide +kernel
  obtain ⟨s, reach, idle, empty, others⟩ := reachable_of_replay _ replay
  exact ⟨s, reach, idle, length_eq_zero_iff.mp empty, others⟩

end Fixed

end KvmGuestDrivers.VioSock
