/-
# VioSock.RxWakeup -- reads that wait and data that is there

A packet that is merged into a block does not make anybody look at the queue of reads: whoever
put the block into the list has done so.  A block without bytes is in the list, however, and a
read that finds no bytes goes back to the queue.
-/
import KvmGuestDrivers.VioSock.RxAccounting

namespace KvmGuestDrivers.VioSock

set_option autoImplicit false

open Theory List

/-! ## The socket -/

/-- Every block has bytes left, so that an empty counter means an empty list. -/
structure Fed (s : RxSocket) : Prop where
  acc : Accounted s
  receive : ∀ cb ∈ s.rxCbList, cb.request = none
  quiet : s.cancels = []
  full : ∀ cb ∈ s.rxCbList, cb.bytesToRead ≠ 0

section Socket

variable {s : RxSocket} {n : BitVec 32} {mem : RxMemory} {req : ReadReq}

theorem le_bytesLeft {cbs : List RxCb} {cb : RxCb} (member : cb ∈ cbs) :
    cb.bytesToRead.toNat ≤ bytesLeft cbs := by
  obtain ⟨i, here⟩ := getElem?_of_mem member
  exact le_sum_map here fun cb => cb.bytesToRead.toNat

theorem Fed.empty (fed : Fed s) (unread : s.rxBytes = 0) : s.rxCbList = [] := by
  cases list : s.rxCbList with
  | nil => rfl
  | cons cb =>
    have member : cb ∈ s.rxCbList := by
      rw [list]
      exact mem_cons_self
    have counted := fed.acc.counted
    have le := le_bytesLeft member
    rw [unread] at counted
    rw [← counted] at le
    exact absurd (BitVec.eq_of_toNat_eq (Nat.le_zero.mp le)) (fed.full cb member)

theorem Fed.packet (fed : Fed s) (bytes : n ≠ 0) (fits : NoWrap s n) {after : RxSocket × Bool}
    (move : PktMove s n mem after) : Fed after.1 := by
  have acc := fed.acc.packet fits move
  cases move with
  | dropped => exact fed
  | stored =>
    refine ⟨acc, ?_, fed.quiet, ?_⟩
    · exact forall_mem_append.mpr ⟨fed.receive, forall_mem_singleton.mpr rfl⟩
    · exact forall_mem_append.mpr ⟨fed.full, forall_mem_singleton.mpr bytes⟩
  | @merged inc last there =>
    have member := mem_of_getLast? there
    refine ⟨acc, ?_, fed.quiet, ?_⟩
    · exact forall_mem_concat (fun cb old => fed.receive cb (dropLast_subset _ old))
        (fed.receive last member)
    · refine forall_mem_concat (fun cb old => fed.full cb (dropLast_subset _ old)) ?_
      have below := fits (by rw [inc]; rfl)
      have le := le_bytesLeft member
      have counted := fed.acc.counted
      have sum : (last.bytesToRead + n).toNat = last.bytesToRead.toNat + n.toNat :=
        BitVec.toNat_add_of_lt (by omega)
      intro zero
      have sum : (last.bytesToRead + n).toNat = 0 := congrArg BitVec.toNat zero
      refine bytes (BitVec.eq_of_toNat_eq ?_)
      show n.toNat = 0
      omega

theorem Fed.readLocked (fed : Fed s) (c : ReadChoice) : Fed (readLocked s req c).1 := by
  have acc := fed.acc.readLocked (fun _ => takesLive_of_quiet fed.quiet req) c
  have quiet := (cancels_readLocked s req c).trans fed.quiet
  have blocks : ∀ cb ∈ (VioSock.readLocked s req c).1.rxCbList,
      cb.request = none ∧ cb.bytesToRead ≠ 0 := by
    have old : ∀ cb ∈ s.rxCbList, cb.request = none ∧ cb.bytesToRead ≠ 0 :=
      fun cb member => ⟨fed.receive cb member, fed.full cb member⟩
    refine readLocked_keeps
      (J := fun s => ∀ cb ∈ s.rxCbList, cb.request = none ∧ cb.bytesToRead ≠ 0) old (fun _ => old)
      ?_ ?_ req c
    · intro s cb n rest kept other member
      exact kept other (mem_cons_of_mem cb member)
    · intro s cb rest n more kept other member
      rcases mem_cons.mp member with rfl | older
      · refine ⟨(kept cb mem_cons_self).1, ?_⟩
        have lt := BitVec.lt_def.mp (BitVec.not_le.mp more)
        intro zero
        have left := congrArg BitVec.toNat zero
        rw [BitVec.toNat_sub_of_le (BitVec.le_of_lt (BitVec.not_le.mp more))] at left
        have nothing : cb.bytesToRead.toNat - n.toNat = 0 := left
        omega
      · exact kept other (mem_cons_of_mem cb older)
  exact ⟨acc, fun cb member => (blocks cb member).1, quiet, fun cb member => (blocks cb member).2⟩

theorem Fed.stops (fed : Fed s) {c : ReadChoice} (stop : (VioSock.readLocked s req c).2.2 = false) :
    (VioSock.readLocked s req c).1.rxCbList = [] := by
  rcases readLocked_cases s req c with ⟨empty, same⟩ | ⟨_, _, same⟩ | ⟨_, room, plain, _, same⟩
  · rw [same]
    exact fed.empty empty
  · rw [same] at stop
    cases stop
  · rw [same]
    exact copyCbs_room plain s.rxCbList room

end Socket

/-! ## Runs -/

/-- A socket without a loopback peer; the packets that are stored are not empty, and the counter
does not wrap. -/
def RxFed (s : RxRun) : RxOp → Prop
  | .packet len headerLen _ =>
    shortOrLong len headerLen = false → headerLen ≠ 0 ∧ NoWrap s.sock headerLen
  | .write .. => False
  | _ => True

/-- If a read waits and a block is in the list, some call is still going to look. -/
structure Wakes (s : RxRun) : Prop where
  fed : Fed s.sock
  wakes : s.queue ≠ [] → s.sock.rxCbList ≠ [] → ∃ p ∈ s.calls, p.isDone = false

section Runs

variable {s t : RxRun} {i : Nat}

theorem exists_scanning : ∃ p ∈ (scanIf true t).calls, p.isDone = false :=
  ⟨.retrieving, mem_append_right _ (mem_singleton.mpr rfl), rfl⟩

section

variable (inv : Wakes s)

include inv

/-- A packet asks for a scan, or the list was not empty before it, or it is dropped. -/
theorem Wakes.packet {n : BitVec 32} {mem : RxMemory} (bytes : n ≠ 0)
    (fits : NoWrap s.sock n) {after : RxSocket × Bool} (move : PktMove s.sock n mem after) :
    Wakes (scanIf after.2 { s with sock := after.1 }) := by
  have fed := inv.fed.packet bytes fits move
  cases move with
  | dropped => exact inv
  | @stored _ bRes scans =>
    cases bRes with
    | true => exact ⟨fed, fun _ _ => exists_scanning⟩
    | false =>
      exact ⟨fed, fun waits _ => inv.wakes waits fun empty => absurd (scans empty).symm nofun⟩
  | merged _ there =>
    refine ⟨fed, fun waits _ => inv.wakes waits fun empty => ?_⟩
    rw [empty] at there
    cases there

theorem Wakes.read (req : ReadReq) : Wakes (scanIf s.queue.isEmpty
      { s with queue := s.queue ++ [req], nextId := s.nextId + 1 }) := by
  cases queue : s.queue with
  | nil => exact ⟨inv.fed, fun _ _ => exists_scanning⟩
  | cons =>
    -- without a callback, the queue had a read before
    refine ⟨inv.fed, fun _ blocks => inv.wakes ?_ blocks⟩
    rw [queue]
    nofun

theorem Wakes.retrieve (here : s.calls[i]? = some .retrieving) (c : ReadChoice) :
    Wakes (readAdvance s i c .retrieving) := by
  rw [readAdvance]
  split
  · rename_i empty
    exact ⟨inv.fed, fun waits => absurd empty waits⟩
  · exact ⟨inv.fed, fun _ _ =>
      ⟨_, mem_of_getElem? (getElem?_moved here _), rfl⟩⟩

theorem Wakes.hold {req : ReadReq} (here : s.calls[i]? = some (.holding req))
    (c : ReadChoice) : Wakes (readAdvance s i c (.holding req)) := by
  have fed := @Fed.readLocked _ req inv.fed c
  have stops := @Fed.stops s.sock req inv.fed c
  rw [readAdvance]
  generalize readLocked s.sock req c = after at fed stops ⊢
  obtain ⟨sock, ends, bRestart⟩ := after
  have wakes (blocks : sock.rxCbList ≠ []) :
      ∃ p ∈ s.calls.set i (if bRestart then .retrieving else .done), p.isDone = false := by
    cases bRestart with
    | true => exact ⟨_, mem_of_getElem? (getElem?_moved here _), rfl⟩
    | false => exact absurd (stops rfl) blocks
  cases ends with
  | requeued | completed => exact ⟨fed, fun _ blocks => wakes blocks⟩

theorem Wakes.effect {op : RxOp} (feeds : RxFed s op) (effect : RxEffect s op t) : Wakes t := by
  cases effect with
  | quiet => exact inv
  | packet kept move => exact inv.packet (feeds kept).1 (feeds kept).2 move
  | write => cases feeds
  | read => exact inv.read _
  | scan => exact ⟨inv.fed, fun _ _ => exists_scanning⟩
  | retrieve c here => exact inv.retrieve here c
  | hold c here => exact inv.hold here c
  | cancel request =>
    have same : cancelWrite s.sock request = s.sock := by
      rw [cancelWrite, if_neg]
      rintro ⟨_, cb, member, has⟩
      cases (inv.fed.receive cb member).symm.trans has
    rw [same]
    exact inv
  | cancelRoutine request =>
    have same : rxRequestCancelCb s.sock request = s.sock := by
      rw [rxRequestCancelCb, if_neg]
      rw [inv.fed.quiet]
      exact not_mem_nil
    rw [same]
    exact inv
  | endRead _ here =>
    refine ⟨inv.fed, fun _ blocks => inv.wakes ?_ blocks⟩
    intro empty
    rw [empty] at here
    cases here

end

theorem wakes_rxStart (bufAlloc : BitVec 32) : Wakes (rxStart bufAlloc) := by
  refine ⟨⟨(accounted_rxStart bufAlloc).sock, ?_, rfl, ?_⟩, ?_⟩
  · nofun
  · nofun
  · exact fun waits => absurd rfl waits

/-- **No read waits for bytes that are there**: when no call is in progress, there is no read in
the queue or there are no unread bytes. -/
theorem no_read_waits {bufAlloc : BitVec 32}
    (reach : Reachable (· = rxStart bufAlloc) (Next rxStep RxFed) s) (idle : RxIdle s) :
    ¬(s.queue ≠ [] ∧ 0 < bytesLeft s.sock.rxCbList) := by
  have inv : Wakes s := by
    refine rx_invariant reach (wakes_rxStart bufAlloc) ?_
    intro s op t inv feeds effect
    exact inv.effect feeds effect
  rintro ⟨waits, bytes⟩
  have blocks : s.sock.rxCbList ≠ [] := by
    intro empty
    rw [empty] at bytes
    exact lt_irrefl 0 bytes
  obtain ⟨p, member, going⟩ := inv.wakes waits blocks
  rw [idle p member] at going
  cases going

end Runs

/-! ## Fixed runs -/

section Fixed

instance (s : RxRun) : (op : RxOp) → Decidable (RxFed s op)
  | .packet .. | .write .. | .read .. | .scan | .step .. | .cancel _ | .cancelRoutine _
  | .endRead .. => by unfold RxFed; infer_instance

/-- A read that waits for all its bytes has taken the only packet. -/
theorem no_read_waits_waitAll :
    ∃ s : RxRun, s.queue.length = 1 ∧ ¬(s.queue ≠ [] ∧ 0 < bytesLeft s.sock.rxCbList) := by
  have replay : ∃ s ∈ attempt rxStep RxFed (rxStart 262144)
      ([.read 5 false true] ++ serve 0 ++ [.packet 47 3 fun _ => 1] ++ serve 1),
      RxIdle s ∧ s.queue.length = 1 := by
    decide +kernel
  obtain ⟨s, reach, idle, one⟩ := reachable_of_replay _ replay
  exact ⟨s, one, no_read_waits reach idle⟩

/-- A read waits, an empty packet comes, and then one of ten bytes, which is merged into the
empty block: no call is in progress, and the read waits with ten bytes unread. -/
theorem read_waits :
    ∃ s, Reachable (· = rxStart 262144) (Next rxStep fun _ _ => True) s ∧ RxIdle s ∧
      s.queue.length = 1 ∧ bytesLeft s.sock.rxCbList = 10 := by
  refine reachable_of_replay
    ([.read 5 false false] ++ serve 0 ++ [.packet 44 0 fun _ => 1] ++ serve 1 ++
      [.packet 54 10 fun _ => 1]) ?_
  decide +kernel

end Fixed

end KvmGuestDrivers.VioSock
