/-
# VirtIO.SplitRefinement -- the split queue implements the abstract queue

`SplitSystem` is a split virtqueue and the device at its other end.  The device
keeps its own position in the available ring, fetches heads from there one by one,
and returns any head it has fetched.  How far it reads ahead is the schedule's
choice; `complete` fetches only what it still needs.

`SplitSim` relates the rings to three lists of buffers in flight: fetched,
published, returned.  `splitStep_simulates` is the simulation of the abstract
queue, one lemma per operation below it.
-/
import KvmGuestDrivers.VirtIO.SplitInvariant

namespace KvmGuestDrivers.VirtIO

set_option autoImplicit false

open Theory List Function

variable {α : Type} {num : Nat}

/-! ## The system -/

/-- A split queue, the device's position in the available ring, and the heads it has
fetched and not returned. -/
structure SplitSystem (α : Type) where
  vq : VirtqueueSplit α
  lastAvail : Nat
  inProgress : List Nat

variable (s : SplitSystem α)

namespace SplitSystem

/-- The device reads one head from the available ring, if there is one. -/
def fetch (s : SplitSystem α) : SplitSystem α :=
  if s.lastAvail = s.vq.availIdx then s
  else { s with
    lastAvail := (s.lastAvail + 1) % 2 ^ 16
    inProgress := s.inProgress ++ [s.vq.availRing (s.lastAvail % s.vq.num)] }

/-- The device returns the `k`-th buffer it holds, fetching up to it first. -/
def complete (k len : Nat) : SplitSystem α :=
  let s := fetch^[k + 1 - s.inProgress.length] s
  match s.inProgress[k]? with
  | none => s
  | some head => { s with
      vq := deviceUse s.vq head len
      inProgress := s.inProgress.eraseIdx k }

def op : QueueOp α → Except Fault (SplitSystem α × QueueAnswer α)
  | .add r =>
    let (ret, vq) := addSplit s.vq r
    .ok ({ s with vq }, .added (ret == vqAddBufferSuccess))
  | .complete k len => .ok (s.complete k len, .completed)
  | .get =>
    match virtqueueGetBufSplit s.vq with
    | .error e => .error e
    | .ok (vq, buf) => .ok ({ s with vq }, .got buf)

end SplitSystem

/-- The device reads ahead as far as the schedule lets it, then an operation. -/
def splitStep (op : Nat × QueueOp α) :
    Except Fault (SplitSystem α × QueueAnswer α) :=
  (SplitSystem.fetch^[op.1] s).op op.2

/-- A new queue and a device that has read nothing. -/
def SplitStart (num : Nat) (ev : Bool) (s : SplitSystem α) : Prop :=
  vringNewVirtqueueSplit α num ev = .ok (some s.vq) ∧ s.lastAvail = 0 ∧ s.inProgress = []

def splitStart (α : Type) (num : Nat) (ev : Bool) : SplitSystem α := ⟨newSplit α num ev, 0, []⟩

theorem splitStart_starts (ev : Bool) (pow : num.isPowerOfTwo) (small : num ≤ 2 ^ 16) :
    SplitStart num ev (splitStart α num ev) :=
  ⟨vringNewVirtqueueSplit_eq ev pow small, rfl, rfl⟩

/-! ## The relation to the buffers in flight -/

structure SplitSim (num : Nat) (s : SplitSystem α) (prog pub : List (Flight α))
    (used : List (Flight α × Nat)) : Prop where
  inv : SplitInv s.vq ((flights prog pub used).map Flight.chain)
  numEq : s.vq.num = num
  pointers : ∀ f ∈ flights prog pub used, s.vq.opaquePtr f.head = f.data
  inProgress : s.inProgress = prog.map Flight.head
  avail : Window s.vq.availRing num s.lastAvail (pub.map Flight.head)
  availIdx : s.vq.availIdx = (s.lastAvail + pub.length) % 2 ^ 16
  masterIdx : s.vq.masterIdx = s.vq.availIdx
  lastAvail : s.lastAvail < 2 ^ 16
  usedRing : Window s.vq.usedRing num s.vq.lastUsed (used.map fun u => ⟨u.1.head, u.2⟩)
  usedIdx : s.vq.usedIdx = (s.vq.lastUsed + used.length) % 2 ^ 16
  lastUsed : s.vq.lastUsed < 2 ^ 16

namespace SplitSim

variable {s : SplitSystem α} {prog pub : List (Flight α)} {used : List (Flight α × Nat)}

theorem few (sim : SplitSim num s prog pub used) :
    s.vq.numUnused + prog.length + pub.length + used.length ≤ num := by
  have few := sim.inv.chains_length_le
  rw [sim.numEq] at few
  simpa [flights, add_assoc] using few

variable (sim : SplitSim num s prog pub used) (pow : num.isPowerOfTwo) (small : num < 2 ^ 16)

include sim pow small

/-- The device fetches the first published chain, if there is one. -/
theorem keep_fetch : (pub = [] ∧ s.fetch = s) ∨
      ∃ f rest, pub = f :: rest ∧ SplitSim num s.fetch (prog ++ [f]) rest used := by
  have few := sim.few
  have idx := sim.availIdx
  have bound := sim.lastAvail
  cases pub with
  | nil =>
    refine .inl ⟨rfl, if_pos ?_⟩
    rw [idx, length_nil, add_zero, Nat.mod_eq_of_lt bound]
  | cons f rest =>
    rw [length_cons] at few idx
    have more : s.lastAvail ≠ s.vq.availIdx := by omega
    have window : Window s.vq.availRing num s.lastAvail (f.head :: rest.map Flight.head) :=
      sim.avail
    have read : s.vq.availRing (s.lastAvail % s.vq.num) = f.head := by
      rw [sim.numEq]
      exact window.front
    have fetched : s.fetch = { s with
        lastAvail := (s.lastAvail + 1) % 2 ^ 16
        inProgress := s.inProgress ++ [f.head] } := by
      rw [SplitSystem.fetch, if_neg more, read]
    refine .inr ⟨f, rest, rfl, ?_⟩
    rw [fetched]
    refine ⟨?_, sim.numEq, ?_, ?_, ?_, ?_, sim.masterIdx, ?_, sim.usedRing, sim.usedIdx,
      sim.lastUsed⟩
    · rw [flights_fetch]
      exact sim.inv
    · rw [flights_fetch]
      exact sim.pointers
    · simp [sim.inProgress]
    · refine window.pop.rebase ?_
      exact Nat.mod_mod_of_dvd _ (dvd_of_isPowerOfTwo pow (by omega))
    · simp only
      omega
    · exact Nat.mod_lt _ (Nat.two_pow_pos 16)

theorem keep_fetches (n : Nat) : ∃ prog' pub', prog' ++ pub' = prog ++ pub ∧
      (prog.length + n ≤ prog'.length ∨ pub' = []) ∧
      SplitSim num (SplitSystem.fetch^[n] s) prog' pub' used ∧
      (SplitSystem.fetch^[n] s).vq = s.vq := by
  refine reads_ahead SplitSystem.fetch
    (fun t prog pub => SplitSim num t prog pub used ∧ t.vq = s.vq) ?_ n ⟨sim, rfl⟩
  rintro t prog pub ⟨sim, vq⟩
  have same : t.fetch.vq = t.vq := by
    unfold SplitSystem.fetch
    split <;> rfl
  refine (sim.keep_fetch pow small).imp_right ?_
  rintro ⟨f, rest, shape, sim'⟩
  exact ⟨f, rest, shape, sim', same.trans vq⟩

/-- The device returns a chain that it has fetched, in any order. -/
theorem keep_complete {before after : List (Flight α)} {f : Flight α}
    (here : prog = before ++ f :: after) (len : Nat) :
    SplitSim num { s with
        vq := deviceUse s.vq f.head len
        inProgress := s.inProgress.eraseIdx before.length }
      (before ++ after) pub (used ++ [(f, len)]) := by
  subst here
  have few := sim.few
  have idx := sim.usedIdx
  simp only [length_append, length_cons] at few
  have order := flights_complete before after pub used f len
  have slot : s.vq.usedIdx % num = (s.vq.lastUsed + used.length) % num := by
    rw [idx, Nat.mod_mod_of_dvd _ (dvd_of_isPowerOfTwo pow (by omega))]
  refine ⟨?_, sim.numEq, ?_, ?_, sim.avail, sim.availIdx, sim.masterIdx, sim.lastAvail, ?_, ?_,
    sim.lastUsed⟩
  · exact (sim.inv.reorder (order.map _)).congr rfl rfl rfl rfl rfl
  · intro g member
    exact sim.pointers g (order.mem_iff.mpr member)
  · simp [sim.inProgress, eraseIdx_append_of_length_le]
  · have pushed := sim.usedRing.push (by rw [length_map]; omega) ⟨f.head, len⟩
    rw [length_map] at pushed
    simp only [deviceUse, sim.numEq, slot, map_append]
    exact pushed
  · simp only [deviceUse, length_append, length_singleton]
    omega

/-- `add_buf` finds no room, or publishes one more chain. -/
theorem keep_add (r : BufferRequest α) :
    (s.vq.numUnused < r.cost ∧ addSplit s.vq r = (-enospc, s.vq)) ∨
      ∃ vq' f, ¬ s.vq.numUnused < r.cost ∧ f.entry = ⟨r.data, r.cost⟩ ∧
        addSplit s.vq r = (vqAddBufferSuccess, vq') ∧ vq'.numUnused = s.vq.numUnused - r.cost ∧
        SplitSim num { s with vq := vq' } prog (pub ++ [f]) used := by
  have few := sim.few
  have idx := sim.availIdx
  rcases addSplit_spec r sim.inv.free_nodup sim.inv.count_lt with full | ⟨vq', n, cost, ok, added⟩
  · exact .inl full
  have enough := added.enough
  have order := flights_add prog pub used ⟨follow s.vq.next s.vq.firstUnused (n + 1), r.data⟩
  refine .inr ⟨vq', ⟨follow s.vq.next s.vq.firstUnused (n + 1), r.data⟩, by omega, ?_, ok, ?_, ?_⟩
  · simp [Flight.entry, cost]
  · rw [added.count, cost]
  refine ⟨?_, added.num.trans sim.numEq, ?_, sim.inProgress, ?_, ?_, ?_, sim.lastAvail, ?_, ?_, ?_⟩
  · exact (sim.inv.added added).reorder (order.map Flight.chain)
  · intro g member
    rw [added.pointers]
    rcases mem_cons.mp (order.mem_iff.mpr member) with rfl | old
    · exact update_self _ _ _
    · have ne := sim.inv.pool.headD_ne_head nodup_range (by omega) (mem_map_of_mem old) 0
      exact (update_of_ne ne _ _).trans (sim.pointers g old)
  · have pushed := sim.avail.push (by rw [length_map]; omega) s.vq.firstUnused
    have slot : descIndex s.vq.num s.vq.masterIdx = (s.lastAvail + pub.length) % num := by
      rw [sim.numEq, descIndex_eq_mod pow (by omega), sim.masterIdx, idx,
        Nat.mod_mod_of_dvd _ (dvd_of_isPowerOfTwo pow (by omega))]
    rw [length_map] at pushed
    simp only [added.avail, slot, map_append]
    exact pushed
  · have master := sim.masterIdx
    simp only [added.availIdx, length_append, length_singleton]
    omega
  · exact added.masterIdx.trans added.availIdx.symm
  · simpa only [added.usedRing, added.lastUsed] using sim.usedRing
  · simpa only [added.usedIdx, added.lastUsed] using sim.usedIdx
  · simpa only [added.lastUsed] using sim.lastUsed

/-- `get_buf` finds nothing, or collects the chain that was returned first. -/
theorem keep_get : (used = [] ∧ virtqueueGetBufSplit s.vq = .ok (s.vq, none)) ∨
      ∃ f len rest vq', used = (f, len) :: rest ∧
        virtqueueGetBufSplit s.vq = .ok (vq', some (f.data, len)) ∧
        vq'.numUnused = s.vq.numUnused + f.chain.length ∧
        SplitSim num { s with vq := vq' } prog pub rest := by
  have few := sim.few
  have idx := sim.usedIdx
  have bound := sim.lastUsed
  cases used with
  | nil =>
    refine .inl ⟨rfl, getSplit_empty ?_⟩
    rw [idx, length_nil, add_zero, Nat.mod_eq_of_lt bound]
  | cons u rest =>
    obtain ⟨f, len⟩ := u
    rw [length_cons] at few idx
    have window : Window s.vq.usedRing num s.vq.lastUsed
        (⟨f.head, len⟩ :: rest.map fun u => ⟨u.1.head, u.2⟩) := sim.usedRing
    have read : s.vq.usedRing (descIndex s.vq.num s.vq.lastUsed) = ⟨f.head, len⟩ := by
      rw [sim.numEq, descIndex_eq_mod pow (by omega)]
      exact window.front
    have inv := sim.inv
    rw [map_chain_flights] at inv
    have headLt := inv.head_lt (c := f.chain) (by simp)
    have numEq := sim.numEq
    have head : nextUsedHead s.vq = chainHead f.chain := by
      rw [nextUsedHead, read]
      exact Nat.mod_eq_of_lt (by simp only [Flight.head]; omega)
    obtain ⟨vq', got, inv', count, lastUsed, master, avail, released⟩ :=
      getSplit_collect inv (by omega) head
    have data := sim.pointers f (by simp [flights])
    rw [read] at got
    rw [show s.vq.opaquePtr (chainHead f.chain) = f.data from data] at got
    refine .inr ⟨f, len, rest, vq', rfl, got, count, ?_⟩
    refine ⟨?_, released.num.trans numEq, ?_, sim.inProgress, ?_, ?_, ?_, sim.lastAvail, ?_, ?_, ?_⟩
    · rw [map_chain_flights]
      exact inv'
    · intro g member
      have other : g.chain ∈ (flights prog pub rest).map Flight.chain := mem_map_of_mem member
      rw [map_chain_flights] at other
      have ne : g.head ≠ chainHead f.chain := inv.head_ne other
      rw [released.pointers, update_of_ne ne]
      exact sim.pointers g (mem_flights_cons _ member)
    · simpa only [released.availRing] using sim.avail
    · simpa only [avail] using sim.availIdx
    · simpa only [avail, master] using sim.masterIdx
    · simp only [released.usedRing, lastUsed]
      exact window.pop.rebase (Nat.mod_mod_of_dvd _ (dvd_of_isPowerOfTwo pow (by omega)))
    · simp only [released.usedIdx]
      omega
    · simp only [lastUsed]
      exact Nat.mod_lt _ (Nat.two_pow_pos 16)

end SplitSim

/-! ## The simulation -/

/-- The rings hold exactly what the abstract queue holds. -/
def SplitRefines (num : Nat) (s : SplitSystem α) (q : AbstractQueue α) : Prop :=
  ∃ prog pub used, SplitSim num s prog pub used ∧ q = realised s.vq.numUnused prog pub used

theorem splitRefines_start {ev : Bool} {s : SplitSystem α} (pow : num.isPowerOfTwo)
    (start : SplitStart num ev s) : SplitRefines num s (.empty α num) := by
  obtain ⟨vq, _, _⟩ := s
  obtain ⟨new, rfl, rfl⟩ := start
  have inv := splitInv_created pow new
  obtain ⟨-, rfl⟩ := created pow new
  refine ⟨[], [], [], ⟨inv, rfl, ?_, rfl, window_nil _ _ _, rfl, rfl, Nat.two_pow_pos 16,
    window_nil _ _ _, rfl, Nat.two_pow_pos 16⟩, rfl⟩
  intro f member
  cases member

/-- **Every step of the split queue is a step of the abstract queue**, with the same
answer, and none of them faults. -/
theorem splitStep_simulates (pow : num.isPowerOfTwo) (small : num < 2 ^ 16) (s : SplitSystem α)
    (q : AbstractQueue α) (op : Nat × QueueOp α) (rel : SplitRefines num s q) :
    ∃ s', splitStep s op = .ok (s', (q.step op.2).2) ∧ SplitRefines num s' (q.step op.2).1 := by
  obtain ⟨fetches, op⟩ := op
  obtain ⟨prog, pub, used, sim, rfl⟩ := rel
  obtain ⟨prog', pub', shape, -, sim', vq⟩ := sim.keep_fetches pow small fetches
  rw [realised_congr used (congrArg VirtqueueSplit.numUnused vq) shape]
  simp only [splitStep]
  generalize SplitSystem.fetch^[fetches] s = s at sim'
  cases op with
  | add r =>
    rcases sim'.keep_add pow small r with ⟨full, ret⟩ | ⟨vq', f, room, entry, ret, count, kept⟩
    · rw [realised_add_full _ _ _ _ full]
      refine ⟨s, ?_, prog', pub', used, sim', rfl⟩
      simp only [SplitSystem.op, ret]
      rfl
    · rw [realised_add _ _ _ _ room entry]
      refine ⟨{ s with vq := vq' }, ?_, prog', pub' ++ [f], used, kept, ?_⟩
      · simp only [SplitSystem.op, ret]
        rfl
      · rw [← count]
  | complete k len =>
    obtain ⟨prog, pub, shape, far, sim, vq⟩ :=
      sim'.keep_fetches pow small (k + 1 - s.inProgress.length)
    rw [realised_congr used (congrArg VirtqueueSplit.numUnused vq) shape]
    simp only [SplitSystem.op, SplitSystem.complete]
    have held := congrArg List.length sim'.inProgress
    rw [length_map] at held
    generalize SplitSystem.fetch^[k + 1 - s.inProgress.length] s = t at sim
    by_cases inside : k < prog.length
    · obtain ⟨before, f, _, rfl, rfl⟩ := exists_split inside
      have head : t.inProgress[before.length]? = some f.head := by
        simp [sim.inProgress]
      rw [realised_complete, head]
      exact ⟨_, rfl, _, _, _, sim.keep_complete pow small rfl len, rfl⟩
    · obtain rfl : pub = [] := by
        rcases far with _ | empty
        · omega
        · exact empty
      have none : t.inProgress[k]? = none := by
        simp only [sim.inProgress, getElem?_map, Option.map_eq_none_iff, List.getElem?_eq_none_iff]
        omega
      rw [realised_complete_none _ _ _ (by omega), none]
      exact ⟨_, rfl, _, _, _, sim, rfl⟩
  | get =>
    rcases sim'.keep_get pow small with ⟨rfl, got⟩ | ⟨f, _, rest, vq', rfl, got, count, kept⟩
    · rw [realised_get_empty]
      refine ⟨s, ?_, prog', pub', [], sim', rfl⟩
      simp only [SplitSystem.op, got]
    rw [realised_get]
    refine ⟨{ s with vq := vq' }, ?_, prog', pub', rest, kept, ?_⟩
    · simp only [SplitSystem.op, got]
    · rw [← count]

end KvmGuestDrivers.VirtIO
