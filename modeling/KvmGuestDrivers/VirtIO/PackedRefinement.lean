/-
# VirtIO.PackedRefinement -- the packed queue implements the abstract queue

`PackedSystem` is a packed virtqueue and a device that follows the rules of the
packed ring: it has its own two positions, each with a lap bit; it fetches a chain
where the descriptor shows its lap as available, walks it by `NEXT` in ring order,
and takes the buffer id from the last descriptor; it returns any buffer it holds by
writing one used descriptor at its used position, and moves on by as many slots as
the chain had.

Four free running positions describe the state: `d ≤ u ≤ f ≤ a`, the descriptors
collected by the driver, returned by the device, fetched by the device, added by the
driver, with `a ≤ d + num`.  In the ring, a slot shows the lap of the last position
below `a` that fell on it, as available or, below `u`, perhaps as used (`slots`);
that is what keeps left-over descriptors from being read as new ones.
-/
import KvmGuestDrivers.VirtIO.PackedInvariant

namespace KvmGuestDrivers.VirtIO

set_option autoImplicit false

open Theory List
open Function (iterate_succ_apply update update_of_ne update_self)

variable {α : Type} {num : Nat}

/-! ## The system -/

/-- A packed queue and its device.  `written` records the slots at which the device
wrote used descriptors and `collected` counts the buffers `get_buf` returned; neither
is read by any step. -/
structure PackedSystem (α : Type) where
  vq : VirtqueuePacked α
  nextAvail : Nat
  availWrap : Bool
  nextUsed : Nat
  usedWrap : Bool
  /-- Id and number of descriptors of the buffers fetched and not returned. -/
  inProgress : List (Nat × Nat)
  written : List Nat
  collected : Nat

/-- The descriptor is available to a device on the lap with bit `wrap`. -/
def isAvailDesc (d : VringPackedDesc) (wrap : Bool) : Bool := d.avail == wrap && d.used != wrap

/-- The device's walk over a chain: the id in its last descriptor and its length. -/
def walkChain (desc : Nat → VringPackedDesc) (num : Nat) : Nat → Nat → Option (Nat × Nat)
  | 0, _ => none
  | fuel + 1, pos =>
    if (desc pos).has vringDescFNext then
      (walkChain desc num fuel (if pos + 1 < num then pos + 1 else 0)).map fun r => (r.1, r.2 + 1)
    else some ((desc pos).id, 1)

variable (s : PackedSystem α)

namespace PackedSystem

def fetch : PackedSystem α :=
  if isAvailDesc (s.vq.desc s.nextAvail) s.availWrap then
    match walkChain s.vq.desc s.vq.num s.vq.num s.nextAvail with
    | none => s
    | some (id, n) => { s with
        nextAvail := (advance s.vq.num s.nextAvail s.availWrap n).1
        availWrap := (advance s.vq.num s.nextAvail s.availWrap n).2
        inProgress := s.inProgress ++ [(id, n)] }
  else s

def returnBuffer (id n len : Nat) (extra : BitVec 16) : PackedSystem α :=
  { s with
    vq := writeUsed s.vq s.nextUsed s.usedWrap id len extra
    nextUsed := (advance s.vq.num s.nextUsed s.usedWrap n).1
    usedWrap := (advance s.vq.num s.nextUsed s.usedWrap n).2
    written := s.written ++ [s.nextUsed] }

/-- The device returns the `k`-th buffer it holds, fetching up to it first. -/
def complete (k len : Nat) (extra : BitVec 16) : PackedSystem α :=
  let s := fetch^[k + 1 - s.inProgress.length] s
  match s.inProgress[k]? with
  | none => s
  | some (id, n) =>
    { s.returnBuffer id n len extra with inProgress := s.inProgress.eraseIdx k }

/-- One operation at the queue; `extra` are the flag bits the layout leaves open in a
used descriptor. -/
def op (extra : BitVec 16) :
    QueueOp α → Except Fault (PackedSystem α × QueueAnswer α)
  | .add r =>
    match addPacked s.vq r with
    | .error e => .error e
    | .ok (ret, vq) => .ok ({ s with vq }, .added (ret == vqAddBufferSuccess))
  | .complete k len => .ok (s.complete k len extra, .completed)
  | .get =>
    match virtqueueGetBufPacked s.vq with
    | .error e => .error e
    | .ok (vq, buf) =>
      .ok ({ s with vq, collected := s.collected + buf.toList.length }, .got buf)

end PackedSystem

/-- What the layout leaves to the device: how far it reads ahead, and the open bits of
used descriptors. -/
structure PackedChoice where
  fetches : Nat
  extra : BitVec 16

def packedStep (op : PackedChoice × QueueOp α) :
    Except Fault (PackedSystem α × QueueAnswer α) :=
  (PackedSystem.fetch^[op.1.fetches] s).op op.1.extra op.2

def packedStart (α : Type) (num : Nat) : PackedSystem α :=
  ⟨vringNewVirtqueuePacked α num, 0, true, 0, true, [], [], 0⟩

/-! ## The relation to the buffers in flight -/

namespace Flight

def size (x : Flight α) : Nat := x.chain.length

end Flight

variable (desc : Nat → VringPackedDesc)

/-- The chain of `x` lies in the ring from position `p` on, available. -/
def ChainAt (num p : Nat) (x : Flight α) : Prop :=
  ∀ k, k < x.size → ShowsAvail (desc ((p + k) % num)) (wrapBit num (p + k)) ∧
    (desc ((p + k) % num)).has vringDescFNext = decide (k + 1 < x.size) ∧
    (desc ((p + k) % num)).id = x.head

/-- The used descriptor for `u` lies in the ring at position `p`. -/
def UsedAt (num p : Nat) (u : Flight α × Nat) : Prop :=
  ShowsUsed (desc (p % num)) (wrapBit num p) ∧ (desc (p % num)).id = u.1.head ∧
    (desc (p % num)).len = u.2

/-- The slots of the used descriptors not yet collected. -/
def usedSlots (num : Nat) : Nat → List (Flight α × Nat) → List Nat
  | _, [] => []
  | p, u :: rest => p % num :: usedSlots num (p + u.1.size) rest

theorem usedSlots_snoc (num p : Nat) (used : List (Flight α × Nat)) (u : Flight α × Nat) :
    usedSlots num p (used ++ [u]) =
      usedSlots num p used ++ [(p + (used.map fun u => u.1.size).sum) % num] := by
  induction used generalizing p with
  | nil => simp [usedSlots]
  | cons v _ ih => simp [usedSlots, ih, add_assoc]

/-- The bits of every slot, for a driver at `a` and a device at `u`. -/
structure SlotBits (desc : Nat → VringPackedDesc) (num u a : Nat) : Prop where
  recent : ∀ p, p < a → a ≤ p + num → ShowsAvail (desc (p % num)) (wrapBit num p) ∨
    (p < u ∧ ShowsUsed (desc (p % num)) (wrapBit num p))
  blank : ∀ p, a ≤ p → p < num → (desc p).avail = false

namespace SlotBits

variable {desc} {desc' : Nat → VringPackedDesc} {u u' a n : Nat}

section

variable (bits : SlotBits desc num u a)

include bits

theorem behind (pos : 0 < num) : (desc (a % num)).avail = !wrapBit num a := by
  by_cases first : a < num
  · rw [Nat.mod_eq_of_lt first, wrapBit_of_lt first]
    exact bits.blank a le_rfl first
  obtain ⟨p, rfl⟩ : ∃ p, a = p + num := ⟨a - num, by omega⟩
  rw [Nat.add_mod_right, wrapBit_add_size pos, Bool.not_not]
  rcases bits.recent p (by omega) (by omega) with avail | ⟨-, used⟩
  · exact avail.1
  · exact used.1

/-- The slot at the used position does not look used. -/
theorem not_used (pos : 0 < num) (le : u ≤ a) (room : a ≤ u + num) :
    ((desc (u % num)).avail == (desc (u % num)).used && (desc (u % num)).used == wrapBit num u) =
      false := by
  by_cases full : u = a
  · subst full
    rw [bits.behind pos]
    cases wrapBit num u <;> cases (desc (u % num)).used <;> rfl
  rcases bits.recent u (by omega) room with avail | ⟨_, -⟩
  · rw [avail.1, avail.2]
    cases wrapBit num u <;> rfl
  · omega

/-- The device marks the slot at the used position. -/
theorem use {d : VringPackedDesc} (less : u < a)
    (room : a ≤ u + num) (on : u < u') (shows : ShowsUsed d (wrapBit num u)) :
    SlotBits (update desc (u % num) d) num u' a where
  recent := by
    intro p below near
    by_cases here : p = u
    · subst here
      rw [update_self]
      exact .inr ⟨on, shows⟩
    have other : p % num ≠ u % num := by
      rcases Nat.lt_or_gt_of_ne here with lt | gt
      · exact mod_ne_of_lt lt (by omega)
      · exact (mod_ne_of_lt gt (by omega)).symm
    rw [update_of_ne other]
    rcases bits.recent p below near with avail | ⟨_, used⟩
    · exact .inl avail
    · exact .inr ⟨by omega, used⟩
  blank := by
    intro p beyond first
    have other : p ≠ u % num := by
      rw [Nat.mod_eq_of_lt (by omega)]
      omega
    rw [update_of_ne other]
    exact bits.blank p beyond first

theorem add (avail : ∀ k, k < n → ShowsAvail (desc' ((a + k) % num)) (wrapBit num (a + k)))
    (frame : ∀ s, (∀ k, k < n → s ≠ (a + k) % num) → desc' s = desc s) :
    SlotBits desc' num u (a + n) where
  recent := by
    intro p below near
    by_cases new : a ≤ p
    · obtain ⟨k, rfl⟩ : ∃ k, p = a + k := ⟨p - a, by omega⟩
      exact .inl (avail k (by omega))
    · rw [frame _ fun k less => mod_ne_of_lt (by omega) (by omega)]
      exact bits.recent p (by omega) (by omega)
  blank := by
    intro p beyond first
    rw [frame]
    · exact bits.blank p (by omega) first
    · intro k less
      rw [Nat.mod_eq_of_lt (by omega)]
      omega

end

end SlotBits

structure PackedSim (num : Nat) (s : PackedSystem α) (d u f a : Nat) (prog pub : List (Flight α))
    (used : List (Flight α × Nat)) : Prop where
  inv : IdInv s.vq ((flights prog pub used).map Flight.chain)
  numEq : s.vq.num = num
  tokens : ∀ x ∈ flights prog pub used, (s.vq.descState x.head).data = x.data
  spanUsed : u = d + (used.map fun u => u.1.size).sum
  spanProg : f = u + (prog.map Flight.size).sum
  spanPub : a = f + (pub.map Flight.size).sum
  added : AtPosition s.vq a
  collected : CollectedTo s.vq d
  nextAvail : s.nextAvail = f % num
  availWrap : s.availWrap = wrapBit num f
  nextUsed : s.nextUsed = u % num
  usedWrap : s.usedWrap = wrapBit num u
  inProgress : s.inProgress = prog.map fun x => (x.head, x.size)
  published : Laid Flight.size (ChainAt s.vq.desc num) f pub
  returned : Laid (fun u => u.1.size) (UsedAt s.vq.desc num) d used
  bits : SlotBits s.vq.desc num u a
  history : s.written.drop s.collected = usedSlots num d used
  collectedLe : s.collected ≤ s.written.length

variable {desc}

/-- The device finds the id and the length of a chain. -/
theorem walkChain_eq {p n id fuel : Nat} (pos : 0 < num)
    (chained : ∀ k, k ≤ n → (desc ((p + k) % num)).has vringDescFNext = decide (k < n))
    (last : (desc ((p + n) % num)).id = id) (enough : n < fuel) :
    walkChain desc num fuel (p % num) = some (id, n + 1) := by
  induction n generalizing p fuel with
  | zero =>
    obtain ⟨fuel, rfl⟩ : ∃ f, fuel = f + 1 := ⟨fuel - 1, by omega⟩
    have single := chained 0 le_rfl
    rw [add_zero] at single last
    rw [walkChain, single, last]
    rfl
  | succ n ih =>
    obtain ⟨fuel, rfl⟩ : ∃ f, fuel = f + 1 := ⟨fuel - 1, by omega⟩
    have first := chained 0 (Nat.zero_le _)
    rw [add_zero, decide_eq_true (by omega)] at first
    have slot := Nat.mod_lt p pos
    have next : (if p % num + 1 < num then p % num + 1 else 0) = (p + 1) % num := by
      rw [mod_advance p pos (by omega)]
      split <;> omega
    have rest := ih (fun k le => by
      rw [add_assoc, add_comm 1 k]
      refine (chained (k + 1) (by omega)).trans (decide_eq_decide.mpr ?_)
      omega) (by rw [add_assoc, add_comm 1 n]; exact last)
      (show n < fuel by omega)
    rw [walkChain, if_pos first, next, rest]
    rfl

namespace PackedSim

variable {d u f a : Nat} {s : PackedSystem α} {prog pub : List (Flight α)}
  {used : List (Flight α × Nat)} {x : Flight α}

variable (sim : PackedSim num s d u f a prog pub used)

include sim

/-- The free descriptors are those that are not between the two positions. -/
theorem room : a + s.vq.numFree = d + num := by
  have total := sim.inv.total
  have spans : ((flights prog pub used).map Flight.chain).map List.length =
      prog.map Flight.size ++ pub.map Flight.size ++ used.map fun u => u.1.size := by
    simp [flights]
    rfl
  rw [spans, sum_append, sum_append, sim.numEq] at total
  have := sim.spanUsed
  have := sim.spanProg
  have := sim.spanPub
  omega

theorem size_pos (member : x ∈ flights prog pub used) : 0 < x.size :=
  sim.inv.length_pos (mem_map_of_mem member)

theorem size_le (member : x ∈ flights prog pub used) : x.size ≤ num :=
  sim.numEq ▸ sim.inv.length_le (mem_map_of_mem member)

theorem num_pos : 0 < num := sim.numEq ▸ sim.inv.pos

/-- The device fetches the first published chain, if there is one. -/
theorem keep_fetch : (pub = [] ∧ s.fetch = s) ∨ ∃ x rest, pub = x :: rest ∧
        PackedSim num s.fetch d u (f + x.size) a (prog ++ [x]) rest used := by
  have pos := sim.num_pos
  have spanPub := sim.spanPub
  cases pub with
  | nil =>
    refine .inl ⟨rfl, if_neg ?_⟩
    have behind := sim.bits.behind pos
    rw [spanPub, map_nil, sum_nil, add_zero] at behind
    rw [isAvailDesc, sim.nextAvail, sim.availWrap, behind]
    cases wrapBit num f <;> simp
  | cons x rest =>
    have member : x ∈ flights prog (x :: rest) used := by simp [flights]
    have sizePos := sim.size_pos member
    have sizeLe := sim.size_le member
    obtain ⟨chain, laid⟩ := sim.published
    have available : isAvailDesc (s.vq.desc s.nextAvail) s.availWrap = true := by
      have first := (chain 0 sizePos).1
      rw [add_zero] at first
      rw [isAvailDesc, sim.nextAvail, sim.availWrap, first.1, first.2]
      cases wrapBit num f <;> rfl
    have walked : walkChain s.vq.desc s.vq.num s.vq.num s.nextAvail = some (x.head, x.size) := by
      obtain ⟨n, size⟩ : ∃ n, x.size = n + 1 := ⟨x.size - 1, by omega⟩
      rw [sim.nextAvail, sim.numEq, size]
      refine walkChain_eq pos (fun k le => ?_) ?_ (by omega)
      · refine (chain k (by omega)).2.1.trans (decide_eq_decide.mpr ?_)
        omega
      · exact (chain n (by omega)).2.2
    have moved := advance_eq f pos sizeLe
    refine .inr ⟨x, rest, rfl, ?_⟩
    rw [PackedSystem.fetch, if_pos available, walked]
    simp only [sim.numEq, sim.nextAvail, sim.availWrap, moved]
    rw [map_cons, sum_cons] at spanPub
    refine ⟨?_, sim.numEq, ?_, sim.spanUsed, ?_, by omega, sim.added, sim.collected, rfl, rfl,
      sim.nextUsed, sim.usedWrap, ?_, laid, sim.returned, sim.bits, sim.history,
      sim.collectedLe⟩
    · rw [flights_fetch]
      exact sim.inv
    · rw [flights_fetch]
      exact sim.tokens
    · have := sim.spanProg
      rw [map_append, sum_append, map_singleton, sum_singleton]
      omega
    · simp [sim.inProgress]

theorem keep_fetches (n : Nat) : ∃ prog' pub', prog' ++ pub' = prog ++ pub ∧
      (prog.length + n ≤ prog'.length ∨ pub' = []) ∧
      (∃ f', PackedSim num (PackedSystem.fetch^[n] s) d u f' a prog' pub' used) ∧
      (PackedSystem.fetch^[n] s).vq = s.vq := by
  refine reads_ahead PackedSystem.fetch
    (fun t prog pub => (∃ f, PackedSim num t d u f a prog pub used) ∧ t.vq = s.vq)
    ?_ n ⟨⟨f, sim⟩, rfl⟩
  rintro t prog pub ⟨⟨f, sim⟩, vq⟩
  have same : t.fetch.vq = t.vq := by
    unfold PackedSystem.fetch
    split
    · split <;> rfl
    · rfl
  refine sim.keep_fetch.imp_right ?_
  rintro ⟨x, rest, shape, sim'⟩
  exact ⟨x, rest, shape, ⟨_, sim'⟩, same.trans vq⟩

/-- The device returns a chain that it has fetched, in any order. -/
theorem keep_complete {before after : List (Flight α)} (here : prog = before ++ x :: after)
    (len : Nat) (extra : BitVec 16) :
    PackedSim num
      { s.returnBuffer x.head x.size len extra with
        inProgress := s.inProgress.eraseIdx before.length }
      d (u + x.size) f a (before ++ after) pub (used ++ [(x, len)]) := by
  subst here
  have pos := sim.num_pos
  have room := sim.room
  have spanUsed := sim.spanUsed
  have spanProg := sim.spanProg
  have spanPub := sim.spanPub
  have member : x ∈ flights (before ++ x :: after) pub used := by simp [flights]
  have sizePos := sim.size_pos member
  have sizeLe := sim.size_le member
  have order := flights_complete before after pub used x len
  have moved : advance s.vq.num s.nextUsed s.usedWrap x.size =
      ((u + x.size) % num, wrapBit num (u + x.size)) := by
    rw [sim.numEq, sim.nextUsed, sim.usedWrap, advance_eq u pos sizeLe]
  have bits := usedFlags_bits (wrapBit num u) extra
  have span : ((before ++ x :: after).map Flight.size).sum =
      x.size + ((before ++ after).map Flight.size).sum := by
    simp only [map_append, map_cons, sum_append, sum_cons]
    omega
  have desc : (writeUsed s.vq s.nextUsed s.usedWrap x.head len extra).desc =
      update s.vq.desc (u % num)
        { s.vq.desc (u % num) with
          id := x.head, len := len, flags := usedFlags (wrapBit num u) extra } := by
    simp only [writeUsed, sim.nextUsed, sim.usedWrap]
  have published : Laid Flight.size
      (ChainAt (writeUsed s.vq s.nextUsed s.usedWrap x.head len extra).desc num) f pub := by
    rw [desc]
    refine sim.published.imp fun q y _ low high chain k less => ?_
    have other : (q + k) % num ≠ u % num := (mod_ne_of_lt (by omega) (by omega)).symm
    simp only [update_of_ne other]
    exact chain k less
  have returned : Laid (fun u => u.1.size)
      (UsedAt (writeUsed s.vq s.nextUsed s.usedWrap x.head len extra).desc num) d
      (used ++ [(x, len)]) := by
    rw [desc]
    refine laid_snoc.mpr ⟨sim.returned.imp fun q y pending low high old => ?_, ?_⟩
    · have some : 0 < y.1.size := sim.size_pos (mem_append_right _ (mem_map_of_mem pending))
      have other : q % num ≠ u % num := mod_ne_of_lt (by omega) (by omega)
      simp only [UsedAt, update_of_ne other]
      exact old
    · rw [← spanUsed]
      simp only [UsedAt, update_self]
      exact ⟨⟨bits.1, bits.2⟩, trivial, trivial⟩
  have slots : SlotBits (writeUsed s.vq s.nextUsed s.usedWrap x.head len extra).desc num
      (u + x.size) a := by
    rw [desc]
    exact sim.bits.use (by omega) (by omega) (by omega) ⟨bits.1, bits.2⟩
  refine ⟨?_, sim.numEq, ?_, ?_, by omega, spanPub, ⟨sim.added.1, sim.added.2, sim.added.3,
    sim.added.4⟩, ⟨sim.collected.1, sim.collected.2⟩, sim.nextAvail, sim.availWrap,
    congrArg Prod.fst moved, congrArg Prod.snd moved, ?_, published, returned, slots, ?_, ?_⟩
  · exact (sim.inv.reorder (order.map _)).congr rfl rfl rfl rfl
  · intro y old
    exact sim.tokens y (order.mem_iff.mpr old)
  · rw [map_append, sum_append, map_singleton, sum_singleton, spanUsed, add_assoc]
  · simp [sim.inProgress, eraseIdx_append_of_length_le]
  · simp only [PackedSystem.returnBuffer]
    rw [drop_append_of_le_length sim.collectedLe, sim.history, usedSlots_snoc, ← spanUsed,
      sim.nextUsed]
  · have := sim.collectedLe
    simp only [PackedSystem.returnBuffer, length_append]
    omega

/-- `add_buf` finds no room, does not end, or publishes one more chain. -/
theorem keep_add (r : BufferRequest α) :
    (s.vq.numFree < r.cost ∧ addPacked s.vq r = .ok (-enospc, s.vq)) ∨
      (¬ r.IndirectFits ∧ addPacked s.vq r = .error .hang) ∨
      ∃ vq' x, ¬ s.vq.numFree < r.cost ∧ x.entry = ⟨r.data, r.cost⟩ ∧
        addPacked s.vq r = .ok (vqAddBufferSuccess, vq') ∧ vq'.numFree = s.vq.numFree - r.cost ∧
        PackedSim num { s with vq := vq' } d u f (a + x.size) prog (pub ++ [x]) used := by
  have room := sim.room
  have spanUsed := sim.spanUsed
  have spanProg := sim.spanProg
  have spanPub := sim.spanPub
  have numEq := sim.numEq
  rcases addPacked_spec r sim.added sim.inv.headLt sim.inv.count_le with full | hang |
    ⟨vq', n, cost, ok, added⟩
  · exact .inl full
  · exact .inr (.inl hang)
  obtain ⟨x, shape, size, data⟩ : ∃ x : Flight α,
      x.chain = follow s.vq.next s.vq.freeHead (n + 1) ∧ x.size = n + 1 ∧ x.data = r.data :=
    ⟨⟨follow s.vq.next s.vq.freeHead (n + 1), r.data⟩, rfl, length_follow _ _ _, rfl⟩
  have head : x.head = s.vq.freeHead := by rw [Flight.head, shape, chainHead_follow]
  have enough := added.enough
  have order := flights_add prog pub used x
  -- The new descriptors lie in slots that nothing before position `a` occupies.
  have old : ∀ q, d ≤ q → q < a → vq'.desc (q % num) = s.vq.desc (q % num) := by
    intro q low high
    refine added.frame _ fun k le => ?_
    rw [numEq]
    exact mod_ne_of_lt (by omega) (by omega)
  refine .inr (.inr ⟨vq', x, by omega, ?_, ok, ?_, ?_⟩)
  · rw [Flight.entry, data, cost, ← size]
    rfl
  · rw [added.count, cost]
  refine ⟨?_, added.num.trans numEq, ?_, spanUsed, spanProg, ?_, ?_,
    added.collectedTo sim.collected, sim.nextAvail, sim.availWrap, sim.nextUsed, sim.usedWrap,
    sim.inProgress, ?_, ?_, ?_, sim.history, sim.collectedLe⟩
  · have inv := sim.inv.added added
    rw [← shape] at inv
    exact inv.reorder (order.map Flight.chain)
  · intro y member
    rw [added.states, setState]
    rcases mem_cons.mp (order.mem_iff.mpr member) with rfl | before
    · rw [head, update_self, data]
    · have ne := sim.inv.head_ne_freeHead (by omega) (mem_map_of_mem before)
      exact (congrArg DescStatePacked.data (update_of_ne ne _ _)).trans (sim.tokens y before)
  · rw [map_append, sum_append, map_singleton, sum_singleton]
    omega
  · rw [size]
    exact added.atPosition sim.added
  · refine laid_snoc.mpr ⟨sim.published.imp fun q y _ low high chain k less => ?_, ?_⟩
    · rw [old (q + k) (by omega) (by omega)]
      exact chain k less
    intro k less
    rw [← spanPub, ← numEq, head]
    refine ⟨added.avail k (by omega), ?_, added.ids k (by omega)⟩
    refine (added.chained k (by omega)).trans (decide_eq_decide.mpr ?_)
    omega
  · refine sim.returned.imp fun q y pending low high used => ?_
    have some : 0 < y.1.size := sim.size_pos (mem_append_right _ (mem_map_of_mem pending))
    simp only [UsedAt, old q low (by omega)]
    exact used
  · refine sim.bits.add (fun k less => ?_) fun slot off => ?_
    · rw [← numEq]
      exact added.avail k (by omega)
    · refine added.frame slot fun k le => ?_
      rw [numEq]
      exact off k (by omega)

/-- `more_used_packed` tells whether there is a chain to collect. -/
theorem more_eq : moreUsedPacked s.vq = !used.isEmpty := by
  have pos := sim.num_pos
  have room := sim.room
  have spanUsed := sim.spanUsed
  have spanProg := sim.spanProg
  have spanPub := sim.spanPub
  have idx := sim.collected.idx
  have lap := sim.collected.lap
  rw [sim.numEq] at idx lap
  cases used with
  | nil =>
    have same : u = d := spanUsed
    rw [moreUsedPacked, idx, lap, ← same]
    exact sim.bits.not_used pos (by omega) (by omega)
  | cons =>
    obtain ⟨⟨shows, -⟩, -⟩ := sim.returned
    rw [moreUsedPacked, isUsedDescPacked, idx, lap, shows.1, shows.2]
    cases wrapBit num d <;> rfl

/-- `get_buf` finds nothing, stops at a missing token, or collects the first chain. -/
theorem keep_get : (used = [] ∧ virtqueueGetBufPacked s.vq = .ok (s.vq, none)) ∨
      ∃ x len rest, used = (x, len) :: rest ∧
        ((x.data = none ∧ virtqueueGetBufPacked s.vq = .error .bugCheck) ∨
          ∃ vq', virtqueueGetBufPacked s.vq = .ok (vq', some (x.data, len)) ∧
            vq'.numFree = s.vq.numFree + x.chain.length ∧
            PackedSim num { s with vq := vq', collected := s.collected + 1 }
              (d + x.size) u f a prog pub rest) := by
  have spanUsed := sim.spanUsed
  have spanProg := sim.spanProg
  have spanPub := sim.spanPub
  have idx := sim.collected.idx
  have lap := sim.collected.lap
  rw [sim.numEq] at idx lap
  cases used with
  | nil => exact .inl ⟨rfl, getPacked_empty sim.more_eq⟩
  | cons y rest =>
    obtain ⟨x, len⟩ := y
    obtain ⟨⟨-, id, length⟩, laid⟩ := sim.returned
    have more : moreUsedPacked s.vq = true := sim.more_eq
    have inv := sim.inv
    rw [map_chain_flights] at inv
    have token : (s.vq.descState (chainHead x.chain)).data = x.data :=
      sim.tokens x (by simp [flights])
    rw [← idx] at id length
    refine .inr ⟨x, len, rest, rfl, ?_⟩
    rcases getPacked_collect inv more id with ⟨none, bad⟩ | ⟨data, some, got⟩
    · exact .inl ⟨token ▸ none, bad⟩
    obtain ⟨given, count⟩ := inv.give
    rw [← some, token, length] at got
    have history := sim.history
    rw [usedSlots] at history
    have upTo : CollectedTo (advanceLastUsedIdx (detachBufPacked s.vq (chainHead x.chain))
        x.chain.length) (d + x.size) := by
      refine advanceLastUsedIdx_collected (detachBufPacked s.vq (chainHead x.chain))
        inv.pos inv.small ?_ ⟨sim.collected.idx, sim.collected.lap⟩
      exact inv.length_le (by simp)
    refine .inr ⟨_, got, count, ?_⟩
    refine ⟨?_, sim.numEq, ?_, ?_, spanProg, spanPub, { sim.added with }, upTo,
      sim.nextAvail, sim.availWrap, sim.nextUsed, sim.usedWrap, sim.inProgress, sim.published, laid,
      sim.bits, ?_, ?_⟩
    · rw [map_chain_flights]
      exact given.congr rfl rfl rfl rfl
    · intro y member
      have other : y.chain ∈ (flights prog pub rest).map Flight.chain := mem_map_of_mem member
      rw [map_chain_flights] at other
      have ne : y.head ≠ chainHead x.chain := inv.head_ne other
      change ((detachBufPacked s.vq (chainHead x.chain)).descState y.head).data = y.data
      rw [detachBufPacked_descState, if_neg ne]
      exact sim.tokens y (mem_flights_cons _ member)
    · rw [spanUsed, map_cons, sum_cons, add_assoc]
    · rw [← drop_drop, history, drop_one, tail_cons]
    · have lengths := congrArg List.length history
      rw [length_drop, length_cons] at lengths
      simp only
      omega

end PackedSim

/-! ## The refinement -/

/-- The ring and the id list hold exactly what the abstract queue holds. -/
def PackedRefines (num : Nat) (s : PackedSystem α) (q : AbstractQueue α) : Prop :=
  ∃ d u f a prog pub used, PackedSim num s d u f a prog pub used ∧
    q = realised s.vq.numFree prog pub used

theorem packedRefines_start (pos : 0 < num) (small : num ≤ 2 ^ 15) :
    PackedRefines num (packedStart α num) (.empty α num) := by
  have lap : wrapBit num 0 = true := wrapBit_of_lt pos
  have zero : 0 % num = 0 := Nat.zero_mod num
  have blank : VringPackedDesc.avail ⟨0, 0, 0, 0⟩ = false := by decide
  refine ⟨0, 0, 0, 0, [], [], [], ?_, rfl⟩
  refine ⟨idInv_created pos small, rfl, ?_, rfl, rfl, rfl, ⟨pos, small, zero.symm, ?_⟩,
    ⟨zero.symm, lap.symm⟩, zero.symm, lap.symm, zero.symm, lap.symm, rfl, trivial, trivial, ?_, rfl,
    le_rfl⟩
  · intro x member
    cases member
  · exact (congrArg lapFlags lap).symm
  · exact ⟨fun p below => absurd below (Nat.not_lt_zero p), fun p _ _ => blank⟩

/-- What the packed queue cannot do although the abstract queue can: fill an indirect
table of `2 ^ 16` entries, or return a buffer that was added without a token. -/
def Blocked (q : AbstractQueue α) : QueueOp α → Prop
  | .add r => ¬ r.IndirectFits
  | .complete _ _ => False
  | .get => ∃ e len rest, q.used = (e, len) :: rest ∧ e.data = none

/-- **Every step of the packed queue is a step of the abstract queue**, with the same
answer, unless the queue is blocked. -/
theorem packedStep_refines (q : AbstractQueue α)
    (op : PackedChoice × QueueOp α) (rel : PackedRefines num s q) :
    ((∃ e, packedStep s op = .error e) ∧ Blocked q op.2) ∨
      ∃ s', packedStep s op = .ok (s', (q.step op.2).2) ∧ PackedRefines num s' (q.step op.2).1 := by
  obtain ⟨⟨fetches, extra⟩, op⟩ := op
  obtain ⟨d, u, f, a, prog, pub, used, sim, rfl⟩ := rel
  obtain ⟨_, _, shape, -, ⟨_, sim'⟩, vq⟩ := sim.keep_fetches fetches
  rw [realised_congr used (congrArg VirtqueuePacked.numFree vq) shape]
  simp only [packedStep]
  generalize PackedSystem.fetch^[fetches] s = s at sim'
  cases op with
  | add r =>
    rcases sim'.keep_add r with ⟨full, ret⟩ | ⟨unfit, ret⟩ | ⟨vq', x, room, entry, ret, count, kept⟩
    · rw [realised_add_full _ _ _ _ full]
      refine .inr ⟨s, ?_, _, _, _, _, _, _, _, sim', rfl⟩
      simp only [PackedSystem.op, ret]
      rfl
    · exact .inl ⟨⟨.hang, by simp only [PackedSystem.op, ret]⟩, unfit⟩
    · rw [realised_add _ _ _ _ room entry]
      refine .inr ⟨{ s with vq := vq' }, ?_, _, _, _, _, _, _, _, kept, ?_⟩
      · simp only [PackedSystem.op, ret]
        rfl
      · rw [← count]
  | complete k len =>
    obtain ⟨prog, pub, shape, far, ⟨_, sim⟩, vq⟩ :=
      sim'.keep_fetches (k + 1 - s.inProgress.length)
    rw [realised_congr used (congrArg VirtqueuePacked.numFree vq) shape]
    simp only [PackedSystem.op, PackedSystem.complete]
    have held := congrArg List.length sim'.inProgress
    rw [length_map] at held
    generalize PackedSystem.fetch^[k + 1 - s.inProgress.length] s = t at sim
    by_cases inside : k < prog.length
    · obtain ⟨before, x, _, rfl, rfl⟩ := exists_split inside
      have head : t.inProgress[before.length]? = some (x.head, x.size) := by
        simp [sim.inProgress]
      rw [realised_complete, head]
      exact .inr ⟨_, rfl, _, _, _, _, _, _, _, sim.keep_complete rfl len extra, rfl⟩
    · obtain rfl : pub = [] := by
        rcases far with _ | empty
        · omega
        · exact empty
      have none : t.inProgress[k]? = none := by
        simp only [sim.inProgress, getElem?_map, Option.map_eq_none_iff, List.getElem?_eq_none_iff]
        omega
      rw [realised_complete_none _ _ _ (by omega), none]
      exact .inr ⟨_, rfl, _, _, _, _, _, _, _, sim, rfl⟩
  | get =>
    rcases sim'.keep_get with ⟨rfl, got⟩ | ⟨x, len, _, rfl, ⟨none, bad⟩ | ⟨vq', got, count, kept⟩⟩
    · refine .inr ⟨s, ?_, _, _, _, _, _, _, _, sim', rfl⟩
      simp only [PackedSystem.op, got]
      rfl
    · exact .inl ⟨⟨.bugCheck, by simp only [PackedSystem.op, bad]⟩, _, len, _, rfl, none⟩
    · rw [realised_get]
      refine .inr ⟨{ s with vq := vq', collected := s.collected + 1 }, ?_, _, _, _, _, _, _, _,
        kept, ?_⟩
      · simp only [PackedSystem.op, got]
        rfl
      · rw [← count]

end KvmGuestDrivers.VirtIO
