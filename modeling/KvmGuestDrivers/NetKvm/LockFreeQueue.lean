/-
# NetKvm.LockFreeQueue -- the ring of the lock-free queue

`CLockFreeQueue` is a ring with two indices on each side.  A producer moves the head by a
compare-exchange, stores its element in the slot it has won, waits until the producers before
it have moved the tail up to that slot, and moves the tail on.  A consumer does the same on
its side; the one of `Dequeue` runs alone and moves its head by a store.

The indices wrap at the size.  Beside each of them the model counts its moves, so that an
index is a position reduced modulo the size (`RingInv.indices`), and the slots between
`freed` and the number of elements that have won a slot are what the ring holds.
-/
import KvmGuestDrivers.Theory.Calls
import KvmGuestDrivers.Theory.Counter
import KvmGuestDrivers.Theory.Transition
import Mathlib.Data.Nat.Bitwise

namespace KvmGuestDrivers.NetKvm

set_option autoImplicit false

open Theory List

/-! ## The ring -/

structure Ring (α : Type) where
  producerHead : Nat
  producerTail : Nat
  consumerHead : Nat
  consumerTail : Nat
  /-- `m_PQueueRing`; `none` is what the allocation left there. -/
  slots : Nat → Option α
  /-- The elements in the order in which their producers won the head. -/
  won : List α
  /-- How often `m_ProducerTail`, `m_ConsumerHead` and `m_ConsumerTail` have been moved. -/
  published : Nat
  claimed : Nat
  freed : Nat
  /-- What the dequeues have returned, in the order in which they moved `m_ConsumerTail`. -/
  delivered : List (Option α)

def createRing (α : Type) : Ring α :=
  { producerHead := 0, producerTail := 0, consumerHead := 0, consumerTail := 0
    slots := fun _ => none
    won := [], published := 0, claimed := 0, freed := 0, delivered := [] }

/-- Where a thread is: before the operation named.  `seen` is the position that the index had
when it was read, `pos` the position that the thread has won. -/
inductive RingPoint (α : Type) where
  | outside
  /-- `Enqueue`: the read of `m_ProducerHead`. -/
  | reading (entry : α)
  /-- The read of `m_ConsumerTail`. -/
  | readingTail (entry : α) (head seen : Nat)
  /-- The compare-exchange of `m_ProducerHead`. -/
  | swapping (entry : α) (head seen : Nat)
  | storing (entry : α) (head pos : Nat)
  /-- The read of `m_ProducerTail` in the loop. -/
  | waiting (entry : α) (head pos : Nat)
  /-- The store to `m_ProducerTail`. -/
  | publishing (entry : α) (head pos : Nat)
  | full
  | enqueued (entry : α) (pos : Nat)
  /-- `Dequeue`, or `DequeueMC` where `many`: the read of `m_ConsumerHead`. -/
  | deqReading (many : Bool)
  /-- The read of `m_ProducerTail`. -/
  | deqReadingTail (many : Bool) (head seen : Nat)
  /-- The store to `m_ConsumerHead`, or its compare-exchange. -/
  | deqClaiming (many : Bool) (head seen : Nat)
  | deqFetching (many : Bool) (head pos : Nat)
  /-- The read of `m_ConsumerTail` in the loop of `DequeueMC`. -/
  | deqWaiting (entry : Option α) (head pos : Nat)
  /-- The store to `m_ConsumerTail`. -/
  | deqReleasing (entry : Option α) (head pos : Nat)
  | empty
  | dequeued (entry : Option α) (pos : Nat)
  deriving DecidableEq

def nextIndex (size index : Nat) : Nat := (index + 1) &&& (size - 1)

section Machine

variable {α : Type} {pos size seen : Nat} {r : Ring α} {p : RingPoint α} {e : α}

def Ring.isEmpty (r : Ring α) : Bool := r.consumerHead == r.producerTail

def Ring.peek (r : Ring α) : Option α :=
  if r.consumerHead = r.producerTail then none else r.slots r.consumerHead

variable (slots : Nat → Option α)

def storeSlot (index : Nat) (entry : α) : Nat → Option α :=
  fun j => if j = index then some entry else slots j

def ringAdvance (size : Nat) (r : Ring α) : RingPoint α → Ring α × RingPoint α
  | .outside => (r, .outside)
  | .reading e => (r, .readingTail e r.producerHead r.won.length)
  | .readingTail e head seen =>
    if nextIndex size head = r.consumerTail then (r, .full) else (r, .swapping e head seen)
  | .swapping e head _ =>
    if r.producerHead = head then
      ({ r with producerHead := nextIndex size head, won := r.won ++ [e] },
        .storing e head r.won.length)
    else (r, .reading e)
  | .storing e head pos => ({ r with slots := storeSlot r.slots head e }, .waiting e head pos)
  | .waiting e head pos =>
    if r.producerTail = head then (r, .publishing e head pos) else (r, .waiting e head pos)
  | .publishing e head pos =>
    ({ r with producerTail := nextIndex size head, published := r.published + 1 },
      .enqueued e pos)
  | .full => (r, .full)
  | .enqueued e pos => (r, .enqueued e pos)
  | .deqReading many => (r, .deqReadingTail many r.consumerHead r.claimed)
  | .deqReadingTail many head seen =>
    if head = r.producerTail then (r, .empty) else (r, .deqClaiming many head seen)
  | .deqClaiming many head _ =>
    -- `Dequeue` stores without looking
    if many = true → r.consumerHead = head then
      ({ r with consumerHead := nextIndex size head, claimed := r.claimed + 1 },
        .deqFetching many head r.claimed)
    else (r, .deqReading many)
  | .deqFetching many head pos =>
    (r, if many then .deqWaiting (r.slots head) head pos
      else .deqReleasing (r.slots head) head pos)
  | .deqWaiting e head pos =>
    if r.consumerTail = head then (r, .deqReleasing e head pos) else (r, .deqWaiting e head pos)
  | .deqReleasing e head pos =>
    ({ r with consumerTail := nextIndex size head, freed := r.freed + 1,
              delivered := r.delivered ++ [e] },
      .dequeued e pos)
  | .empty => (r, .empty)
  | .dequeued e pos => (r, .dequeued e pos)

inductive RingMove (size : Nat) (r : Ring α) : RingPoint α → Ring α → RingPoint α → Prop where
  | stay (p : RingPoint α) : RingMove size r p r p
  | readHead (e : α) :
      RingMove size r (.reading e) r (.readingTail e r.producerHead r.won.length)
  | noRoom (e : α) (head seen : Nat) (found : nextIndex size head = r.consumerTail) :
      RingMove size r (.readingTail e head seen) r .full
  | room (e : α) (head seen : Nat) (found : nextIndex size head ≠ r.consumerTail) :
      RingMove size r (.readingTail e head seen) r (.swapping e head seen)
  | win (e : α) (head seen : Nat) (found : r.producerHead = head) :
      RingMove size r (.swapping e head seen)
        { r with producerHead := nextIndex size head, won := r.won ++ [e] }
        (.storing e head r.won.length)
  | lose (e : α) (head seen : Nat) (found : r.producerHead ≠ head) :
      RingMove size r (.swapping e head seen) r (.reading e)
  | store (e : α) (head pos : Nat) :
      RingMove size r (.storing e head pos) { r with slots := storeSlot r.slots head e }
        (.waiting e head pos)
  | turn (e : α) (head pos : Nat) (found : r.producerTail = head) :
      RingMove size r (.waiting e head pos) r (.publishing e head pos)
  | publish (e : α) (head pos : Nat) :
      RingMove size r (.publishing e head pos)
        { r with producerTail := nextIndex size head, published := r.published + 1 }
        (.enqueued e pos)
  | deqReadHead (many : Bool) :
      RingMove size r (.deqReading many) r (.deqReadingTail many r.consumerHead r.claimed)
  | nothing (many : Bool) (head seen : Nat) (found : head = r.producerTail) :
      RingMove size r (.deqReadingTail many head seen) r .empty
  | something (many : Bool) (head seen : Nat) (found : head ≠ r.producerTail) :
      RingMove size r (.deqReadingTail many head seen) r (.deqClaiming many head seen)
  | claim (many : Bool) (head seen : Nat) (found : many = true → r.consumerHead = head) :
      RingMove size r (.deqClaiming many head seen)
        { r with consumerHead := nextIndex size head, claimed := r.claimed + 1 }
        (.deqFetching many head r.claimed)
  | beaten (many : Bool) (head seen : Nat) :
      RingMove size r (.deqClaiming many head seen) r (.deqReading many)
  | fetchMany (head pos : Nat) :
      RingMove size r (.deqFetching true head pos) r (.deqWaiting (r.slots head) head pos)
  | fetch (head pos : Nat) :
      RingMove size r (.deqFetching false head pos) r (.deqReleasing (r.slots head) head pos)
  | deqTurn (e : Option α) (head pos : Nat) (found : r.consumerTail = head) :
      RingMove size r (.deqWaiting e head pos) r (.deqReleasing e head pos)
  | free (e : Option α) (head pos : Nat) :
      RingMove size r (.deqReleasing e head pos)
        { r with consumerTail := nextIndex size head, freed := r.freed + 1,
                 delivered := r.delivered ++ [e] }
        (.dequeued e pos)

theorem ringMove_advance (size : Nat) (r : Ring α) (p : RingPoint α) :
    RingMove size r p (ringAdvance size r p).1 (ringAdvance size r p).2 := by
  fun_cases ringAdvance size r p with
  | case2 e => exact .readHead e
  | case3 e head seen found => exact .noRoom e head seen found
  | case4 e head seen found => exact .room e head seen found
  | case5 => exact .win _ _ _ rfl
  | case6 e head seen found => exact .lose e head seen found
  | case7 e head pos => exact .store e head pos
  | case8 => exact .turn _ _ _ rfl
  | case10 e head pos => exact .publish e head pos
  | case13 many => exact .deqReadHead many
  | case14 => exact .nothing _ _ _ rfl
  | case15 many head seen found => exact .something many head seen found
  | case16 many head seen found => exact .claim many head seen found
  | case17 many head seen => exact .beaten many head seen
  | case18 many => cases many <;> constructor
  | case19 => exact .deqTurn _ _ _ rfl
  | case21 e head pos => exact .free e head pos
  | _ => exact .stay _

/-- Where a compare-exchange succeeds, the head has gone less than once around the ring since
the thread has read it. -/
def RingRegular (size : Nat) (r : Ring α) : RingPoint α → Prop
  | .swapping _ head seen => r.producerHead = head → r.won.length < seen + size
  | .deqClaiming true head seen => r.consumerHead = head → r.claimed < seen + size
  | _ => True

instance (size : Nat) (r : Ring α) (p : RingPoint α) : Decidable (RingRegular size r p) := by
  unfold RingRegular
  split <;> infer_instance

/-! ## The invariant -/

/-- The thread has won position `pos` and not yet moved the tail past it. -/
def holdsSlot (pos : Nat) : RingPoint α → Bool
  | .storing _ _ p => p == pos
  | .waiting _ _ p => p == pos
  | .publishing _ _ p => p == pos
  | _ => false

/-- The thread has won position `pos` and not yet stored its element there. -/
def awaitsStore (pos : Nat) : RingPoint α → Bool
  | .storing _ _ p => p == pos
  | _ => false

/-- The thread has claimed position `pos` and not yet freed it. -/
def holdsClaim (pos : Nat) : RingPoint α → Bool
  | .deqFetching _ _ p => p == pos
  | .deqWaiting _ _ p => p == pos
  | .deqReleasing _ _ p => p == pos
  | _ => false

def consumes : RingPoint α → Bool
  | .deqReading _ => true
  | .deqReadingTail _ _ _ => true
  | .deqClaiming _ _ _ => true
  | .deqFetching _ _ _ => true
  | .deqWaiting _ _ _ => true
  | .deqReleasing _ _ _ => true
  | _ => false

/-- The thread is in `Dequeue`, before it has read the slot. -/
def consumesAlone : RingPoint α → Bool
  | .deqReading many => !many
  | .deqReadingTail many _ _ => !many
  | .deqClaiming many _ _ => !many
  | .deqFetching many _ _ => !many
  | _ => false

def RingPointOk (size : Nat) (r : Ring α) : RingPoint α → Prop
  | .readingTail _ head seen => head = seen % size ∧ seen ≤ r.won.length
  | .swapping _ head seen =>
    head = seen % size ∧ seen ≤ r.won.length ∧
      (seen = r.won.length → r.won.length + 1 < r.freed + size)
  | .storing e head pos => head = pos % size ∧ r.won[pos]? = some e ∧ r.published ≤ pos
  | .waiting e head pos => head = pos % size ∧ r.won[pos]? = some e ∧ r.published ≤ pos
  | .publishing e head pos => head = pos % size ∧ r.won[pos]? = some e ∧ pos = r.published
  | .enqueued e pos => r.won[pos]? = some e ∧ pos < r.published
  | .deqReadingTail many head seen =>
    head = seen % size ∧ seen ≤ r.claimed ∧ (many = false → seen = r.claimed)
  | .deqClaiming many head seen =>
    head = seen % size ∧ seen ≤ r.claimed ∧ (many = false → seen = r.claimed) ∧
      (seen = r.claimed → r.claimed < r.published)
  | .deqFetching many head pos =>
    head = pos % size ∧ r.freed ≤ pos ∧ pos < r.claimed ∧ (many = false → pos = r.freed)
  | .deqWaiting e head pos =>
    head = pos % size ∧ r.freed ≤ pos ∧ pos < r.claimed ∧ e = r.won[pos]?
  | .deqReleasing e head pos =>
    head = pos % size ∧ pos = r.freed ∧ pos < r.claimed ∧ e = r.won[pos]?
  | .dequeued e pos => e = r.won[pos]? ∧ pos < r.freed
  | _ => True

structure RingInv (size : Nat) (r : Ring α) (ps : List (RingPoint α)) : Prop where
  indices : r.producerHead = r.won.length % size ∧ r.producerTail = r.published % size ∧
    r.consumerHead = r.claimed % size ∧ r.consumerTail = r.freed % size
  order : r.freed ≤ r.claimed ∧ r.claimed ≤ r.published ∧ r.published ≤ r.won.length ∧
    r.won.length < r.freed + size
  points : ∀ p ∈ ps, RingPointOk size r p
  producers : ∀ pos, r.published ≤ pos → pos < r.won.length → ps.countP (holdsSlot pos) = 1
  consumers : ∀ pos, r.freed ≤ pos → pos < r.claimed → ps.countP (holdsClaim pos) = 1
  stored : ∀ pos, r.freed ≤ pos → pos < r.won.length →
    r.slots (pos % size) = r.won[pos]? ∨ ∃ p ∈ ps, awaitsStore pos p = true
  delivered : r.delivered = (r.won.take r.freed).map some
  alone : ∀ (i j : Nat) (p q : RingPoint α), ps[i]? = some p → ps[j]? = some q →
    consumesAlone p = true → consumes q = true → i = j

theorem holdsSlot_of_awaitsStore (p : RingPoint α) (awaits : awaitsStore pos p = true) :
    holdsSlot pos p = true := by
  cases p <;> first | exact awaits | cases awaits

theorem consumes_of_consumesAlone (p : RingPoint α) (single : consumesAlone p = true) :
    consumes p = true := by
  cases p <;> first | rfl | cases single

theorem consumes_of_holdsClaim (p : RingPoint α) (holds : holdsClaim pos p = true) :
    consumes p = true := by
  cases p <;> first | rfl | cases holds

theorem RingPointOk.holdsSlot_range (ok : RingPointOk size r p) (holds : holdsSlot pos p = true) :
    r.published ≤ pos ∧ pos < r.won.length := by
  cases p with
  | storing _ _ own | waiting _ _ own =>
    obtain rfl : own = pos := by simpa [holdsSlot] using holds
    exact ⟨ok.2.2, (List.getElem?_eq_some_iff.mp ok.2.1).1⟩
  | publishing e _ own =>
    obtain rfl : own = pos := by simpa [holdsSlot] using holds
    exact ⟨le_of_eq ok.2.2.symm, (List.getElem?_eq_some_iff.mp ok.2.1).1⟩
  | _ => cases holds

theorem RingPointOk.holdsClaim_range (ok : RingPointOk size r p) (holds : holdsClaim pos p = true) :
    r.freed ≤ pos ∧ pos < r.claimed := by
  cases p with
  | deqFetching _ _ own | deqWaiting _ _ own =>
    obtain rfl : own = pos := by simpa [holdsClaim] using holds
    exact ⟨ok.2.1, ok.2.2.1⟩
  | deqReleasing e _ own =>
    obtain rfl : own = pos := by simpa [holdsClaim] using holds
    exact ⟨le_of_eq ok.2.1.symm, ok.2.2.1⟩
  | _ => cases holds

theorem nextIndex_mod (k a : Nat) : nextIndex (2 ^ k) (a % 2 ^ k) = (a + 1) % 2 ^ k := by
  rw [nextIndex, Nat.and_two_pow_sub_one_eq_mod, Nat.mod_add_mod]

section Frames

section

variable (ok : RingPointOk size r p)

include ok

theorem RingPointOk.won
    (bound : r.freed ≤ r.claimed ∧ r.claimed ≤ r.won.length) (index : Nat) (e : α) :
    RingPointOk size { r with producerHead := index, won := r.won ++ [e] } p := by
  have keep {pos : Nat} {x : α} (found : r.won[pos]? = some x) : (r.won ++ [e])[pos]? = some x := by
    rw [getElem?_append_left (List.getElem?_eq_some_iff.mp found).1]
    exact found
  have same {pos : Nat} (lt : pos < r.claimed) : r.won[pos]? = (r.won ++ [e])[pos]? :=
    (getElem?_append_left (by omega)).symm
  cases p with
  | readingTail => exact ⟨ok.1, by simpa using Nat.le_succ_of_le ok.2⟩
  | swapping =>
    obtain ⟨index, le, _⟩ := ok
    simp only [RingPointOk, length_append]
    exact ⟨index, by omega, by omega⟩
  | storing | waiting | publishing => exact ⟨ok.1, keep ok.2.1, ok.2.2⟩
  | enqueued => exact ⟨keep ok.1, ok.2⟩
  | deqWaiting | deqReleasing => exact ⟨ok.1, ok.2.1, ok.2.2.1, ok.2.2.2.trans (same ok.2.2.1)⟩
  | dequeued x pos =>
    have lt : pos < r.freed := ok.2
    exact ⟨ok.1.trans (same (by omega)), lt⟩
  | _ => exact ok

theorem RingPointOk.stored : RingPointOk size { r with slots := slots } p := by
  cases p <;> exact ok

/-- What a thread that does not hold the next slot relies on when the tail moves. -/
theorem RingPointOk.published (other : holdsSlot r.published p = false) (index : Nat) :
    RingPointOk size { r with producerTail := index, published := r.published + 1 } p := by
  cases p with
  | storing _ _ pos | waiting _ _ pos =>
    have ne : pos ≠ r.published := by simpa [holdsSlot] using other
    exact ⟨ok.1, ok.2.1, Nat.lt_of_le_of_ne ok.2.2 ne.symm⟩
  | publishing x _ pos =>
    have ne : pos ≠ r.published := by simpa [holdsSlot] using other
    exact absurd ok.2.2 ne
  | enqueued => exact ⟨ok.1, Nat.lt_succ_of_lt ok.2⟩
  | deqClaiming =>
    exact ⟨ok.1, ok.2.1, ok.2.2.1, fun same => Nat.lt_succ_of_lt (ok.2.2.2 same)⟩
  | _ => exact ok

/-- What a thread other than one in `Dequeue` relies on when a position is claimed. -/
theorem RingPointOk.claimed (other : consumesAlone p = false) (index : Nat) :
    RingPointOk size { r with consumerHead := index, claimed := r.claimed + 1 } p := by
  cases p with
  | deqReadingTail =>
    refine ⟨ok.1, Nat.le_succ_of_le ok.2.1, fun single => ?_⟩
    simp [consumesAlone, single] at other
  | deqClaiming _ _ seen =>
    refine ⟨ok.1, Nat.le_succ_of_le ok.2.1, fun single => ?_, fun same => ?_⟩
    · simp [consumesAlone, single] at other
    · have le : seen ≤ r.claimed := ok.2.1
      have same : seen = r.claimed + 1 := same
      omega
  | deqFetching | deqWaiting | deqReleasing =>
    exact ⟨ok.1, ok.2.1, Nat.lt_succ_of_lt ok.2.2.1, ok.2.2.2⟩
  | _ => exact ok

/-- What a thread that has not claimed the next position relies on when it is freed. -/
theorem RingPointOk.freed (other : holdsClaim r.freed p = false) (index : Nat) (e : Option α) :
    RingPointOk size
      { r with consumerTail := index, freed := r.freed + 1,
               delivered := r.delivered ++ [e] } p := by
  cases p with
  | swapping =>
    refine ⟨ok.1, ok.2.1, fun same => ?_⟩
    have room : r.won.length + 1 < r.freed + size := ok.2.2 same
    show r.won.length + 1 < r.freed + 1 + size
    omega
  | deqFetching _ _ pos =>
    have ne : pos ≠ r.freed := by simpa [holdsClaim] using other
    exact ⟨ok.1, Nat.lt_of_le_of_ne ok.2.1 ne.symm, ok.2.2.1,
      fun single => absurd (ok.2.2.2 single) ne⟩
  | deqWaiting x _ pos =>
    have ne : pos ≠ r.freed := by simpa [holdsClaim] using other
    exact ⟨ok.1, Nat.lt_of_le_of_ne ok.2.1 ne.symm, ok.2.2⟩
  | deqReleasing x _ pos =>
    have ne : pos ≠ r.freed := by simpa [holdsClaim] using other
    exact absurd ok.2.1 ne
  | dequeued => exact ⟨ok.1, Nat.lt_succ_of_lt ok.2⟩
  | _ => exact ok

end

end Frames

/-! ## Steps -/

section Steps

variable {k : Nat} {ps : List (RingPoint α)} {i : Nat} {r' : Ring α}

section

variable (inv : RingInv (2 ^ k) r ps) {q : RingPoint α} {head pos : Nat}

include inv

namespace RingInv

theorem points_move (own : RingPointOk (2 ^ k) r' q)
    (frame : ∀ (j : Nat) (o : RingPoint α), j ≠ i → ps[j]? = some o →
      RingPointOk (2 ^ k) r o → RingPointOk (2 ^ k) r' o) :
    ∀ o ∈ ps.set i q, RingPointOk (2 ^ k) r' o := by
  refine forall_mem_move own fun j o ne old => ?_
  exact frame j o ne old (inv.points o (mem_of_getElem? old))

theorem alone_move (here : ps[i]? = some p)
    (single : consumesAlone q = true → consumesAlone p = true)
    (any : consumes q = true → consumes p = true) :
    ∀ (a b : Nat) (x y : RingPoint α), (ps.set i q)[a]? = some x → (ps.set i q)[b]? = some y →
      consumesAlone x = true → consumes y = true → a = b := by
  intro a b x y atA atB ofX ofY
  rcases getElem?_move atA with ⟨rfl, rfl⟩ | ⟨_, oldA⟩
  · rcases getElem?_move atB with ⟨rfl, _⟩ | ⟨_, oldB⟩
    · rfl
    · exact inv.alone a b p y here oldB (single ofX) ofY
  · rcases getElem?_move atB with ⟨rfl, rfl⟩ | ⟨_, oldB⟩
    · exact inv.alone a b x p oldA here ofX (any ofY)
    · exact inv.alone a b x y oldA oldB ofX ofY

section

variable (here : ps[i]? = some p)
  (same : ∀ pos, holdsSlot pos q = holdsSlot pos p ∧ awaitsStore pos q = awaitsStore pos p ∧
    holdsClaim pos q = holdsClaim pos p)

include here same

/-- A step that writes nothing and neither takes nor gives up a position. -/
theorem replace (own : RingPointOk (2 ^ k) r q)
    (alone : ∀ (a b : Nat) (x y : RingPoint α), (ps.set i q)[a]? = some x →
      (ps.set i q)[b]? = some y → consumesAlone x = true → consumes y = true → a = b) :
    RingInv (2 ^ k) r (ps.set i q) where
  __ := inv
  points := inv.points_move own fun _ _ _ _ ok => ok
  producers := HeldOnce.keep inv.producers here fun pos => (same pos).1
  consumers := HeldOnce.keep inv.consumers here fun pos => (same pos).2.2
  stored pos low high := (inv.stored pos low high).imp_right
    (exists_mem_move here fun awaits => (same pos).2.1.trans awaits)
  alone := alone

theorem quiet (single : consumesAlone q = true → consumesAlone p = true)
    (any : consumes q = true → consumes p = true) (own : RingPointOk (2 ^ k) r q) :
    RingInv (2 ^ k) r (ps.set i q) :=
  inv.replace here same own (inv.alone_move here single any)

end

theorem enterAlone (here : ps[i]? = some .outside)
    (others : ∀ (j : Nat) (o : RingPoint α), j ≠ i → ps[j]? = some o → consumes o = false) :
    RingInv (2 ^ k) r (ps.set i (.deqReading false)) := by
  have only (j : Nat) (o : RingPoint α) (there : (ps.set i (.deqReading false))[j]? = some o)
      (any : consumes o = true) : j = i := by
    rcases getElem?_move there with ⟨same, _⟩ | ⟨ne, old⟩
    · exact same
    · rw [others j o ne old] at any
      cases any
  refine inv.replace here (fun _ => ⟨rfl, rfl, rfl⟩) trivial ?_
  intro a b x y atA atB ofX ofY
  rw [only a x atA (consumes_of_consumesAlone x ofX), only b y atB ofY]

theorem holdsSlot_none : ps.countP (holdsSlot r.won.length) = 0 := by
  refine countP_eq_zero.mpr fun o member holds => ?_
  have range := (inv.points o member).holdsSlot_range holds
  omega

/-- The producer finds the head where it read it: the slot is its own. -/
theorem win (here : ps[i]? = some (.swapping e head seen)) (found : r.producerHead = head)
    (regular : r.won.length < seen + 2 ^ k) :
    RingInv (2 ^ k) { r with producerHead := nextIndex (2 ^ k) head, won := r.won ++ [e] }
      (ps.set i (.storing e head r.won.length)) := by
  obtain ⟨producerHead, producerTail, consumerHead, consumerTail⟩ := inv.indices
  obtain ⟨freedLe, _, publishedLe, _⟩ := inv.order
  obtain ⟨index, le, more⟩ : head = seen % 2 ^ k ∧ seen ≤ r.won.length ∧
    (seen = r.won.length → r.won.length + 1 < r.freed + 2 ^ k) :=
    inv.points _ (mem_of_getElem? here)
  -- the head has not moved since it was read
  have unmoved : seen = r.won.length :=
    eq_of_mod_eq (by rw [← index, ← found, producerHead]) le regular
  have length : (r.won ++ [e]).length = r.won.length + 1 := by simp
  have split {pos : Nat} (high : pos < (r.won ++ [e]).length) :
      pos < r.won.length ∨ pos = r.won.length := by omega
  exact
    { indices := by
        refine ⟨?_, producerTail, consumerHead, consumerTail⟩
        rw [length, ← nextIndex_mod, ← found, producerHead]
      order := by
        show r.freed ≤ r.claimed ∧ r.claimed ≤ r.published ∧
          r.published ≤ (r.won ++ [e]).length ∧ (r.won ++ [e]).length < r.freed + 2 ^ k
        omega
      points := inv.points_move ⟨by rw [index, unmoved], by simp, publishedLe⟩
        fun _ _ _ _ ok => ok.won ⟨freedLe, by omega⟩ _ e
      producers := by
        rw [length]
        exact HeldOnce.enter inv.producers here (fun _ => rfl) (fun _ => rfl) inv.holdsSlot_none
      consumers := HeldOnce.keep inv.consumers here fun _ => rfl
      stored := by
        intro pos low high
        rcases split high with lt | rfl
        · refine (inv.stored pos low lt).imp (fun there => ?_) (exists_mem_move here nofun)
          exact there.trans (getElem?_append_left lt).symm
        · exact .inr ⟨_, mem_of_getElem? (getElem?_moved here _), by simp [awaitsStore]⟩
      delivered := by
        show r.delivered = ((r.won ++ [e]).take r.freed).map some
        rw [take_append_of_le_length (by omega)]
        exact inv.delivered
      alone := inv.alone_move here nofun nofun }

theorem store (here : ps[i]? = some (.storing e head pos)) :
    RingInv (2 ^ k) { r with slots := storeSlot r.slots head e }
      (ps.set i (.waiting e head pos)) := by
  obtain ⟨_, _, _, _⟩ := inv.order
  obtain ⟨index, mine, ge⟩ : head = pos % 2 ^ k ∧ r.won[pos]? = some e ∧ r.published ≤ pos :=
    inv.points _ (mem_of_getElem? here)
  have lt : pos < r.won.length := (List.getElem?_eq_some_iff.mp mine).1
  exact
    { inv with
      points := inv.points_move ⟨index, mine, ge⟩ fun _ _ _ _ ok => ok.stored _
      producers := HeldOnce.keep inv.producers here fun _ => rfl
      consumers := HeldOnce.keep inv.consumers here fun _ => rfl
      stored := by
        intro other low high
        show storeSlot r.slots head e (other % 2 ^ k) = r.won[other]? ∨ _
        have low : r.freed ≤ other := low
        have high : other < r.won.length := high
        by_cases same : other = pos
        · subst same
          exact .inl (by rw [storeSlot, if_pos index.symm, mine])
        have apart : other % 2 ^ k ≠ head := by
          rw [index]
          intro clash
          rcases Nat.lt_or_gt_of_ne same with before | after
          · exact mod_ne_of_lt before (by omega) clash
          · exact mod_ne_of_lt after (by omega) clash.symm
        refine (inv.stored other low high).imp (fun there => ?_)
          (exists_mem_move here fun awaits => ?_)
        · rw [storeSlot, if_neg apart]
          exact there
        · have clash : pos = other := by simpa [awaitsStore] using awaits
          exact absurd clash.symm same
      alone := inv.alone_move here nofun nofun }

/-- The tail moves past the producer's own position, which is the next one. -/
theorem publish (here : ps[i]? = some (.publishing e head pos)) : RingInv (2 ^ k)
      { r with producerTail := nextIndex (2 ^ k) head, published := r.published + 1 }
      (ps.set i (.enqueued e pos)) := by
  obtain ⟨producerHead, _, consumerHead, consumerTail⟩ := inv.indices
  obtain ⟨freedLe, claimedLe, _, room⟩ := inv.order
  obtain ⟨index, mine, rfl⟩ : head = pos % 2 ^ k ∧ r.won[pos]? = some e ∧ pos = r.published :=
    inv.points _ (mem_of_getElem? here)
  have lt : r.published < r.won.length := (List.getElem?_eq_some_iff.mp mine).1
  exact
    { inv with
      indices := by
        refine ⟨producerHead, ?_, consumerHead, consumerTail⟩
        rw [← nextIndex_mod, index]
      order := ⟨freedLe, Nat.le_succ_of_le claimedLe, lt, room⟩
      points := by
        refine inv.points_move ⟨mine, Nat.lt_succ_self _⟩ fun j o ne there ok => ok.published ?_ _
        exact HeldOnce.other inv.producers lt here (by simp [holdsSlot]) there ne
      producers := HeldOnce.leave inv.producers here (fun _ => rfl) fun _ => rfl
      consumers := HeldOnce.keep inv.consumers here fun _ => rfl
      stored := fun other low high =>
        (inv.stored other low high).imp_right (exists_mem_move here nofun)
      alone := inv.alone_move here nofun nofun }

theorem holdsClaim_none : ps.countP (holdsClaim r.claimed) = 0 := by
  refine countP_eq_zero.mpr fun o member holds => ?_
  have range := (inv.points o member).holdsClaim_range holds
  omega

theorem claimed_eq_freed (here : ps[i]? = some p) (single : consumesAlone p = true)
    (unclaimed : ∀ pos, holdsClaim pos p = false) : r.claimed = r.freed := by
  obtain ⟨_, _⟩ := inv.order
  by_contra ne
  obtain ⟨j, o, there, holds⟩ := HeldOnce.holder inv.consumers le_rfl (by omega)
  have same := inv.alone i j p o here there single (consumes_of_holdsClaim o holds)
  subst same
  obtain rfl := Option.some.inj (here.symm.trans there)
  rw [unclaimed] at holds
  cases holds

theorem claim {many : Bool} (here : ps[i]? = some (.deqClaiming many head seen))
    (found : many = true → r.consumerHead = head)
    (regular : many = true → r.claimed < seen + 2 ^ k) :
    RingInv (2 ^ k) { r with consumerHead := nextIndex (2 ^ k) head, claimed := r.claimed + 1 }
      (ps.set i (.deqFetching many head r.claimed)) := by
  obtain ⟨producerHead, producerTail, consumerHead, consumerTail⟩ := inv.indices
  obtain ⟨freedLe, _, publishedLe, room⟩ := inv.order
  obtain ⟨index, le, single, more⟩ : head = seen % 2 ^ k ∧ seen ≤ r.claimed ∧
    (many = false → seen = r.claimed) ∧ (seen = r.claimed → r.claimed < r.published) :=
    inv.points _ (mem_of_getElem? here)
  have unmoved : seen = r.claimed := by
    cases many with
    | false => exact single rfl
    | true => exact eq_of_mod_eq (by rw [← index, ← found rfl, consumerHead]) le (regular rfl)
  have there := more unmoved
  exact
    { inv with
      indices := by
        refine ⟨producerHead, producerTail, ?_, consumerTail⟩
        rw [← nextIndex_mod, index, unmoved]
      order := ⟨Nat.le_succ_of_le freedLe, there, publishedLe, room⟩
      points := by
        refine inv.points_move ⟨by rw [index, unmoved], freedLe, Nat.lt_succ_self _, ?_⟩ ?_
        · rintro rfl
          exact inv.claimed_eq_freed here rfl fun _ => rfl
        intro j o ne other ok
        refine ok.claimed ?_ _
        cases own : consumesAlone o with
        | false => rfl
        | true => exact absurd (inv.alone j i o _ other here own rfl) ne
      producers := HeldOnce.keep inv.producers here fun _ => rfl
      consumers := HeldOnce.enter inv.consumers here (fun _ => rfl) (fun _ => rfl)
        inv.holdsClaim_none
      stored := fun other low high =>
        (inv.stored other low high).imp_right (exists_mem_move here nofun)
      alone := inv.alone_move here id fun _ => rfl }

theorem fetched (low : r.freed ≤ pos) (high : pos < r.published) :
    r.slots (pos % 2 ^ k) = r.won[pos]? := by
  obtain ⟨_, _, _, _⟩ := inv.order
  rcases inv.stored pos low (by omega) with there | ⟨o, member, awaits⟩
  · exact there
  · have range := (inv.points o member).holdsSlot_range (holdsSlot_of_awaitsStore o awaits)
    omega

theorem free {e : Option α} (here : ps[i]? = some (.deqReleasing e head pos)) : RingInv (2 ^ k)
      { r with consumerTail := nextIndex (2 ^ k) head, freed := r.freed + 1,
               delivered := r.delivered ++ [e] }
      (ps.set i (.dequeued e pos)) := by
  obtain ⟨producerHead, producerTail, consumerHead, _⟩ := inv.indices
  obtain ⟨_, claimedLe, publishedLe, room⟩ := inv.order
  obtain ⟨index, rfl, lt, mine⟩ : head = pos % 2 ^ k ∧ pos = r.freed ∧ pos < r.claimed ∧
    e = r.won[pos]? := inv.points _ (mem_of_getElem? here)
  exact
    { indices := by
        refine ⟨producerHead, producerTail, consumerHead, ?_⟩
        rw [← nextIndex_mod, index]
      order := ⟨lt, claimedLe, publishedLe, lt_of_lt_of_le room (by simp)⟩
      points := by
        refine inv.points_move ⟨mine, Nat.lt_succ_self _⟩ fun j o ne there ok => ok.freed ?_ _ _
        exact HeldOnce.other inv.consumers lt here (by simp [holdsClaim]) there ne
      producers := HeldOnce.keep inv.producers here fun _ => rfl
      consumers := HeldOnce.leave inv.consumers here (fun _ => rfl) fun _ => rfl
      stored := by
        intro other low high
        have low : r.freed + 1 ≤ other := low
        exact (inv.stored other (by omega) high).imp_right (exists_mem_move here nofun)
      delivered := by
        have inRange : r.freed < r.won.length := by omega
        rw [inv.delivered, mine, getElem?_eq_getElem inRange,
          take_succ_eq_append_getElem inRange, map_append]
        rfl
      alone := inv.alone_move here nofun nofun }

/-- **What a step keeps.** -/
theorem move (here : ps[i]? = some p) (move : RingMove (2 ^ k) r p r' q)
    (regular : RingRegular (2 ^ k) r p) : RingInv (2 ^ k) r' (ps.set i q) := by
  obtain ⟨producerHead, producerTail, consumerHead, consumerTail⟩ := inv.indices
  obtain ⟨_, claimedLe, _, room⟩ := inv.order
  have ok := inv.points _ (mem_of_getElem? here)
  have quiet {q : RingPoint α} := inv.quiet (q := q) here
  cases move with
  | stay => exact quiet (fun _ => ⟨rfl, rfl, rfl⟩) id id ok
  | readHead =>
    exact quiet (fun _ => ⟨rfl, rfl, rfl⟩) id id ⟨producerHead, le_rfl⟩
  | noRoom | lose | beaten => exact quiet (fun _ => ⟨rfl, rfl, rfl⟩) id id trivial
  | room e _ _ found =>
    refine quiet (fun _ => ⟨rfl, rfl, rfl⟩) id id ⟨ok.1, ok.2, fun same => ?_⟩
    -- the ring would be full if the next position were the one behind the tail
    by_contra full
    have behind : r.won.length + 1 = r.freed + 2 ^ k := by omega
    apply found
    rw [ok.1, nextIndex_mod, same, behind, Nat.add_mod_right, consumerTail]
  | win e _ _ found => exact inv.win here found (regular found)
  | store => exact inv.store here
  | turn e _ pos found =>
    have lt := (List.getElem?_eq_some_iff.mp ok.2.1).1
    have next : r.published = pos :=
      eq_of_mod_eq (by rw [← producerTail, ← ok.1, found]) ok.2.2 (by omega)
    exact quiet (fun _ => ⟨rfl, rfl, rfl⟩) id id ⟨ok.1, ok.2.1, next.symm⟩
  | publish => exact inv.publish here
  | deqReadHead =>
    exact quiet (fun _ => ⟨rfl, rfl, rfl⟩) id id ⟨consumerHead, le_rfl, fun _ => rfl⟩
  | nothing =>
    exact quiet (fun _ => ⟨rfl, rfl, rfl⟩) nofun nofun trivial
  | something _ _ _ found =>
    refine quiet (fun _ => ⟨rfl, rfl, rfl⟩) id id ⟨ok.1, ok.2.1, ok.2.2, fun same => ?_⟩
    refine Nat.lt_of_le_of_ne claimedLe fun last => found ?_
    rw [ok.1, same, last, producerTail]
  | claim _ _ _ found =>
    refine inv.claim here found fun multi => ?_
    subst multi
    exact regular (found rfl)
  | fetchMany =>
    have lt := ok.2.2.1
    exact quiet (fun _ => ⟨rfl, rfl, rfl⟩) nofun id
      ⟨ok.1, ok.2.1, ok.2.2.1, by rw [ok.1, inv.fetched ok.2.1 (by omega)]⟩
  | fetch =>
    have lt := ok.2.2.1
    exact quiet (fun _ => ⟨rfl, rfl, rfl⟩) nofun id
      ⟨ok.1, ok.2.2.2 rfl, ok.2.2.1, by rw [ok.1, inv.fetched ok.2.1 (by omega)]⟩
  | deqTurn e _ pos found =>
    have lt := ok.2.2.1
    have next : r.freed = pos :=
      eq_of_mod_eq (by rw [← consumerTail, ← ok.1, found]) ok.2.1 (by omega)
    exact quiet (fun _ => ⟨rfl, rfl, rfl⟩) nofun id ⟨ok.1, next.symm, ok.2.2.1, ok.2.2.2⟩
  | free => exact inv.free here

end RingInv

end

theorem ringInv_create : RingInv (2 ^ k) (createRing α) [] where
  indices := ⟨(Nat.zero_mod _).symm, (Nat.zero_mod _).symm, (Nat.zero_mod _).symm,
    (Nat.zero_mod _).symm⟩
  order := ⟨le_rfl, le_rfl, le_rfl, by
    have := Nat.two_pow_pos k
    show 0 < 0 + 2 ^ k
    omega⟩
  points _ member := nomatch member
  producers _ _ lt := absurd lt (Nat.not_lt_zero _)
  consumers _ _ lt := absurd lt (Nat.not_lt_zero _)
  stored _ _ lt := absurd lt (Nat.not_lt_zero _)
  delivered := rfl
  alone _ _ _ _ there := nomatch there

theorem RingInv.start {q : RingPoint α} (inv : RingInv (2 ^ k) r ps)
    (slot : ∀ pos, holdsSlot pos q = false) (claim : ∀ pos, holdsClaim pos q = false)
    (own : RingPointOk (2 ^ k) r q)
    (single : consumesAlone q = true → ps.countP consumes = 0)
    (any : consumes q = true → ps.countP consumesAlone = 0) :
    RingInv (2 ^ k) r (ps ++ [q]) where
  __ := inv
  points := forall_mem_concat inv.points own
  producers pos low high := by
    rw [countP_start, slot pos]
    exact inv.producers pos low high
  consumers pos low high := by
    rw [countP_start, claim pos]
    exact inv.consumers pos low high
  stored pos low high := by
    refine (inv.stored pos low high).imp_right ?_
    rintro ⟨o, member, awaits⟩
    exact ⟨o, mem_append_left _ member, awaits⟩
  alone a b x y atA atB ofX ofY := by
    rcases getElem?_start atA with ⟨rfl, rfl⟩ | oldA
    · rcases getElem?_start atB with ⟨rfl, _⟩ | oldB
      · rfl
      · have positive := countP_pos_of_getElem? oldB _ ofY
        rw [single ofX] at positive
        cases positive
    · rcases getElem?_start atB with ⟨rfl, rfl⟩ | oldB
      · have positive := countP_pos_of_getElem? oldA _ ofX
        rw [any ofY] at positive
        cases positive
      · exact inv.alone a b x y oldA oldB ofX ofY

end Steps

/-! ## Runs -/

structure QueueRun (α : Type) where
  ring : Ring α
  calls : List (RingPoint α)

inductive QueueOp (α : Type) where
  | enqueue (entry : α)
  | dequeue
  | advance (i : Nat)

def queueStart : QueueRun α := ⟨createRing α, []⟩

/-- The dequeues of a queue are calls of `DequeueMC` where `many`, of `Dequeue` otherwise. -/
def queueStep (size : Nat) (many : Bool) (s : QueueRun α) :
    QueueOp α → Except Empty (QueueRun α × Unit)
  | .enqueue e => .ok ({ s with calls := s.calls ++ [.reading e] }, ())
  | .dequeue => .ok ({ s with calls := s.calls ++ [.deqReading many] }, ())
  | .advance i =>
    match s.calls[i]? with
    | none => .ok (s, ())
    | some p =>
      .ok ({ ring := (ringAdvance size s.ring p).1,
             calls := s.calls.set i (ringAdvance size s.ring p).2 }, ())

/-- A lock keeps the calls of `Dequeue` apart. -/
def queueAllowed (many : Bool) (s : QueueRun α) : QueueOp α → Prop
  | .dequeue => many = true ∨ s.calls.countP consumes = 0
  | _ => True

/-- No compare-exchange meets an index that has gone around the ring. -/
def queueRegular (size : Nat) (many : Bool) (s : QueueRun α) (op : QueueOp α) : Prop :=
  queueAllowed many s op ∧
    match op with
    | .advance i => ∀ p ∈ s.calls[i]?, RingRegular size s.ring p
    | _ => True

instance (many : Bool) (s : QueueRun α) (op : QueueOp α) : Decidable (queueAllowed many s op) := by
  cases op <;> unfold queueAllowed <;> infer_instance

instance (size : Nat) (many : Bool) (s : QueueRun α) (op : QueueOp α) :
    Decidable (queueRegular size many s op) := by
  cases op <;> unfold queueRegular <;> infer_instance

def owns (pos : Nat) : RingPoint α → Bool
  | .enqueued _ p => p == pos
  | p => holdsSlot pos p

def takes (pos : Nat) : RingPoint α → Bool
  | .dequeued _ p => p == pos
  | p => holdsClaim pos p

def ringDone : RingPoint α → Bool
  | .outside => true
  | .full => true
  | .enqueued _ _ => true
  | .empty => true
  | .dequeued _ _ => true
  | _ => false

structure QueueSound (size : Nat) (s : QueueRun α) : Prop where
  /-- Every position that was won belongs to one call of `Enqueue`, and holds its element. -/
  oneProducer : ∀ pos < s.ring.won.length, s.calls.countP (owns pos) = 1
  enqueued : ∀ e pos, .enqueued e pos ∈ s.calls → s.ring.won[pos]? = some e
  /-- A position is taken by one call, in the order of the positions, ... -/
  oneConsumer : ∀ pos < s.ring.claimed, s.calls.countP (takes pos) = 1
  notYet : ∀ pos, s.ring.claimed ≤ pos → s.calls.countP (takes pos) = 0
  /-- ... after its element was stored and made known, and the call returns that element. -/
  afterStore : s.ring.claimed ≤ s.ring.published ∧
    ∀ pos < s.ring.published, s.calls.countP (awaitsStore pos) = 0
  dequeued : ∀ entry pos, .dequeued entry pos ∈ s.calls →
    ∃ e, entry = some e ∧ s.ring.won[pos]? = some e
  delivered : s.ring.delivered = (s.ring.won.take s.ring.freed).map some
  /-- At most `size - 1` elements are held. -/
  held : s.ring.won.length - s.ring.freed ≤ size - 1
  /-- What has not been taken is in its slot, or about to be stored there. -/
  kept : ∀ pos, s.ring.claimed ≤ pos → pos < s.ring.won.length →
    s.ring.slots (pos % size) = s.ring.won[pos]? ∨ ∃ p ∈ s.calls, awaitsStore pos p = true
  /-- When all calls have returned, what has not been returned is there to be taken next. -/
  quiet : s.calls.all ringDone = true →
    s.ring.claimed = s.ring.freed ∧ s.ring.published = s.ring.won.length ∧
      s.ring.peek = s.ring.won[s.ring.freed]? ∧
      (s.ring.isEmpty = true ↔ s.ring.freed = s.ring.won.length)

/-! ## What holds along a run -/

structure QueueInv (k : Nat) (many : Bool) (s : QueueRun α) : Prop where
  ring : RingInv (2 ^ k) s.ring s.calls
  owners : ∀ pos, s.calls.countP (owns pos) = if pos < s.ring.won.length then 1 else 0
  takers : ∀ pos, s.calls.countP (takes pos) = if pos < s.ring.claimed then 1 else 0
  mode : many = true → s.calls.countP consumesAlone = 0

section Runs

variable {k i : Nat} {many : Bool} {s : QueueRun α} {q : RingPoint α} {r' : Ring α}

theorem queueInv_start : QueueInv k many (queueStart (α := α)) where
  ring := ringInv_create
  owners _ := rfl
  takers _ := rfl
  mode _ := rfl

section

variable (inv : QueueInv k many s)

include inv

theorem QueueInv.start (ring : RingInv (2 ^ k) s.ring (s.calls ++ [q]))
    (own : ∀ pos, owns pos q = false) (take : ∀ pos, takes pos q = false)
    (single : many = true → consumesAlone q = false) :
    QueueInv k many { s with calls := s.calls ++ [q] } where
  ring := ring
  owners pos := by
    rw [countP_start, own pos]
    exact inv.owners pos
  takers pos := by
    rw [countP_start, take pos]
    exact inv.takers pos
  mode multi := by
    rw [countP_start, single multi]
    exact inv.mode multi

theorem QueueInv.enqueue (e : α) : QueueInv k many { s with calls := s.calls ++ [.reading e] } :=
  inv.start (inv.ring.start (fun _ => rfl) (fun _ => rfl) trivial nofun
    nofun) (fun _ => rfl) (fun _ => rfl) fun _ => rfl

theorem QueueInv.dequeue (may : many = true ∨ s.calls.countP consumes = 0) :
    QueueInv k many { s with calls := s.calls ++ [.deqReading many] } := by
  refine inv.start (inv.ring.start (fun _ => rfl) (fun _ => rfl) trivial (fun single => ?_)
    fun _ => ?_) (fun _ => rfl) (fun _ => rfl) fun multi => by rw [multi]; rfl
  · rcases may with multi | nobody
    · rw [multi] at single
      cases single
    · exact nobody
  · rcases may with multi | _
    · exact inv.mode multi
    · have fewer := countP_mono_left (l := s.calls) fun p _ => consumes_of_consumesAlone p
      omega

theorem owns_move (here : s.calls[i]? = some p)
    (move : RingMove (2 ^ k) s.ring p r' q) (pos : Nat) :
    (s.calls.set i q).countP (owns pos) = if pos < r'.won.length then 1 else 0 := by
  have same (eq : owns pos q = owns pos p) :
      (s.calls.set i q).countP (owns pos) = if pos < s.ring.won.length then 1 else 0 :=
    (countP_same here q _ eq).trans (inv.owners pos)
  cases move with
  | win =>
    rw [length_append]
    exact countP_below here inv.owners (fun _ => rfl) (fun _ => rfl) pos
  | _ => exact same rfl

theorem takes_move (here : s.calls[i]? = some p)
    (move : RingMove (2 ^ k) s.ring p r' q) (pos : Nat) :
    (s.calls.set i q).countP (takes pos) = if pos < r'.claimed then 1 else 0 := by
  have same (eq : takes pos q = takes pos p) :
      (s.calls.set i q).countP (takes pos) = if pos < s.ring.claimed then 1 else 0 :=
    (countP_same here q _ eq).trans (inv.takers pos)
  cases move with
  | claim =>
    exact countP_below here inv.takers (fun _ => rfl) (fun _ => rfl) pos
  | _ => exact same rfl

end

theorem consumesAlone_move (move : RingMove size r p r' q) (single : consumesAlone q = true) :
    consumesAlone p = true := by
  cases move <;> first | exact single | cases single

theorem QueueInv.advance (inv : QueueInv k many s) (here : s.calls[i]? = some p)
    (regular : RingRegular (2 ^ k) s.ring p) :
    QueueInv k many
      { ring := (ringAdvance (2 ^ k) s.ring p).1,
        calls := s.calls.set i (ringAdvance (2 ^ k) s.ring p).2 } where
  ring := inv.ring.move here (ringMove_advance _ _ p) regular
  owners pos := owns_move inv here (ringMove_advance _ _ p) pos
  takers pos := takes_move inv here (ringMove_advance _ _ p) pos
  mode multi := by
    refine countP_eq_zero.mpr fun o member single => ?_
    have none := countP_eq_zero.mp (inv.mode multi)
    obtain ⟨j, there⟩ := getElem?_of_mem member
    rcases getElem?_move there with ⟨_, rfl⟩ | ⟨_, old⟩
    · exact none p (mem_of_getElem? here) (consumesAlone_move (ringMove_advance _ _ p) single)
    · exact none o (mem_of_getElem? old) single

theorem QueueInv.step {op : QueueOp α} (inv : QueueInv k many s)
    (may : queueRegular (2 ^ k) many s op) :
    ∃ t out, queueStep (2 ^ k) many s op = .ok (t, out) ∧ QueueInv k many t := by
  cases op with
  | enqueue e => exact ⟨_, (), rfl, inv.enqueue e⟩
  | dequeue => exact ⟨_, (), rfl, inv.dequeue may.1⟩
  | advance i =>
    cases here : s.calls[i]? with
    | none => exact ⟨s, (), by simp only [queueStep, here], inv⟩
    | some p => exact ⟨_, (), by simp only [queueStep, here], inv.advance here (may.2 p here)⟩

section

variable {ps : List (RingPoint α)} (inv : RingInv (2 ^ k) r ps)

include inv

theorem RingInv.settled (done : ∀ p ∈ ps, ringDone p = true) :
    r.claimed = r.freed ∧ r.published = r.won.length := by
  obtain ⟨_, _, _, _⟩ := inv.order
  constructor
  · by_contra ne
    obtain ⟨_, p, there, holds⟩ := HeldOnce.holder inv.consumers le_rfl (by omega)
    have idle := done p (mem_of_getElem? there)
    cases p <;> first | cases holds | cases idle
  · by_contra ne
    obtain ⟨_, p, there, holds⟩ := HeldOnce.holder inv.producers le_rfl (by omega)
    have idle := done p (mem_of_getElem? there)
    cases p <;> first | cases holds | cases idle

theorem RingInv.isEmpty_iff : r.isEmpty = true ↔ r.claimed = r.published := by
  obtain ⟨_, claimedLe, _, _⟩ := inv.order
  rw [Ring.isEmpty, beq_iff_eq, inv.indices.2.2.1, inv.indices.2.1]
  exact ⟨fun same => eq_of_mod_eq same claimedLe (by omega), fun same => by rw [same]⟩

theorem RingInv.peek_eq : r.peek = (r.won.take r.published)[r.claimed]? := by
  obtain ⟨freedLe, claimedLe, _, _⟩ := inv.order
  have here := inv.isEmpty_iff
  rw [Ring.isEmpty, beq_iff_eq] at here
  by_cases empty : r.consumerHead = r.producerTail
  · rw [Ring.peek, if_pos empty, getElem?_take_eq_none (le_of_eq (here.mp empty).symm)]
  have lt : r.claimed < r.published :=
    Nat.lt_of_le_of_ne claimedLe fun same => empty (here.mpr same)
  rw [Ring.peek, if_neg empty, getElem?_take_of_lt lt, inv.indices.2.2.1]
  exact inv.fetched freedLe lt

end

theorem QueueInv.sound (inv : QueueInv k many s) : QueueSound (2 ^ k) s := by
  obtain ⟨_, claimedLe, _, _⟩ := inv.ring.order
  exact
    { oneProducer := fun pos lt => (inv.owners pos).trans (if_pos lt)
      enqueued := fun e pos member => (inv.ring.points _ member).1
      oneConsumer := fun pos lt => (inv.takers pos).trans (if_pos lt)
      notYet := fun pos le => (inv.takers pos).trans (if_neg (by omega))
      afterStore := by
        refine ⟨claimedLe, fun pos lt => countP_eq_zero.mpr fun p member awaits => ?_⟩
        have range := (inv.ring.points p member).holdsSlot_range (holdsSlot_of_awaitsStore p awaits)
        omega
      dequeued := by
        intro entry pos member
        obtain ⟨same, lt⟩ : entry = s.ring.won[pos]? ∧ pos < s.ring.freed :=
          inv.ring.points _ member
        have inRange : pos < s.ring.won.length := by omega
        exact ⟨s.ring.won[pos], same.trans (getElem?_eq_getElem inRange),
          getElem?_eq_getElem inRange⟩
      delivered := inv.ring.delivered
      held := by omega
      kept := fun pos low high => inv.ring.stored pos (by omega) high
      quiet := by
        intro done
        obtain ⟨claimed, published⟩ := inv.ring.settled (all_eq_true.mp done)
        refine ⟨claimed, published, ?_, ?_⟩
        · rw [inv.ring.peek_eq, published, take_length, claimed]
        · rw [inv.ring.isEmpty_iff, claimed, published] }

end Runs

end Machine

/-- **The lock-free queue loses nothing.**  Along every run of any number of producers with
the calls of `Dequeue` kept apart by a lock, or with any number of calls of `DequeueMC`, in
which no compare-exchange meets a head that has gone around the ring since it was read:
what is returned are the elements in the order in which their producers won the head, each
once, and never from a slot that is still to be stored to. -/
theorem ring_in_order {α : Type} (k : Nat) (many : Bool) {s : QueueRun α}
    (reach : Reachable (· = queueStart)
      (Next (queueStep (2 ^ k) many) (queueRegular (2 ^ k) many)) s) :
    QueueSound (2 ^ k) s := by
  have inv : QueueInv k many s := reach.machine_run queueInv_start fun _ _ inv may => inv.step may
  exact inv.sound

/-- Two elements go through a ring of two slots, which has room for one. -/
theorem ring_in_order_two : ∃ s : QueueRun Nat, Reachable (· = queueStart)
        (Next (queueStep (2 ^ 1) true) (queueRegular (2 ^ 1) true)) s ∧
      s.ring.won = [20, 30] ∧ s.ring.freed = 1 ∧ QueueSound (2 ^ 1) s ∧
      s.ring.delivered = [some 20] ∧ s.ring.peek = some 30 := by
  have replay : ∃ s ∈
      attempt (queueStep (2 ^ 1) true) (queueRegular (2 ^ 1) true) (queueStart)
        [.enqueue 20, .advance 0, .advance 0, .advance 0, .advance 0, .advance 0, .advance 0,
          .dequeue, .advance 1, .advance 1, .advance 1, .advance 1, .advance 1, .advance 1,
          .enqueue 30, .advance 2, .advance 2, .advance 2, .advance 2, .advance 2, .advance 2],
      s.ring.won = [20, 30] ∧ s.ring.freed = 1 ∧ s.ring.delivered = [some 20] ∧
        s.ring.peek = some 30 := by
    decide +kernel
  obtain ⟨s, reach, won, freed, others⟩ := reachable_of_replay _ replay
  exact ⟨s, reach, won, freed, ring_in_order 1 true reach, others⟩

/-- **A compare-exchange that is too late.**  A producer reads the head of a ring of two slots;
one element goes through and another one comes in, which brings the head back; the exchange
succeeds although the ring is full.  When all calls have returned two elements are in the ring
and `IsEmpty` reports none. -/
theorem ring_lost_elements : ∃ s : QueueRun Nat, Reachable (· = queueStart)
        (Next (queueStep (2 ^ 1) false) (queueAllowed false)) s ∧
      s.calls = [.enqueued 10 2, .enqueued 20 0, .dequeued (some 20) 0, .enqueued 30 1] ∧
      s.ring.delivered = [some 20] ∧ s.ring.won.length - s.ring.freed = 2 ∧
      s.ring.isEmpty = true := by
  refine reachable_of_replay [.enqueue 10, .advance 0, .advance 0,
      .enqueue 20, .advance 1, .advance 1, .advance 1, .advance 1, .advance 1, .advance 1,
      .dequeue, .advance 2, .advance 2, .advance 2, .advance 2, .advance 2,
      .enqueue 30, .advance 3, .advance 3, .advance 3, .advance 3, .advance 3, .advance 3,
      .advance 0, .advance 0, .advance 0, .advance 0] ?_
  decide +kernel

end KvmGuestDrivers.NetKvm
