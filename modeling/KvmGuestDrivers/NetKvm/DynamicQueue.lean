/-
# NetKvm.DynamicQueue -- the ring with an overflow list

`CLockFreeDynamicQueue` puts an element into the ring of `CLockFreeQueue`, or at the end of a
list under a spin lock when the ring is full or the list is not empty.  A word says whether
the list is empty; producers read it without the lock.  The consumer, when it finds the ring
empty, takes the lock and moves elements from the list to the ring.

Producers and the consumer run one access to a shared variable at a time; the accesses inside
the ring are those of `ringAdvance`.  An element carries the number of the producer that
enqueued it.
-/
import KvmGuestDrivers.NetKvm.LockFreeQueue

namespace KvmGuestDrivers.NetKvm

set_option autoImplicit false

open Theory List

/-! ## The queue -/

structure DynQueue (β : Type) where
  /-- `m_Queue`. -/
  ring : Ring β
  /-- `m_QueueFullList`. -/
  list : List β
  listIsEmpty : Bool
  /-- `m_QueueFullListLock`. -/
  locked : Bool
  elementCount : Int

def createDynQueue (β : Type) : DynQueue β :=
  { ring := createRing β, list := [], listIsEmpty := true, locked := false, elementCount := 0 }

/-- Where a producer is in `Enqueue`: before the operation named. -/
inductive ProducerPoint (β : Type) where
  | outside
  /-- `InterlockedIncrement(&m_ElementCount)`. -/
  | counting (entry : β)
  /-- The read of `m_QueueFullListIsEmpty`. -/
  | checking (entry : β)
  | enqueuing (entry : β) (point : RingPoint β)
  | locking (entry : β)
  | pushing (entry : β)
  /-- The store to `m_QueueFullListIsEmpty`. -/
  | flagging
  | unlocking
  deriving DecidableEq

inductive FillPoint (β : Type) where
  | checking
  | locking
  | popping
  | enqueuing (entry : β) (point : RingPoint β)
  | pushingBack (entry : β)
  | flagging
  | unlocking
  deriving DecidableEq

/-- Where the consumer is; `again` after `FillQueue` has returned. -/
inductive ConsumerPoint (β : Type) where
  | outside
  /-- `Dequeue`: `m_Queue.Dequeue()`. -/
  | dequeuing (again : Bool) (point : RingPoint β)
  /-- `DecrementCount(TRUE)`. -/
  | decrementing (entry : β)
  | dequeued (result : Option β)
  /-- `Peek`: the comparison in `m_Queue.Peek()`.  `m_ConsumerHead` is this thread's own. -/
  | peeking (again : Bool)
  | peekFetching (again : Bool)
  | peekChecking
  | peeked (result : Option β)
  | filling (peek : Bool) (point : FillPoint β)
  deriving DecidableEq

variable (size : Nat)

section Steps

variable {β : Type} {p p' : RingPoint β} {e : β}

variable (q : DynQueue β)

def DynQueue.isEmpty : Bool := if q.ring.isEmpty then q.listIsEmpty else false

def producerAdvance : ProducerPoint β → DynQueue β × ProducerPoint β
  | .outside => (q, .outside)
  | .counting e => ({ q with elementCount := long (q.elementCount + 1) }, .checking e)
  | .checking e => (q, if q.listIsEmpty then .enqueuing e (.reading e) else .locking e)
  | .enqueuing e .full => (q, .locking e)
  | .enqueuing _ (.enqueued _ _) => (q, .outside)
  | .enqueuing e p =>
    ({ q with ring := (ringAdvance size q.ring p).1 },
      .enqueuing e (ringAdvance size q.ring p).2)
  | .locking e => if q.locked then (q, .locking e) else ({ q with locked := true }, .pushing e)
  | .pushing e => ({ q with list := q.list ++ [e] }, .flagging)
  | .flagging => ({ q with listIsEmpty := q.list.isEmpty }, .unlocking)
  | .unlocking => ({ q with locked := false }, .outside)

def afterFill (peek : Bool) : ConsumerPoint β :=
  if peek then .peeking true else .dequeuing true (.deqReading false)

def dequeueNull (again : Bool) : ConsumerPoint β :=
  if again then .dequeued none else .filling false .checking

def peekNull (again : Bool) : ConsumerPoint β :=
  if again then .peeked none else .peekChecking

def fillAdvance (peek : Bool) :
    FillPoint β → DynQueue β × ConsumerPoint β
  | .checking => (q, if q.listIsEmpty then afterFill peek else .filling peek .locking)
  | .locking =>
    if q.locked then (q, .filling peek .locking)
    else ({ q with locked := true }, .filling peek .popping)
  | .popping =>
    match q.list with
    | [] => (q, .filling peek .flagging)
    | e :: rest => ({ q with list := rest }, .filling peek (.enqueuing e (.reading e)))
  | .enqueuing e .full => (q, .filling peek (.pushingBack e))
  | .enqueuing _ (.enqueued _ _) => (q, .filling peek .popping)
  | .enqueuing e p =>
    ({ q with ring := (ringAdvance size q.ring p).1 },
      .filling peek (.enqueuing e (ringAdvance size q.ring p).2))
  | .pushingBack e => ({ q with list := e :: q.list }, .filling peek .flagging)
  | .flagging => ({ q with listIsEmpty := q.list.isEmpty }, .filling peek .unlocking)
  | .unlocking => ({ q with locked := false }, afterFill peek)

def consumerAdvance : ConsumerPoint β → DynQueue β × ConsumerPoint β
  | .outside => (q, .outside)
  | .dequeuing again .empty => (q, dequeueNull again)
  | .dequeuing again (.dequeued none _) => (q, dequeueNull again)
  | .dequeuing _ (.dequeued (some e) _) => (q, .decrementing e)
  | .dequeuing again p =>
    ({ q with ring := (ringAdvance size q.ring p).1 },
      .dequeuing again (ringAdvance size q.ring p).2)
  | .decrementing e => ({ q with elementCount := long (q.elementCount - 1) }, .dequeued (some e))
  | .dequeued result => (q, .dequeued result)
  | .peeking again =>
    (q, if q.ring.consumerHead = q.ring.producerTail then peekNull again else .peekFetching again)
  | .peekFetching again =>
    match q.ring.slots q.ring.consumerHead with
    | none => (q, peekNull again)
    | some e => (q, .peeked (some e))
  | .peekChecking => (q, if q.listIsEmpty then .peeked none else .filling true .checking)
  | .peeked result => (q, .peeked result)
  | .filling peek point => fillAdvance size q peek point

/-! ## What a step does -/

def counted : ProducerPoint β → List β
  | .counting e => [e]
  | _ => []

def returns : ConsumerPoint β → List β
  | .decrementing e => [e]
  | _ => []

inductive ProducerMove (size : Nat) (q : DynQueue β) :
    ProducerPoint β → DynQueue β → ProducerPoint β → Prop where
  | stay (p : ProducerPoint β) (quiet : counted p = []) : ProducerMove size q p q p
  | count (e : β) :
      ProducerMove size q (.counting e) { q with elementCount := long (q.elementCount + 1) }
        (.checking e)
  | direct (e : β) (empty : q.listIsEmpty = true) :
      ProducerMove size q (.checking e) q (.enqueuing e (.reading e))
  | spill (e : β) : ProducerMove size q (.checking e) q (.locking e)
  | ring (e : β) {p p' r'} (move : RingMove size q.ring p r' p') :
      ProducerMove size q (.enqueuing e p) { q with ring := r' } (.enqueuing e p')
  | full (e : β) : ProducerMove size q (.enqueuing e .full) q (.locking e)
  | done (e x : β) (pos : Nat) : ProducerMove size q (.enqueuing e (.enqueued x pos)) q .outside
  | lock (e : β) (free : q.locked = false) :
      ProducerMove size q (.locking e) { q with locked := true } (.pushing e)
  | push (e : β) : ProducerMove size q (.pushing e) { q with list := q.list ++ [e] } .flagging
  | flag : ProducerMove size q .flagging { q with listIsEmpty := q.list.isEmpty } .unlocking
  | unlock : ProducerMove size q .unlocking { q with locked := false } .outside

/-- Every step of a producer is a move, -/
theorem producerMove_advance (p : ProducerPoint β) :
    ProducerMove size q p (producerAdvance size q p).1 (producerAdvance size q p).2 := by
  cases p with
  | outside => exact .stay _ rfl
  | counting e => exact .count e
  | checking e =>
    dsimp only [producerAdvance]
    split
    · exact .direct e ‹_›
    · exact .spill e
  | enqueuing e p =>
    cases p with
    | full => exact .full e
    | enqueued x pos => exact .done e x pos
    | _ => exact .ring e (ringMove_advance size q.ring _)
  | locking e =>
    dsimp only [producerAdvance]
    split
    · exact .stay _ rfl
    · exact .lock e (Bool.not_eq_true _ ▸ ‹_›)
  | pushing e => exact .push e
  | flagging => exact .flag
  | unlocking => exact .unlock

inductive ConsumerMove (size : Nat) (q : DynQueue β) :
    ConsumerPoint β → DynQueue β → ConsumerPoint β → Prop where
  | stay (c : ConsumerPoint β) (quiet : returns c = []) : ConsumerMove size q c q c
  | ring (again : Bool) {p p' r'} (move : RingMove size q.ring p r' p') :
      ConsumerMove size q (.dequeuing again p) { q with ring := r' } (.dequeuing again p')
  | nothing (again : Bool) : ConsumerMove size q (.dequeuing again .empty) q (dequeueNull again)
  | garbage (again : Bool) (pos : Nat) :
      ConsumerMove size q (.dequeuing again (.dequeued none pos)) q (dequeueNull again)
  | taken (again : Bool) (e : β) (pos : Nat) :
      ConsumerMove size q (.dequeuing again (.dequeued (some e) pos)) q (.decrementing e)
  | decrement (e : β) :
      ConsumerMove size q (.decrementing e) { q with elementCount := long (q.elementCount - 1) }
        (.dequeued (some e))
  | peekEmpty (again : Bool) : ConsumerMove size q (.peeking again) q (peekNull again)
  | peekFound (again : Bool) (found : q.ring.consumerHead ≠ q.ring.producerTail) :
      ConsumerMove size q (.peeking again) q (.peekFetching again)
  | fetchNull (again : Bool) : ConsumerMove size q (.peekFetching again) q (peekNull again)
  | fetch (again : Bool) (e : β) (found : q.ring.slots q.ring.consumerHead = some e) :
      ConsumerMove size q (.peekFetching again) q (.peeked (some e))
  | peekDone : ConsumerMove size q .peekChecking q (.peeked none)
  | peekFill : ConsumerMove size q .peekChecking q (.filling true .checking)
  | fillSkip (peek : Bool) : ConsumerMove size q (.filling peek .checking) q (afterFill peek)
  | fillStart (peek : Bool) (spilled : q.listIsEmpty = false) :
      ConsumerMove size q (.filling peek .checking) q (.filling peek .locking)
  | fillLock (peek : Bool) (free : q.locked = false) :
      ConsumerMove size q (.filling peek .locking) { q with locked := true }
        (.filling peek .popping)
  | fillPop (peek : Bool) (e : β) (rest : List β) (found : q.list = e :: rest) :
      ConsumerMove size q (.filling peek .popping) { q with list := rest }
        (.filling peek (.enqueuing e (.reading e)))
  | fillDry (peek : Bool) : ConsumerMove size q (.filling peek .popping) q (.filling peek .flagging)
  | fillRing (peek : Bool) (e : β) {p p' r'} (move : RingMove size q.ring p r' p') :
      ConsumerMove size q (.filling peek (.enqueuing e p)) { q with ring := r' }
        (.filling peek (.enqueuing e p'))
  | fillFull (peek : Bool) (e : β) :
      ConsumerMove size q (.filling peek (.enqueuing e .full)) q (.filling peek (.pushingBack e))
  | fillNext (peek : Bool) (e x : β) (pos : Nat) :
      ConsumerMove size q (.filling peek (.enqueuing e (.enqueued x pos))) q
        (.filling peek .popping)
  | fillBack (peek : Bool) (e : β) :
      ConsumerMove size q (.filling peek (.pushingBack e)) { q with list := e :: q.list }
        (.filling peek .flagging)
  | fillFlag (peek : Bool) :
      ConsumerMove size q (.filling peek .flagging) { q with listIsEmpty := q.list.isEmpty }
        (.filling peek .unlocking)
  | fillUnlock (peek : Bool) :
      ConsumerMove size q (.filling peek .unlocking) { q with locked := false } (afterFill peek)

theorem fillMove_advance (peek : Bool) (f : FillPoint β) :
    ConsumerMove size q (.filling peek f) (fillAdvance size q peek f).1
      (fillAdvance size q peek f).2 := by
  cases f with
  | checking =>
    dsimp only [fillAdvance]
    split
    · exact .fillSkip peek
    · exact .fillStart peek (Bool.not_eq_true _ ▸ ‹_›)
  | locking =>
    dsimp only [fillAdvance]
    split
    · exact .stay _ rfl
    · exact .fillLock peek (Bool.not_eq_true _ ▸ ‹_›)
  | popping =>
    dsimp only [fillAdvance]
    split
    · exact .fillDry peek
    · exact .fillPop peek _ _ ‹_›
  | enqueuing e p =>
    cases p with
    | full => exact .fillFull peek e
    | enqueued x pos => exact .fillNext peek e x pos
    | _ => exact .fillRing peek e (ringMove_advance size q.ring _)
  | pushingBack e => exact .fillBack peek e
  | flagging => exact .fillFlag peek
  | unlocking => exact .fillUnlock peek

/-- and every step of the consumer. -/
theorem consumerMove_advance (c : ConsumerPoint β) :
    ConsumerMove size q c (consumerAdvance size q c).1 (consumerAdvance size q c).2 := by
  cases c with
  | outside | dequeued | peeked => exact .stay _ rfl
  | dequeuing again p =>
    cases p with
    | empty => exact .nothing again
    | dequeued entry pos =>
      cases entry with
      | none => exact .garbage again pos
      | some e => exact .taken again e pos
    | _ => exact .ring again (ringMove_advance size q.ring _)
  | decrementing e => exact .decrement e
  | peeking again =>
    dsimp only [consumerAdvance]
    split
    · exact .peekEmpty again
    · exact .peekFound again ‹_›
  | peekFetching again =>
    dsimp only [consumerAdvance]
    split
    · exact .fetchNull again
    · exact .fetch again _ ‹_›
  | peekChecking =>
    dsimp only [consumerAdvance]
    split
    · exact .peekDone
    · exact .peekFill
  | filling peek point => exact fillMove_advance size q peek point

/-! ## Where an element is -/

def producerRing : ProducerPoint β → RingPoint β
  | .enqueuing _ p => p
  | _ => .outside

def consumerRing : ConsumerPoint β → RingPoint β
  | .dequeuing _ p => p
  | .filling _ (.enqueuing _ p) => p
  | _ => .outside

/-- The call of the ring's `Enqueue` has not won a slot. -/
def unwon : RingPoint β → Bool
  | .reading _ => true
  | .readingTail _ _ _ => true
  | .swapping _ _ _ => true
  | .full => true
  | _ => false

def carries (e : β) : RingPoint β → Prop
  | .reading x => x = e
  | .readingTail x _ _ => x = e
  | .swapping x _ _ => x = e
  | .storing x _ _ => x = e
  | .waiting x _ _ => x = e
  | .publishing x _ _ => x = e
  | .full => True
  | .enqueued x _ => x = e
  | _ => False

def takesAlone : RingPoint β → Bool
  | .deqReading many => !many
  | .deqReadingTail many _ _ => !many
  | .deqClaiming many _ _ => !many
  | .deqFetching many _ _ => !many
  | .deqReleasing _ _ _ => true
  | .empty => true
  | .dequeued _ _ => true
  | _ => false

/-- What a producer has counted and not yet put anywhere. -/
def pending : ProducerPoint β → List β
  | .checking e => [e]
  | .enqueuing e p => if unwon p then [e] else []
  | .locking e => [e]
  | .pushing e => [e]
  | _ => []

/-- What the consumer has popped from the list and not yet put anywhere. -/
def refill : ConsumerPoint β → List β
  | .filling _ (.enqueuing e p) => if unwon p then [e] else []
  | .filling _ (.pushingBack e) => [e]
  | _ => []

/-- What the consumer has taken from the ring and not yet returned. -/
def inHand : ConsumerPoint β → List β
  | .dequeuing _ (.dequeued (some e) _) => [e]
  | .decrementing e => [e]
  | _ => []

def producerLocks : ProducerPoint β → Bool
  | .pushing _ => true
  | .flagging => true
  | .unlocking => true
  | _ => false

def fillLocks : FillPoint β → Bool
  | .checking => false
  | .locking => false
  | _ => true

def consumerLocks : ConsumerPoint β → Bool
  | .filling _ f => fillLocks f
  | _ => false

theorem carries_move {size : Nat} {r r' : Ring β} (move : RingMove size r p r' p')
    (mine : carries e p) :
    carries e p' ∧ r'.freed = r.freed ∧ r'.claimed = r.claimed ∧ r'.delivered = r.delivered ∧
      r.published ≤ r'.published ∧
      ((r'.won = r.won ∧ unwon p' = unwon p) ∨
        (r'.won = r.won ++ [e] ∧ unwon p = true ∧ unwon p' = false)) := by
  cases move with
  | win x =>
    obtain rfl : x = e := mine
    exact ⟨rfl, rfl, rfl, rfl, le_rfl, .inr ⟨rfl, rfl, rfl⟩⟩
  | publish => exact ⟨mine, rfl, rfl, rfl, Nat.le_succ _, .inl ⟨rfl, rfl⟩⟩
  | stay | readHead | room | lose | store | turn =>
    exact ⟨mine, rfl, rfl, rfl, le_rfl, .inl ⟨rfl, rfl⟩⟩
  | noRoom => exact ⟨trivial, rfl, rfl, rfl, le_rfl, .inl ⟨rfl, rfl⟩⟩
  | _ => exact mine.elim

theorem takesAlone_move {size : Nat} {r r' : Ring β} (move : RingMove size r p r' p')
    (mine : takesAlone p = true) : takesAlone p' = true ∧ r'.won = r.won := by
  cases move <;> first | exact ⟨mine, rfl⟩ | exact ⟨rfl, rfl⟩ | cases mine

theorem carries_not_consumes (mine : carries e p) : consumes p = false := by
  cases p <;> first | rfl | exact mine.elim

end Steps

/-! ## Runs -/

structure DynRun (α : Type) where
  queue : DynQueue (Nat × α)
  producers : List (ProducerPoint (Nat × α))
  consumer : ConsumerPoint (Nat × α)
  /-- What has been enqueued, in the order in which it was counted. -/
  sent : List (Nat × α)
  returned : List (Nat × α)

inductive DynOp (α : Type) where
  | join
  | enqueue (i : Nat) (entry : α)
  | dequeue
  | peek
  | advance (i : Nat)
  | advanceConsumer

section Runs

variable {α : Type} {c : ConsumerPoint (Nat × α)}

def dynStart : DynRun α :=
  { queue := createDynQueue (Nat × α), producers := [], consumer := .outside, sent := [],
    returned := [] }

def producerDone {β : Type} : ProducerPoint β → Bool
  | .outside => true
  | _ => false

def consumerDone {β : Type} : ConsumerPoint β → Bool
  | .outside => true
  | .dequeued _ => true
  | .peeked _ => true
  | _ => false

def dynStep (s : DynRun α) : DynOp α → Except Empty (DynRun α × Unit)
  | .join => .ok ({ s with producers := s.producers ++ [.outside] }, ())
  | .enqueue i e => .ok ({ s with producers := s.producers.set i (.counting (i, e)) }, ())
  | .dequeue => .ok ({ s with consumer := .dequeuing false (.deqReading false) }, ())
  | .peek => .ok ({ s with consumer := .peeking false }, ())
  | .advance i =>
    match s.producers[i]? with
    | none => .ok (s, ())
    | some p =>
      .ok ({ s with
        queue := (producerAdvance size s.queue p).1
        producers := s.producers.set i (producerAdvance size s.queue p).2
        sent := s.sent ++ counted p }, ())
  | .advanceConsumer =>
    .ok ({ s with
      queue := (consumerAdvance size s.queue s.consumer).1
      consumer := (consumerAdvance size s.queue s.consumer).2
      returned := s.returned ++ returns s.consumer }, ())

variable (s : DynRun α)

/-- A producer, and the consumer, make one call after the other. -/
def dynAllowed : DynOp α → Prop
  | .enqueue i _ => (s.producers.map producerDone)[i]? = some true
  | .dequeue => consumerDone s.consumer = true
  | .peek => consumerDone s.consumer = true
  | _ => True

def dynRegular (s : DynRun α) (op : DynOp α) : Prop :=
  dynAllowed s op ∧
    match op with
    | .advance i => ∀ p ∈ s.producers[i]?, RingRegular size s.queue.ring (producerRing p)
    | .advanceConsumer => RingRegular size s.queue.ring (consumerRing s.consumer)
    | _ => True

instance (op : DynOp α) : Decidable (dynAllowed s op) := by
  cases op <;> unfold dynAllowed <;> infer_instance

instance (s : DynRun α) (op : DynOp α) : Decidable (dynRegular size s op) := by
  cases op <;> unfold dynRegular <;> infer_instance

/-! ## The invariant -/

def ringPoints : List (RingPoint (Nat × α)) :=
  consumerRing s.consumer :: s.producers.map producerRing

def pendingAt (i : Nat) : List (Nat × α) :=
  (s.producers[i]?.map pending).getD []

def ofProducer (i : Nat) (xs : List (Nat × α)) : List (Nat × α) := xs.filter fun x => x.1 == i

variable (q : DynQueue (Nat × α))

/-- What a producer relies on; `hand` is what the consumer has popped from the list. -/
def ProducerOk (hand : List (Nat × α)) (i : Nat) : ProducerPoint (Nat × α) → Prop
  | .counting e => e.1 = i
  | .checking e => e.1 = i
  | .enqueuing e p =>
    e.1 = i ∧ carries e p ∧ (unwon p = true → p ≠ .full → ∀ x ∈ hand ++ q.list, x.1 ≠ i)
  | .locking e => e.1 = i
  | .pushing e => e.1 = i ∧ q.listIsEmpty = q.list.isEmpty
  | .flagging => q.list ≠ [] ∧ (q.listIsEmpty = true → ∀ x ∈ q.list, x.1 = i)
  | .unlocking => q.listIsEmpty = q.list.isEmpty
  | .outside => True

def FillOk : FillPoint (Nat × α) → Prop
  | .checking => True
  | .locking => q.listIsEmpty = false
  | .popping => q.listIsEmpty = false
  | .enqueuing e p => q.listIsEmpty = false ∧ carries e p
  | .pushingBack _ => q.listIsEmpty = false
  | .flagging => q.listIsEmpty = false
  | .unlocking => q.listIsEmpty = q.list.isEmpty

def ConsumerOk : ConsumerPoint (Nat × α) → Prop
  | .dequeuing _ p => takesAlone p = true
  | .peekFetching _ => q.ring.claimed < q.ring.published
  | .peeked (some e) => q.ring.claimed < q.ring.published ∧ q.ring.won[q.ring.claimed]? = some e
  | .filling _ f => FillOk q f
  | _ => True

/-- What a producer has enqueued is, in order, what it finds in the ring, in the consumer's hand and
in the list (`order`). -/
structure DynInv (k : Nat) (s : DynRun α) : Prop where
  ring : RingInv (2 ^ k) s.queue.ring (ringPoints s)
  lock : s.producers.countP producerLocks + (consumerLocks s.consumer).toNat =
    s.queue.locked.toNat
  flag : s.queue.locked = false → s.queue.listIsEmpty = s.queue.list.isEmpty
  producer : ∀ (i : Nat) (p : ProducerPoint (Nat × α)), s.producers[i]? = some p →
    ProducerOk s.queue (refill s.consumer) i p
  consumer : ConsumerOk s.queue s.consumer
  order : ∀ i, ofProducer i (s.queue.ring.won ++ refill s.consumer ++ s.queue.list) ++
    pendingAt s i = ofProducer i s.sent
  count : s.queue.elementCount =
    long (s.sent.length + (inHand s.consumer).length - s.queue.ring.freed)
  returned : (s.returned ++ inHand s.consumer).map some = s.queue.ring.delivered

/-! ## Who is alone -/

section Held

variable {k i : Nat} {s} {p : ProducerPoint (Nat × α)}

theorem DynInv.held_producer (inv : DynInv k s) (here : s.producers[i]? = some p)
    (locks : producerLocks p = true) :
    s.queue.locked = true ∧ consumerLocks s.consumer = false ∧
      ∀ (j : Nat) (o : ProducerPoint (Nat × α)), j ≠ i → s.producers[j]? = some o →
        producerLocks o = false := by
  have lock := inv.lock
  have pos := countP_pos_of_getElem? here _ locks
  have le := s.queue.locked.toNat_le
  refine ⟨Bool.toNat_eq_one.mp (by omega), Bool.toNat_eq_zero.mp (by omega), fun j o ne there => ?_⟩
  rw [← Bool.not_eq_true]
  exact fun other => ne (index_eq_of_countP_le_one (by omega) there other here locks)

theorem DynInv.held_consumer (inv : DynInv k s) (locks : consumerLocks s.consumer = true) :
    s.queue.locked = true ∧ ∀ (j : Nat) (o : ProducerPoint (Nat × α)), s.producers[j]? = some o →
        producerLocks o = false := by
  have lock := inv.lock
  have le := s.queue.locked.toNat_le
  rw [locks, Bool.toNat_true] at lock
  refine ⟨Bool.toNat_eq_one.mp (by omega), fun j o there => ?_⟩
  rw [← Bool.not_eq_true]
  intro other
  have pos := countP_pos_of_getElem? there _ other
  omega

theorem refill_nil {q : DynQueue (Nat × α)} (ok : ConsumerOk q c) (empty : q.listIsEmpty = true) :
    refill c = [] := by
  cases c with
  | filling _ f =>
    cases f with
    | enqueuing => exact absurd (ok.1.symm.trans empty) Bool.false_ne_true
    | pushingBack => exact absurd (ok.symm.trans empty) Bool.false_ne_true
    | _ => rfl
  | _ => rfl

theorem DynInv.none_listed (inv : DynInv k s) (here : s.producers[i]? = some p)
    (free : producerLocks p = false) (empty : s.queue.listIsEmpty = true) :
    ∀ x ∈ refill s.consumer ++ s.queue.list, x.1 ≠ i := by
  rw [refill_nil inv.consumer empty]
  have nothing (same : s.queue.listIsEmpty = s.queue.list.isEmpty) :
      ∀ x ∈ s.queue.list, x.1 ≠ i := by
    rw [empty] at same
    rw [List.isEmpty_iff.mp same.symm]
    exact nofun
  have lock := inv.lock
  cases held : s.queue.locked with
  | false => exact nothing (inv.flag held)
  | true =>
    rw [held, Bool.toNat_true] at lock
    cases own : consumerLocks s.consumer with
    | true =>
      -- `FillQueue` leaves the mark until it is through
      have ok := inv.consumer
      generalize s.consumer = c at own ok
      cases c with
      | filling _ f =>
        cases f with
        | checking | locking => cases own
        | unlocking => exact nothing ok
        | enqueuing => exact absurd (empty.symm.trans ok.1) (by decide)
        | _ => exact absurd (empty.symm.trans ok) (by decide)
      | _ => cases own
    | false =>
      rw [own, Bool.toNat_false] at lock
      have positive : 0 < s.producers.countP producerLocks := by omega
      obtain ⟨o, member, locks⟩ := countP_pos_iff.mp positive
      obtain ⟨j, there⟩ := getElem?_of_mem member
      have ne : j ≠ i := by
        rintro rfl
        obtain rfl := Option.some.inj (here.symm.trans there)
        rw [free] at locks
        cases locks
      have ok := inv.producer j o there
      cases o with
      | pushing => exact nothing ok.2
      | unlocking => exact nothing ok
      | flagging => exact fun x member => by rw [ok.2 empty x member]; exact ne
      | _ => cases locks

theorem DynInv.producers_enqueue (inv : DynInv k s) :
    ∀ (j : Nat) (o : RingPoint (Nat × α)), j ≠ 0 → (ringPoints s)[j]? = some o →
      consumes o = false := by
  intro j o ne there
  cases j with
  | zero => exact absurd rfl ne
  | succ j =>
    have there : (s.producers.map producerRing)[j]? = some o := there
    rw [getElem?_map] at there
    obtain ⟨p, found, rfl⟩ := Option.map_eq_some_iff.mp there
    have ok := inv.producer j p found
    cases p with
    | enqueuing => exact carries_not_consumes ok.2.1
    | _ => rfl

end Held

/-! ## A producer's step -/

section Producer

variable {k i j : Nat} {s} {p p' o : ProducerPoint (Nat × α)} {q} {q' : DynQueue (Nat × α)}

theorem RingInv.stay {r : Ring (Nat × α)} {ps : List (RingPoint (Nat × α))}
    {o : RingPoint (Nat × α)} (inv : RingInv (2 ^ k) r ps) (here : ps[j]? = some o) :
    RingInv (2 ^ k) r (ps.set j o) :=
  inv.quiet here (fun _ => ⟨rfl, rfl, rfl⟩) id id (inv.points o (mem_of_getElem? here))

theorem ringPoints_producer (here : s.producers[i]? = some p) :
    (ringPoints s)[i + 1]? = some (producerRing p) := by
  show (s.producers.map producerRing)[i]? = _
  rw [getElem?_map, here]
  rfl

theorem ProducerOk.of_eq {hand : List (Nat × α)} (ok : ProducerOk q hand j o)
    (list : q'.list = q.list) (flag : q'.listIsEmpty = q.listIsEmpty) : ProducerOk q' hand j o := by
  cases o with
  | outside => trivial
  | _ => simpa only [ProducerOk, list, flag] using ok

/-- A producer outside the lock relies on the elements that are neither in the ring nor its
own, and on nothing else. -/
theorem ProducerOk.other {hand hand' : List (Nat × α)} (ok : ProducerOk q hand j o)
    (free : producerLocks o = false) (sub : ∀ x ∈ hand' ++ q'.list, x ∈ hand ++ q.list ∨ x.1 ≠ j) :
    ProducerOk q' hand' j o := by
  cases o with
  | enqueuing =>
    refine ⟨ok.1, ok.2.1, fun racing notFull x member => ?_⟩
    rcases sub x member with old | other
    · exact ok.2.2 racing notFull x old
    · exact other
  | pushing | flagging | unlocking => cases free
  | _ => exact ok

theorem ringMove_full {size : Nat} {r r' : Ring (Nat × α)} {o o' : RingPoint (Nat × α)}
    (move : RingMove size r o r' o') (full : o = .full) : o' = .full := by
  cases move <;> first | exact full | cases full

theorem ConsumerOk.frame (ok : ConsumerOk q c) (claimed : q'.ring.claimed = q.ring.claimed)
    (published : q.ring.published ≤ q'.ring.published)
    (won : ∀ e, q.ring.won[q.ring.claimed]? = some e → q'.ring.won[q.ring.claimed]? = some e)
    (fill : ∀ f, FillOk q f → fillLocks f = consumerLocks c → FillOk q' f) : ConsumerOk q' c := by
  cases c with
  | peekFetching =>
    have before : q.ring.claimed < q.ring.published := ok
    show q'.ring.claimed < q'.ring.published
    omega
  | peeked result =>
    cases result with
    | none => trivial
    | some e =>
      have before : q.ring.claimed < q.ring.published := ok.1
      refine ⟨by omega, ?_⟩
      rw [claimed]
      exact won e ok.2
  | filling _ f => exact fill f ok rfl
  | _ => exact ok

theorem ofProducer_append (j : Nat) (xs ys : List (Nat × α)) :
    ofProducer j (xs ++ ys) = ofProducer j xs ++ ofProducer j ys :=
  filter_append ..

theorem ofProducer_nil {xs : List (Nat × α)} (none : ∀ x ∈ xs, x.1 ≠ j) : ofProducer j xs = [] :=
  filter_eq_nil_iff.mpr fun x member => by simpa using none x member

variable (inv : DynInv k s) (here : s.producers[i]? = some p)
  (move : ProducerMove (2 ^ k) s.queue p q' p')

include inv here move

namespace DynInv

theorem ring_producer (regular : RingRegular (2 ^ k) s.queue.ring (producerRing p)) :
    RingInv (2 ^ k) q'.ring ((ringPoints s).set (i + 1) (producerRing p')) := by
  have there := ringPoints_producer here
  cases move with
  | ring e move => exact inv.ring.move there move regular
  | direct | full | done =>
    exact inv.ring.quiet there (fun _ => ⟨rfl, rfl, rfl⟩) nofun nofun trivial
  | _ => exact inv.ring.stay there

theorem lock_producer :
    (s.producers.set i p').countP producerLocks + (consumerLocks s.consumer).toNat =
      q'.locked.toNat := by
  have before := inv.lock
  cases move with
  | lock e free =>
    rw [free, Bool.toNat_false] at before
    rw [countP_enter here _ _ rfl rfl, Bool.toNat_true]
    omega
  | unlock =>
    have left := countP_leave here .outside producerLocks rfl rfl
    rw [(inv.held_producer here rfl).1, Bool.toNat_true] at before
    rw [Bool.toNat_false]
    omega
  | _ =>
    rw [countP_same here]
    · exact before
    · rfl

theorem flag_producer : q'.locked = false → q'.listIsEmpty = q'.list.isEmpty := by
  cases move with
  | lock => exact nofun
  | push =>
    intro free
    have held := (inv.held_producer here rfl).1
    rw [free] at held
    cases held
  | flag => exact fun _ => rfl
  | unlock => exact fun _ => inv.producer i _ here
  | _ => exact inv.flag

theorem own_producer : ProducerOk q' (refill s.consumer) i p' := by
  have ok := inv.producer i p here
  cases move with
  | stay | count | spill => exact ok
  | direct e empty => exact ⟨ok, rfl, fun _ _ => inv.none_listed here rfl empty⟩
  | ring e move =>
    obtain ⟨mine, _, _, _, _, won⟩ := carries_move move ok.2.1
    refine ⟨ok.1, mine, fun racing notFull => ok.2.2 ?_ fun full =>
      notFull (ringMove_full move full)⟩
    rcases won with ⟨_, same⟩ | ⟨_, _, past⟩
    · rw [← same]
      exact racing
    · rw [racing] at past
      cases past
  | full => exact ok.1
  | done | unlock => trivial
  | lock e free => exact ⟨ok, inv.flag free⟩
  | push =>
    refine ⟨by simp, fun empty x member => ?_⟩
    have first : s.queue.list = [] := by
      rw [← List.isEmpty_iff, ← ok.2]
      exact empty
    rw [first, nil_append, mem_singleton] at member
    rw [member]
    exact ok.1
  | flag => rfl

theorem producer_producer :
    ∀ (j : Nat) (o : ProducerPoint (Nat × α)), (s.producers.set i p')[j]? = some o →
      ProducerOk q' (refill s.consumer) j o := by
  intro j o there
  rcases getElem?_move there with ⟨rfl, rfl⟩ | ⟨ne, old⟩
  · exact inv.own_producer here move
  have ok := inv.producer j o old
  cases move with
  | push e =>
    have mine : e.1 = i := (inv.producer i _ here).1
    refine ok.other ((inv.held_producer here rfl).2.2 j o ne old) fun x member => ?_
    rw [← append_assoc, mem_append, mem_singleton] at member
    rcases member with old | rfl
    · exact .inl old
    · exact .inr fun same => ne (same.symm.trans mine)
  | flag => exact ok.other ((inv.held_producer here rfl).2.2 j o ne old) fun _ => .inl
  | _ => exact ok.of_eq rfl rfl

theorem consumer_producer : ConsumerOk q' s.consumer := by
  have ok := inv.producer i p here
  have same (f : FillPoint (Nat × α)) (fill : FillOk s.queue f)
      (list : q'.list = s.queue.list) (flag : q'.listIsEmpty = s.queue.listIsEmpty) :
      FillOk q' f := by
    cases f with
    | checking => trivial
    | _ => simpa only [FillOk, list, flag] using fill
  cases move with
  | ring e move =>
    obtain ⟨_, _, claimed, _, published, won⟩ := carries_move move ok.2.1
    refine inv.consumer.frame claimed published (fun x found => ?_) fun f fill _ =>
      same f fill rfl rfl
    rcases won with ⟨same, _⟩ | ⟨more, _⟩
    · rw [same]
      exact found
    · rw [more, getElem?_append_left (List.getElem?_eq_some_iff.mp found).1]
      exact found
  | push =>
    refine inv.consumer.frame rfl le_rfl (fun _ found => found) fun f fill free => ?_
    rw [(inv.held_producer here rfl).2.1] at free
    cases f <;> first | exact fill | cases free
  | flag =>
    refine inv.consumer.frame rfl le_rfl (fun _ found => found) fun f fill free => ?_
    rw [(inv.held_producer here rfl).2.1] at free
    have spilled : s.queue.list.isEmpty = false := by
      rw [← Bool.not_eq_true, List.isEmpty_iff]
      exact ok.1
    cases f <;> first | exact spilled | trivial
  | _ =>
    exact inv.consumer.frame rfl le_rfl (fun _ found => found) fun f fill _ =>
      same f fill rfl rfl

/-- What a producer's step moves into the ring or the list comes after what it had there, and is
what it was to put somewhere or has just counted. -/
theorem elements_producer :
    ∃ moved, (∀ j, ofProducer j (q'.ring.won ++ refill s.consumer ++ q'.list) =
        ofProducer j (s.queue.ring.won ++ refill s.consumer ++ s.queue.list) ++
          ofProducer j moved) ∧
      moved ++ pending p' = pending p ++ counted p ∧ ∀ x ∈ moved ++ counted p, x.1 = i := by
  have ok := inv.producer i p here
  have same {xs : List (Nat × α)} (j : Nat) :
      ofProducer j xs = ofProducer j xs ++ ofProducer j [] :=
    (append_nil _).symm
  cases move with
  | stay _ quiet => exact ⟨[], same, by rw [quiet, append_nil]; rfl, by rw [quiet]; simp⟩
  | count => exact ⟨[], same, rfl, fun x member => mem_singleton.mp member ▸ ok⟩
  | ring e move =>
    obtain ⟨rfl, own, none⟩ := ok
    rcases (carries_move move own).2.2.2.2.2 with ⟨won, stays⟩ | ⟨more, racing, past⟩
    · rw [won]
      exact ⟨[], same, by rw [pending, stays]; exact (append_nil _).symm, by simp [counted]⟩
    refine ⟨[e], fun j => ?_, by simp [pending, racing, past, counted], by simp [counted]⟩
    rw [more]
    by_cases mine : e.1 = j
    · -- the ring takes it before the list has anything of this producer
      subst mine
      have listed : ofProducer e.1 (refill s.consumer ++ s.queue.list) = [] :=
        ofProducer_nil (none racing fun full => by rw [full] at move; cases move; cases past)
      rw [ofProducer_append, append_eq_nil_iff] at listed
      simp only [ofProducer_append, listed.1, listed.2, append_nil]
    · have other : ofProducer j [e] = [] := ofProducer_nil (by simpa using mine)
      simp only [ofProducer_append, other, append_nil]
  | push e =>
    refine ⟨[e], fun j => ?_, rfl, by simpa [counted] using ok.1⟩
    rw [← ofProducer_append, append_assoc _ s.queue.list]
  | _ => exact ⟨[], same, (append_nil _).symm, by simp [counted]⟩

/-- A producer's move keeps the order of its elements. -/
theorem order_producer (j : Nat) : ofProducer j (q'.ring.won ++ refill s.consumer ++ q'.list) ++
      (((s.producers.set i p')[j]?).map pending).getD [] = ofProducer j (s.sent ++ counted p) := by
  obtain ⟨moved, elements, placed, own⟩ := inv.elements_producer here move
  have before := inv.order j
  rw [elements, ofProducer_append j s.sent, ← before]
  by_cases mine : i = j
  · subst mine
    have all {xs : List (Nat × α)} (own : ∀ x ∈ xs, x.1 = i) : ofProducer i xs = xs :=
      filter_eq_self.mpr fun x member => by simpa using own x member
    rw [getElem?_moved here, pendingAt, here, all fun x member => own x (mem_append_left _ member),
      all fun x member => own x (mem_append_right _ member), append_assoc _ moved]
    simp only [Option.map_some, Option.getD_some]
    rw [placed, ← append_assoc]
  · have none {xs : List (Nat × α)} (own : ∀ x ∈ xs, x.1 = i) : ofProducer j xs = [] :=
      ofProducer_nil fun x member => by rw [own x member]; exact mine
    rw [getElem?_set_ne mine, none fun x member => own x (mem_append_left _ member),
      none fun x member => own x (mem_append_right _ member), append_nil, append_nil]
    rfl

theorem count_producer :
    q'.elementCount = long ((s.sent ++ counted p).length + (inHand s.consumer).length -
      q'.ring.freed) := by
  have before := inv.count
  have same (none : counted p = []) : s.queue.elementCount =
      long ((s.sent ++ counted p).length + (inHand s.consumer).length - s.queue.ring.freed) := by
    rw [none, append_nil]
    exact before
  cases move with
  | stay _ quiet => exact same quiet
  | count e =>
    show long (s.queue.elementCount + 1) = long (((s.sent ++ [e]).length : Int) +
      (inHand s.consumer).length - s.queue.ring.freed)
    rw [before, long_add, length_append, length_singleton]
    congr 1
    omega
  | ring e move =>
    rw [(carries_move move (inv.producer i _ here).2.1).2.1]
    exact same rfl
  | _ => exact same rfl

theorem returned_producer : (s.returned ++ inHand s.consumer).map some = q'.ring.delivered := by
  cases move with
  | ring e move =>
    rw [(carries_move move (inv.producer i _ here).2.1).2.2.2.1]
    exact inv.returned
  | _ => exact inv.returned

/-- **What a step of a producer keeps.** -/
theorem advance_producer (regular : RingRegular (2 ^ k) s.queue.ring (producerRing p)) : DynInv k
      { s with queue := q', producers := s.producers.set i p', sent := s.sent ++ counted p } where
  ring := by
    have kept := inv.ring_producer here move regular
    rw [ringPoints, set_cons_succ, ← map_set] at kept
    exact kept
  lock := inv.lock_producer here move
  flag := inv.flag_producer here move
  producer := inv.producer_producer here move
  consumer := inv.consumer_producer here move
  order := inv.order_producer here move
  count := inv.count_producer here move
  returned := inv.returned_producer here move

end DynInv

end Producer

/-! ## A step of the consumer -/

section Consumer

variable {k : Nat} {s} {c' : ConsumerPoint (Nat × α)} {q' : DynQueue (Nat × α)}

theorem DynInv.dequeue_move {again : Bool} {o o' : RingPoint (Nat × α)} {r' : Ring (Nat × α)}
    (inv : DynInv k s) (here : s.consumer = .dequeuing again o)
    (move : RingMove (2 ^ k) s.queue.ring o r' o') :
    (r'.freed = s.queue.ring.freed ∧ r'.delivered = s.queue.ring.delivered ∧
        inHand (.dequeuing again o') = inHand (.dequeuing again o)) ∨
      ∃ e, r'.freed = s.queue.ring.freed + 1 ∧ r'.delivered = s.queue.ring.delivered ++ [some e] ∧
        inHand (.dequeuing again o) = [] ∧ inHand (.dequeuing again o') = [e] := by
  obtain ⟨_, _, _, _⟩ := inv.ring.order
  have there : (ringPoints s)[0]? = some o := by rw [ringPoints, here]; rfl
  have ok := inv.ring.points o (mem_of_getElem? there)
  cases move with
  | free _ _ pos =>
    obtain ⟨_, _, lt, found⟩ := ok
    have inRange : pos < s.queue.ring.won.length := by omega
    rw [getElem?_eq_getElem inRange] at found
    subst found
    exact .inr ⟨s.queue.ring.won[pos], rfl, rfl, rfl, rfl⟩
  | _ => exact .inl ⟨rfl, rfl, rfl⟩

variable (inv : DynInv k s) (here : s.consumer = c) (move : ConsumerMove (2 ^ k) s.queue c q' c')

include inv here move

namespace DynInv

theorem ring_consumer (regular : RingRegular (2 ^ k) s.queue.ring (consumerRing c)) :
    RingInv (2 ^ k) q'.ring ((ringPoints s).set 0 (consumerRing c')) := by
  have there : (ringPoints s)[0]? = some (consumerRing c) := by rw [← here]; rfl
  -- `FillQueue` returns to `Dequeue` or to `Peek`
  have filled (peek : Bool) (out : consumerRing c = .outside) :
      RingInv (2 ^ k) s.queue.ring ((ringPoints s).set 0 (consumerRing (afterFill peek))) := by
    rw [out] at there
    cases peek with
    | true => exact inv.ring.stay there
    | false => exact inv.ring.enterAlone there inv.producers_enqueue
  have leave {o : RingPoint (Nat × α)} (out : o = .outside)
      (idle : ∀ pos, false = holdsSlot pos (consumerRing c) ∧
        false = awaitsStore pos (consumerRing c) ∧ false = holdsClaim pos (consumerRing c)) :
      RingInv (2 ^ k) s.queue.ring ((ringPoints s).set 0 o) := by
    subst out
    exact inv.ring.quiet there idle nofun nofun trivial
  cases move with
  | ring _ move | fillRing _ _ move => exact inv.ring.move there move regular
  | nothing again | garbage again | peekEmpty again | fetchNull again =>
    exact leave (by cases again <;> rfl) fun _ => ⟨rfl, rfl, rfl⟩
  | taken | fillFull | fillNext => exact leave rfl fun _ => ⟨rfl, rfl, rfl⟩
  | fillSkip peek | fillUnlock peek => exact filled peek rfl
  | fillPop =>
    exact inv.ring.quiet there (fun _ => ⟨rfl, rfl, rfl⟩) nofun nofun trivial
  | _ => exact inv.ring.stay there

theorem lock_consumer :
    s.producers.countP producerLocks + (consumerLocks c').toNat = q'.locked.toNat := by
  have before := inv.lock
  rw [here] at before
  cases move with
  | nothing again | garbage again | peekEmpty again | fetchNull again =>
    cases again <;> exact before
  | fillSkip peek => cases peek <;> exact before
  | fillLock _ free =>
    rw [free, Bool.toNat_false] at before
    show _ + true.toNat = true.toNat
    omega
  | fillUnlock peek =>
    rw [(inv.held_consumer (by rw [here]; rfl)).1] at before
    cases peek <;> exact Nat.succ.inj before
  | _ => exact before

theorem flag_consumer : q'.locked = false → q'.listIsEmpty = q'.list.isEmpty := by
  have held (locks : consumerLocks c = true) (free : s.queue.locked = false) : False := by
    rw [← here] at locks
    rw [(inv.held_consumer locks).1] at free
    cases free
  cases move with
  | fillLock => exact nofun
  | fillPop | fillBack => exact fun free => (held rfl free).elim
  | fillFlag => exact fun _ => rfl
  | fillUnlock =>
    have ok := inv.consumer
    rw [here] at ok
    exact fun _ => ok
  | _ => exact inv.flag

/-- What the consumer does to the elements that are not in the ring: nothing, or it moves them
between the list and its hand, or the one in its hand to the ring. -/
theorem elements_consumer :
    q'.ring.won ++ refill c' ++ q'.list = s.queue.ring.won ++ refill c ++ s.queue.list ∧
      ∀ x ∈ refill c' ++ q'.list, x ∈ refill c ++ s.queue.list := by
  have ok := inv.consumer
  rw [here] at ok
  cases move with
  | ring _ move =>
    have won := (takesAlone_move move ok).2
    simp only [won]
    exact ⟨rfl, fun _ => id⟩
  | nothing again | garbage again | peekEmpty again | fetchNull again =>
    cases again <;> exact ⟨rfl, fun _ => id⟩
  | fillSkip peek | fillUnlock peek => cases peek <;> exact ⟨rfl, fun _ => id⟩
  | fillPop _ e _ found =>
    simp [refill, unwon, found]
  | fillRing _ e move =>
    rcases (carries_move move ok.2).2.2.2.2.2 with ⟨same, stays⟩ | ⟨more, racing, past⟩
    · simp only [same, refill, stays, true_and]
      exact fun _ => id
    simp only [more, refill, racing, past]
    refine ⟨by simp, fun x member => ?_⟩
    exact mem_append_right _ member
  | fillBack => simp [refill]
  | _ => exact ⟨rfl, fun _ => id⟩

theorem producer_consumer : ∀ (j : Nat) (o : ProducerPoint (Nat × α)), s.producers[j]? = some o →
      ProducerOk q' (refill c') j o := by
  intro j o there
  have ok := inv.producer j o there
  have sub := (inv.elements_consumer here move).2
  rw [here] at ok
  have held (locks : consumerLocks c = true) : ProducerOk q' (refill c') j o := by
    rw [← here] at locks
    exact ok.other ((inv.held_consumer locks).2 j o there) fun x member => .inl (sub x member)
  cases move with
  | nothing again | garbage again | peekEmpty again | fetchNull again =>
    cases again <;> exact ok.of_eq rfl rfl
  | fillSkip peek => cases peek <;> exact ok.of_eq rfl rfl
  | fillPop | fillRing | fillBack | fillFlag | fillUnlock => exact held rfl
  | _ => exact ok.of_eq rfl rfl

theorem consumer_consumer : ConsumerOk q' c' := by
  have ok := inv.consumer
  rw [here] at ok
  obtain ⟨freedLe, claimedLe, _, _⟩ := inv.ring.order
  cases move with
  | stay | fillLock | fillDry | fillBack => exact ok
  | ring _ move => exact (takesAlone_move move ok).1
  | nothing again | garbage again | peekEmpty again | fetchNull again => cases again <;> trivial
  | taken | decrement | peekDone | peekFill => trivial
  | peekFound _ found =>
    have nonempty : s.queue.ring.isEmpty ≠ true := by
      rw [Ring.isEmpty, Ne, beq_iff_eq]
      exact found
    rw [Ne, inv.ring.isEmpty_iff] at nonempty
    exact Nat.lt_of_le_of_ne claimedLe nonempty
  | fetch _ e found =>
    have before : s.queue.ring.claimed < s.queue.ring.published := ok
    refine ⟨before, ?_⟩
    rw [← found, inv.ring.indices.2.2.1]
    exact (inv.ring.fetched freedLe before).symm
  | fillSkip peek | fillUnlock peek => cases peek <;> trivial
  | fillStart _ spilled => exact spilled
  | fillPop => exact ⟨ok, rfl⟩
  | fillRing _ e move => exact ⟨ok.1, (carries_move move ok.2).1⟩
  | fillFull | fillNext => exact ok.1
  | fillFlag => rfl

theorem count_consumer :
    q'.elementCount = long (s.sent.length + (inHand c').length - q'.ring.freed) := by
  have before := inv.count
  have ok := inv.consumer
  rw [here] at before ok
  cases move with
  | ring _ move =>
    rcases inv.dequeue_move here move with ⟨freed, _, hand⟩ | ⟨e, freed, _, was, now⟩
    · rw [freed, hand]
      exact before
    rw [before, was, now]
    congr 1
    simp only [length_nil, length_singleton]
    omega
  | decrement =>
    show long (s.queue.elementCount - 1) = _
    rw [before, long_sub]
    congr 1
    simp only [inHand, length_nil, length_singleton]
    omega
  | fillRing _ e move =>
    rw [(carries_move move ok.2).2.1]
    exact before
  | nothing again | garbage again | peekEmpty again | fetchNull again =>
    cases again <;> exact before
  | fillSkip peek | fillUnlock peek => cases peek <;> exact before
  | _ => exact before

theorem returned_consumer :
    (s.returned ++ returns c ++ inHand c').map some = q'.ring.delivered := by
  have before := inv.returned
  have ok := inv.consumer
  rw [here] at before ok
  have same (none : returns c = []) (eq : inHand c' = inHand c) :
      (s.returned ++ returns c ++ inHand c').map some = s.queue.ring.delivered := by
    rw [none, eq, append_nil]
    exact before
  cases move with
  | stay _ quiet => exact same quiet rfl
  | ring _ move =>
    rcases inv.dequeue_move here move with ⟨_, delivered, hand⟩ | ⟨e, _, delivered, was, now⟩
    · rw [delivered]
      exact same rfl hand
    · rw [was] at before
      rw [delivered, now, ← before]
      simp [returns]
  | decrement e =>
    show (s.returned ++ [e] ++ []).map some = _
    rw [append_nil]
    exact before
  | fillRing _ e move =>
    rw [(carries_move move ok.2).2.2.2.1]
    exact same rfl rfl
  | nothing again | garbage again | peekEmpty again | fetchNull again | fillSkip again
  | fillUnlock again => exact same rfl (by cases again <;> rfl)
  | _ => exact same rfl rfl

/-- **What a step of the consumer keeps.** -/
theorem advance_consumer (regular : RingRegular (2 ^ k) s.queue.ring (consumerRing c)) :
    DynInv k { s with queue := q', consumer := c', returned := s.returned ++ returns c } where
  ring := inv.ring_consumer here move regular
  lock := inv.lock_consumer here move
  flag := inv.flag_consumer here move
  producer := inv.producer_consumer here move
  consumer := inv.consumer_consumer here move
  order i := by
    rw [(inv.elements_consumer here move).1, ← here]
    exact inv.order i
  count := inv.count_consumer here move
  returned := inv.returned_consumer here move

end DynInv

end Consumer

/-! ## Along a run -/

section Whole

variable {k : Nat} {s}

theorem dynInv_start : DynInv k (dynStart (α := α)) where
  ring := ringInv_create.start (fun _ => rfl) (fun _ => rfl) trivial nofun nofun
  lock := rfl
  flag _ := rfl
  producer _ _ there := nomatch there
  consumer := trivial
  order _ := rfl
  count := (long_eq (x := 0) (by decide) (by decide)).symm
  returned := rfl

theorem DynInv.join (inv : DynInv k s) :
    DynInv k { s with producers := s.producers ++ [.outside] } where
  __ := inv
  ring := by
    show RingInv (2 ^ k) s.queue.ring
      (consumerRing s.consumer :: (s.producers ++ [ProducerPoint.outside]).map producerRing)
    rw [map_append]
    exact inv.ring.start (fun _ => rfl) (fun _ => rfl) trivial nofun nofun
  lock := by
    rw [countP_start]
    exact inv.lock
  producer j o there := by
    rcases getElem?_start there with ⟨_, rfl⟩ | old
    · trivial
    · exact inv.producer j o old
  order j := by
    have none : pendingAt { s with producers := s.producers ++ [.outside] } j = pendingAt s j := by
      show (((s.producers ++ [ProducerPoint.outside])[j]?).map pending).getD [] = _
      rcases Nat.lt_or_ge j s.producers.length with old | new
      · rw [getElem?_append_left old]
        rfl
      · rw [pendingAt, getElem?_eq_none new, getElem?_append_right new]
        cases j - s.producers.length <;> rfl
    rw [none]
    exact inv.order j

theorem DynInv.enqueue {i : Nat} (inv : DynInv k s) (here : s.producers[i]? = some .outside)
    (e : α) : DynInv k { s with producers := s.producers.set i (.counting (i, e)) } where
  __ := inv
  ring := by
    have kept := inv.ring.stay (ringPoints_producer here)
    show RingInv (2 ^ k) s.queue.ring
      (consumerRing s.consumer :: (s.producers.set i (.counting (i, e))).map producerRing)
    rw [map_set]
    exact kept
  lock := by
    rw [countP_same here (.counting (i, e)) _ rfl]
    exact inv.lock
  producer j o there := by
    rcases getElem?_move there with ⟨rfl, rfl⟩ | ⟨_, old⟩
    · rfl
    · exact inv.producer j o old
  order j := by
    have none : pendingAt { s with producers := s.producers.set i (.counting (i, e)) } j =
        pendingAt s j := by
      show (((s.producers.set i (.counting (i, e)))[j]?).map pending).getD [] = _
      by_cases mine : i = j
      · subst mine
        rw [getElem?_moved here, pendingAt, here]
        rfl
      · rw [getElem?_set_ne mine]
        rfl
    rw [none]
    exact inv.order j

theorem DynInv.call (inv : DynInv k s) (done : consumerDone s.consumer = true)
    (new : c = .dequeuing false (.deqReading false) ∨ c = .peeking false) :
    DynInv k { s with consumer := c } := by
  have outside : consumerRing s.consumer = .outside ∧ consumerLocks s.consumer = false ∧
      refill s.consumer = [] ∧ inHand s.consumer = [] := by
    generalize s.consumer = old at done
    cases old <;> first | exact ⟨rfl, rfl, rfl, rfl⟩ | cases done
  obtain ⟨ring, locks, hand, taken⟩ := outside
  have fresh : consumerLocks c = false ∧ refill c = [] ∧ inHand c = [] ∧ ConsumerOk s.queue c := by
    rcases new with rfl | rfl
    · exact ⟨rfl, rfl, rfl, rfl⟩
    · exact ⟨rfl, rfl, rfl, trivial⟩
  exact
    { ring := by
        have there : (ringPoints s)[0]? = some .outside := by rw [ringPoints, ring]; rfl
        rcases new with rfl | rfl
        · exact inv.ring.enterAlone there inv.producers_enqueue
        · exact inv.ring.stay there
      lock := by
        rw [fresh.1, ← locks]
        exact inv.lock
      flag := inv.flag
      producer := by
        rw [fresh.2.1, ← hand]
        exact inv.producer
      consumer := fresh.2.2.2
      order := by
        rw [fresh.2.1, ← hand]
        exact inv.order
      count := by
        rw [fresh.2.2.1, ← taken]
        exact inv.count
      returned := by
        rw [fresh.2.2.1, ← taken]
        exact inv.returned }

/-- Every regular step ends and keeps the invariant. -/
theorem DynInv.step {op : DynOp α} (inv : DynInv k s) (may : dynRegular (2 ^ k) s op) :
    ∃ t out, dynStep (2 ^ k) s op = .ok (t, out) ∧ DynInv k t := by
  obtain ⟨may, regular⟩ := may
  cases op with
  | join => exact ⟨_, (), rfl, inv.join⟩
  | enqueue i e =>
    have may : (s.producers.map producerDone)[i]? = some true := may
    rw [getElem?_map] at may
    obtain ⟨p, here, done⟩ := Option.map_eq_some_iff.mp may
    have outside : p = .outside := by cases p <;> first | rfl | cases done
    subst outside
    exact ⟨_, (), rfl, inv.enqueue here e⟩
  | dequeue => exact ⟨_, (), rfl, inv.call may (.inl rfl)⟩
  | peek => exact ⟨_, (), rfl, inv.call may (.inr rfl)⟩
  | advance i =>
    cases here : s.producers[i]? with
    | none => exact ⟨s, (), by simp only [dynStep, here], inv⟩
    | some p =>
      exact ⟨_, (), by simp only [dynStep, here],
        inv.advance_producer here (producerMove_advance _ _ p) (regular p here)⟩
  | advanceConsumer =>
    exact ⟨_, (), rfl, inv.advance_consumer rfl (consumerMove_advance _ _ _) regular⟩

end Whole

/-! ## The result -/

def heldElements : List (Nat × α) :=
  s.queue.ring.won.drop s.queue.ring.freed ++ s.queue.list

def dynQuiet : Prop :=
  s.producers.all producerDone = true ∧ consumerDone s.consumer = true

structure DynSound (s : DynRun α) : Prop where
  /-- What a producer has enqueued is, in this order: what has been returned, what the consumer
  is about to return, what is in the ring, in the consumer's hand on the way from the list to
  the ring and in the list, and what the producer is putting there. -/
  inOrder : ∀ i, ofProducer i (s.returned ++ inHand s.consumer ++
      s.queue.ring.won.drop s.queue.ring.freed ++ refill s.consumer ++ s.queue.list) ++
    pendingAt s i = ofProducer i s.sent
  /-- `Peek` finds the element that `Dequeue` will return. -/
  peeked : ∀ e, s.consumer = .peeked (some e) → (heldElements s).head? = some e
  /-- With no call in progress nothing is anywhere else, and the slots hold what they should. -/
  kept : dynQuiet s → (∀ i, ofProducer i (s.returned ++ heldElements s) = ofProducer i s.sent) ∧
    (s.returned ++ heldElements s).Perm s.sent ∧
    ∀ pos, s.queue.ring.freed ≤ pos → pos < s.queue.ring.won.length →
      s.queue.ring.slots (pos % size) = s.queue.ring.won[pos]?
  count : dynQuiet s → (heldElements s).length < 2 ^ 31 →
    s.queue.elementCount = (heldElements s).length
  isEmpty : dynQuiet s → (s.queue.isEmpty = true ↔ heldElements s = [])

theorem perm_of_ofProducer_eq {xs ys : List (Nat × α)}
    (same : ∀ i, ofProducer i xs = ofProducer i ys) : xs.Perm ys := by
  classical
  refine perm_iff_count.mpr fun x => ?_
  have own (zs : List (Nat × α)) : (ofProducer x.1 zs).count x = zs.count x :=
    count_filter (by simp)
  rw [← own xs, same, own]

section Sound

variable {k : Nat} {s}

section

variable (inv : DynInv k s)

include inv

theorem DynInv.returned_eq :
    s.returned ++ inHand s.consumer = s.queue.ring.won.take s.queue.ring.freed :=
  map_injective_iff.mpr (fun _ _ => Option.some.inj) (inv.returned.trans inv.ring.delivered)

theorem DynInv.claimed_eq_freed (out : consumes (consumerRing s.consumer) = false) :
    s.queue.ring.claimed = s.queue.ring.freed := by
  obtain ⟨_, _⟩ := inv.ring.order
  by_contra ne
  obtain ⟨j, o, there, holds⟩ := HeldOnce.holder inv.ring.consumers le_rfl (by omega)
  have busy := consumes_of_holdsClaim o holds
  cases j with
  | zero =>
    cases there
    rw [out] at busy
    cases busy
  | succ j =>
    rw [inv.producers_enqueue (j + 1) o (Nat.succ_ne_zero j) there] at busy
    cases busy

theorem DynInv.inOrder (i : Nat) : ofProducer i (s.returned ++ inHand s.consumer ++
        s.queue.ring.won.drop s.queue.ring.freed ++ refill s.consumer ++ s.queue.list) ++
      pendingAt s i = ofProducer i s.sent := by
  rw [inv.returned_eq, take_append_drop]
  exact inv.order i

/-- With no call in progress the ring is settled and nothing is in anybody's hand. -/
theorem DynInv.quiet (quiet : dynQuiet s) :
    (∀ p ∈ ringPoints s, ringDone p = true) ∧ inHand s.consumer = [] ∧ refill s.consumer = [] ∧
      (∀ i, pendingAt s i = []) ∧ s.queue.locked = false := by
  obtain ⟨out, done⟩ := quiet
  have out : ∀ p ∈ s.producers, p = .outside := by
    intro p member
    have idle := all_eq_true.mp out p member
    cases p <;> first | rfl | cases idle
  have consumer : ringDone (consumerRing s.consumer) = true ∧ inHand s.consumer = [] ∧
      refill s.consumer = [] ∧ consumerLocks s.consumer = false := by
    generalize s.consumer = c at done
    cases c <;> first | exact ⟨rfl, rfl, rfl, rfl⟩ | cases done
  refine ⟨fun p member => ?_, consumer.2.1, consumer.2.2.1, fun i => ?_, ?_⟩
  · rcases mem_cons.mp member with rfl | later
    · exact consumer.1
    · obtain ⟨o, among, rfl⟩ := mem_map.mp later
      rw [out o among]
      rfl
  · cases there : s.producers[i]? with
    | none => rw [pendingAt, there]; rfl
    | some p =>
      rw [pendingAt, there, out p (mem_of_getElem? there)]
      rfl
  · have lock := inv.lock
    have none : s.producers.countP producerLocks = 0 :=
      countP_eq_zero.mpr fun p member locks => by rw [out p member] at locks; cases locks
    rw [none, consumer.2.2.2] at lock
    exact Bool.toNat_eq_zero.mp lock.symm

/-- When nothing is under way, what was returned and what is held is what was sent. -/
theorem DynInv.held_order (quiet : dynQuiet s) (i : Nat) :
    ofProducer i (s.returned ++ heldElements s) = ofProducer i s.sent := by
  obtain ⟨_, hand, refilled, none, _⟩ := inv.quiet quiet
  have order := inv.inOrder i
  rw [hand, refilled, none, append_nil, append_nil, append_nil, append_assoc] at order
  exact order

theorem DynInv.sound : DynSound (2 ^ k) s := by
  obtain ⟨_, _, _, _⟩ := inv.ring.order
  exact
    { inOrder := inv.inOrder
      peeked := by
        intro e here
        have ok := inv.consumer
        rw [here] at ok
        have settled := inv.claimed_eq_freed (by rw [here]; rfl)
        have found : s.queue.ring.won[s.queue.ring.freed]? = some e := by
          rw [← settled]
          exact ok.2
        rw [heldElements, head?_append, head?_drop, found]
        rfl
      kept := by
        intro quiet
        have order := inv.held_order quiet
        refine ⟨order, perm_of_ofProducer_eq order, fun pos low high => ?_⟩
        rcases inv.ring.stored pos low high with there | ⟨p, member, awaits⟩
        · exact there
        · have done := (inv.quiet quiet).1 p member
          cases p <;> first | cases awaits | cases done
      count := by
        intro quiet few
        obtain ⟨_, hand, _⟩ := inv.quiet quiet
        have length := (perm_of_ofProducer_eq (inv.held_order quiet)).length_eq
        have returned := congrArg List.length inv.returned_eq
        rw [hand, append_nil, length_take] at returned
        rw [length_append] at length
        have total : ((s.sent.length : Int) + (inHand s.consumer).length - s.queue.ring.freed) =
            (heldElements s).length := by
          rw [hand, length_nil]
          omega
        rw [inv.count, total, long_eq (by omega) (by exact_mod_cast few)]
      isEmpty := by
        intro quiet
        obtain ⟨done, _, _, _, free⟩ := inv.quiet quiet
        obtain ⟨_, _⟩ := inv.ring.settled done
        have ringEmpty := inv.ring.isEmpty_iff
        rw [heldElements, append_eq_nil_iff, drop_eq_nil_iff,
          ← List.isEmpty_iff, ← inv.flag free, DynQueue.isEmpty]
        cases empty : s.queue.ring.isEmpty with
        | true =>
          rw [empty] at ringEmpty
          have all := ringEmpty.mp rfl
          exact ⟨fun flag => ⟨by omega, flag⟩, fun both => both.2⟩
        | false =>
          rw [empty] at ringEmpty
          refine ⟨nofun, fun both => ?_⟩
          exact ringEmpty.mpr (by omega) }

end

end Sound

end Runs

/-- **The queue keeps each producer's order.**  Along every run of any number of producers with
one consumer in which no compare-exchange of the ring meets an index that has gone around since
it was read: nothing is lost or returned twice, the elements of each producer come out in the
order in which it enqueued them, and with no call in progress the element count and `IsEmpty`
say what is in the ring and in the list. -/
theorem dynamic_queue_in_order {α : Type} (k : Nat) {s : DynRun α}
    (reach : Reachable (· = dynStart) (Next (dynStep (2 ^ k)) (dynRegular (2 ^ k))) s) :
    DynSound (2 ^ k) s := by
  have inv : DynInv k s := reach.machine_run dynInv_start fun _ _ inv may => inv.step may
  exact inv.sound

/-- The ring of two slots takes the first element of producer 0, and the list takes the second;
the consumer returns both in order. -/
theorem dynamic_queue_in_order_spilled :
    ∃ s : DynRun Nat, Reachable (· = dynStart) (Next (dynStep (2 ^ 1)) (dynRegular (2 ^ 1))) s ∧
      s.sent = [(0, 10), (0, 20)] ∧ s.returned = [(0, 10), (0, 20)] ∧ dynQuiet s ∧
      DynSound (2 ^ 1) s := by
  have replay : ∃ s ∈ attempt (dynStep (2 ^ 1)) (dynRegular (2 ^ 1)) (dynStart (α := Nat))
      (.join :: .enqueue 0 10 :: List.replicate 9 (.advance 0) ++
        .enqueue 0 20 :: List.replicate 9 (.advance 0) ++
        .dequeue :: List.replicate 7 .advanceConsumer ++
        .dequeue :: List.replicate 23 .advanceConsumer),
      s.sent = [(0, 10), (0, 20)] ∧ s.returned = [(0, 10), (0, 20)] ∧
        s.producers.all producerDone = true ∧ consumerDone s.consumer = true := by
    decide +kernel
  obtain ⟨s, reach, sent, returned, quiet⟩ := reachable_of_replay _ replay
  exact ⟨s, reach, sent, returned, quiet, dynamic_queue_in_order 1 reach⟩

/-- **Elements that nobody finds.**  The late compare-exchange of `ring_lost_elements`, with the
calls made through the overflow-extended queue: two elements are counted, no call is in
progress, and `IsEmpty` reports an empty queue. -/
theorem dynamic_queue_lost :
    ∃ s : DynRun Nat, Reachable (· = dynStart) (Next (dynStep (2 ^ 1)) dynAllowed) s ∧
      dynQuiet s ∧ s.sent = [(0, 10), (1, 20), (1, 30)] ∧ s.returned = [(1, 20)] ∧
      s.queue.elementCount = 2 ∧ s.queue.list = [] ∧ s.queue.isEmpty = true := by
  refine reachable_of_replay (.join :: .join :: .enqueue 0 10 :: List.replicate 4 (.advance 0) ++
      .enqueue 1 20 :: List.replicate 9 (.advance 1) ++
      .dequeue :: List.replicate 7 .advanceConsumer ++
      .enqueue 1 30 :: List.replicate 9 (.advance 1) ++ List.replicate 5 (.advance 0)) ?_
  unfold dynQuiet
  decide +kernel

end KvmGuestDrivers.NetKvm
