/-
# VirtIO.QueueSpec -- what a virtqueue is for

The queue both ring layouts implement, without descriptors, rings or indices.  The
driver adds buffers as long as their descriptors are free; the device returns any
outstanding buffer, in any order; the driver collects what was returned, in the
order of return, and only then has the descriptors back.

`Flight` is how a concrete queue realises one entry: the chain of descriptors (or of
buffer ids) it holds and the pointer the caller gave.
-/
import KvmGuestDrivers.VirtIO.Ring
import KvmGuestDrivers.Theory.Transition
import KvmGuestDrivers.Theory.LinkedChain

namespace KvmGuestDrivers.VirtIO

set_option autoImplicit false

open Theory List Function

variable {α β γ : Type} {r : BufferRequest α} {opaquePtr : Nat → Option α} {inflight : List Nat}
  {l : List β} {k : Nat}

/-- What happens at a queue: the driver adds a buffer, the device returns the `k`-th
outstanding buffer with `len` bytes, the driver asks for a returned buffer. -/
inductive QueueOp (α : Type) where
  | add (r : BufferRequest α)
  | complete (k len : Nat)
  | get

/-- The caller's result: whether `add_buf` succeeded, and the pointer and length
`get_buf` returned, if any. -/
inductive QueueAnswer (α : Type) where
  | added (ok : Bool)
  | completed
  | got (buf : Option (Option α × Nat))

/-- A buffer: the caller's pointer and the number of descriptors it takes. -/
structure QueueEntry (α : Type) where
  data : Option α
  cost : Nat

/-- The outstanding buffers in the order they were added, and the returned ones in
the order the device returned them. -/
structure AbstractQueue (α : Type) where
  free : Nat
  outstanding : List (QueueEntry α)
  used : List (QueueEntry α × Nat)

variable (q : AbstractQueue α)

namespace AbstractQueue

def empty (α : Type) (num : Nat) : AbstractQueue α := ⟨num, [], []⟩

def step : QueueOp α → AbstractQueue α × QueueAnswer α
  | .add r =>
    if q.free < r.cost then (q, .added false)
    else ({ q with
      free := q.free - r.cost
      outstanding := q.outstanding ++ [⟨r.data, r.cost⟩] }, .added true)
  | .complete k len =>
    match q.outstanding[k]? with
    | none => (q, .completed)
    | some e => ({ q with
        outstanding := q.outstanding.eraseIdx k
        used := q.used ++ [(e, len)] }, .completed)
  | .get =>
    match q.used with
    | [] => (q, .got none)
    | (e, len) :: rest =>
      ({ q with free := q.free + e.cost, used := rest }, .got (some (e.data, len)))

def inFlight : List (QueueEntry α) := q.outstanding ++ q.used.map Prod.fst

theorem inFlight_complete (k len : Nat) :
    (q.step (.complete k len)).1.inFlight.Perm q.inFlight := by
  rw [step]
  cases here : q.outstanding[k]? with
  | none => exact .refl _
  | some =>
    obtain ⟨inside, rfl⟩ := List.getElem?_eq_some_iff.mp here
    have taken : (q.outstanding[k] :: q.outstanding.eraseIdx k).Perm q.outstanding :=
      getElem_cons_eraseIdx_perm inside
    simp only [inFlight, map_append, ← append_assoc]
    exact (perm_append_singleton _ _).trans (taken.append_right _)

theorem inFlight_get : (q.step .get).1.inFlight.Sublist q.inFlight := by
  unfold step
  cases used : q.used with
  | nil => exact List.Sublist.refl _
  | cons =>
    simp only [inFlight, used]
    exact (sublist_cons_self _ _).append_left _

theorem inFlight_add {q q' : AbstractQueue α} (added : q.step (.add r) = (q', .added true)) :
    q'.inFlight.Perm (⟨r.data, r.cost⟩ :: q.inFlight) := by
  unfold step at added
  simp only at added
  split at added
  · cases added
  · cases added
    simp only [inFlight, append_assoc]
    exact perm_middle

/-- All descriptors: the free ones and those of the buffers in flight. -/
def capacity : Nat := q.free + (q.inFlight.map QueueEntry.cost).sum

/-- **No operation loses a descriptor.** -/
theorem capacity_step (op : QueueOp α) :
    (q.step op).1.capacity = q.capacity := by
  cases op with
  | add r =>
    by_cases full : q.free < r.cost
    · rw [step, if_pos full]
    have held := ((inFlight_add (if_neg full)).map QueueEntry.cost).sum_eq
    rw [step, if_neg full]
    simp only [capacity, held, map_cons, sum_cons]
    omega
  | complete k len =>
    have free : (q.step (.complete k len)).1.free = q.free := by
      rw [step]
      cases q.outstanding[k]? <;> rfl
    rw [capacity, free, ((inFlight_complete q k len).map QueueEntry.cost).sum_eq, capacity]
  | get =>
    unfold step
    cases used : q.used with
    | nil => rfl
    | cons =>
      simp only [capacity, inFlight, used, map_append, map_cons, sum_append, sum_cons]
      omega

/-- A queue that is full for a request that would fit it has something in flight. -/
theorem inFlight_ne_nil {q : AbstractQueue α} {cost : Nat} (full : q.free < cost)
    (fits : cost ≤ q.capacity) : q.inFlight ≠ [] := by
  intro nothing
  rw [capacity, nothing] at fits
  exact absurd fits (Nat.not_le.mpr full)

end AbstractQueue

/-! ## Realisations -/

/-- A buffer in flight: the chain it holds and its pointer. -/
structure Flight (α : Type) where
  chain : List Nat
  data : Option α

def chainHead (c : List Nat) : Nat := c.headD 0

@[simp] theorem chainHead_follow (next : Nat → Nat) (i n : Nat) :
    chainHead (follow next i (n + 1)) = i := rfl

namespace Flight

def head (f : Flight α) : Nat := chainHead f.chain

def entry (f : Flight α) : QueueEntry α := ⟨f.data, f.chain.length⟩

end Flight

/-- The abstract queue of a ring: `prog` have been fetched by the device, `pub` are
published and not yet fetched, `used` are returned and not yet collected. -/
def realised (free : Nat) (prog pub : List (Flight α)) (used : List (Flight α × Nat)) :
    AbstractQueue α :=
  ⟨free, (prog ++ pub).map Flight.entry, used.map fun u => (u.1.entry, u.2)⟩

def flights (prog pub : List (Flight α)) (used : List (Flight α × Nat)) : List (Flight α) :=
  prog ++ pub ++ used.map Prod.fst

theorem realised_congr {free free' : Nat} {prog pub prog' pub' : List (Flight α)}
    (used : List (Flight α × Nat)) (same : free' = free) (shape : prog' ++ pub' = prog ++ pub) :
    realised free prog pub used = realised free' prog' pub' used := by
  rw [realised, realised, same, shape]

theorem map_chain_flights (prog pub : List (Flight α)) (used : List (Flight α × Nat)) :
    (flights prog pub used).map Flight.chain =
      (prog ++ pub).map Flight.chain ++ (used.map Prod.fst).map Flight.chain := by
  rw [flights, map_append]

theorem mem_flights_cons {prog pub : List (Flight α)} {used : List (Flight α × Nat)} {f : Flight α}
    (u : Flight α × Nat) (member : f ∈ flights prog pub used) :
    f ∈ flights prog pub (u :: used) := by
  rw [flights, mem_append] at member ⊢
  exact member.imp id (mem_cons_of_mem _)

section

variable (prog pub : List (Flight α)) (used : List (Flight α × Nat)) (f : Flight α)

include prog pub used f

theorem flights_fetch : flights (prog ++ [f]) pub used = flights prog (f :: pub) used := by
  simp [flights]

theorem flights_add : (f :: flights prog pub used).Perm (flights prog (pub ++ [f]) used) := by
  have shape : flights prog (pub ++ [f]) used = (prog ++ pub) ++ f :: used.map Prod.fst := by
    simp [flights]
  rw [shape]
  exact perm_middle.symm

end

theorem flights_complete (before after pub : List (Flight α)) (used : List (Flight α × Nat))
    (f : Flight α) (len : Nat) :
    (flights (before ++ f :: after) pub used).Perm
      (flights (before ++ after) pub (used ++ [(f, len)])) := by
  have first : flights (before ++ f :: after) pub used =
      before ++ f :: (after ++ pub ++ used.map Prod.fst) := by
    simp [flights]
  have second : flights (before ++ after) pub (used ++ [(f, len)]) =
      (before ++ (after ++ pub ++ used.map Prod.fst)) ++ [f] := by
    simp [flights]
  rw [first, second]
  exact perm_middle.trans (perm_append_singleton f _).symm

/-- A device that reads ahead: what one fetch does is repeated until nothing is published. -/
theorem reads_ahead {σ : Type} (fetch : σ → σ) (Sim : σ → List β → List β → Prop)
    (step : ∀ s prog pub, Sim s prog pub → (pub = [] ∧ fetch s = s) ∨
      ∃ x rest, pub = x :: rest ∧ Sim (fetch s) (prog ++ [x]) rest)
    (n : Nat) {s : σ} {prog pub : List β} (sim : Sim s prog pub) :
    ∃ prog' pub', prog' ++ pub' = prog ++ pub ∧ (prog.length + n ≤ prog'.length ∨ pub' = []) ∧
      Sim (fetch^[n] s) prog' pub' := by
  induction n generalizing s prog pub with
  | zero => exact ⟨prog, pub, rfl, .inl le_rfl, sim⟩
  | succ n ih =>
    rw [iterate_succ_apply]
    rcases step s prog pub sim with ⟨rfl, idle⟩ | ⟨x, _, rfl, sim'⟩
    · rw [idle]
      obtain ⟨prog', pub', shape, far, sim'⟩ := ih sim
      refine ⟨prog', pub', shape, .inr ?_, sim'⟩
      have lengths := congrArg List.length shape
      simp only [length_append, length_nil] at lengths
      rcases far with far | empty
      · exact length_eq_zero_iff.mp (by omega)
      · exact empty
    · obtain ⟨prog', pub', shape, far, sim''⟩ := ih sim'
      refine ⟨prog', pub', by simpa using shape, far.imp_left fun far => ?_, sim''⟩
      rw [length_append, length_singleton] at far
      omega

/-! ## Pointers of the buffers in flight -/

def Attached (opaquePtr : Nat → Option α) (inflight : List Nat) : Prop :=
  ∀ h ∈ inflight, opaquePtr h ≠ none

theorem Attached.add (attached : Attached opaquePtr inflight) (head : Nat) {data : Option α}
    (set : data ≠ none) : Attached (update opaquePtr head data) (head :: inflight) := by
  intro h member
  rw [update_apply]
  by_cases new : h = head
  · rw [if_pos new]
    exact set
  · rw [if_neg new]
    exact attached h ((mem_cons.mp member).resolve_left new)

theorem Attached.erase (attached : Attached opaquePtr inflight) (distinct : inflight.Nodup)
    (head : Nat) : Attached (update opaquePtr head none) (inflight.erase head) := by
  intro h member
  obtain ⟨other, old⟩ := distinct.mem_erase_iff.mp member
  rw [update_of_ne other]
  exact attached h old

/-! ## The abstract operations on realised queues -/

section Realised

variable (free : Nat) (prog pub : List (Flight α)) (used : List (Flight α × Nat))

theorem realised_add_full (full : free < r.cost) : (realised free prog pub used).step (.add r) =
      (realised free prog pub used, .added false) := if_pos full

theorem realised_add {f : Flight α} (room : ¬ free < r.cost) (entry : f.entry = ⟨r.data, r.cost⟩) :
    (realised free prog pub used).step (.add r) =
      (realised (free - r.cost) prog (pub ++ [f]) used, .added true) := by
  have added : (prog ++ (pub ++ [f])).map Flight.entry =
      (prog ++ pub).map Flight.entry ++ [⟨r.data, r.cost⟩] := by
    simp [entry]
  refine (if_neg room).trans ?_
  simp only [realised, added]

theorem realised_complete (before after : List (Flight α)) (f : Flight α) (len : Nat) :
    (realised free (before ++ f :: after) pub used).step (.complete before.length len) =
      (realised free (before ++ after) pub (used ++ [(f, len)]), .completed) := by
  have here : ((before ++ f :: after ++ pub).map Flight.entry)[before.length]? = some f.entry := by
    simp
  have rest : ((before ++ f :: after ++ pub).map Flight.entry).eraseIdx before.length =
      (before ++ after ++ pub).map Flight.entry := by
    simp [eraseIdx_append_of_length_le]
  have returned : (used ++ [(f, len)]).map (fun u => (u.1.entry, u.2)) =
      used.map (fun u => (u.1.entry, u.2)) ++ [(f.entry, len)] := by
    simp
  rw [AbstractQueue.step]
  simp only [realised, here, rest, returned]

theorem realised_complete_none (beyond : prog.length ≤ k) (len : Nat) :
    (realised free prog [] used).step (.complete k len) =
      (realised free prog [] used, .completed) := by
  have none : ((prog ++ []).map Flight.entry)[k]? = none := by
    simpa using beyond
  rw [AbstractQueue.step]
  simp only [realised, none]

theorem realised_get_empty :
    (realised free prog pub []).step .get = (realised free prog pub [], .got none) := rfl

theorem realised_get (f : Flight α) (len : Nat) :
    (realised free prog pub ((f, len) :: used)).step .get =
      (realised (free + f.chain.length) prog pub used, .got (some (f.data, len))) := rfl

end Realised

theorem exists_split (inside : k < l.length) :
    ∃ before x after, l = before ++ x :: after ∧ before.length = k :=
  ⟨l.take k, l[k], l.drop (k + 1), by simp, by simp; omega⟩

theorem exists_split_key [DecidableEq γ] {key : β → γ} (distinct : (l.map key).Nodup) {k : γ}
    (member : k ∈ l.map key) : ∃ before x after, l = before ++ x :: after ∧ key x = k ∧
      (l.map key).erase k = (before ++ after).map key := by
  obtain ⟨x, inside, rfl⟩ := mem_map.mp member
  obtain ⟨before, after, rfl⟩ := append_of_mem inside
  rw [map_append, map_cons] at distinct ⊢
  have fresh : key x ∉ before.map key := fun h =>
    (nodup_append.mp distinct).2.2 _ h _ (by simp) rfl
  refine ⟨before, x, after, rfl, rfl, ?_⟩
  rw [erase_append_right _ fresh, erase_cons_head, map_append]

/-! ## Runs with a scheduled device -/

theorem runSpec_scheduled (ops : List (γ × QueueOp α)) :
    runSpec (fun q (op : γ × QueueOp α) => q.step op.2) q ops =
      runSpec AbstractQueue.step q (ops.map Prod.snd) := by
  induction ops generalizing q with
  | nil => rfl
  | cons op _ ih =>
    rw [map_cons, runSpec, runSpec]
    simp only [ih]

/-! ## What comes back -/

def takenBy : QueueOp α → QueueAnswer α → List (Option α)
  | .add r, .added true => [r.data]
  | _, _ => []

def returnedBy : QueueAnswer α → List (Option α)
  | .got (some buf) => [buf.1]
  | _ => []

def taken (ops : List (QueueOp α)) (answers : List (QueueAnswer α)) : List (Option α) :=
  (zipWith takenBy ops answers).flatten

def returned (answers : List (QueueAnswer α)) : List (Option α) := answers.flatMap returnedBy

namespace AbstractQueue

def tokens : List (Option α) := q.inFlight.map QueueEntry.data

/-- A step neither loses nor doubles a token. -/
theorem tokens_step (op : QueueOp α) :
    (takenBy op (q.step op).2 ++ q.tokens).Perm
      (returnedBy (q.step op).2 ++ (q.step op).1.tokens) := by
  cases op with
  | add r =>
    by_cases full : q.free < r.cost
    · rw [step, if_pos full]
      rfl
    · have added : q.step (.add r) = (_, .added true) := if_neg full
      rw [added]
      exact ((inFlight_add added).map QueueEntry.data).symm
  | complete k len =>
    have answer : (q.step (.complete k len)).2 = .completed := by
      rw [step]
      split <;> rfl
    rw [answer]
    exact ((inFlight_complete q k len).map QueueEntry.data).symm
  | get =>
    rw [step]
    cases used : q.used with
    | nil => rfl
    | cons =>
      simp only [takenBy, returnedBy, tokens, inFlight, used, map_append, map_cons]
      exact perm_middle

/-- **No run loses or duplicates a token.** -/
theorem tokens_run (ops : List (QueueOp α)) :
    (taken ops (runSpec step q ops).2 ++ q.tokens).Perm
      (returned (runSpec step q ops).2 ++ (runSpec step q ops).1.tokens) := by
  induction ops generalizing q with
  | nil => rfl
  | cons op ops ih =>
    have first := q.tokens_step op
    rw [runSpec]
    generalize q.step op = stepped at first ⊢
    obtain ⟨mid, out⟩ := stepped
    have rest := ih mid
    dsimp only
    generalize runSpec step mid ops = ran at rest ⊢
    obtain ⟨last, outs⟩ := ran
    -- what the first operation takes is exchanged for what it returns
    calc takenBy op out ++ taken ops outs ++ q.tokens
      _ ~ taken ops outs ++ (takenBy op out ++ q.tokens) := by
        rw [← append_assoc]
        exact perm_append_comm.append_right _
      _ ~ taken ops outs ++ (returnedBy out ++ mid.tokens) := first.append_left _
      _ ~ returnedBy out ++ (taken ops outs ++ mid.tokens) := perm_append_comm_assoc _ _ _
      _ ~ returnedBy out ++ (returned outs ++ last.tokens) := rest.append_left _
      _ = returnedBy out ++ returned outs ++ last.tokens := (append_assoc _ _ _).symm

end AbstractQueue

/-- Every buffer that was taken has been returned once or is in flight, and none is in flight when
all descriptors are free. -/
def ReturnedOnce (num free : Nat) (ops : List (QueueOp α)) (answers : List (QueueAnswer α)) :
    Prop :=
  ∃ inside, (taken ops answers).Perm (returned answers ++ inside) ∧ (free = num → inside = [])

/-- A ring that realises the abstract queue returns every buffer once. -/
theorem returnedOnce_of_realised {num free head : Nat} {next : Nat → Nat}
    {prog pub : List (Flight α)} {used : List (Flight α × Nat)} (ops : List (QueueOp α))
    (pool : ChainPool next head free (range num) ((flights prog pub used).map Flight.chain))
    (same : (runSpec AbstractQueue.step (.empty α num) ops).1 = realised free prog pub used) :
    ReturnedOnce num free ops (runSpec AbstractQueue.step (.empty α num) ops).2 := by
  have tokens := (AbstractQueue.empty α num).tokens_run ops
  have none : (AbstractQueue.empty α num).tokens = [] := rfl
  have flying : (realised free prog pub used).tokens = (flights prog pub used).map Flight.data := by
    simp [AbstractQueue.tokens, AbstractQueue.inFlight, realised, flights]
    rfl
  rw [same, flying, none, append_nil] at tokens
  refine ⟨_, tokens, fun all => ?_⟩
  -- every chain in flight keeps a descriptor off the free list
  have few := pool.count_add_length_le
  rw [length_map, length_range] at few
  rw [map_eq_nil_iff, ← length_eq_zero_iff]
  omega

end KvmGuestDrivers.VirtIO
