/-
# Theory.Requests -- where the requests of a driver are

A driver with several queues: a request is in the hands of a call, in the list of a queue, or
completed.  Calls take requests out of the lists and put them in, whatever the locks are.
-/
import KvmGuestDrivers.Theory.Calls
import KvmGuestDrivers.Theory.RequestRing

namespace KvmGuestDrivers.Theory

open List

set_option autoImplicit false

/-- The requests in the hands of the calls, the queues, and what is completed. -/
structure Requests where
  idOf : Nat → Nat
  accepted : Nat
  /-- What the calls have: a request, and whether it has its id. -/
  hands : List (Option (Nat × Bool))
  queues : List RequestRing
  completed : List Nat

variable {n i : Nat} {b b' : Bool} {e : Posted} {q' : RequestRing}

namespace Requests

def hand : Option (Nat × Bool) → List Nat
  | none => []
  | some (n, _) => [n]

def ringIds (q : RequestRing) : List Nat := q.ring.map Posted.id

def places (r : Requests) : List Nat :=
  r.hands.flatMap hand ++ r.queues.flatMap RequestRing.list ++ r.completed

def setId (idOf : Nat → Nat) (n id : Nat) : Nat → Nat := fun m => if m = n then id else idOf m

def Fresh (r : Requests) (id : Nat) : Prop :=
  id ≠ 0 ∧ (∀ n, some (n, true) ∈ r.hands → r.idOf n ≠ id) ∧
    ∀ q ∈ r.queues, ∀ e ∈ q.ring, e.id ≠ id

/-- Every request is in one place, the ids in use are distinct, and what is on a ring and not in its
list is completed. -/
structure Placed (r : Requests) : Prop where
  once : r.places.Perm (List.range r.accepted)
  matched : ∀ q ∈ r.queues, q.Matched r.idOf
  ids : (r.queues.flatMap ringIds).Nodup
  known : ∀ q ∈ r.queues, ∀ e ∈ q.ring, e.request ∈ q.list ∨ e.request ∈ r.completed
  named : ∀ n, some (n, true) ∈ r.hands →
    r.idOf n ≠ 0 ∧ ∀ q ∈ r.queues, ∀ e ∈ q.ring, e.id ≠ r.idOf n
  apart : ∀ n m, some (n, true) ∈ r.hands → some (m, true) ∈ r.hands → r.idOf n = r.idOf m → n = m

variable {r : Requests} {q : RequestRing}

/-! ## Places -/

theorem count_places (r : Requests) (a : Nat) : r.places.count a =
      (r.hands.flatMap hand).count a + (r.queues.flatMap RequestRing.list).count a +
        r.completed.count a := by
  rw [places, count_append, count_append]

theorem mem_hands (held : some (n, b) ∈ r.hands) : n ∈ r.hands.flatMap hand :=
  mem_flatMap.mpr ⟨_, held, mem_singleton.mpr rfl⟩

theorem mem_lists (there : q ∈ r.queues) (listed : n ∈ q.list) :
    n ∈ r.queues.flatMap RequestRing.list :=
  mem_flatMap.mpr ⟨q, there, listed⟩

namespace Placed

section

variable (placed : Placed r) {q : RequestRing}

include placed

theorem nodup : r.places.Nodup := placed.once.nodup_iff.mpr nodup_range

/-- What is in a hand is in no list, and not completed. -/
theorem hand_apart (held : some (n, b) ∈ r.hands) :
    (∀ q ∈ r.queues, n ∉ q.list) ∧ n ∉ r.completed := by
  have nodup := placed.nodup
  rw [places, append_assoc] at nodup
  have other := (nodup_append.mp nodup).2.2 n (mem_hands held)
  refine ⟨fun q there listed => ?_, fun done => ?_⟩
  · exact other n (mem_append_left _ (mem_lists there listed)) rfl
  · exact other n (mem_append_right _ done) rfl

/-- What is in a list is not completed. -/
theorem list_apart (there : q ∈ r.queues) (listed : n ∈ q.list) : n ∉ r.completed := by
  have other := (nodup_append.mp placed.nodup).2.2 n (mem_append_right _ (mem_lists there listed))
  exact fun done => other n done rfl

/-- What is on a ring is not in a hand. -/
theorem off_ring (held : some (n, b) ∈ r.hands) (there : q ∈ r.queues) (onRing : e ∈ q.ring) :
    e.request ≠ n := by
  intro same
  obtain ⟨noList, notDone⟩ := placed.hand_apart held
  rcases placed.known q there e onRing with listed | done
  · exact noList q there (same ▸ listed)
  · exact notDone (same ▸ done)

/-- What is on a ring has been accepted. -/
theorem ring_lt (there : q ∈ r.queues) (onRing : e ∈ q.ring) : e.request < r.accepted := by
  refine mem_range.mp (placed.once.mem_iff.mp ?_)
  rcases placed.known q there e onRing with listed | done
  · exact mem_append_left _ (mem_append_right _ (mem_lists there listed))
  · exact mem_append_right _ done

theorem hand_lt (held : some (n, b) ∈ r.hands) : n < r.accepted :=
  mem_range.mp (placed.once.mem_iff.mp (mem_append_left _ (mem_append_left _ (mem_hands held))))

end

/-- Before anything is accepted. -/
theorem start (idOf : Nat → Nat) (n : Nat) : Placed ⟨idOf, 0, [], List.replicate n .empty, []⟩ := by
  have empty {q : RequestRing} (there : q ∈ List.replicate n RequestRing.empty) :
      q = RequestRing.empty := eq_of_mem_replicate there
  have nothing (f : RequestRing → List Nat) (none : f .empty = []) :
      (List.replicate n RequestRing.empty).flatMap f = [] :=
    flatMap_eq_nil_iff.mpr fun q there => (congrArg f (empty there)).trans none
  refine ⟨?_, ?_, ?_, ?_, fun _ held => absurd held not_mem_nil,
    fun _ _ held => absurd held not_mem_nil⟩
  · rw [places, nothing RequestRing.list rfl]
    exact List.Perm.refl _
  · intro q there
    rw [empty there]
    exact RequestRing.Matched.empty idOf
  · rw [nothing ringIds rfl]
    exact nodup_nil
  · intro q there e onRing
    rw [empty there] at onRing
    exact absurd onRing not_mem_nil

/-- Descriptors on different rings are of different requests. -/
theorem rings_apart (placed : Placed r) {k l : Nat} {p : RequestRing} (atK : r.queues[k]? = some p)
    (atL : r.queues[l]? = some q) (ne : k ≠ l) {f : Posted} (onP : e ∈ p.ring) (onQ : f ∈ q.ring) :
    e.request ≠ f.request := by
  intro same
  have id : e.id = f.id := by
    rw [((placed.matched p (mem_of_getElem? atK)).named e onP).1,
      ((placed.matched q (mem_of_getElem? atL)).named f onQ).1, same]
  obtain ⟨ltK, rfl⟩ := List.getElem?_eq_some_iff.mp atK
  obtain ⟨ltL, rfl⟩ := List.getElem?_eq_some_iff.mp atL
  have apart := pairwise_iff_getElem.mp (nodup_flatMap.mp placed.ids).2
  have inP : e.id ∈ ringIds r.queues[k] := mem_map_of_mem onP
  have inQ : e.id ∈ ringIds r.queues[l] := id ▸ mem_map_of_mem onQ
  rcases Nat.lt_or_gt_of_ne ne with lt | gt
  · exact apart k l ltK ltL lt inP inQ
  · exact apart l k ltL ltK gt inQ inP

/-! ## Calls -/

theorem accept (placed : Placed r) (id : Nat) : Placed { r with
      idOf := setId r.idOf r.accepted id
      accepted := r.accepted + 1
      hands := r.hands ++ [some (r.accepted, false)] } := by
  have others {n : Nat} (lt : n < r.accepted) : setId r.idOf r.accepted id n = r.idOf n :=
    if_neg (Nat.ne_of_lt lt)
  have old {n : Nat} (held : some (n, true) ∈ r.hands ++ [some (r.accepted, false)]) :
      some (n, true) ∈ r.hands := by
    exact mem_of_mem_concat held (by simp)
  refine ⟨?_, ?_, placed.ids, placed.known, ?_, ?_⟩
  · refine perm_iff_count.mpr fun a => ?_
    have before := placed.once.count_eq a
    rw [count_places] at before
    simp only [count_places, range_succ, count_append, flatMap_append, flatMap_singleton, hand]
    omega
  · intro q there
    exact (placed.matched q there).congr fun e onRing => others (placed.ring_lt there onRing)
  · intro n held
    show setId r.idOf r.accepted id n ≠ 0 ∧ ∀ q ∈ r.queues, ∀ e ∈ q.ring, e.id ≠ setId _ _ _ n
    rw [others (placed.hand_lt (old held))]
    exact placed.named n (old held)
  · intro n m heldN heldM
    show setId r.idOf r.accepted id n = setId r.idOf r.accepted id m → n = m
    rw [others (placed.hand_lt (old heldN)), others (placed.hand_lt (old heldM))]
    exact placed.apart n m (old heldN) (old heldM)

theorem name (placed : Placed r) {id : Nat} (here : r.hands[i]? = some (some (n, false)))
    (fresh : r.Fresh id) :
    Placed { r with idOf := setId r.idOf n id, hands := r.hands.set i (some (n, true)) } := by
  have held := mem_of_getElem? here
  have self : setId r.idOf n id n = id := if_pos rfl
  have others {m : Nat} (ne : m ≠ n) : setId r.idOf n id m = r.idOf m := if_neg ne
  obtain ⟨nonzero, ofHands, ofRings⟩ := fresh
  -- a call that had its id before has another request
  have old {m : Nat} (heldM : some (m, true) ∈ r.hands.set i (some (n, true))) (ne : m ≠ n) :
      some (m, true) ∈ r.hands := by
    rcases mem_or_eq_of_mem_set heldM with before | new
    · exact before
    · cases new
      exact absurd rfl ne
  refine ⟨?_, ?_, placed.ids, placed.known, ?_, ?_⟩
  · refine (List.Perm.append_right _ (List.Perm.append_right _ ?_)).trans placed.once
    exact flatMap_keep here (some (n, true)) hand (List.Perm.refl [n])
  · intro q there
    exact (placed.matched q there).congr fun e onRing => others (placed.off_ring held there onRing)
  · intro m heldM
    show setId r.idOf n id m ≠ 0 ∧ ∀ q ∈ r.queues, ∀ e ∈ q.ring, e.id ≠ setId r.idOf n id m
    by_cases same : m = n
    · rw [same, self]
      exact ⟨nonzero, ofRings⟩
    · rw [others same]
      exact placed.named m (old heldM same)
  · intro m m' heldM heldM'
    show setId r.idOf n id m = setId r.idOf n id m' → m = m'
    by_cases same : m = n <;> by_cases same' : m' = n
    · exact fun _ => same.trans same'.symm
    · rw [same, self, others same']
      exact fun eq => absurd eq.symm (ofHands m' (old heldM' same'))
    · rw [same', self, others same]
      exact fun eq => absurd eq (ofHands m (old heldM same))
    · rw [others same, others same']
      exact placed.apart m m' (old heldM same) (old heldM' same')

/-- A hand is emptied. -/
theorem emptied (here : r.hands[i]? = some (some (n, b))) :
    (r.hands.flatMap hand).Perm (n :: (r.hands.set i none).flatMap hand) :=
  flatMap_take here none hand (List.Perm.refl [n])

theorem mem_emptied {m : Nat} (held : some (m, b) ∈ r.hands.set i none) :
    some (m, b) ∈ r.hands := by
  rcases mem_or_eq_of_mem_set held with before | new
  · exact before
  · cases new

variable (placed : Placed r) {k : Nat} {q : RequestRing}

include placed

section

variable (here : r.hands[i]? = some (some (n, b)))

include here

/-- Nobody else has the request of a hand. -/
theorem not_mem_emptied :
    some (n, b') ∉ r.hands.set i none := by
  intro held
  have nodup := placed.nodup
  rw [places, append_assoc] at nodup
  have hands := (emptied here).nodup_iff.mp (nodup_append.mp nodup).1
  exact (nodup_cons.mp hands).1 (mem_flatMap.mpr ⟨_, held, mem_singleton.mpr rfl⟩)

theorem hand_inj {j : Nat}
    (there : r.hands[j]? = some (some (n, b'))) : i = j := by
  by_contra other
  rw [← getElem?_set_ne other] at there
  exact placed.not_mem_emptied here (mem_of_getElem? there)

theorem complete :
    Placed { r with hands := r.hands.set i none, completed := r.completed ++ [n] } := by
  refine ⟨?_, placed.matched, placed.ids, ?_, fun m held => placed.named m (mem_emptied held),
    fun m m' held held' => placed.apart m m' (mem_emptied held) (mem_emptied held')⟩
  · refine List.Perm.trans (perm_iff_count.mpr fun a => ?_) placed.once
    have taken := (emptied here).count_eq a
    simp only [count_places, count_append, count_cons, count_nil] at taken ⊢
    omega
  · intro q there e onRing
    exact (placed.known q there e onRing).imp_right (mem_append_left _)

end

/-! ## Queues -/

theorem post (here : r.hands[i]? = some (some (n, true))) (there : r.queues[k]? = some q) :
    Placed { r with
      hands := r.hands.set i none
      queues := r.queues.set k (q.post n (r.idOf n)) } := by
  have held := mem_of_getElem? here
  have member := mem_of_getElem? there
  obtain ⟨nonzero, fresh⟩ := placed.named n held
  have once : ({ r with
      hands := r.hands.set i none
      queues := r.queues.set k (q.post n (r.idOf n)) }).places.Perm r.places := by
    refine perm_iff_count.mpr fun a => ?_
    have taken := (emptied here).count_eq a
    have put := (flatMap_put there (q.post n (r.idOf n)) RequestRing.list
      perm_append_comm).count_eq a
    simp only [count_places, count_cons] at taken put ⊢
    omega
  have ringPut := flatMap_put there (q.post n (r.idOf n)) ringIds
    ((RequestRing.ring_post q n (r.idOf n)).map Posted.id)
  refine ⟨once.trans placed.once, ?_, ?_, ?_, ?_, fun m m' heldM heldM' =>
    placed.apart m m' (mem_emptied heldM) (mem_emptied heldM')⟩
  · exact forall_mem_set placed.matched ((placed.matched q member).post nonzero
      ((placed.hand_apart held).1 q member) (fresh q member))
  · refine ringPut.nodup_iff.mpr (nodup_cons.mpr ⟨fun onRing => ?_, placed.ids⟩)
    obtain ⟨p, before, id⟩ := mem_flatMap.mp onRing
    obtain ⟨e, onIt, same⟩ := mem_map.mp id
    exact fresh p before e onIt same
  · refine forall_mem_set placed.known fun e onRing => ?_
    rcases RequestRing.mem_ring_post.mp onRing with rfl | old
    · exact .inl (mem_append_right _ (mem_singleton.mpr rfl))
    · exact (placed.known q member e old).imp_left (mem_append_left _)
  · intro m heldM
    have heldM' := mem_emptied heldM
    obtain ⟨named, away⟩ := placed.named m heldM'
    refine ⟨named, forall_mem_set away fun e onRing => ?_⟩
    rcases RequestRing.mem_ring_post.mp onRing with rfl | old
    · intro same
      have eq := placed.apart n m held heldM' same
      rw [← eq] at heldM
      exact placed.not_mem_emptied here heldM
    · exact away q member e old

/-- A queue is replaced by one with the same list and the same ids on its ring. -/
theorem answer (there : r.queues[k]? = some q) (j status : Nat) :
    Placed { r with queues := r.queues.set k (q.answer j status) } := by
  have member := mem_of_getElem? there
  have sameIds : (ringIds (q.answer j status)).Perm (ringIds q) := by
    have perm := (RequestRing.ring_answer q j status).map Prod.snd
    rw [map_map, map_map] at perm
    exact perm
  refine ⟨?_, ?_, ?_, ?_, ?_, placed.apart⟩
  · refine (List.Perm.append_right _ (List.Perm.append_left _ ?_)).trans placed.once
    refine flatMap_keep there _ RequestRing.list ?_
    rw [RequestRing.list_answer]
  · exact forall_mem_set placed.matched ((placed.matched q member).answer j status)
  · exact (flatMap_keep there _ ringIds sameIds).nodup_iff.mpr placed.ids
  · refine forall_mem_set placed.known fun e onRing => ?_
    obtain ⟨f, old, request, -⟩ := RequestRing.mem_ring_answer onRing
    rw [RequestRing.list_answer, ← request]
    exact placed.known q member f old
  · intro n held
    obtain ⟨named, away⟩ := placed.named n held
    refine ⟨named, forall_mem_set away fun e onRing => ?_⟩
    obtain ⟨f, old, -, id⟩ := RequestRing.mem_ring_answer onRing
    rw [← id]
    exact away q member f old

/-- What collecting does to the rings: an id is gone from all of them. -/
theorem ids_collect (there : r.queues[k]? = some q) {rest : List Posted}
    (first : q.used = e :: rest) (q' : RequestRing) (ring : q'.ring = q.device ++ rest) :
    ((r.queues.set k q').flatMap ringIds).Nodup ∧
      ∀ p ∈ r.queues.set k q', ∀ f ∈ p.ring, f.id ≠ e.id := by
  have left : (ringIds q).Perm (e.id :: ringIds q') := by
    rw [ringIds, ringIds, ring]
    exact (RequestRing.ring_cons first).map Posted.id
  have nodup := (flatMap_take there q' ringIds left).nodup_iff.mp placed.ids
  rw [nodup_cons] at nodup
  refine ⟨nodup.2, fun p after f onRing same => nodup.1 ?_⟩
  exact mem_flatMap.mpr ⟨p, after, same ▸ mem_map_of_mem onRing⟩

/-- Descriptors leave a ring, and nothing comes to it. -/
theorem shrink (there : r.queues[k]? = some q) (matched : q'.Matched r.idOf)
    (sub : ∀ e ∈ q'.ring, e ∈ q.ring) (completed : List Nat)
    (known : ∀ e ∈ q'.ring, e.request ∈ q'.list ∨ e.request ∈ completed)
    (more : ∀ n ∈ r.completed, n ∈ completed) :
    (∀ p ∈ r.queues.set k q', p.Matched r.idOf) ∧
      (∀ p ∈ r.queues.set k q', ∀ e ∈ p.ring, e.request ∈ p.list ∨ e.request ∈ completed) ∧
        ∀ n, some (n, true) ∈ r.hands →
          r.idOf n ≠ 0 ∧ ∀ p ∈ r.queues.set k q', ∀ e ∈ p.ring, e.id ≠ r.idOf n := by
  refine ⟨forall_mem_set placed.matched matched, forall_mem_set ?_ known, fun n held => ?_⟩
  · exact fun p before e onRing => (placed.known p before e onRing).imp_right (more _)
  · obtain ⟨named, away⟩ := placed.named n held
    exact ⟨named, forall_mem_set away fun e onRing =>
      away q (mem_of_getElem? there) e (sub e onRing)⟩

/-- What is collected and not in the list has been completed. -/
theorem collect_none (there : r.queues[k]? = some q) (taken : q.collect r.idOf = (q', none)) :
    Placed { r with queues := r.queues.set k q' } := by
  have member := mem_of_getElem? there
  have matched := placed.matched q member
  have matched' := matched.collect
  rw [taken] at matched'
  rcases matched.collect_none taken with rfl | ⟨e, _, first, -, rfl⟩
  · rw [set_same there]
    exact placed
  obtain ⟨left, -⟩ := matched.left (RequestRing.ring_cons first)
  obtain ⟨matched, known, named⟩ := placed.shrink there matched'
    (fun f onRing => (left f onRing).1) r.completed
    (fun f onRing => placed.known q member f (left f onRing).1) (fun n done => done)
  refine ⟨?_, matched, (placed.ids_collect there first _ rfl).1, known, named, placed.apart⟩
  refine (List.Perm.append_right _ (List.Perm.append_left _ ?_)).trans placed.once
  exact flatMap_keep there _ RequestRing.list (List.Perm.refl q.list)

/-- What is collected comes into the hands of a call. -/
theorem collect_some (there : r.queues[k]? = some q) (taken : q.collect r.idOf = (q', some n)) :
    Placed { r with
      queues := r.queues.set k q'
      hands := r.hands ++ [some (n, true)] } := by
  have member := mem_of_getElem? there
  have matched := placed.matched q member
  have matched' := matched.collect
  rw [taken] at matched'
  obtain ⟨e, rest, first, rfl, listed, after⟩ := matched.collect_some taken
  have ring : q'.ring = q.device ++ rest := by
    rw [after]
    rfl
  obtain ⟨left, -⟩ := matched.left (RequestRing.ring_cons first)
  have onRing : e ∈ q.ring := (RequestRing.ring_cons first).mem_iff.mpr mem_cons_self
  have own := matched.named e onRing
  obtain ⟨ids, away⟩ := placed.ids_collect there first q' ring
  obtain ⟨matched, known, named⟩ := placed.shrink there matched'
    (fun f there => (left f (ring ▸ there)).1) r.completed
    (fun f there => (placed.known q member f (left f (ring ▸ there)).1).imp_left (by
      rw [after]
      exact (mem_erase_of_ne (left f (ring ▸ there)).2).mpr))
    (fun n done => done)
  -- a call with the same id would have the id of the descriptors
  have other {m : Nat} (held : some (m, true) ∈ r.hands) : r.idOf m ≠ r.idOf e.request :=
    fun same => (placed.named m held).2 q member e onRing (own.1.trans same.symm)
  have last_eq {m : Nat} (last : some (m, true) ∈ [some (e.request, true)]) : m = e.request :=
    (Prod.mk.inj (Option.some.inj (mem_singleton.mp last))).1
  refine ⟨?_, matched, ids, known, ?_, ?_⟩
  · refine List.Perm.trans (perm_iff_count.mpr fun a => ?_) placed.once
    have given := (flatMap_take there q' RequestRing.list (by
      rw [after]
      exact perm_cons_erase listed)).count_eq a
    simp only [count_places, count_append, flatMap_append, flatMap_singleton,
      hand, count_cons, count_nil] at given ⊢
    omega
  · intro m held
    rcases mem_append.mp held with before | last
    · exact named m before
    rw [last_eq last]
    rw [← own.1]
    exact ⟨own.2, away⟩
  · intro m m' held held'
    rcases mem_append.mp held with before | last <;>
      rcases mem_append.mp held' with before' | last'
    · exact placed.apart m m' before before'
    · rw [last_eq last']
      exact fun same => absurd same (other before)
    · rw [last_eq last]
      exact fun same => absurd same.symm (other before')
    · exact fun _ => (last_eq last).trans (last_eq last').symm

theorem drain (there : r.queues[k]? = some q) : Placed { r with
      queues := r.queues.set k q.drain
      completed := r.completed ++ q.list } := by
  have member := mem_of_getElem? there
  obtain ⟨matched, known, named⟩ := placed.shrink there (placed.matched q member).drain
    (fun e onRing => onRing) (r.completed ++ q.list)
    (fun e onRing => .inr ((placed.known q member e onRing).elim (mem_append_right _)
      (mem_append_left _)))
    (fun n done => mem_append_left _ done)
  refine ⟨?_, matched, ?_, known, named, placed.apart⟩
  · refine List.Perm.trans (perm_iff_count.mpr fun a => ?_) placed.once
    have moved := count_flatMap_move there q.drain RequestRing.list a
    have emptied : q.drain.list.count a = 0 := rfl
    simp only [count_places, count_append]
    omega
  · exact (flatMap_keep there q.drain ringIds (List.Perm.refl _)).nodup_iff.mpr placed.ids

end Placed

/-! ## What the device has -/

/-- What the device has is in the list of its queue. -/
def Owned (r : Requests) : Prop := ∀ q ∈ r.queues, ∀ e ∈ q.device, e.request ∈ q.list

namespace Owned

variable (owned : Owned r) {k : Nat} {q : RequestRing} (there : r.queues[k]? = some q)

include owned

theorem set (inList : ∀ e ∈ q'.device, e.request ∈ q'.list) :
    ∀ p ∈ r.queues.set k q', ∀ e ∈ p.device, e.request ∈ p.list :=
  forall_mem_set owned inList

/-- A list is emptied that the device has nothing of. -/
theorem drain (idle : q.device = []) :
    ∀ p ∈ r.queues.set k q.drain, ∀ e ∈ p.device, e.request ∈ p.list := by
  refine owned.set fun e has => ?_
  rw [show q.drain.device = [] from idle] at has
  exact absurd has not_mem_nil

include there

theorem post (n id : Nat) :
    ∀ p ∈ r.queues.set k (q.post n id), ∀ e ∈ p.device, e.request ∈ p.list := by
  refine owned.set (forall_mem_concat (fun e old => ?_) ?_)
  · exact mem_append_left _ (owned q (mem_of_getElem? there) e old)
  · exact mem_append_right _ (mem_singleton.mpr rfl)

theorem answer (j status : Nat) :
    ∀ p ∈ r.queues.set k (q.answer j status), ∀ e ∈ p.device, e.request ∈ p.list := by
  refine owned.set fun e has => ?_
  rw [RequestRing.list_answer]
  refine owned q (mem_of_getElem? there) e ?_
  rcases RequestRing.answer_cases q j status with same | ⟨f, -, moved⟩
  · rwa [same] at has
  · rw [moved] at has
    exact mem_of_mem_eraseIdx has

theorem collect (placed : Placed r) {found : Option Nat} (taken : q.collect r.idOf = (q', found)) :
    ∀ p ∈ r.queues.set k q', ∀ e ∈ p.device, e.request ∈ p.list := by
  have member := mem_of_getElem? there
  have matched := placed.matched q member
  refine owned.set fun e has => ?_
  cases found with
  | none =>
    rcases matched.collect_none taken with rfl | ⟨_, _, -, -, rfl⟩
    · exact owned q' member e has
    · exact owned q member e has
  | some =>
    obtain ⟨f, _, first, rfl, _, rfl⟩ := matched.collect_some taken
    obtain ⟨left, -⟩ := matched.left (RequestRing.ring_cons first)
    exact (mem_erase_of_ne (left e (mem_append_left _ has)).2).mpr (owned q member e has)

end Owned

theorem Owned.start (idOf : Nat → Nat) (n : Nat) :
    Owned ⟨idOf, 0, [], List.replicate n .empty, []⟩ := by
  intro q there e has
  rw [eq_of_mem_replicate there] at has
  exact absurd has not_mem_nil

/-- When no call has a request and the lists are empty, all requests are completed. -/
theorem Placed.all_completed (placed : Placed r) (idle : ∀ hold ∈ r.hands, hold = none)
    (empty : ∀ q ∈ r.queues, q.list = []) : r.completed.Perm (List.range r.accepted) := by
  have hands : r.hands.flatMap hand = [] := by
    refine flatMap_eq_nil_iff.mpr fun hold member => ?_
    rw [idle hold member]
    rfl
  have lists : r.queues.flatMap RequestRing.list = [] := flatMap_eq_nil_iff.mpr empty
  have once := placed.once
  rw [places, hands, lists] at once
  exact once

/-- Nothing is completed that the device has. -/
theorem Placed.not_owned (placed : Placed r) (owned : Owned r) (done : n ∈ r.completed)
    (there : q ∈ r.queues) (has : e ∈ q.device) : e.request ≠ n :=
  fun same => placed.list_apart there (owned q there e has) (same ▸ done)

/-- A list holds the requests on the ring of its queue that are not completed. -/
theorem Placed.mem_list_iff (placed : Placed r) (there : q ∈ r.queues) :
    n ∈ q.list ↔ (∃ e ∈ q.ring, e.request = n) ∧ n ∉ r.completed := by
  constructor
  · intro listed
    exact ⟨(placed.matched q there).held n listed, placed.list_apart there listed⟩
  · rintro ⟨⟨e, onRing, rfl⟩, pending⟩
    exact (placed.known q there e onRing).resolve_right pending

end Requests

end KvmGuestDrivers.Theory
