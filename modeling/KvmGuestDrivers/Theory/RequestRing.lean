/-
# Theory.RequestRing -- requests that are found again by their ids

A driver keeps the requests that a device works on in a list, with a counter beside it, and puts
descriptors with the id of each on a ring.  What comes back from the ring is an id, and the request
is searched for in the list.
-/
import Mathlib.Data.List.Nodup
import Mathlib.Data.List.Perm.Basic

namespace KvmGuestDrivers.Theory

open List

set_option autoImplicit false

/-- The descriptors of a request; `status` is what the device returns. -/
structure Posted where
  request : Nat
  id : Nat
  status : Nat

/-- The list, its counter, the descriptors that the device has and those that it has returned and
that wait to be collected. -/
structure RequestRing where
  list : List Nat
  count : BitVec 32
  device : List Posted
  /-- The descriptors that it has returned, the first one to be collected first. -/
  used : List Posted

variable {e : Posted} {q' : RequestRing}

namespace RequestRing

def empty : RequestRing := ⟨[], 0#32, [], []⟩

variable (q : RequestRing)

def ring : List Posted := q.device ++ q.used

/-- Give the descriptors of a request to the device, and append the request to the list. -/
def post (n id : Nat) : RequestRing :=
  { q with
      list := q.list ++ [n]
      count := q.count + 1#32
      device := q.device ++ [⟨n, id, 0⟩] }

def answer (j status : Nat) : RequestRing :=
  match q.device[j]? with
  | none => q
  | some e =>
    { q with device := q.device.eraseIdx j, used := q.used ++ [{ e with status := status }] }

/-- Collect an id, and take the request with this id from the list.  Zero is no id. -/
def collect (idOf : Nat → Nat) (q : RequestRing) : RequestRing × Option Nat :=
  match q.used with
  | [] => (q, none)
  | e :: rest =>
    match if e.id = 0 then none else q.list.find? fun n => idOf n = e.id with
    | none => ({ q with used := rest }, none)
    | some n =>
      ({ q with used := rest, list := q.list.erase n, count := q.count - 1#32 }, some n)

def drain : RequestRing := { q with list := [], count := 0#32 }

/-- The ids on the ring are distinct and name their requests, and every request of the list is on
the ring. -/
structure Matched (idOf : Nat → Nat) (q : RequestRing) : Prop where
  count : q.count = BitVec.ofNat 32 q.list.length
  nodup : q.list.Nodup
  ids : (q.ring.map Posted.id).Nodup
  named : ∀ e ∈ q.ring, e.id = idOf e.request ∧ e.id ≠ 0
  held : ∀ n ∈ q.list, ∃ e ∈ q.ring, e.request = n

variable {idOf : Nat → Nat} {q} {n j : Nat} {rest : List Posted}

theorem Matched.empty (idOf : Nat → Nat) : Matched idOf empty where
  count := rfl
  nodup := nodup_nil
  ids := nodup_nil
  named := forall_mem_nil _
  held := forall_mem_nil _

/-- Only the ids of what is on the ring matter. -/
theorem Matched.congr {idOf' : Nat → Nat} (matched : q.Matched idOf)
    (same : ∀ e ∈ q.ring, idOf' e.request = idOf e.request) : q.Matched idOf' where
  __ := matched
  named := fun e member => by
    rw [same e member]
    exact matched.named e member

/-- A request has one descriptor chain on the ring. -/
theorem Matched.request_inj (matched : q.Matched idOf) {f : Posted} (he : e ∈ q.ring)
    (hf : f ∈ q.ring) (same : e.request = f.request) : e = f := by
  refine inj_on_of_nodup_map matched.ids he hf ?_
  rw [(matched.named e he).1, (matched.named f hf).1, same]

/-! ## Posting -/

theorem ring_post (q : RequestRing) (n id : Nat) :
    (q.post n id).ring.Perm (⟨n, id, 0⟩ :: q.ring) := by
  rw [ring, post, append_assoc]
  exact perm_middle

theorem mem_ring_post {id : Nat} : e ∈ (q.post n id).ring ↔ e = ⟨n, id, 0⟩ ∨ e ∈ q.ring := by
  rw [(ring_post q n id).mem_iff, mem_cons]

theorem Matched.post (matched : q.Matched idOf) (named : idOf n ≠ 0) (new : n ∉ q.list)
    (fresh : ∀ e ∈ q.ring, e.id ≠ idOf n) : (q.post n (idOf n)).Matched idOf where
  count := by
    show q.count + 1#32 = BitVec.ofNat 32 (q.list ++ [n]).length
    rw [matched.count, length_append, length_singleton, BitVec.ofNat_add]
  nodup := nodup_append.mpr ⟨matched.nodup, nodup_singleton n, fun a old b b_eq => by
    rw [mem_singleton.mp b_eq]
    exact fun same => new (same ▸ old)⟩
  ids := by
    rw [((ring_post q n (idOf n)).map Posted.id).nodup_iff, map_cons, nodup_cons]
    refine ⟨fun member => ?_, matched.ids⟩
    obtain ⟨e, onRing, same⟩ := mem_map.mp member
    exact fresh e onRing same
  named := by
    intro e member
    rcases mem_ring_post.mp member with rfl | old
    · exact ⟨rfl, named⟩
    · exact matched.named e old
  held := by
    intro m member
    rcases mem_append.mp member with old | last
    · obtain ⟨e, onRing, is⟩ := matched.held m old
      exact ⟨e, mem_ring_post.mpr (.inr onRing), is⟩
    · rw [mem_singleton.mp last]
      exact ⟨_, mem_ring_post.mpr (.inl rfl), rfl⟩

/-! ## Answers -/

/-- What an answer changes: a descriptor moves, and gets a status. -/
theorem answer_cases (q : RequestRing) (j status : Nat) : q.answer j status = q ∨
      ∃ e, q.device[j]? = some e ∧ q.answer j status = { q with
          device := q.device.eraseIdx j, used := q.used ++ [{ e with status := status }] } := by
  rw [answer]
  cases here : q.device[j]? with
  | none => exact .inl rfl
  | some e => exact .inr ⟨e, rfl, rfl⟩

theorem list_answer (q : RequestRing) (j status : Nat) : (q.answer j status).list = q.list := by
  rcases answer_cases q j status with same | ⟨e, -, moved⟩
  · rw [same]
  · rw [moved]

/-- The ring without the descriptors that the device returns. -/
theorem ring_eraseIdx (here : q.device[j]? = some e) :
    q.ring.Perm (e :: (q.device.eraseIdx j ++ q.used)) := by
  obtain ⟨lt, is⟩ := List.getElem?_eq_some_iff.mp here
  have taken := getElem_cons_eraseIdx_perm lt
  rw [is] at taken
  exact taken.symm.append_right q.used

theorem ring_answer (q : RequestRing) (j status : Nat) :
    ((q.answer j status).ring.map fun e => (e.request, e.id)).Perm
      (q.ring.map fun e => (e.request, e.id)) := by
  rcases answer_cases q j status with same | ⟨e, here, moved⟩
  · rw [same]
  have taken := (ring_eraseIdx here).map fun e : Posted => (e.request, e.id)
  refine List.Perm.trans ?_ taken.symm
  rw [moved, ring, ← append_assoc, map_append]
  exact perm_append_comm

/-- Up to the status, what is on the ring stays on it. -/
theorem mem_ring_answer {status : Nat} (member : e ∈ (q.answer j status).ring) :
    ∃ f ∈ q.ring, f.request = e.request ∧ f.id = e.id := by
  have pair := (ring_answer q j status).mem_iff.mp
    (mem_map_of_mem member)
  obtain ⟨f, onRing, same⟩ := mem_map.mp pair
  obtain ⟨request, id⟩ := Prod.mk.inj same
  exact ⟨f, onRing, request, id⟩

theorem exists_ring_answer (j status : Nat) (member : e ∈ q.ring) :
    ∃ f ∈ (q.answer j status).ring, f.request = e.request := by
  have pair := (ring_answer q j status).mem_iff.mpr
    (mem_map_of_mem member)
  obtain ⟨f, onRing, same⟩ := mem_map.mp pair
  exact ⟨f, onRing, (Prod.mk.inj same).1⟩

theorem Matched.answer (matched : q.Matched idOf) (j status : Nat) :
    (q.answer j status).Matched idOf where
  count := by
    rw [list_answer, ← matched.count]
    rcases answer_cases q j status with same | ⟨e, -, moved⟩
    · rw [same]
    · rw [moved]
  nodup := by
    rw [list_answer]
    exact matched.nodup
  ids := by
    have perm := (ring_answer q j status).map Prod.snd
    rw [map_map, map_map] at perm
    exact perm.nodup_iff.mpr matched.ids
  named := by
    intro e member
    obtain ⟨f, onRing, request, id⟩ := mem_ring_answer member
    rw [← request, ← id]
    exact matched.named f onRing
  held := by
    intro n member
    rw [list_answer] at member
    obtain ⟨e, onRing, is⟩ := matched.held n member
    obtain ⟨f, there, same⟩ := exists_ring_answer j status onRing
    exact ⟨f, there, same.trans is⟩

/-! ## Collecting -/

/-- The search finds the request of the descriptor. -/
theorem Matched.find (matched : q.Matched idOf) (onRing : e ∈ q.ring) :
    q.list.find? (fun n => idOf n = e.id) =
      if e.request ∈ q.list then some e.request else none := by
  have unique (n : Nat) (member : n ∈ q.list) (same : idOf n = e.id) : n = e.request := by
    obtain ⟨f, there, is⟩ := matched.held n member
    have id := (matched.named f there).1
    rw [is, same] at id
    rw [← is, inj_on_of_nodup_map matched.ids there onRing id]
  have own := (matched.named e onRing).1
  split
  · rename_i member
    cases found : q.list.find? (fun n => idOf n = e.id) with
    | none => exact absurd own.symm (by simpa using find?_eq_none.mp found e.request member)
    | some n =>
      have id := find?_some found
      rw [unique n (mem_of_find?_eq_some found) (of_decide_eq_true id)]
  · rename_i absent
    refine find?_eq_none.mpr fun n member same => absent ?_
    rw [← unique n member (of_decide_eq_true same)]
    exact member

/-- The next descriptor is collected: its request leaves the list, if it is still there. -/
theorem Matched.collect_eq (matched : q.Matched idOf) (first : q.used = e :: rest) :
    q.collect idOf = if e.request ∈ q.list then
        ({ q with used := rest, list := q.list.erase e.request, count := q.count - 1#32 },
          some e.request)
      else ({ q with used := rest }, none) := by
  have onRing : e ∈ q.ring := by
    rw [ring, first]
    exact mem_append_right _ mem_cons_self
  rw [collect, first]
  simp only [if_neg (matched.named e onRing).2, matched.find onRing]
  by_cases member : e.request ∈ q.list
  · rw [if_pos member, if_pos member]
  · rw [if_neg member, if_neg member]

theorem ring_cons (first : q.used = e :: rest) : q.ring.Perm (e :: (q.device ++ rest)) := by
  rw [ring, first]
  exact perm_middle

variable (matched : q.Matched idOf)

include matched

/-- The descriptors that are left when some are taken from the ring. -/
theorem Matched.left (perm : q.ring.Perm (e :: rest)) :
    (∀ f ∈ rest, f ∈ q.ring ∧ f.request ≠ e.request) ∧ (rest.map Posted.id).Nodup := by
  have ids := (perm.map Posted.id).nodup_iff.mp matched.ids
  rw [map_cons, nodup_cons] at ids
  refine ⟨fun f member => ?_, ids.2⟩
  have onRing : f ∈ q.ring := perm.mem_iff.mpr (mem_cons_of_mem e member)
  refine ⟨onRing, fun same => ids.1 ?_⟩
  rw [matched.request_inj (perm.mem_iff.mpr mem_cons_self) onRing same.symm]
  exact mem_map_of_mem member

/-- Nothing is collected, or descriptors whose request is not in the list. -/
theorem Matched.collect_none (taken : q.collect idOf = (q', none)) :
    q' = q ∨ ∃ e rest, q.used = e :: rest ∧ e.request ∉ q.list ∧ q' = { q with used := rest } := by
  cases first : q.used with
  | nil =>
    rw [RequestRing.collect, first] at taken
    exact .inl (Prod.mk.inj taken).1.symm
  | cons e rest =>
    rw [matched.collect_eq first] at taken
    split at taken
    · cases taken
    · rename_i absent
      exact .inr ⟨e, rest, rfl, absent, (Prod.mk.inj taken).1.symm⟩

/-- The request of the descriptors that are collected leaves the list. -/
theorem Matched.collect_some (taken : q.collect idOf = (q', some n)) :
    ∃ e rest, q.used = e :: rest ∧ e.request = n ∧ n ∈ q.list ∧
      q' = { q with used := rest, list := q.list.erase n, count := q.count - 1#32 } := by
  cases first : q.used with
  | nil =>
    rw [RequestRing.collect, first] at taken
    cases taken
  | cons e rest =>
    rw [matched.collect_eq first] at taken
    split at taken
    · rename_i listed
      obtain ⟨rfl, request⟩ := Prod.mk.inj taken
      cases request
      exact ⟨e, rest, rfl, rfl, listed, rfl⟩
    · cases taken

/-- What is collected is the request whose descriptor came back, or nothing if it has left the list.
-/
theorem Matched.collect : (q.collect idOf).1.Matched idOf := by
  cases first : q.used with
  | nil =>
    rw [RequestRing.collect, first]
    exact matched
  | cons e rest =>
    obtain ⟨left, ids⟩ := matched.left (ring_cons first)
    -- a request of the list keeps its descriptors, unless they are the ones that are collected
    have held (n : Nat) (member : n ∈ q.list) (other : n ≠ e.request) :
        ∃ f ∈ q.device ++ rest, f.request = n := by
      obtain ⟨f, onRing, is⟩ := matched.held n member
      rcases mem_cons.mp ((ring_cons first).mem_iff.mp onRing) with rfl | there
      · exact absurd is.symm other
      · exact ⟨f, there, is⟩
    rw [matched.collect_eq first]
    split
    · rename_i member
      refine ⟨?_, matched.nodup.erase _, ids, fun f there => matched.named f (left f there).1, ?_⟩
      · have length := length_erase_add_one member
        rw [matched.count, ← length, BitVec.ofNat_add, BitVec.add_sub_cancel]
      · intro n there
        obtain ⟨other, old⟩ := matched.nodup.mem_erase_iff.mp there
        exact held n old other
    · rename_i absent
      refine ⟨matched.count, matched.nodup, ids, fun f there => matched.named f (left f there).1,
        fun n there => held n there ?_⟩
      exact fun same => absent (same ▸ there)

theorem Matched.drain : q.drain.Matched idOf where
  __ := matched
  count := rfl
  nodup := nodup_nil
  held := forall_mem_nil _

end RequestRing

end KvmGuestDrivers.Theory
