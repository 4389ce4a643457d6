/-
# Theory.LinkedChain -- chains threaded through one table of links

A table of links `next : ι → ι` can hold a free list and any number of chains at
the same time, as long as no cell is on two of them.  `follow next i n` reads the
`n` cells met from `i`; `ChainPool next head count cells chains` says that the
free list (`count` cells from `head`) and the listed chains together visit every
cell of `cells` exactly once.

A pool is changed in two ways only:

* `ChainPool.take` cuts the first cells off the free list and makes them a chain.
  No link is written.
* `ChainPool.give` puts a whole chain back in front of the free list by writing
  one link, that of the chain's last cell.

Links outside the cells being followed never matter: the last cell of a chain and
of the free list keeps whatever link it had.
-/
import Mathlib.Data.List.Perm.Lattice
import Mathlib.Algebra.BigOperators.Group.List.Basic
import Mathlib.Algebra.GroupWithZero.Nat

namespace KvmGuestDrivers.Theory

open List Function

set_option autoImplicit false

universe u

variable {ι : Type u}

/-! ## Following links -/

/-- The cells met by `n` steps along `next`, the starting cell first. -/
def follow (next : ι → ι) : ι → Nat → List ι
  | _, 0 => []
  | i, n + 1 => i :: follow next (next i) n

section

variable (next : ι → ι) (i : ι)

include next i

@[simp] theorem follow_zero : follow next i 0 = [] := rfl

theorem follow_succ (n : Nat) : follow next i (n + 1) = i :: follow next (next i) n := rfl

@[simp] theorem length_follow (n : Nat) : (follow next i n).length = n := by
  induction n generalizing i with
  | zero => rfl
  | succ n ih => simp [follow_succ, ih]

theorem follow_add (m n : Nat) :
    follow next i (m + n) = follow next i m ++ follow next (next^[m] i) n := by
  induction m generalizing i with
  | zero => simp
  | succ m ih => rw [Nat.succ_add, follow_succ, ih]; rfl

theorem follow_snoc (n : Nat) : follow next i (n + 1) = follow next i n ++ [next^[n] i] := by
  rw [follow_add]; rfl

end

variable {n : Nat}

theorem getElem?_follow (next : ι → ι) (i : ι) {k : Nat} (bound : k < n) :
    (follow next i n)[k]? = some (next^[k] i) := by
  induction n generalizing i k with
  | zero => omega
  | succ n ih =>
    cases k with
    | zero => rfl
    | succ =>
      exact ih (next i) (by omega)

variable (next : ι → ι)

theorem follow_eq_map (i : ι) (n : Nat) :
    follow next i n = (List.range n).map fun k => next^[k] i := by
  induction n with
  | zero => rfl
  | succ n ih => rw [follow_snoc, ih, range_succ, map_append, map_singleton]

theorem iterate_mem_follow (i : ι) {k : Nat} (bound : k < n) : next^[k] i ∈ follow next i n :=
  mem_of_getElem? (getElem?_follow next i bound)

variable {next}

/-- Only the links of the cells left behind matter: two tables that agree on the
first `n` cells lead to the same `n + 1` cells. -/
theorem follow_congr {next' : ι → ι} {i : ι} (same : ∀ j ∈ follow next i n, next' j = next j) :
    follow next' i (n + 1) = follow next i (n + 1) ∧ next'^[n] i = next^[n] i := by
  induction n generalizing i with
  | zero => exact ⟨rfl, rfl⟩
  | succ n ih =>
    have here : next' i = next i := same i (by simp [follow_succ])
    have rest := ih (i := next i) (fun j hj => same j (by simp [follow_succ, hj]))
    refine ⟨?_, ?_⟩
    · rw [follow_succ, here, rest.1, ← follow_succ]
    · rw [iterate_succ_apply, here, rest.2, ← iterate_succ_apply]

theorem follow_congr_all {next' : ι → ι} {i : ι} (same : ∀ j ∈ follow next i n, next' j = next j) :
    follow next' i n = follow next i n := by
  cases n with
  | zero => rfl
  | succ =>
    refine (follow_congr fun j hj => same j ?_).1
    rw [follow_snoc]
    exact mem_append_left _ hj

/-- Redirecting the last cell of a duplicate-free chain splices another list
behind it. -/
theorem follow_update_last [DecidableEq ι] {i head : ι} {m : Nat}
    (nodup : (follow next i (n + 1)).Nodup) (apart : next^[n] i ∉ follow next head m) :
    follow (update next (next^[n] i) head) i (n + 1 + m) =
      follow next i (n + 1) ++ follow next head m := by
  have front : ∀ j ∈ follow next i n, update next (next^[n] i) head j = next j := by
    intro j hj
    rw [follow_snoc, nodup_append] at nodup
    exact update_of_ne (nodup.2.2 j hj _ (by simp)) _ _
  obtain ⟨cells, last⟩ := follow_congr front
  rw [follow_add, iterate_succ_apply', last, update_self]
  congr 1
  apply follow_congr_all
  intro j hj
  refine update_of_ne ?_ _ _
  rintro rfl
  exact apart hj

/-- A table that links each cell to the one after it. -/
theorem follow_consecutive {next : Nat → Nat} {num : Nat}
    (links : ∀ i, i + 1 < num → next i = i + 1) {i : Nat} (bound : i + n ≤ num) :
    follow next i n = List.range' i n := by
  induction n generalizing i with
  | zero => rfl
  | succ n ih =>
    rw [follow_succ, range'_succ]
    cases n with
    | zero => rfl
    | succ =>
      rw [links i (by omega)]
      rw [ih (by omega)]

/-! ## Pools of chains -/

theorem mem_others {c d : ι} {before after : List ι} (other : d ∈ before ++ after) :
    d ∈ before ++ c :: after :=
  ((sublist_cons_self c after).append_left before).subset other

/-- The free list of `count` cells from `head` and the given chains partition
`cells`.  Every chain is non-empty and threaded through `next`. -/
structure ChainPool (next : ι → ι) (head : ι) (count : Nat) (cells : List ι)
    (chains : List (List ι)) : Prop where
  threaded : ∀ c ∈ chains, ∃ i n, c = follow next i (n + 1)
  cover : (follow next head count ++ chains.flatten).Perm cells

variable {c : List ι}

namespace ChainPool

variable {head j : ι} {count : Nat} {cells : List ι} {chains : List (List ι)}

section

variable (pool : ChainPool next head count cells chains)

include pool

section

variable (distinct : cells.Nodup)

include distinct

theorem nodup : (follow next head count ++ chains.flatten).Nodup :=
  pool.cover.nodup_iff.mpr distinct

theorem free_nodup : (follow next head count).Nodup := (nodup_append.mp (pool.nodup distinct)).1

theorem chains_nodup : chains.flatten.Nodup := (nodup_append.mp (pool.nodup distinct)).2.1

theorem pairwise_disjoint : chains.Pairwise List.Disjoint :=
  (nodup_flatten.mp (pool.chains_nodup distinct)).2

theorem free_disjoint (member : c ∈ chains) : List.Disjoint (follow next head count) c := by
  intro j free hj
  have apart := (nodup_append.mp (pool.nodup distinct)).2.2
  exact apart j free j (mem_flatten.mpr ⟨c, member, hj⟩) rfl

end

theorem total : count + (chains.map List.length).sum = cells.length := by
  rw [← pool.cover.length_eq, length_append, length_follow, length_flatten]

/-- Chains are not empty, so there are at most as many as cells off the free list. -/
theorem count_add_length_le : count + chains.length ≤ cells.length := by
  have least : (chains.map List.length).length ≤ (chains.map List.length).sum := by
    refine length_le_sum_of_one_le _ fun n member => ?_
    obtain ⟨c, hc, rfl⟩ := mem_map.mp member
    obtain ⟨i, n, rfl⟩ := pool.threaded c hc
    rw [length_follow]
    omega
  have total := pool.total
  rw [length_map] at least
  omega

theorem free_mem (free : j ∈ follow next head count) : j ∈ cells :=
  pool.cover.subset (mem_append_left _ free)

theorem chain_mem (member : c ∈ chains) (hj : j ∈ c) : j ∈ cells :=
  pool.cover.subset (mem_append_right _ (mem_flatten.mpr ⟨c, member, hj⟩))

theorem length_le (member : c ∈ chains) : c.length ≤ cells.length := by
  have part := (sublist_flatten_of_mem member).length_le
  have whole := pool.cover.length_eq
  rw [length_append] at whole
  omega

/-! Chains are named by their first cell; the default only stands in for the empty
chain, which a pool does not hold. -/

theorem headD_mem (member : c ∈ chains) (default : ι) : c.headD default ∈ c := by
  obtain ⟨i, n, rfl⟩ := pool.threaded c member
  simp [follow_succ]

theorem heads_nodup (distinct : cells.Nodup) (default : ι) :
    (chains.map fun c => c.headD default).Nodup := by
  rw [List.Nodup, pairwise_map]
  refine List.Pairwise.imp_of_mem ?_ (pool.pairwise_disjoint distinct)
  intro c d hc hd disjoint same
  exact disjoint (pool.headD_mem hc default) (same ▸ pool.headD_mem hd default)

end

section

variable {before after : List (List ι)} {d : List ι} (distinct : cells.Nodup)
  (pool : ChainPool next head count cells (before ++ c :: after)) (other : d ∈ before ++ after)

include distinct pool other

theorem disjoint_others : List.Disjoint c d := by
  have apart := pool.pairwise_disjoint distinct
  rw [pairwise_append, pairwise_cons] at apart
  rcases mem_append.mp other with h | h
  · exact (apart.2.2 _ h _ (by simp)).symm
  · exact apart.2.1.1 _ h

/-- Two chains of a pool have different heads. -/
theorem headD_ne (default : ι) : d.headD default ≠ c.headD default := by
  intro same
  have onOther := pool.headD_mem (mem_others other) default
  exact pool.disjoint_others distinct other (pool.headD_mem (by simp) default) (same ▸ onOther)

end

section

variable (pool : ChainPool next head count cells chains)

include pool

/-- The head of the free list heads no chain. -/
theorem headD_ne_head (distinct : cells.Nodup)
    (some : 0 < count) (member : c ∈ chains) (default : ι) : c.headD default ≠ head := by
  intro same
  have free : head ∈ follow next head count := iterate_mem_follow next head some
  exact pool.free_disjoint distinct member free (same ▸ pool.headD_mem member default)

/-- The order in which the chains are listed does not matter. -/
theorem reorder {chains' : List (List ι)}
    (perm : chains.Perm chains') : ChainPool next head count cells chains' where
  threaded c member := pool.threaded c (perm.mem_iff.mpr member)
  cover := (List.Perm.append_left _ (perm.flatten)).symm.trans pool.cover

/-- Cutting `n + 1` cells off the free list makes them a chain. -/
theorem take (enough : n + 1 ≤ count) : ChainPool next (next^[n + 1] head) (count - (n + 1)) cells
      (follow next head (n + 1) :: chains) where
  threaded c member := by
    rcases mem_cons.mp member with rfl | old
    · exact ⟨head, n, rfl⟩
    · exact pool.threaded c old
  cover := by
    have split : follow next head count =
        follow next head (n + 1) ++ follow next (next^[n + 1] head) (count - (n + 1)) := by
      rw [← follow_add, Nat.add_sub_cancel' enough]
    have cover := pool.cover
    rw [split] at cover
    refine List.Perm.trans ?_ cover
    rw [flatten_cons, ← append_assoc]
    exact List.Perm.append_right _ perm_append_comm

end

/-- Writing the link of a chain's last cell puts the chain in front of the free
list. -/
theorem give [DecidableEq ι] {before after : List (List ι)} {i : ι} (distinct : cells.Nodup)
    (pool : ChainPool next head count cells (before ++ follow next i (n + 1) :: after)) :
    ChainPool (update next (next^[n] i) head) i (n + 1 + count) cells (before ++ after) where
  threaded c member := by
    obtain ⟨j, m, rfl⟩ := pool.threaded c (mem_others member)
    refine ⟨j, m, (follow_congr_all fun k hk => ?_).symm⟩
    -- The written cell lies on the chain given back, so it is on no other one.
    refine update_of_ne (fun same => ?_) _ _
    have onGiven : k ∈ follow next i (n + 1) := same ▸ iterate_mem_follow next i (by omega)
    exact pool.disjoint_others distinct member onGiven hk
  cover := by
    have here : follow next i (n + 1) ∈ before ++ follow next i (n + 1) :: after := by simp
    have chainNodup : (follow next i (n + 1)).Nodup :=
      (nodup_flatten.mp (pool.chains_nodup distinct)).1 _ here
    have apart : next^[n] i ∉ follow next head count := fun free =>
      pool.free_disjoint distinct here free (iterate_mem_follow next i (by omega))
    rw [follow_update_last chainNodup apart]
    refine List.Perm.trans ?_ pool.cover
    simp only [flatten_append]
    generalize follow next i (n + 1) = c
    generalize follow next head count = free
    calc (c ++ free ++ (before.flatten ++ after.flatten)).Perm
          (free ++ c ++ (before.flatten ++ after.flatten)) :=
        List.Perm.append_right _ perm_append_comm
      _ = free ++ (c ++ (before.flatten ++ after.flatten)) := by simp
      _ |>.Perm (free ++ (before.flatten ++ (c ++ after.flatten))) := by
        refine List.Perm.append_left _ ?_
        rw [← append_assoc, ← append_assoc]
        exact List.Perm.append_right _ perm_append_comm

end ChainPool

end KvmGuestDrivers.Theory
