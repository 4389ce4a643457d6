/-
# Theory.Loop -- loops whose turns are numbered

A loop with fuel whose state after `k` turns is known is a function `f fuel k`: with fuel left, it
goes on to turn `k + 1` while `more k` holds, and otherwise returns `result k`.  Whether it ends,
and with what, is then a question about `more` alone.

* `Made more k`: the loop comes to turn `k`; `EndsAt more k`: that turn is its last one.
* `loop_ends`: with enough fuel the loop returns what its last turn gives, if there is one.
-/

namespace KvmGuestDrivers.Theory

set_option autoImplicit false

universe u

variable {more : Nat → Prop}

/-- Every turn before `k` goes on. -/
def Made (more : Nat → Prop) (k : Nat) : Prop := ∀ j < k, more j

structure EndsAt (more : Nat → Prop) (k : Nat) : Prop where
  made : Made more k
  stops : ¬ more k

theorem made_zero : Made more 0 := fun _ lt => absurd lt (Nat.not_lt_zero _)

theorem Made.succ {k : Nat} (made : Made more k) (goes : more k) : Made more (k + 1) := by
  intro j lt
  rcases Nat.lt_succ_iff_lt_or_eq.mp lt with before | rfl
  · exact made j before
  · exact goes

/-- No turn is made behind the last one. -/
theorem EndsAt.made_iff {k j : Nat} (ends : EndsAt more k) : Made more j ↔ j ≤ k := by
  constructor
  · intro made
    exact Nat.not_lt.mp fun behind => ends.stops (made k behind)
  · exact fun le i lt => ends.made i (Nat.lt_of_lt_of_le lt le)

theorem EndsAt.unique {k j : Nat} (ends : EndsAt more k) (other : EndsAt more j) : k = j :=
  Nat.le_antisymm (other.made_iff.mp ends.made) (ends.made_iff.mp other.made)

section Loop

variable [DecidablePred more] {β : Type u} {result : Nat → β} {f : Nat → Nat → Option β}

/-- **A loop returns the result of its last turn**, with some amount of fuel, and nothing else. -/
theorem loop_ends (out : ∀ k, f 0 k = none)
    (turn : ∀ fuel k, f (fuel + 1) k = if more k then f fuel (k + 1) else some (result k)) {b : β} :
    (∃ fuel, f fuel 0 = some b) ↔ ∃ k, EndsAt more k ∧ b = result k := by
  constructor
  · rintro ⟨fuel, ends⟩
    -- the induction runs from any turn that is made
    suffices every : ∀ k, Made more k → f fuel k = some b → ∃ k, EndsAt more k ∧ b = result k from
      every 0 made_zero ends
    clear ends
    induction fuel with
    | zero =>
      intro k _ ends
      rw [out] at ends
      cases ends
    | succ fuel ih =>
      intro k made ends
      rw [turn] at ends
      split at ends
      · rename_i goes
        exact ih (k + 1) (made.succ goes) ends
      · rename_i stops
        exact ⟨k, ⟨made, stops⟩, (Option.some.inj ends).symm⟩
  · rintro ⟨k, ⟨made, stops⟩, rfl⟩
    -- downwards from the last turn
    suffices every : ∀ j ≤ k, ∃ fuel, f fuel (k - j) = some (result k) by
      have start := every k (Nat.le_refl k)
      rwa [Nat.sub_self] at start
    intro j
    induction j with
    | zero => exact fun _ => ⟨1, by rw [turn, Nat.sub_zero, if_neg stops]⟩
    | succ j ih =>
      intro le
      obtain ⟨fuel, ends⟩ := ih (Nat.le_of_succ_le le)
      have next : k - (j + 1) + 1 = k - j := by omega
      exact ⟨fuel + 1, by rw [turn, if_pos (made _ (by omega)), next, ends]⟩

end Loop

end KvmGuestDrivers.Theory
