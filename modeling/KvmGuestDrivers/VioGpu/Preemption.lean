/-
# VioGpu.Preemption -- answering preemption requests

The scheduler asks for preemption with a fence (`PreemptCommand`).  When nothing is
outstanding the driver answers at once; otherwise it stores the fence and answers when the
last outstanding submission completes.  Two variables are involved, the number of
outstanding submissions and the pending fence, and the two sides race: the request stores
its fence and looks at the number again, the completion decrements the number and then
looks for a fence (`NotifyPendingPreemptionIfDrained`, on both sides).

Calls on one node and engine run concurrently, one interlocked operation at a step.  A
submission completes once, after it has been recorded; fences are not zero, so that `none`
stands for the value zero of the pending fence.  A request is named by the number of its
call.  `clock` counts the steps, and each report remembers when its fence was stored and
when zero was read.
-/
import KvmGuestDrivers.Theory.Calls
import KvmGuestDrivers.Theory.Transition
import Mathlib.Data.List.Nodup

namespace KvmGuestDrivers.VioGpu

set_option autoImplicit false

open Theory List

/-! ## The machine -/

structure PreemptRequest where
  call : Nat
  fence : Nat
  deriving DecidableEq

structure PreemptReport where
  request : PreemptRequest
  /-- When the fence was stored, if the request was deferred. -/
  storedAt : Option Nat
  /-- When the number of outstanding submissions was read. -/
  observedAt : Nat
  deriving DecidableEq

/-- Where a call is: before the operation named. -/
inductive PreemptPoint where
  /-- `RecordDmaSubmittedForPreemption`: the increment. -/
  | submitting
  | submitted
  /-- `RecordDmaCompletionForPreemptionFromIsr`: the decrement. -/
  | completing
  | underflowed
  /-- `NotifyPendingPreemptionIfDrained`: the read of the number. -/
  | checking
  /-- The exchange of the pending fence, zero having been read. -/
  | taking (observedAt : Nat)
  /-- `NotifyDmaPreempted` for the fence taken. -/
  | reporting (r : PreemptRequest) (storedAt observedAt : Nat)
  /-- `PreemptCommand`: the read of the number. -/
  | requesting (r : PreemptRequest)
  | deferring (r : PreemptRequest)
  /-- `NotifyDmaPreempted` at once. -/
  | reportingIdle (r : PreemptRequest) (observedAt : Nat)
  | returned

structure Preemption where
  /-- `m_preemptSubmittedOutstanding`. -/
  outstanding : Int
  /-- `m_pendingPreemptionFence`, and when it was stored. -/
  pending : Option (PreemptRequest × Nat)
  calls : List PreemptPoint
  clock : Nat
  /-- Increments and decrements made, and completions begun. -/
  submits : Nat
  completes : Nat
  completionsStarted : Nat
  requested : List PreemptRequest
  reports : List PreemptReport
  overwritten : List PreemptRequest

def preemptStart : Preemption := ⟨0, none, [], 0, 0, 0, 0, [], [], []⟩

inductive PreemptOp where
  | submit
  | complete
  | preempt (fence : Nat)
  | advance (i : Nat)

variable (s : Preemption)

/-- One operation of a call: what it does to the shared state, and where the call is then. -/
def advanceAt : PreemptPoint → Preemption × PreemptPoint
  | .submitting =>
    ({ s with outstanding := long (s.outstanding + 1), submits := s.submits + 1 }, .submitted)
  | .submitted => (s, .returned)
  | .completing =>
    let outstanding := long (s.outstanding - 1)
    ({ s with outstanding := outstanding, completes := s.completes + 1 },
      if outstanding < 0 then .underflowed else if outstanding = 0 then .checking else .returned)
  | .underflowed => ({ s with outstanding := 0 }, .checking)
  | .checking => (s, if s.outstanding = 0 then .taking s.clock else .returned)
  | .taking observedAt =>
    ({ s with pending := none },
      match s.pending with
      | none => .returned
      | some (r, storedAt) => .reporting r storedAt observedAt)
  | .reporting r storedAt observedAt =>
    ({ s with reports := s.reports ++ [⟨r, some storedAt, observedAt⟩] }, .returned)
  | .requesting r =>
    (s, if 0 < s.outstanding then .deferring r else .reportingIdle r s.clock)
  | .deferring r =>
    ({ s with
        pending := some (r, s.clock)
        overwritten := s.overwritten ++ s.pending.toList.map Prod.fst }, .checking)
  | .reportingIdle r observedAt =>
    ({ s with reports := s.reports ++ [⟨r, none, observedAt⟩] }, .returned)
  | .returned => (s, .returned)

def preemptStep : PreemptOp → Except Empty (Preemption × Unit)
  | .submit => .ok ({ s with calls := s.calls ++ [.submitting], clock := s.clock + 1 }, ())
  | .complete =>
    .ok ({ s with
            calls := s.calls ++ [.completing]
            completionsStarted := s.completionsStarted + 1
            clock := s.clock + 1 }, ())
  | .preempt fence =>
    let r : PreemptRequest := ⟨s.calls.length, fence⟩
    .ok ({ s with
            calls := s.calls ++ [.requesting r]
            requested := s.requested ++ [r]
            clock := s.clock + 1 }, ())
  | .advance i =>
    match s.calls[i]? with
    | none => .ok (s, ())
    | some old =>
      let (t, new) := advanceAt s old
      .ok ({ t with calls := s.calls.set i new, clock := s.clock + 1 }, ())

/-- A submission completes once, and fences are not zero. -/
def Offered : PreemptOp → Prop
  | .submit => True
  | .complete => s.completionsStarted < s.submits
  | .preempt fence => 0 < fence ∧ fence < 2 ^ 32
  | .advance _ => True

variable (op : PreemptOp)

/-- In addition, one more outstanding submission can be counted in a `LONG`. -/
def Bounded : Prop :=
  Offered s op ∧ s.outstanding + 1 < 2 ^ 31

/-- A call that has read zero and has not looked for a fence yet. -/
def PreemptPoint.isTaking : PreemptPoint → Bool
  | .taking _ => true
  | _ => false

def PreemptPoint.isDeferring : PreemptPoint → Bool
  | .deferring _ => true
  | _ => false

/-- In addition, no request stores its fence while a call has read zero and has not looked
for a fence yet. -/
def Orderly : Prop :=
  Bounded s op ∧
    match op with
    | .advance i =>
      ((s.calls[i]?).all fun pt => !pt.isDeferring) = true ∨
        s.calls.countP PreemptPoint.isTaking = 0
    | _ => True

instance : Decidable (Offered s op) := by
  unfold Offered
  split <;> infer_instance

instance : Decidable (Bounded s op) := by
  unfold Bounded
  infer_instance

instance : Decidable (Orderly s op) := by
  unfold Orderly
  split <;> infer_instance

/-- Completion 1 reads zero, submission 2 is recorded, request 3 is deferred because of it,
and completion 1 takes and reports the fence, with a submission outstanding. -/
theorem preempt_reported_early : ∃ s, Reachable (· = preemptStart) (Next preemptStep Offered) s ∧
      s.reports = [⟨⟨3, 7⟩, some 9, 5⟩] ∧ s.outstanding = 1 := by
  refine reachable_of_replay
    [.submit, .advance 0, .complete, .advance 1, .submit, .advance 1, .advance 2, .preempt 7,
      .advance 3, .advance 3, .advance 1, .advance 1] ?_
  decide

/-! ## The number of outstanding submissions -/

namespace PreemptPoint

def isCompleting : PreemptPoint → Bool
  | .completing => true
  | _ => false

def isUnderflowed : PreemptPoint → Bool
  | .underflowed => true
  | _ => false

/-- The call is going to read the number, or has read zero and is going to look for a fence. -/
def isWatching : PreemptPoint → Bool
  | .checking | .taking _ => true
  | _ => false

def hand : PreemptPoint → List PreemptRequest
  | .requesting r | .deferring r | .reportingIdle r _ | .reporting r _ _ => [r]
  | _ => []

end PreemptPoint

open PreemptPoint

structure Counted (s : Preemption) : Prop where
  number : s.outstanding = s.submits - s.completes
  /-- Decrements are made by completions, which are no more than there are increments. -/
  begun : s.completes + s.calls.countP isCompleting = s.completionsStarted
  enough : s.completionsStarted ≤ s.submits
  sound : s.calls.countP isUnderflowed = 0

variable {s}

theorem Counted.nonneg (counted : Counted s) : 0 ≤ s.outstanding := by
  have number := counted.number
  have begun := counted.begun
  have enough := counted.enough
  omega

/-! ## What an operation can do -/

/-- The operations of a call, with the tests they make on the number and on the fence. -/
inductive PreemptMove (s : Preemption) : PreemptPoint → Preemption → PreemptPoint → Prop where
  | submit : PreemptMove s .submitting
      { s with outstanding := s.outstanding + 1, submits := s.submits + 1 } .submitted
  | trace : PreemptMove s .submitted s .returned
  | drain (last : s.outstanding = 1) : PreemptMove s .completing
      { s with outstanding := 0, completes := s.completes + 1 } .checking
  | complete (more : 1 < s.outstanding) : PreemptMove s .completing
      { s with outstanding := s.outstanding - 1, completes := s.completes + 1 } .returned
  | drained (zero : s.outstanding = 0) : PreemptMove s .checking s (.taking s.clock)
  | busy (some : 0 < s.outstanding) : PreemptMove s .checking s .returned
  | nothing {observedAt} (empty : s.pending = none) : PreemptMove s (.taking observedAt) s .returned
  | take {observedAt storedAt r} (full : s.pending = some (r, storedAt)) :
      PreemptMove s (.taking observedAt) { s with pending := none }
        (.reporting r storedAt observedAt)
  | report {r storedAt observedAt} : PreemptMove s (.reporting r storedAt observedAt)
        { s with reports := s.reports ++ [⟨r, some storedAt, observedAt⟩] } .returned
  | defer {r} (some : 0 < s.outstanding) : PreemptMove s (.requesting r) s (.deferring r)
  | idle {r} (zero : s.outstanding = 0) : PreemptMove s (.requesting r) s (.reportingIdle r s.clock)
  | store {r} : PreemptMove s (.deferring r)
      { s with
        pending := some (r, s.clock)
        overwritten := s.overwritten ++ s.pending.toList.map Prod.fst } .checking
  | reportIdle {r observedAt} : PreemptMove s (.reportingIdle r observedAt)
        { s with reports := s.reports ++ [⟨r, none, observedAt⟩] } .returned
  | stay : PreemptMove s .returned s .returned

section Moves

variable {t : Preemption} {i : Nat} {old new : PreemptPoint}

theorem move_of_advance (counted : Counted s) (bound : s.outstanding + 1 < 2 ^ 31)
    (here : s.calls[i]? = some old) :
    PreemptMove s old (advanceAt s old).1 (advanceAt s old).2 := by
  have number := counted.number
  have begun := counted.begun
  have enough := counted.enough
  cases old with
  | submitting =>
    have one : long (s.outstanding + 1) = s.outstanding + 1 := long_eq (by omega) bound
    simp only [advanceAt, one]
    exact .submit
  | completing =>
    -- the completion under way has not been counted, so the number is positive
    have some := countP_pos_of_getElem? here isCompleting rfl
    have less : long (s.outstanding - 1) = s.outstanding - 1 := long_eq (by omega) (by omega)
    simp only [advanceAt, less]
    rw [if_neg (by omega)]
    by_cases last : s.outstanding = 1
    · rw [last]
      exact .drain last
    · rw [if_neg (by omega)]
      exact .complete (by omega)
  | underflowed =>
    have some := countP_pos_of_getElem? here isUnderflowed rfl
    have none := counted.sound
    omega
  | checking =>
    simp only [advanceAt]
    split
    · rename_i zero
      exact .drained zero
    · exact .busy (by omega)
  | taking =>
    simp only [advanceAt]
    split
    · rename_i empty
      have same : { s with pending := none } = s := by
        cases s
        cases empty
        rfl
      rw [same]
      exact .nothing empty
    · rename_i full
      exact .take full
  | requesting =>
    simp only [advanceAt]
    split
    · rename_i some
      exact .defer some
    · exact .idle (by omega)
  | submitted => exact .trace
  | reporting => exact .report
  | deferring => exact .store
  | reportingIdle => exact .reportIdle
  | returned => exact .stay

def Preemption.moved (t : Preemption) (calls : List PreemptPoint) (i : Nat) (new : PreemptPoint)
    (clock : Nat) : Preemption := { t with calls := calls.set i new, clock := clock + 1 }

/-- A move keeps the number of outstanding submissions. -/
theorem Counted.move (counted : Counted s) (here : s.calls[i]? = some old)
    (move : PreemptMove s old t new) : Counted (t.moved s.calls i new s.clock) := by
  have number := counted.number
  have begun := counted.begun
  have enough := counted.enough
  have sound : (s.calls.set i new).countP isUnderflowed = 0 := by
    rw [countP_same here new isUnderflowed]
    · exact counted.sound
    · cases move <;> rfl
  -- all but completions leave the decrements alone
  have frame : new.isCompleting = old.isCompleting →
      s.completes + (s.calls.set i new).countP isCompleting = s.completionsStarted := by
    intro same
    rw [countP_same here new isCompleting same]
    exact begun
  cases move with
  | submit =>
    refine ⟨?_, frame rfl, Nat.le_succ_of_le enough, sound⟩
    show s.outstanding + 1 = ((s.submits + 1 : Nat) : Int) - s.completes
    omega
  | drain =>
    have fewer := countP_leave here .checking isCompleting rfl rfl
    refine ⟨?_, ?_, enough, sound⟩
    · show (0 : Int) = s.submits - ((s.completes + 1 : Nat) : Int)
      omega
    · show s.completes + 1 + (s.calls.set i .checking).countP isCompleting = s.completionsStarted
      omega
  | complete =>
    have fewer := countP_leave here .returned isCompleting rfl rfl
    refine ⟨?_, ?_, enough, sound⟩
    · show s.outstanding - 1 = s.submits - ((s.completes + 1 : Nat) : Int)
      omega
    · show s.completes + 1 + (s.calls.set i .returned).countP isCompleting = s.completionsStarted
      omega
  | _ => exact ⟨number, frame rfl, enough, sound⟩

/-! ## A pending fence is watched -/

/-- With a fence pending and nothing outstanding, some call is going to find it. -/
def Guarded (s : Preemption) : Prop :=
  s.pending ≠ none → s.outstanding = 0 → 0 < s.calls.countP isWatching

theorem Guarded.move (guarded : Guarded s) (nonneg : 0 ≤ s.outstanding)
    (here : s.calls[i]? = some old) (move : PreemptMove s old t new) :
    Guarded (t.moved s.calls i new s.clock) := by
  -- the call that moved is there now
  have arrives : new.isWatching = true → 0 < (s.calls.set i new).countP isWatching := by
    intro there
    have moved := countP_move here new isWatching
    have before : (old.isWatching).toNat ≤ s.calls.countP isWatching := by
      cases was : old.isWatching with
      | false => exact Nat.zero_le _
      | true => exact countP_pos_of_getElem? here isWatching was
    rw [there, Bool.toNat_true] at moved
    omega
  have frame : new.isWatching = old.isWatching →
      (s.calls.set i new).countP isWatching = s.calls.countP isWatching :=
    countP_same here new isWatching
  intro pending zero
  cases move with
  | drain | drained | store => exact arrives rfl
  | busy => exact absurd zero (by show s.outstanding ≠ 0; omega)
  | nothing empty => exact absurd empty pending
  | take => exact absurd rfl pending
  | submit => exact absurd zero (by show s.outstanding + 1 ≠ 0; omega)
  | complete => exact absurd zero (by show s.outstanding - 1 ≠ 0; omega)
  | _ => exact (frame rfl).symm ▸ guarded pending zero

/-! ## Where a request is -/

/-- A request is with the call dealing with it, pending, reported or overwritten. -/
structure Ledger (s : Preemption) : Prop where
  account : ∀ r, s.requested.count r =
    (s.calls.flatMap hand).count r + (s.pending.toList.map Prod.fst).count r +
      (s.reports.map PreemptReport.request).count r + s.overwritten.count r
  named : ∀ r ∈ s.requested, r.call < s.calls.length
  distinct : s.requested.Nodup

theorem Ledger.move (ledger : Ledger s) (here : s.calls[i]? = some old)
    (move : PreemptMove s old t new) : Ledger (t.moved s.calls i new s.clock) := by
  have requested : t.requested = s.requested := by cases move <;> rfl
  refine ⟨fun r => ?_, fun r asked => ?_, ?_⟩
  · show t.requested.count r = ((s.calls.set i new).flatMap hand).count r +
      (t.pending.toList.map Prod.fst).count r + (t.reports.map PreemptReport.request).count r +
        t.overwritten.count r
    have account := ledger.account r
    have moved := count_flatMap_move here new hand r
    cases move with
    | take full =>
      simp only [full, hand, Option.toList_some, Option.toList_none, map_cons,
        map_nil] at account moved ⊢
      omega
    | report | reportIdle =>
      simp only [hand, map_append, map_cons, map_nil, count_append, count_nil] at account moved ⊢
      omega
    | store =>
      simp only [hand, Option.toList_some, map_cons, map_nil, count_append,
        count_nil] at account moved ⊢
      omega
    | _ =>
      simp only [hand] at moved ⊢
      omega
  · show r.call < (s.calls.set i new).length
    rw [length_set]
    exact ledger.named r (requested ▸ asked)
  · show t.requested.Nodup
    rw [requested]
    exact ledger.distinct

/-! ## No report is early -/

/-- The reports of deferred requests, those made and those being made, have seen zero after
the fence was stored. -/
structure Late (s : Preemption) : Prop where
  fenced : ∀ r storedAt, s.pending = some (r, storedAt) →
    storedAt < s.clock ∧ ∀ observedAt, taking observedAt ∈ s.calls → storedAt < observedAt
  carried : ∀ r storedAt observedAt, reporting r storedAt observedAt ∈ s.calls →
    storedAt < observedAt
  reported : ∀ report ∈ s.reports, ∀ storedAt, report.storedAt = some storedAt →
    storedAt < report.observedAt

/-- Only a store creates a race: it must find no call that has read zero already. -/
theorem Late.move (late : Late s) (here : s.calls[i]? = some old)
    (alone : old.isDeferring = true → s.calls.countP isTaking = 0)
    (move : PreemptMove s old t new) : Late (t.moved s.calls i new s.clock) := by
  have present : ∀ {pt}, pt ∈ s.calls.set i new → pt ∈ s.calls ∨ pt = new := mem_or_eq_of_mem_set
  have there : old ∈ s.calls := mem_of_getElem? here
  refine ⟨fun r storedAt pending => ?_, fun r storedAt observedAt among => ?_, ?_⟩
  · have same : t.pending = s.pending → new.isTaking = false ∨ new = taking s.clock →
        storedAt < s.clock + 1 ∧
          ∀ observedAt, taking observedAt ∈ s.calls.set i new → storedAt < observedAt := by
      intro kept kind
      obtain ⟨past, watched⟩ := late.fenced r storedAt (kept ▸ pending)
      refine ⟨Nat.lt_succ_of_lt past, fun observedAt among => ?_⟩
      rcases present among with before | rfl
      · exact watched observedAt before
      rcases kind with other | now
      · cases other
      · cases now
        exact past
    cases move with
    | drained => exact same rfl (.inr rfl)
    | take => cases pending
    | store =>
      cases pending
      refine ⟨Nat.lt_succ_self _, fun observedAt among => ?_⟩
      rcases present among with before | new
      · have some := countP_pos_iff.mpr ⟨_, before, (rfl : isTaking (taking _) = true)⟩
        have none := alone rfl
        omega
      · cases new
    | _ => exact same rfl (.inl rfl)
  · rcases present among with before | now
    · exact late.carried r storedAt observedAt before
    cases move with
    | take full =>
      cases now
      exact (late.fenced _ _ full).2 _ there
    | _ => cases now
  · cases move with
    | report =>
      refine forall_mem_concat late.reported fun storedAt stored => ?_
      cases stored
      exact late.carried _ _ _ there
    | reportIdle =>
      refine forall_mem_concat late.reported fun storedAt stored => ?_
      cases stored
    | _ => exact late.reported

end Moves

/-! ## Calls that begin -/

section Starts

variable {fence : Nat}

theorem Counted.submit (counted : Counted s) :
    Counted { s with calls := s.calls ++ [.submitting], clock := s.clock + 1 } := by
  refine ⟨counted.number, ?_, counted.enough, ?_⟩
  · rw [countP_start]
    exact counted.begun
  · rw [countP_start]
    exact counted.sound

theorem Counted.complete (counted : Counted s) (one : s.completionsStarted < s.submits) :
    Counted { s with
      calls := s.calls ++ [.completing]
      completionsStarted := s.completionsStarted + 1
      clock := s.clock + 1 } := by
  refine ⟨counted.number, ?_, one, ?_⟩
  · rw [countP_start, ← counted.begun]
    rfl
  · rw [countP_start]
    exact counted.sound

theorem Counted.preempt (counted : Counted s) (r : PreemptRequest) : Counted { s with
      calls := s.calls ++ [.requesting r]
      requested := s.requested ++ [r]
      clock := s.clock + 1 } := by
  refine ⟨counted.number, ?_, counted.enough, ?_⟩
  · rw [countP_start]
    exact counted.begun
  · rw [countP_start]
    exact counted.sound

theorem Guarded.start (guarded : Guarded s) (new : PreemptPoint) (pending : s.pending ≠ none)
    (zero : s.outstanding = 0) : 0 < (s.calls ++ [new]).countP isWatching := by
  rw [countP_start]
  exact Nat.lt_add_right _ (guarded pending zero)

theorem Ledger.start (ledger : Ledger s) {new : PreemptPoint} (free : new.hand = [])
    (r : PreemptRequest) : s.requested.count r =
      ((s.calls ++ [new]).flatMap hand).count r + (s.pending.toList.map Prod.fst).count r +
        (s.reports.map PreemptReport.request).count r + s.overwritten.count r := by
  rw [flatMap_append, flatMap_singleton, free, append_nil]
  exact ledger.account r

theorem Ledger.longer (ledger : Ledger s) (new : PreemptPoint) :
    ∀ r ∈ s.requested, r.call < (s.calls ++ [new]).length := by
  intro r asked
  rw [length_append]
  exact Nat.lt_add_right _ (ledger.named r asked)

theorem Ledger.preempt (ledger : Ledger s) : Ledger { s with
      calls := s.calls ++ [.requesting ⟨s.calls.length, fence⟩]
      requested := s.requested ++ [⟨s.calls.length, fence⟩]
      clock := s.clock + 1 } := by
  refine ⟨fun r => ?_, fun r asked => ?_, ?_⟩
  · have account := ledger.account r
    simp only [flatMap_append, flatMap_singleton, hand, count_append]
    omega
  · rcases mem_append.mp asked with before | now
    · exact ledger.longer _ r before
    · obtain rfl := mem_singleton.mp now
      simp
  · apply nodup_append.mpr
    refine ⟨ledger.distinct, nodup_singleton _, ?_⟩
    rintro r before q now rfl
    obtain rfl := mem_singleton.mp now
    exact lt_irrefl _ (ledger.named _ before)

theorem Late.start (late : Late s) (new : PreemptPoint) (quiet : new.isTaking = false)
    (silent : ∀ r storedAt observedAt, new ≠ reporting r storedAt observedAt)
    (completionsStarted : Nat) (requested : List PreemptRequest) :
    Late { s with
      calls := s.calls ++ [new]
      completionsStarted := completionsStarted
      requested := requested
      clock := s.clock + 1 } := by
  refine ⟨fun r storedAt pending => ?_, fun r storedAt observedAt now => ?_, late.reported⟩
  · obtain ⟨past, watched⟩ := late.fenced r storedAt pending
    refine ⟨Nat.lt_succ_of_lt past, fun observedAt now => ?_⟩
    refine watched observedAt (mem_of_mem_concat now ?_)
    rintro rfl
    cases quiet
  · exact late.carried r storedAt observedAt (mem_of_mem_concat now (silent r storedAt observedAt))

end Starts

/-! ## Whole runs -/

structure PreemptInv (s : Preemption) : Prop where
  counted : Counted s
  guarded : Guarded s
  ledger : Ledger s

theorem preemptInv_start : PreemptInv preemptStart :=
  ⟨⟨rfl, rfl, Nat.le_refl 0, rfl⟩, fun pending => absurd rfl pending, ⟨fun _ => rfl, nofun, .nil⟩⟩

theorem preemptStep_advance (counted : Counted s) (bound : s.outstanding + 1 < 2 ^ 31) (i : Nat) :
    preemptStep s (.advance i) = .ok (s, ()) ∨
      ∃ old new t, s.calls[i]? = some old ∧ PreemptMove s old t new ∧
        preemptStep s (.advance i) = .ok (t.moved s.calls i new s.clock, ()) := by
  rw [preemptStep]
  cases here : s.calls[i]? with
  | none => exact .inl rfl
  | some old => exact .inr ⟨old, _, _, rfl, move_of_advance counted bound here, rfl⟩

theorem PreemptInv.keep (s : Preemption) (op : PreemptOp) (inv : PreemptInv s)
    (may : Bounded s op) : ∃ t out, preemptStep s op = .ok (t, out) ∧ PreemptInv t := by
  obtain ⟨offered, bound⟩ := may
  obtain ⟨counted, guarded, ledger⟩ := inv
  cases op with
  | submit =>
    exact ⟨_, (), rfl, counted.submit, guarded.start _,
      ⟨ledger.start rfl, ledger.longer _, ledger.distinct⟩⟩
  | complete =>
    exact ⟨_, (), rfl, counted.complete offered, guarded.start _,
      ⟨ledger.start rfl, ledger.longer _, ledger.distinct⟩⟩
  | preempt => exact ⟨_, (), rfl, counted.preempt _, guarded.start _, ledger.preempt⟩
  | advance i =>
    rcases preemptStep_advance counted bound i with same | ⟨_, _, t, here, move, stepped⟩
    · exact ⟨s, (), same, counted, guarded, ledger⟩
    · exact ⟨_, (), stepped, counted.move here move, guarded.move counted.nonneg here move,
        ledger.move here move⟩

theorem Late.keep (s : Preemption) (op : PreemptOp) (counted : Counted s) (late : Late s)
    (may : Orderly s op) : ∃ t out, preemptStep s op = .ok (t, out) ∧ Late t := by
  obtain ⟨⟨_, bound⟩, orderly⟩ := may
  cases op with
  | submit => exact ⟨_, (), rfl, late.start submitting rfl nofun _ _⟩
  | complete => exact ⟨_, (), rfl, late.start completing rfl nofun _ _⟩
  | preempt => exact ⟨_, (), rfl, late.start (requesting _) rfl nofun _ _⟩
  | advance i =>
    rcases preemptStep_advance counted bound i with same | ⟨_, _, t, here, move, stepped⟩
    · exact ⟨s, (), same, late⟩
    refine ⟨_, (), stepped, late.move here (fun defers => ?_) move⟩
    rcases orderly with other | alone
    · rw [here, Option.all_some, defers] at other
      cases other
    · exact alone

theorem preemptInv_of_reachable
    (reach : Reachable (· = preemptStart) (Next preemptStep Orderly) s) :
    PreemptInv s ∧ Late s := by
  refine reach.machine_run (P := fun s => PreemptInv s ∧ Late s)
    ⟨preemptInv_start, nofun, nofun, nofun⟩ ?_
  rintro s op ⟨inv, late⟩ may
  obtain ⟨t, out, stepped, inv'⟩ := inv.keep s op may.1
  obtain ⟨t', _, same, late'⟩ := late.keep s op inv.counted may
  rw [stepped] at same
  cases same
  exact ⟨t, out, stepped, inv', late'⟩

/-- **Preemption requests are neither lost nor answered early.**  The number is that of the
submissions less the completions; a request is reported once unless a later one overwrote
it; a report of a deferred request has seen zero after the fence was stored; and when no call
is in progress, a pending fence means that something is outstanding. -/
theorem preemption_reported_once {s : Preemption}
    (reach : Reachable (· = preemptStart) (Next preemptStep Orderly) s) :
    (s.outstanding = s.submits - s.completes ∧ 0 ≤ s.outstanding) ∧
      (∀ r, (s.reports.map PreemptReport.request).count r + s.overwritten.count r ≤
        s.requested.count r) ∧
      s.requested.Nodup ∧
      (∀ report ∈ s.reports, ∀ storedAt, report.storedAt = some storedAt →
        storedAt < report.observedAt) ∧
      ((∀ pt ∈ s.calls, pt = .returned) →
        (∀ r ∈ s.requested, (s.pending.toList.map Prod.fst).count r +
          (s.reports.map PreemptReport.request).count r + s.overwritten.count r = 1) ∧
        (s.pending ≠ none → 0 < s.outstanding)) := by
  obtain ⟨⟨counted, guarded, ledger⟩, late⟩ := preemptInv_of_reachable reach
  refine ⟨⟨counted.number, counted.nonneg⟩, fun r => ?_, ledger.distinct, late.reported,
    fun quiet => ⟨fun r asked => ?_, fun pending => ?_⟩⟩
  · have account := ledger.account r
    omega
  · have idle : s.calls.flatMap hand = [] := by
      apply flatMap_eq_nil_iff.mpr
      intro pt member
      rw [quiet pt member]
      rfl
    have once := count_eq_one_of_mem ledger.distinct asked
    have account := ledger.account r
    rw [idle, count_nil] at account
    omega
  · have nonneg := counted.nonneg
    have idle : s.calls.countP isWatching = 0 := by
      apply countP_eq_zero.mpr
      intro pt member
      rw [quiet pt member]
      exact Bool.false_ne_true
    by_contra none
    have some := guarded pending (by omega)
    omega

/-- The completion drains the number before the request looks again, and reports its fence. -/
theorem preemption_deferred_reported_once :
    ∃ s, Reachable (· = preemptStart) (Next preemptStep Orderly) s ∧
      s.reports = [⟨⟨1, 7⟩, some 4, 7⟩] ∧
      (s.reports.map PreemptReport.request).count ⟨1, 7⟩ + s.overwritten.count ⟨1, 7⟩ ≤
        s.requested.count ⟨1, 7⟩ := by
  have replay : ∃ s ∈ attempt preemptStep Orderly preemptStart
      [.submit, .advance 0, .preempt 7, .advance 1, .advance 1, .complete, .advance 2, .advance 2,
        .advance 2, .advance 2], s.reports = [⟨⟨1, 7⟩, some 4, 7⟩] := by
    decide
  obtain ⟨s, reach, seen⟩ := reachable_of_replay _ replay
  exact ⟨s, reach, seen, (preemption_reported_once reach).2.1 ⟨1, 7⟩⟩

end KvmGuestDrivers.VioGpu
