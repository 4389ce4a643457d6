/-
# VioSock.PendedRequest -- the request that a socket keeps

A socket keeps at most one request, an accept or a connect, in `PendedRequest`.  The framework
may cancel it while it is marked cancelable: then `WdfRequestUnmarkCancelable` fails, and the
cancel callback completes it.  Everybody else has to unmark it first, and then completes it, or
pends it again with what is left of its timeout.
-/
import KvmGuestDrivers.Theory.Calls
import KvmGuestDrivers.Theory.Transition

namespace KvmGuestDrivers.VioSock

set_option autoImplicit false

open Theory List Function

/-! ## The model -/

inductive PendedPoint where
  /-- `VIOSockPendedRequestSetEx` for a new request, before `RxLock` is acquired. -/
  | setting (r : Nat)
  | resuming (r : Nat)
  /-- The request is marked, and `RxLock` held, before `VIOSockTimerResume`. -/
  | resumed (r : Nat)
  /-- The time is up, before `WdfRequestUnmarkCancelable`. -/
  | rollingBack (r : Nat)
  /-- `VIOSockPendedRequestGet`, by a call that pends the request again or completes it. -/
  | getting (again : Bool)
  | cancelling (r : Nat)
  | completing (r : Nat)
  | done
  deriving DecidableEq

structure PendedSocket where
  pendedRequest : Option Nat
  /-- The request is marked cancelable, and nobody has begun to cancel it. -/
  marked : Nat → Bool
  cancelled : Nat → Bool
  /-- The references that were taken with `WdfObjectReference` and not dropped. -/
  refs : Nat → Int
  completed : List Nat
  locked : Bool

variable (s : PendedSocket)

variable (r : Nat)

/-- A request becomes the pended one, with a reference. -/
def PendedSocket.pend : PendedSocket :=
  { s with
      pendedRequest := some r
      refs := update s.refs r (s.refs r + 1)
      marked := update s.marked r true }

def PendedSocket.unpend : PendedSocket :=
  { s with pendedRequest := none, refs := update s.refs r (s.refs r - 1) }

def PendedSocket.unmark : PendedSocket :=
  { s with marked := update s.marked r false }

/-- `VIOSockPendedRequestSetEx` up to the result of `WdfRequestMarkCancelableEx`; `ok` says that
`WdfObjectAllocateContext` did not fail.  A request that is not pended is completed by the
caller. -/
def pendedRequestSet (ok resume : Bool) : PendedSocket × PendedPoint :=
  if ok = false then (s, .completing r)
  else if s.cancelled r then
    ({ s with pendedRequest := none }, .completing r)
  else if resume then ({ s.pend r with locked := true }, .resumed r)
  else (s.pend r, .done)

def pendedRequestGet (again : Bool) : PendedSocket × PendedPoint :=
  match s.pendedRequest with
  | none => (s, .done)
  | some r =>
    -- a request that is being cancelled is left to the callback
    if s.marked r then
      ((s.unmark r).unpend r, if again then .resuming r else .completing r)
    else (s, .done)

/-- A step; `ok` is the outcome of the call that is made there, if there is one.  All hold `RxLock`;
only the framework can come between marking a request and taking that back. -/
def pendedAdvance (ok : Bool) : PendedPoint → PendedSocket × PendedPoint
  | .setting r => if s.locked then (s, .setting r) else pendedRequestSet s r ok false
  | .resuming r => if s.locked then (s, .resuming r) else pendedRequestSet s r ok true
  | .resumed r => if ok then ({ s with locked := false }, .done) else (s, .rollingBack r)
  | .rollingBack r => ({ (s.unmark r).unpend r with locked := false }, .completing r)
  | .getting again => if s.locked then (s, .getting again) else pendedRequestGet s again
  | .cancelling r => if s.locked then (s, .cancelling r) else (s.unpend r, .completing r)
  | .completing r => ({ s with completed := s.completed ++ [r] }, .done)
  | .done => (s, .done)

structure PendedRun where
  sock : PendedSocket
  calls : List PendedPoint
  nextId : Nat

/-- What the packet is that `VIOSockRxPktHandleConnecting` is called for. -/
inductive ConnectOp where
  | response | invalid | rst | other
  deriving DecidableEq

inductive PendedOp where
  | set
  /-- The socket is closed, or has a connection for the accept. -/
  | get
  | timer
  | connecting (op : ConnectOp)
  | cancel (r : Nat)
  | step (i : Nat) (ok : Bool)

def callPended (s : PendedRun) (p : PendedPoint) : PendedRun := { s with calls := s.calls ++ [p] }

def pendedStep (s : PendedRun) : PendedOp → Except Empty (PendedRun × Unit)
  | .set => .ok ({ callPended s (.setting s.nextId) with nextId := s.nextId + 1 }, ())
  | .get => .ok (callPended s (.getting false), ())
  | .timer => .ok (callPended s (.getting false), ())
  | .connecting op => .ok (callPended s (.getting (op = .invalid)), ())
  | .cancel r =>
    let sock := { s.sock with cancelled := update s.sock.cancelled r true }
    if s.sock.marked r then
      .ok (callPended { s with sock := sock.unmark r } (.cancelling r), ())
    else .ok ({ s with sock := sock }, ())
  | .step i ok =>
    match s.calls[i]? with
    | none => .ok (s, ())
    | some p =>
      let (sock, q) := pendedAdvance s.sock ok p
      .ok ({ s with sock := sock, calls := s.calls.set i q }, ())

def pendedStart : PendedRun :=
  { sock :=
      { pendedRequest := none, marked := fun _ => false, cancelled := fun _ => false
        refs := fun _ => 0, completed := [], locked := false }
    calls := []
    nextId := 0 }

/-! ## The invariant -/

/-- The request that the call is going to complete or to pend. -/
def PendedPoint.owns : PendedPoint → List Nat
  | .setting r | .resuming r | .cancelling r | .completing r => [r]
  | _ => []

def PendedPoint.cancels : PendedPoint → List Nat
  | .cancelling r => [r]
  | _ => []

def PendedPoint.holds : PendedPoint → Bool
  | .resumed _ | .rollingBack _ => true
  | _ => false

def PendedPoint.pended : PendedPoint → List Nat
  | .resumed r | .rollingBack r => [r]
  | _ => []

/-- Every request has one owner: the socket, a call, or nobody after it was completed. -/
structure PendedInv (s : PendedRun) : Prop where
  once : ∀ r, s.sock.completed.count r + (s.calls.flatMap PendedPoint.owns).count r +
    (s.sock.marked r).toNat = if r < s.nextId then 1 else 0
  refs : ∀ r, s.sock.refs r =
    ((s.sock.marked r).toNat + (s.calls.flatMap PendedPoint.cancels).count r : Nat)
  marked : ∀ r, s.sock.marked r = true → s.sock.pendedRequest = some r
  cancels : ∀ p ∈ s.calls, ∀ r ∈ p.cancels, s.sock.pendedRequest = some r
  named : ∀ r, s.sock.pendedRequest = some r →
    s.sock.marked r = true ∨ ∃ p ∈ s.calls, r ∈ p.cancels
  holder : s.calls.countP PendedPoint.holds = s.sock.locked.toNat
  held : ∀ p ∈ s.calls, ∀ r ∈ p.pended, s.sock.pendedRequest = some r

/-- A request is pended only on a socket that has none, and one that is unpended because its time
is up is not being cancelled. -/
def PendedRegular (s : PendedRun) : PendedOp → Prop
  | .step i ok => ∀ p ∈ s.calls[i]?,
      match p with
      | .setting _ | .resuming _ =>
        ok = true → s.sock.locked = false → s.sock.pendedRequest = none
      | .rollingBack r => s.sock.marked r = true
      | _ => True
  | _ => True

section Steps

variable {s : PendedRun} {i : Nat} {p q : PendedPoint} {sock : PendedSocket} {r}

theorem count_cancels_le (calls : List PendedPoint) (r : Nat) :
    (calls.flatMap PendedPoint.cancels).count r ≤ (calls.flatMap PendedPoint.owns).count r := by
  induction calls with
  | nil => simp
  | cons p =>
    have one : p.cancels.count r ≤ p.owns.count r := by
      cases p <;> simp [PendedPoint.cancels, PendedPoint.owns]
    simp only [flatMap_cons, count_append]
    omega

/-! ### What the invariant says about one request -/

theorem PendedInv.owns_pos (member : p ∈ s.calls) (owns : r ∈ p.owns) :
    0 < (s.calls.flatMap PendedPoint.owns).count r :=
  count_pos_iff.mpr (mem_flatMap.mpr ⟨p, member, owns⟩)

theorem owns_of_cancels (cancels : r ∈ p.cancels) : r ∈ p.owns := by
  cases p <;> simp_all [PendedPoint.cancels, PendedPoint.owns]

theorem PendedInv.alone (inv : PendedInv s) (marked : s.sock.marked r = true) :
    (s.calls.flatMap PendedPoint.owns).count r = 0 := by
  have once := inv.once r
  rw [marked] at once
  simp only [Bool.toNat_true] at once
  split at once <;> omega

theorem PendedInv.unmarked (inv : PendedInv s) (unpended : s.sock.pendedRequest = none) (r : Nat) :
    s.sock.marked r = false := by
  cases marked : s.sock.marked r with
  | false => rfl
  | true =>
    have pended := inv.marked r marked
    rw [unpended] at pended
    cases pended

theorem PendedInv.noCancel (inv : PendedInv s) (other : s.sock.pendedRequest ≠ some r) :
    (s.calls.flatMap PendedPoint.cancels).count r = 0 := by
  refine count_eq_zero.mpr fun member => ?_
  obtain ⟨p, there, cancels⟩ := mem_flatMap.mp member
  exact other (inv.cancels p there r cancels)

theorem PendedInv.free (inv : PendedInv s) (unlocked : s.sock.locked = false)
    (member : p ∈ s.calls) : p.holds = false := by
  have holders := inv.holder
  rw [unlocked] at holders
  simpa using countP_eq_zero.mp holders p member

theorem pended_of_free (free : p.holds = false) : p.pended = [] := by
  cases p <;> simp_all [PendedPoint.holds, PendedPoint.pended]

/-! ### Steps of a call -/

section

variable (inv : PendedInv s)

include inv

section

variable (here : s.calls[i]? = some p)

include here

theorem PendedInv.moved
    (once : ∀ r, sock.completed.count r + q.owns.count r + (sock.marked r).toNat =
      s.sock.completed.count r + p.owns.count r + (s.sock.marked r).toNat)
    (refs : ∀ r, sock.refs r + ((s.sock.marked r).toNat + p.cancels.count r : Nat) =
      s.sock.refs r + ((sock.marked r).toNat + q.cancels.count r : Nat))
    (marked : ∀ r, sock.marked r = true → sock.pendedRequest = some r)
    (cancels : ∀ p ∈ s.calls.set i q, ∀ r ∈ p.cancels, sock.pendedRequest = some r)
    (named : ∀ r, sock.pendedRequest = some r →
      sock.marked r = true ∨ ∃ p ∈ s.calls.set i q, r ∈ p.cancels)
    (holder : s.sock.locked.toNat + q.holds.toNat = sock.locked.toNat + p.holds.toNat)
    (held : ∀ p ∈ s.calls.set i q, ∀ r ∈ p.pended, sock.pendedRequest = some r) :
    PendedInv { s with sock := sock, calls := s.calls.set i q } := by
  refine ⟨fun r => ?_, fun r => ?_, marked, cancels, named, ?_, held⟩
  · have moved := count_flatMap_move here q PendedPoint.owns r
    have old := inv.once r
    have new := once r
    dsimp only
    omega
  · have moved := count_flatMap_move here q PendedPoint.cancels r
    have old := inv.refs r
    have new := refs r
    dsimp only
    omega
  · have moved := countP_move here q PendedPoint.holds
    have old := inv.holder
    dsimp only
    omega

/-- The call moves on with what it has, and the socket stays as it is. -/
theorem PendedInv.same (owns : q.owns = p.owns)
    (cancels : q.cancels = p.cancels) (holds : q.holds = p.holds) (pended : q.pended = p.pended) :
    PendedInv { s with calls := s.calls.set i q } := by
  have member := mem_of_getElem? here
  refine inv.moved here ?_ ?_ inv.marked ?_ ?_ ?_ ?_
  · intro r
    rw [owns]
  · intro r
    rw [cancels]
  · exact forall_mem_set inv.cancels fun id mem => inv.cancels p member id (cancels ▸ mem)
  · intro id named
    refine (inv.named id named).imp_right (exists_mem_move here fun mem => ?_)
    rw [cancels]
    exact mem
  · rw [holds]
  · exact forall_mem_set inv.held fun id mem => inv.held p member id (pended ▸ mem)

/-- A call pends its request, marked and with a reference. -/
theorem PendedInv.pend (owns : p.owns = [r])
    (cancels : p.cancels = []) (holds : p.holds = false) (unlocked : s.sock.locked = false)
    (unpended : s.sock.pendedRequest = none) (is : sock = { s.sock.pend r with locked := q.holds })
    (after : q.owns = [] ∧ q.cancels = []) (held : ∀ id ∈ q.pended, id = r) :
    PendedInv { s with sock := sock, calls := s.calls.set i q } := by
  subst is
  have unmarked := inv.unmarked unpended
  refine inv.moved here (fun id => ?_) (fun id => ?_) (fun id marked => ?_) ?_ ?_ ?_ ?_
  · simp only [PendedSocket.pend, after.1, owns]
    by_cases same : id = r
    · subst same
      simp [unmarked]
    · simp [update_of_ne same, Ne.symm same]
  · simp only [PendedSocket.pend, after.2, cancels]
    by_cases same : id = r
    · subst same
      simp [unmarked]
    · simp [update_of_ne same]
  · by_cases same : id = r
    · rw [same]
      rfl
    · simp [PendedSocket.pend, update_of_ne same, unmarked] at marked
  · intro p' there id mem
    rcases mem_or_eq_of_mem_set there with old | rfl
    · have pended := inv.cancels p' old id mem
      rw [unpended] at pended
      cases pended
    · rw [after.2] at mem
      cases mem
  · intro id named
    cases named
    exact .inl (by simp [PendedSocket.pend])
  · rw [unlocked, holds]
    simp
  · intro p' there id mem
    rcases mem_or_eq_of_mem_set there with old | rfl
    · rw [pended_of_free (inv.free unlocked old)] at mem
      cases mem
    · rw [held id mem]
      rfl

theorem PendedInv.quiet {locked : Bool}
    (holder : s.sock.locked.toNat + q.holds.toNat = locked.toNat + p.holds.toNat)
    (unlocked : locked = false) : ∀ p ∈ s.calls.set i q, p.pended = [] := by
  intro p' there
  have moved := countP_move here q PendedPoint.holds
  have old := inv.holder
  rw [unlocked] at holder
  have holders : (s.calls.set i q).countP PendedPoint.holds = 0 := by
    simp only [Bool.toNat_false] at holder
    omega
  exact pended_of_free (by simpa using countP_eq_zero.mp holders p' there)

theorem PendedInv.unpend (pended : s.sock.pendedRequest = some r) (marked : s.sock.marked r = true)
    (is : sock = { (s.sock.unmark r).unpend r with locked := false })
    (owns : p.owns = [] ∧ p.cancels = []) (after : q.owns = [r] ∧ q.cancels = [])
    (holder : s.sock.locked.toNat + q.holds.toNat = p.holds.toNat) :
    PendedInv { s with sock := sock, calls := s.calls.set i q } := by
  subst is
  have leaves : s.sock.locked.toNat + q.holds.toNat = false.toNat + p.holds.toNat := by
    simpa using holder
  refine inv.moved here (fun id => ?_) (fun id => ?_) (fun id still => ?_) ?_
    (fun id named => nomatch named) leaves ?_
  · simp only [PendedSocket.unpend, PendedSocket.unmark, owns.1, after.1]
    by_cases same : id = r
    · subst same
      simp [marked]
    · simp [update_of_ne same, Ne.symm same]
  · simp only [PendedSocket.unpend, PendedSocket.unmark, owns.2, after.2]
    by_cases same : id = r
    · subst same
      simp [marked]
    · simp [update_of_ne same]
  · by_cases same : id = r
    · subst same
      simp [PendedSocket.unpend, PendedSocket.unmark] at still
    simp only [PendedSocket.unpend, PendedSocket.unmark, update_of_ne same] at still
    have other := inv.marked id still
    rw [pended] at other
    exact absurd (Option.some.inj other).symm same
  · intro p' there id mem
    exfalso
    rcases mem_or_eq_of_mem_set there with old | rfl
    · obtain rfl : r = id := by
        have other := inv.cancels p' old id mem
        rw [pended] at other
        exact Option.some.inj other
      have positive := PendedInv.owns_pos old (owns_of_cancels mem)
      rw [inv.alone marked] at positive
      exact lt_irrefl 0 positive
    · rw [after.2] at mem
      cases mem
  · intro p' there id mem
    rw [inv.quiet here leaves rfl p' there] at mem
    cases mem

end

namespace PendedInv

/-- The cancel routine takes the request that was pended. -/
theorem callback (here : s.calls[i]? = some (.cancelling r)) (unlocked : s.sock.locked = false) :
    PendedInv { s with sock := s.sock.unpend r, calls := s.calls.set i (.completing r) } := by
  have member := mem_of_getElem? here
  have pended : s.sock.pendedRequest = some r := inv.cancels _ member r (mem_singleton_self r)
  have owned := PendedInv.owns_pos member (mem_singleton_self r)
  have once := inv.once r
  have unmarked : s.sock.marked r = false := by
    cases marked : s.sock.marked r with
    | false => rfl
    | true =>
      rw [inv.alone marked] at owned
      exact absurd owned (lt_irrefl 0)
  have leaves : s.sock.locked.toNat + (PendedPoint.completing r).holds.toNat =
      s.sock.locked.toNat + (PendedPoint.cancelling r).holds.toNat := rfl
  refine inv.moved here (fun id => rfl) (fun id => ?_) (fun id still => ?_) ?_
    (fun id named => nomatch named) leaves ?_
  · simp only [PendedSocket.unpend, PendedPoint.cancels]
    by_cases same : id = r
    · subst same
      simp
    · simp [update_of_ne same, Ne.symm same]
  · have other := inv.marked id still
    rw [pended] at other
    rw [← Option.some.inj other, PendedSocket.unpend, unmarked] at still
    cases still
  · -- nobody else cancels the same request
    intro p' there id mem
    have moved := count_flatMap_move here (.completing r) PendedPoint.cancels id
    have le := count_cancels_le s.calls id
    have again : 0 < ((s.calls.set i (.completing r)).flatMap PendedPoint.cancels).count id :=
      count_pos_iff.mpr (mem_flatMap.mpr ⟨p', there, mem⟩)
    obtain rfl : r = id := by
      rcases mem_or_eq_of_mem_set there with old | rfl
      · have other := inv.cancels p' old id mem
        rw [pended] at other
        exact Option.some.inj other
      · cases mem
    simp only [PendedPoint.cancels, count_nil, count_singleton_self] at moved
    split at once <;> omega
  · intro p' there id mem
    rw [inv.quiet here leaves unlocked p' there] at mem
    cases mem

theorem complete (here : s.calls[i]? = some (.completing r)) : PendedInv
      { s with
          sock := { s.sock with completed := s.sock.completed ++ [r] }
          calls := s.calls.set i .done } := by
  refine inv.moved here (fun id => ?_) (fun id => rfl) inv.marked ?_ ?_ rfl ?_
  · simp [PendedPoint.owns]
  · exact forall_mem_set inv.cancels nofun
  · intro id named
    exact (inv.named id named).imp_right (exists_mem_move here nofun)
  · exact forall_mem_set inv.held nofun

theorem resume (here : s.calls[i]? = some (.resumed r)) :
    PendedInv { s with sock := { s.sock with locked := false }, calls := s.calls.set i .done } := by
  have locked : s.sock.locked = true := by
    have pos := countP_pos_of_getElem? here PendedPoint.holds rfl
    rw [inv.holder] at pos
    cases now : s.sock.locked with
    | true => rfl
    | false =>
      rw [now] at pos
      cases pos
  have leaves : s.sock.locked.toNat + PendedPoint.done.holds.toNat =
      false.toNat + (PendedPoint.resumed r).holds.toNat := by
    rw [locked]
    rfl
  refine inv.moved here (fun id => rfl) (fun id => rfl) inv.marked ?_ ?_ leaves ?_
  · exact forall_mem_set inv.cancels nofun
  · intro id named
    exact (inv.named id named).imp_right (exists_mem_move here nofun)
  · intro p' there id mem
    rw [inv.quiet here leaves rfl p' there] at mem
    cases mem

theorem stay (here : s.calls[i]? = some p) : PendedInv { s with calls := s.calls.set i p } :=
  inv.same here rfl rfl rfl rfl

theorem set {resume ok : Bool} (here : s.calls[i]? = some p)
    (owns : p.owns = [r] ∧ p.cancels = [] ∧ p.holds = false ∧ p.pended = [])
    (unlocked : s.sock.locked = false) (unpended : ok = true → s.sock.pendedRequest = none) :
    PendedInv
      { s with
          sock := (pendedRequestSet s.sock r ok resume).1
          calls := s.calls.set i (pendedRequestSet s.sock r ok resume).2 } := by
  obtain ⟨owns, cancels, holds, pended⟩ := owns
  have completes : PendedInv { s with calls := s.calls.set i (.completing r) } :=
    inv.same here owns.symm cancels.symm holds.symm pended.symm
  cases ok with
  | false => exact completes
  | true =>
    simp only [pendedRequestSet]
    have unpended := unpended rfl
    cases cancelled : s.sock.cancelled r with
    | true =>
      have cleared : { s.sock with pendedRequest := none } = s.sock := by rw [← unpended]
      simp only [cleared]
      exact completes
    | false =>
      cases resume with
      | true =>
        exact inv.pend here owns cancels holds unlocked unpended rfl ⟨rfl, rfl⟩
          (fun id mem => mem_singleton.mp mem)
      | false =>
        refine inv.pend here owns cancels holds unlocked unpended ?_ ⟨rfl, rfl⟩
          (fun id mem => nomatch mem)
        show s.sock.pend r = { s.sock.pend r with locked := false }
        rw [← unlocked]
        rfl

theorem get {again : Bool} (here : s.calls[i]? = some (.getting again))
    (unlocked : s.sock.locked = false) :
    PendedInv
      { s with
          sock := (pendedRequestGet s.sock again).1
          calls := s.calls.set i (pendedRequestGet s.sock again).2 } := by
  have ends : PendedInv { s with calls := s.calls.set i .done } := inv.same here rfl rfl rfl rfl
  rw [pendedRequestGet]
  split
  · exact ends
  rename_i r pended
  split
  · rename_i marked
    have same : (s.sock.unmark r).unpend r =
        { (s.sock.unmark r).unpend r with locked := false } := by
      rw [← unlocked]
      rfl
    have holder : s.sock.locked.toNat + 0 = 0 := by
      rw [unlocked]
      rfl
    cases again with
    | true | false => exact inv.unpend here pended marked same ⟨rfl, rfl⟩ ⟨rfl, rfl⟩ holder
  · exact ends

theorem call {ok : Bool} (here : s.calls[i]? = some p) (regular : PendedRegular s (.step i ok)) :
    PendedInv
      { s with
          sock := (pendedAdvance s.sock ok p).1
          calls := s.calls.set i (pendedAdvance s.sock ok p).2 } := by
  have regular := regular p here
  have free (unlocked : ¬s.sock.locked = true) : s.sock.locked = false := by simpa using unlocked
  cases p with
  | setting | resuming =>
    rw [pendedAdvance]
    split
    · exact inv.stay here
    · rename_i unlocked
      exact inv.set here ⟨rfl, rfl, rfl, rfl⟩ (free unlocked) fun ok =>
        regular ok (free unlocked)
  | resumed =>
    cases ok with
    | true => exact inv.resume here
    | false => exact inv.same here rfl rfl rfl rfl
  | rollingBack r =>
    have member := mem_of_getElem? here
    have pended := inv.held _ member r (mem_singleton_self r)
    have locked : s.sock.locked.toNat = 1 := by
      have pos := countP_pos_of_getElem? here PendedPoint.holds rfl
      rw [inv.holder] at pos
      have le := Bool.toNat_le s.sock.locked
      omega
    exact inv.unpend here pended regular rfl ⟨rfl, rfl⟩ ⟨rfl, rfl⟩ (by rw [locked]; rfl)
  | getting =>
    rw [pendedAdvance]
    split
    · exact inv.stay here
    · rename_i unlocked
      exact inv.get here (free unlocked)
  | cancelling =>
    rw [pendedAdvance]
    split
    · exact inv.stay here
    · rename_i unlocked
      exact inv.callback here (free unlocked)
  | completing => exact inv.complete here
  | done => exact inv.stay here

/-! ### Other operations -/

/-- A call begins, with a new request, the marked one, or none. -/
theorem enter {nextId : Nat}
    (once : ∀ r, sock.completed.count r +
      ((s.calls.flatMap PendedPoint.owns).count r + p.owns.count r) + (sock.marked r).toNat =
        if r < nextId then 1 else 0)
    (refs : ∀ r, sock.refs r = ((sock.marked r).toNat +
      ((s.calls.flatMap PendedPoint.cancels).count r + p.cancels.count r) : Nat))
    (marked : ∀ r, sock.marked r = true → s.sock.marked r = true)
    (named : ∀ r, s.sock.marked r = true → sock.marked r = true ∨ r ∈ p.cancels)
    (cancels : ∀ r ∈ p.cancels, s.sock.marked r = true)
    (same : sock.pendedRequest = s.sock.pendedRequest ∧ sock.locked = s.sock.locked)
    (free : p.holds = false) :
    PendedInv { sock := sock, calls := s.calls ++ [p], nextId := nextId } := by
  refine ⟨fun r => ?_, fun r => ?_, fun r now => ?_, ?_, ?_, ?_, ?_⟩
  · have total : ((s.calls ++ [p]).flatMap PendedPoint.owns).count r =
        (s.calls.flatMap PendedPoint.owns).count r + p.owns.count r := by
      simp
    rw [total]
    exact once r
  · have total : ((s.calls ++ [p]).flatMap PendedPoint.cancels).count r =
        (s.calls.flatMap PendedPoint.cancels).count r + p.cancels.count r := by
      simp
    rw [total]
    exact refs r
  · exact same.1.trans (inv.marked r (marked r now))
  · intro p' there r mem
    refine same.1.trans ?_
    rcases mem_append.mp there with old | new
    · exact inv.cancels p' old r mem
    · rw [mem_singleton.mp new] at mem
      exact inv.marked r (cancels r mem)
  · intro r pended
    rcases inv.named r (same.1.symm.trans pended) with before | ⟨p', there, mem⟩
    · refine (named r before).imp_right fun mem => ⟨p, ?_, mem⟩
      exact mem_append_right _ (mem_singleton_self p)
    · exact .inr ⟨p', mem_append_left _ there, mem⟩
  · have total : (s.calls ++ [p]).countP PendedPoint.holds = _ := countP_start p _
    rw [total, free, same.2]
    exact inv.holder
  · intro p' there r mem
    refine same.1.trans ?_
    rcases mem_append.mp there with old | new
    · exact inv.held p' old r mem
    · rw [mem_singleton.mp new, pended_of_free free] at mem
      cases mem

theorem start (again : Bool) : PendedInv (callPended s (.getting again)) :=
  inv.enter inv.once inv.refs (fun _ => id) (fun _ => .inl) nofun ⟨rfl, rfl⟩ rfl

theorem new : PendedInv { callPended s (.setting s.nextId) with nextId := s.nextId + 1 } := by
  refine inv.enter (fun r => ?_) inv.refs (fun _ => id) (fun _ => .inl) nofun ⟨rfl, rfl⟩ rfl
  have once := inv.once r
  show s.sock.completed.count r + (_ + _) + (s.sock.marked r).toNat = _
  by_cases same : r = s.nextId
  · subst same
    rw [if_neg (lt_irrefl _)] at once
    rw [if_pos (Nat.lt_add_one _), PendedPoint.owns, count_singleton_self]
    omega
  · have older : r < s.nextId + 1 ↔ r < s.nextId := by omega
    simp only [older]
    rw [← once]
    simp [PendedPoint.owns, Ne.symm same]

/-- The framework takes a marked request from the socket, and calls the callback. -/
theorem cancel (marked : s.sock.marked r = true) (cancelled : Nat → Bool) : PendedInv (callPended
      { s with sock := { s.sock with cancelled := cancelled }.unmark r } (.cancelling r)) := by
  refine inv.enter (fun id => ?_) (fun id => ?_) (fun id now => ?_) (fun id before => ?_) ?_
    ⟨rfl, rfl⟩ rfl
  · rw [← inv.once id]
    by_cases same : id = r
    · subst same
      simp [PendedSocket.unmark, PendedPoint.owns, marked, add_assoc]
    · simp [PendedSocket.unmark, PendedPoint.owns, update_of_ne same, Ne.symm same]
  · show s.sock.refs id = _
    rw [inv.refs id]
    by_cases same : id = r
    · subst same
      simp only [PendedSocket.unmark, PendedPoint.cancels, marked, update_self,
        count_singleton_self, Bool.toNat_true, Bool.toNat_false]
      omega
    · simp [PendedSocket.unmark, PendedPoint.cancels, update_of_ne same, Ne.symm same]
  · by_cases same : id = r
    · rw [same]
      exact marked
    · simpa [PendedSocket.unmark, update_of_ne same] using now
  · by_cases same : id = r
    · exact .inr (mem_singleton.mpr same)
    · exact .inl (by simpa [PendedSocket.unmark, update_of_ne same] using before)
  · intro id mem
    rw [mem_singleton.mp mem]
    exact marked

theorem step (op : PendedOp) (regular : PendedRegular s op) :
    ∃ t out, pendedStep s op = .ok (t, out) ∧ PendedInv t := by
  cases op with
  | set => exact ⟨_, _, rfl, inv.new⟩
  | get | timer => exact ⟨_, _, rfl, inv.start false⟩
  | connecting => exact ⟨_, _, rfl, inv.start _⟩
  | cancel =>
    rw [pendedStep]
    split
    · rename_i marked
      exact ⟨_, _, rfl, inv.cancel marked _⟩
    · exact ⟨_, _, rfl, { inv with }⟩
  | step i =>
    cases here : s.calls[i]? with
    | none => exact ⟨s, (), by simp only [pendedStep, here], inv⟩
    | some => exact ⟨_, (), by simp only [pendedStep, here], inv.call here regular⟩

end PendedInv

end

end Steps

/-! ## Fixed runs -/

section Fixed

instance (s : PendedRun) (op : PendedOp) : Decidable (PendedRegular s op) := by
  unfold PendedRegular
  split
  · refine @Option.decidableForallMem _ _ (fun p => ?_) _
    split <;> infer_instance
  all_goals infer_instance

/-- A request is pended, and taken for a packet that lets it be pended again, up to where it is
marked for the second time. -/
def pendAgain : List PendedOp :=
  [.set, .step 0 true, .connecting .invalid, .step 1 true, .step 1 true]

end Fixed

end KvmGuestDrivers.VioSock
