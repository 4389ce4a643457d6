/-
# VioGpu.CtrlQueueWakeup -- no staged command is forgotten

A command that stays on the staging list needs somebody to call `Flush` later.  The
argument is an invariant that names who that is: a thread that is on its way to look at
the list, a flusher on its way out that will see `m_CtrlQueueFlushRequested`, a DPC with
work to do, or a command in flight, whose return brings the interrupt.

A thread that finds the flag taken relies on the flusher.  A flusher that met a full ring
does not look at `m_CtrlQueueFlushRequested` again: it relies on a command in flight.  If
that command has come back meanwhile and its DPC was the thread that found the flag taken,
nobody is left.  `command_stranded` is that run; the invariant holds without it.
-/
import KvmGuestDrivers.VioGpu.CtrlQueueOrder

namespace KvmGuestDrivers.VioGpu

set_option autoImplicit false

open Theory VirtIO List Function

variable {pc : Pc}

namespace Pc

/-- A call of `Flush` runs, or is the next thing the routine does or brings about. -/
def flushDue : Pc → Bool
  | .queueRequest | .dequeue | .flush _ _ | .isrDrain | .isrPend => true
  | _ => false

/-- A thread on its way to look at the list. -/
def drives : Pc → Bool
  | .queueRequest | .dequeue | .isrDrain | .isrPend => true
  | .flush .enter _ | .flush .clear _ | .flush .remove _ | .flush (.submit _) _
  | .flush .reenter _ => true
  | _ => false

/-- A flusher that found the list empty and will look at `m_CtrlQueueFlushRequested`. -/
def leaves : Pc → Bool
  | .flush .release _ | .flush .recheck _ => true
  | _ => false

def releases : Pc → Bool
  | .flush .release _ => true
  | _ => false

/-- A flusher that met a full ring. -/
def givesUp : Pc → Bool
  | .flush (.restage _) _ | .flush .giveUp _ => true
  | _ => false

def requests : Pc → Bool
  | .queueRequest => true
  | _ => false

def tries : Pc → Bool
  | .flush pc _ => pc.tries
  | _ => false

def holds (pc : Pc) : Bool := !pc.held.isEmpty

/-- A thread that queues the DPC or runs its routine. -/
def dpcComing : Pc → Bool
  | .isrQueueDpc | .dpcPoll | .flush _ true => true
  | _ => false

/-- The command a thread brings or has in its hands. -/
def carries : Pc → List GpuVbuffer
  | .queueInsert b | .flush (.submit b) _ | .flush (.restage b) _ => [b]
  | _ => []

theorem cases_of_owns (own : pc.owns = true) :
    pc.drives = true ∨ pc.givesUp = true ∨ pc.releases = true := by
  cases pc with
  | flush pc =>
    cases pc with
    | clear | remove | submit => exact .inl rfl
    | restage | giveUp => exact .inr (.inl rfl)
    | release => exact .inr (.inr rfl)
    | enter | recheck | reenter => cases own
  | _ => cases own

theorem owns_of_holds (has : pc.holds = true) : pc.owns = true := by
  by_contra out
  rw [holds, held_of_not_owns pc (Bool.eq_false_iff.mpr out)] at has
  cases has

theorem holds_afterFlush (dpc : Bool) : (CtrlQueue.afterFlush dpc).holds = false := by
  rw [holds, held_afterFlush]
  rfl

theorem of_releases (rel : pc.releases = true) :
    pc.owns = true ∧ pc.leaves = true ∧ pc.holds = false := by
  unfold releases at rel
  split at rel
  · exact ⟨rfl, rfl, rfl⟩
  · cases rel

theorem drives_of_requests (req : pc.requests = true) : pc.drives = true := by
  unfold requests at req
  split at req
  · rfl
  · cases req

theorem of_tries (may : pc.tries = true) : pc.owns = false ∧ pc.requests = false := by
  unfold tries at may
  split at may
  · exact ⟨FlushPc.owns_of_tries may, rfl⟩
  · cases may

end Pc

variable {n num : Nat} {phys : Nat → Option Nat} {s s' : CtrlQueue n} {op : CtrlOp n}

/-- The runs in which no wake-up is lost: every command fits the ring, and no thread finds
the flag taken by a flusher that met a full ring when nothing is in flight any more. -/
def WakeAllowed (num : Nat) (s : CtrlQueue n) : CtrlOp n → Prop
  | .queueBuffer _ b => b.sgCount ≤ num
  | .advance t =>
    (s.threads t).tries = true → Somewhere Pc.givesUp s.threads → s.vq.inFlight ≠ []
  | _ => True

instance (s : CtrlQueue n) (op : CtrlOp n) : Decidable (WakeAllowed num s op) := by
  unfold WakeAllowed
  split <;> infer_instance

/-! ## Every command fits the ring -/

/-- The commands on the list and those threads bring or have in their hands. -/
structure AllFit (num : Nat) (list : List GpuVbuffer) (threads : Fin n → Pc) : Prop where
  staged : ∀ b ∈ list, b.sgCount ≤ num
  carried : ∀ t, ∀ b ∈ (threads t).carries, b.sgCount ≤ num

variable {t : Fin n} {old : Pc}

theorem AllFit.step {list list' : List GpuVbuffer} {threads : Fin n → Pc}
    (fit : AllFit num list threads) (staged : ∀ b ∈ list', b.sgCount ≤ num)
    (brought : ∀ b ∈ pc.carries, b.sgCount ≤ num) :
    AllFit num list' (update threads t pc) := by
  refine ⟨staged, fun a => ?_⟩
  by_cases here : a = t
  · rw [here, update_self]
    exact brought
  · rw [update_of_ne here]
    exact fit.carried a

theorem keep_allFit (fit : AllFit num s.list s.threads) (may : WakeAllowed num s op)
    (move : CtrlMove phys s op s') : AllFit num s'.list s'.threads := by
  have hand : ∀ t b, (s.threads t).carries = [b] → b.sgCount ≤ num := fun t b one =>
    fit.carried t b (by rw [one]; exact mem_singleton_self b)
  cases move with
  | keep | complete | drain => exact fit
  | queueBuffer => exact fit.step fit.staged (forall_mem_singleton.mpr may)
  | start _ t pc _ fresh =>
    refine fit.step fit.staged ?_
    rcases Pc.cases_of_fresh fresh with rfl | rfl | rfl | rfl <;> exact forall_mem_nil _
  | insert t b here =>
    refine fit.step ?_ (forall_mem_nil _)
    refine forall_mem_append.mpr ⟨fit.staged, forall_mem_singleton.mpr ?_⟩
    exact hand t b (by rw [here]; rfl)
  | removeHead t _ b _ _ head =>
    have all := fit.staged
    rw [head] at all
    obtain ⟨first, others⟩ := forall_mem_cons.mp all
    exact fit.step others (forall_mem_singleton.mpr first)
  | noSpace t _ b here =>
    refine fit.step fit.staged (forall_mem_singleton.mpr ?_)
    exact hand t b (by rw [here]; rfl)
  | restage t _ b here =>
    refine fit.step (forall_mem_cons.mpr ⟨?_, fit.staged⟩) (forall_mem_nil _)
    exact hand t b (by rw [here]; rfl)
  | lose t dpc | giveUp t dpc | leave t dpc =>
    refine fit.step fit.staged ?_
    cases dpc <;> exact forall_mem_nil _
  | _ => exact fit.step fit.staged (forall_mem_nil _)

/-! ## The request flag -/

/-- A command that came while the flusher was on its way out is announced. -/
def Announced (s : CtrlQueue n) : Prop :=
  Somewhere Pc.releases s.threads → s.list ≠ [] →
    s.flushRequested = true ∨ Somewhere Pc.requests s.threads

theorem Announced.frame (ann : Announced s) (here : s.threads t = old)
    (moved : s'.threads = update s.threads t pc) (list : s'.list ≠ [] → s.list ≠ [])
    (flag : s.flushRequested = true → s'.flushRequested = true)
    (requests : old.requests = true → pc.requests = true)
    (releases : pc.releases = true → old.releases = true) : Announced s' := by
  subst here
  intro leaving some
  rw [moved] at leaving ⊢
  rcases ann (leaving.before releases) (list some) with set | coming
  · exact .inl (flag set)
  · exact .inr (coming.stay requests)

theorem not_releases (ex : Exclusive Pc.owns s.threads s.flushInProgress)
    (own : (s.threads t).owns = true) (stays : pc.releases = false) :
    ¬ Somewhere Pc.releases (update s.threads t pc) := by
  rintro ⟨a, rel⟩
  by_cases here : a = t
  · rw [here, update_self, stays] at rel
    cases rel
  · rw [update_of_ne here] at rel
    exact here (ex.unique a t (Pc.of_releases rel).1 own)

theorem keep_announced (ex : Exclusive Pc.owns s.threads s.flushInProgress) (ann : Announced s)
    (move : CtrlMove phys s op s') : Announced s' := by
  cases move with
  | keep | complete | drain => exact ann
  | insert => exact fun _ _ => .inr (somewhere_here rfl)
  | request => exact fun _ _ => .inl rfl
  | clear t _ here | restage t _ b here =>
    exact fun rel => absurd rel (not_releases ex (by rw [here]; rfl) rfl)
  | removeNone t _ _ empty => exact fun _ some => absurd empty some
  | removeHead t _ b _ here head =>
    refine ann.frame here rfl (fun _ => ?_) id nofun nofun
    rw [head]
    exact cons_ne_nil _ _
  | start _ t pc idle fresh =>
    refine ann.frame idle rfl id id nofun ?_
    rcases Pc.cases_of_fresh fresh with rfl | rfl | rfl | rfl <;> exact nofun
  | lose t dpc _ here | giveUp t dpc here | leave t dpc here =>
    refine ann.frame here rfl id id nofun ?_
    cases dpc <;> exact nofun
  | queueBuffer t _ here | startDpc t here | dequeue t here | acquire t _ _ here
  | submit t _ _ _ here | noSpace t _ _ here | release t _ here | again t _ here
  | drained t here | pend t here | queueDpc t here | poll t here | polled t here =>
    exact ann.frame here rfl id id nofun nofun

/-! ## Somebody will flush -/

def Staged (s : CtrlQueue n) : Prop := s.list ≠ [] ∨ Somewhere Pc.holds s.threads

/-- Who will look at the list. -/
def Watched (s : CtrlQueue n) : Prop :=
  s.vq.inFlight ≠ [] ∨ s.pendingWorks = true ∨ Somewhere Pc.drives s.threads ∨
    (s.flushRequested = true ∧ Somewhere Pc.leaves s.threads)

theorem watched_here (moved : s'.threads = update s.threads t pc)
    (drives : pc.drives = true) : Watched s' := by
  refine .inr (.inr (.inl ?_))
  rw [moved]
  exact somewhere_here drives

/-- A thread that moves without a command in its hands leaves what there was to submit. -/
theorem Staged.before (staged : Staged s') (moved : s'.threads = update s.threads t pc)
    (list : s'.list = s.list) (holds : pc.holds = false) : Staged s := by
  rw [Staged, moved, list] at staged
  refine staged.imp id fun hold => hold.before fun has => ?_
  rw [holds] at has
  cases has

theorem Watched.frame (watched : Watched s) (here : s.threads t = old)
    (moved : s'.threads = update s.threads t pc) (vq : s'.vq = s.vq)
    (pending : s'.pendingWorks = s.pendingWorks) (flag : s'.flushRequested = s.flushRequested)
    (drives : old.drives = false)
    (leaves : s.flushRequested = true → old.leaves = true → pc.leaves = true) : Watched s' := by
  subst here
  rw [Watched, moved, vq, pending, flag]
  rcases watched with flight | works | driver | ⟨set, leaver⟩
  · exact .inl flight
  · exact .inr (.inl works)
  · refine .inr (.inr (.inl (driver.stay fun drove => ?_)))
    rw [drives] at drove
    cases drove
  · exact .inr (.inr (.inr ⟨set, leaver.stay (leaves set)⟩))

section

variable (ex : Exclusive Pc.owns s.threads s.flushInProgress)

include ex

theorem Staged.list_ne_nil (staged : Staged s)
    (own : (s.threads t).owns = true) (empty : (s.threads t).holds = false) : s.list ≠ [] := by
  rcases staged with some | ⟨a, has⟩
  · exact some
  · obtain rfl := ex.unique a t (Pc.owns_of_holds has) own
    rw [empty] at has
    cases has

/-- A thread that finds the flag taken leaves the list to its owner: one that still works
on it, one that met a full ring and has a command in flight to wait for, or one on its way
out, for whom what is on the list now was announced. -/
theorem watched_lose (ann : Announced s)
    {dpc : Bool} (tries : (s.threads t).tries = true) (taken : s.flushInProgress = true)
    (full : Somewhere Pc.givesUp s.threads → s.vq.inFlight ≠ []) (staged : Staged s) :
    Watched (s.goto t (CtrlQueue.afterFlush dpc)) := by
  obtain ⟨h, own⟩ := ex.busy_iff.mp taken
  have out := Pc.of_tries tries
  have other : h ≠ t := by
    rintro rfl
    rw [out.1] at own
    cases own
  rcases Pc.cases_of_owns own with drives | gives | rel
  · exact .inr (.inr (.inl (somewhere_other drives other)))
  · exact .inl (full ⟨h, gives⟩)
  obtain ⟨-, leaves, empty⟩ := Pc.of_releases rel
  rcases ann ⟨h, rel⟩ (staged.list_ne_nil ex own empty) with set | ⟨a, req⟩
  · exact .inr (.inr (.inr ⟨set, somewhere_other leaves other⟩))
  have apart : a ≠ t := by
    rintro rfl
    rw [out.2] at req
    cases req
  exact .inr (.inr (.inl (somewhere_other (Pc.drives_of_requests req) apart)))

theorem keep_watched
    (capacity : s.vq.capacity = num) (fit : AllFit num s.list s.threads) (ann : Announced s)
    (watch : Staged s → Watched s) (may : WakeAllowed num s op) (move : CtrlMove phys s op s') :
    Staged s' → Watched s' := by
  intro staged
  cases move with
  | keep => exact watch staged
  | complete k len =>
    refine (watch staged).imp_left fun flight nothing => flight ?_
    have same := AbstractQueue.inFlight_complete s.vq k len
    rw [nothing] at same
    exact same.symm.eq_nil
  | drain t here => exact .inr (.inr (.inl ⟨t, by rw [here]; rfl⟩))
  | insert t b here | request t here | dequeue t here | acquire t _ _ here | clear t _ here
  | removeHead t _ _ _ here | submit t _ _ _ here | again t _ here | drained t here
  | poll => exact watched_here rfl rfl
  | pend => exact .inr (.inl rfl)
  | start _ t pc _ fresh =>
    refine watched_here rfl ?_
    rcases Pc.cases_of_fresh fresh with rfl | rfl | rfl | rfl <;> rfl
  | lose t dpc pc here tries taken =>
    have before : Staged s := staged.before rfl rfl (Pc.holds_afterFlush dpc)
    have try' : (s.threads t).tries = true := by
      rw [here]
      exact tries
    exact watched_lose ex ann try' taken (may try') before
  | removeNone t _ here empty =>
    have before : Staged s := staged.before rfl rfl rfl
    exact absurd empty (before.list_ne_nil ex (by rw [here]; rfl) (by rw [here]; rfl))
  | noSpace t _ b here full =>
    have fits : b.sgCount ≤ s.vq.capacity := by
      rw [capacity]
      exact fit.carried t b (by rw [here]; exact mem_singleton_self b)
    exact .inl (AbstractQueue.inFlight_ne_nil (free_lt_of_noSpace full) fits)
  | restage t _ b here =>
    have before : Staged s := .inr ⟨t, by rw [here]; rfl⟩
    exact (watch before).frame here rfl rfl rfl rfl rfl nofun
  | giveUp t dpc here =>
    have before : Staged s := staged.before rfl rfl (Pc.holds_afterFlush dpc)
    exact (watch before).frame here rfl rfl rfl rfl rfl nofun
  | leave t dpc here requested =>
    have before : Staged s := staged.before rfl rfl (Pc.holds_afterFlush dpc)
    refine (watch before).frame here rfl rfl rfl rfl rfl fun set => ?_
    rw [requested] at set
    cases set
  | release t _ here =>
    have before : Staged s := staged.before rfl rfl rfl
    exact (watch before).frame here rfl rfl rfl rfl rfl fun _ _ => rfl
  | queueBuffer t _ here | startDpc t here | queueDpc t here | polled t here =>
    have before : Staged s := staged.before rfl rfl rfl
    exact (watch before).frame here rfl rfl rfl rfl rfl nofun

end

/-! ## The DPC -/

/-- Work for the DPC is never left without one. -/
def DpcComing (s : CtrlQueue n) : Prop :=
  s.pendingWorks = true → s.dpcQueued = true ∨ Somewhere Pc.dpcComing s.threads

theorem DpcComing.frame (coming : DpcComing s) (here : s.threads t = old)
    (moved : s'.threads = update s.threads t pc) (pending : s'.pendingWorks = s.pendingWorks)
    (queued : s'.dpcQueued = s.dpcQueued) (stays : old.dpcComing = true → pc.dpcComing = true) :
    DpcComing s' := by
  subst here
  rw [DpcComing, moved, pending, queued]
  exact fun works => (coming works).imp id fun thread => thread.stay stays

theorem keep_dpcComing (coming : DpcComing s) (move : CtrlMove phys s op s') : DpcComing s' := by
  cases move with
  | keep | complete | drain => exact coming
  | startDpc | pend => exact fun _ => .inr (somewhere_here rfl)
  | queueDpc => exact fun _ => .inl rfl
  | poll => exact nofun
  | polled t _ none => exact fun works => absurd works (Bool.eq_false_iff.mp none)
  | lose t dpc _ here | giveUp t dpc here | leave t dpc here | acquire t dpc _ here
  | clear t dpc here | removeNone t dpc here | removeHead t dpc _ _ here | submit t dpc _ _ here
  | noSpace t dpc _ here | restage t dpc _ here | release t dpc here | again t dpc here =>
    -- A call of `Flush` goes back to the routine that made it.
    refine coming.frame here rfl rfl rfl ?_
    cases dpc
    · exact nofun
    · exact fun _ => rfl
  | queueBuffer t _ here | start _ t _ here | insert t _ here | request t here | dequeue t here
  | drained t here => exact coming.frame here rfl rfl rfl nofun

/-! ## Runs -/

theorem keep_capacity (move : CtrlMove phys s op s') : s'.vq.capacity = s.vq.capacity := by
  cases move with
  | complete | drain | dequeue => exact AbstractQueue.capacity_step s.vq _
  | submit t _ b vq _ done =>
    obtain ⟨r, -, added⟩ := exists_request_of_submitted done
    have same := AbstractQueue.capacity_step s.vq (.add r)
    rw [added] at same
    exact same
  | _ => rfl

structure WakeInv (num : Nat) (s : CtrlQueue n) : Prop where
  exclusive : Exclusive Pc.owns s.threads s.flushInProgress
  capacity : s.vq.capacity = num
  fit : AllFit num s.list s.threads
  announced : Announced s
  watched : Staged s → Watched s
  dpc : DpcComing s

theorem wakeInv_start (n num : Nat) : WakeInv num (ctrlStart n num) where
  exclusive := exclusive_start n num
  capacity := rfl
  fit := ⟨forall_mem_nil _, fun _ => forall_mem_nil _⟩
  announced := by rintro ⟨t, rel⟩; cases rel
  watched := by
    rintro (some | ⟨t, has⟩)
    · exact absurd rfl some
    · cases has
  dpc := nofun

theorem WakeInv.step (inv : WakeInv num s) (may : WakeAllowed num s op)
    (move : CtrlMove phys s op s') : WakeInv num s' where
  exclusive := keep_exclusive inv.exclusive move
  capacity := (keep_capacity move).trans inv.capacity
  fit := keep_allFit inv.fit may move
  announced := keep_announced inv.exclusive inv.announced move
  watched := keep_watched inv.exclusive inv.capacity inv.fit inv.announced inv.watched may move
  dpc := keep_dpcComing inv.dpc move

theorem Pc.flushDue_of_drives (may : pc.drives = true ∨ pc.leaves = true) : pc.flushDue = true := by
  cases pc with
  | queueRequest | dequeue | flush | isrDrain | isrPend => rfl
  | _ => rcases may with d | l <;> contradiction

structure NotStranded (s : CtrlQueue n) : Prop where
  /-- When no flush runs or is due, a staged command has one in flight to wait for. -/
  inFlight : (∀ t, (s.threads t).flushDue = false) → s.pendingWorks = false → s.list ≠ [] →
    s.vq.inFlight ≠ []
  /-- Work for the DPC, which flushes, has a DPC queued or running. -/
  dpc : DpcComing s

/-- **No command is stranded** in runs where every command fits the ring and no thread
loses against a flusher that has nothing left to wait for. -/
theorem notStranded_of_reachable
    (reach : Reachable (· = ctrlStart n num) (Next (ctrlStep phys) (WakeAllowed num)) s) :
    NotStranded s := by
  have inv : WakeInv num s := by
    refine reach.invariant ?_ ?_
    · rintro _ rfl
      exact wakeInv_start n num
    · rintro s s' inv ⟨op, _, may, stepped⟩
      exact inv.step may (move_of_step stepped)
  refine ⟨fun quiet none some => ?_, inv.dpc⟩
  have nobody : ∀ t, ¬ ((s.threads t).drives = true ∨ (s.threads t).leaves = true) :=
    fun t may => Bool.eq_false_iff.mp (quiet t) (Pc.flushDue_of_drives may)
  rcases inv.watched (.inl some) with flight | works | ⟨t, drives⟩ | ⟨-, t, leaves⟩
  · exact flight
  · rw [none] at works
    cases works
  · exact absurd (.inl drives) (nobody t)
  · exact absurd (.inr leaves) (nobody t)

/-- A command waits for room on a ring of two descriptors, the one before it is in
flight, and all threads are idle. -/
theorem notStranded_while_full :
    ∃ s : CtrlQueue 1, Reachable (· = ctrlStart 1 2) (Next (ctrlStep some) (WakeAllowed 2)) s ∧
      s.list = [headerOnly 0x2000] ∧ s.tokens = [some (headerOnly 0x1000)] ∧
      s.threads 0 = .idle ∧ s.pendingWorks = false ∧ NotStranded s := by
  have replay : ∃ s ∈ attempt (ctrlStep some) (WakeAllowed 2) (ctrlStart 1 2)
      (.queueBuffer 0 (headerOnly 0x1000) :: List.replicate 9 (.advance 0) ++
        .queueBuffer 0 (headerOnly 0x2000) :: List.replicate 8 (.advance 0)),
      s.list = [headerOnly 0x2000] ∧ s.tokens = [some (headerOnly 0x1000)] ∧
        s.threads 0 = .idle ∧ s.pendingWorks = false := by
    decide
  obtain ⟨s, reach, list, tokens, idle, works⟩ := reachable_of_replay _ replay
  exact ⟨s, reach, list, tokens, idle, works, notStranded_of_reachable reach⟩

/-- Thread 0 finds no room for the second command; before it puts it back, the first comes
back, the interrupt takes it off the virtqueue, and the DPC finds the flag taken.  Thread 0
returns, and the second command stays on the list: nothing is in flight, nobody runs. -/
theorem command_stranded :
    ∃ s : CtrlQueue 3, Reachable (· = ctrlStart 3 2) (Next (ctrlStep some) fun _ _ => True) s ∧
      s.list = [headerOnly 0x2000] ∧ s.tokens = [] ∧ s.pendingWorks = false ∧
      s.dpcQueued = false ∧ List.ofFn s.threads = [.idle, .idle, .idle] := by
  refine reachable_of_replay (.queueBuffer 0 (headerOnly 0x1000) :: List.replicate 9 (.advance 0) ++
      .queueBuffer 0 (headerOnly 0x2000) :: List.replicate 6 (.advance 0) ++
      .complete 0 24 :: .interrupt 1 true :: List.replicate 4 (.advance 1) ++
      .dpc 2 :: List.replicate 3 (.advance 2) ++ List.replicate 2 (.advance 0)) ?_
  decide

end KvmGuestDrivers.VioGpu
