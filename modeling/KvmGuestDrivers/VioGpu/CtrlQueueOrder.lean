/-
# VioGpu.CtrlQueueOrder -- commands are submitted once and in order

The flag lets one thread at a time work in `Flush`, and only that thread takes commands
off the staging list or puts one back.  So the commands accepted so far are, in the order
in which they were accepted, those submitted, the one the flusher has in its hands, and
those on the list -- in every state any interleaving reaches.
-/
import KvmGuestDrivers.VioGpu.CtrlQueue
import KvmGuestDrivers.Theory.Threads

namespace KvmGuestDrivers.VioGpu

set_option autoImplicit false

open Theory VirtIO

/-- The flag is held from taking it to the store that clears it. -/
def FlushPc.owns : FlushPc → Bool
  | .enter | .recheck | .reenter => false
  | _ => true

namespace Pc

def owns : Pc → Bool
  | .flush pc _ => pc.owns
  | _ => false

def held : Pc → List GpuVbuffer
  | .flush (.submit b) _ | .flush (.restage b) _ => [b]
  | _ => []

theorem held_of_not_owns (pc : Pc) (out : pc.owns = false) : pc.held = [] := by
  cases pc with
  | flush pc =>
    cases pc with
    | submit | restage => cases out
    | _ => rfl
  | _ => rfl

@[simp] theorem owns_afterFlush (dpc : Bool) : (CtrlQueue.afterFlush dpc).owns = false := by
  cases dpc <;> rfl

@[simp] theorem held_afterFlush (dpc : Bool) : (CtrlQueue.afterFlush dpc).held = [] := by
  cases dpc <;> rfl

theorem owns_of_fresh {pc : Pc} (fresh : pc.fresh = true) : pc.owns = false := by
  rcases cases_of_fresh fresh with rfl | rfl | rfl | rfl <;> rfl

end Pc

theorem FlushPc.owns_of_tries {pc : FlushPc} (tries : pc.tries = true) : pc.owns = false := by
  cases pc with
  | enter | reenter => rfl
  | _ => cases tries

variable {n : Nat} {phys : Nat → Option Nat} {s s' : CtrlQueue n} {op : CtrlOp n}

/-! ## One flusher -/

theorem exclusive_start (n num : Nat) :
    Exclusive Pc.owns (ctrlStart n num).threads (ctrlStart n num).flushInProgress where
  busy_iff := by simp [Somewhere, ctrlStart, Pc.owns]
  unique := fun _ _ own => by cases own

theorem keep_exclusive (ex : Exclusive Pc.owns s.threads s.flushInProgress)
    (move : CtrlMove phys s op s') : Exclusive Pc.owns s'.threads s'.flushInProgress := by
  cases move with
  | keep | complete | drain => exact ex
  | start _ t pc idle fresh => exact ex.keep idle (Pc.owns_of_fresh fresh)
  | queueBuffer t _ here | startDpc t here | insert t _ here | request t here | dequeue t here
  | clear t _ here | removeNone t _ here | removeHead t _ _ _ here | submit t _ _ _ here
  | noSpace t _ _ here | restage t _ _ here | again t _ here | drained t here | pend t here
  | queueDpc t here | poll t here | polled t here => exact ex.keep here rfl
  | lose t _ pc here tries =>
    apply ex.keep here
    rw [Pc.owns_afterFlush]
    exact (FlushPc.owns_of_tries tries).symm
  | leave t dpc here => exact ex.keep here (Pc.owns_afterFlush dpc)
  | acquire t _ pc _ _ free =>
    rw [free] at ex
    exact ex.acquire rfl
  | giveUp t dpc here => exact ex.release here rfl (Pc.owns_afterFlush dpc)
  | release t _ here => exact ex.release here rfl rfl

/-! ## The order of the commands -/

def Accounted (accepted submitted list : List GpuVbuffer) (threads : Fin n → Pc) : Prop :=
  accepted = submitted ++ gather Pc.held threads ++ list

variable {accepted submitted list : List GpuVbuffer} {threads : Fin n → Pc} {busy : Bool}
  {t : Fin n}

theorem Accounted.keep (acc : Accounted accepted submitted list threads) {old pc : Pc}
    (here : threads t = old) (same : pc.held = old.held) :
    Accounted accepted submitted list (Function.update threads t pc) := by
  subst here
  rw [Accounted, gather_keep same]
  exact acc

theorem Accounted.flusher (acc : Accounted accepted submitted list threads)
    (ex : Exclusive Pc.owns threads busy) {old pc : Pc} (here : threads t = old)
    (own : old.owns = true) {submitted' list' : List GpuVbuffer}
    (same : submitted' ++ pc.held ++ list' = submitted ++ old.held ++ list) :
    Accounted accepted submitted' list' (Function.update threads t pc) := by
  subst here
  rw [Accounted, ex.gather_step Pc.held_of_not_owns own, same]
  rw [Accounted, ex.gather_owner Pc.held_of_not_owns own] at acc
  exact acc

/-- A move loses no command and keeps their order. -/
theorem keep_accounted (ex : Exclusive Pc.owns s.threads s.flushInProgress)
    (acc : Accounted s.accepted s.submitted s.list s.threads) (move : CtrlMove phys s op s') :
    Accounted s'.accepted s'.submitted s'.list s'.threads := by
  cases move with
  | keep | complete | drain => exact acc
  | start _ t pc idle fresh =>
    exact acc.keep idle (Pc.held_of_not_owns pc (Pc.owns_of_fresh fresh))
  | queueBuffer t _ here | startDpc t here | request t here | dequeue t here | clear t _ here
  | removeNone t _ here | noSpace t _ _ here | release t _ here | again t _ here
  | drained t here | pend t here | queueDpc t here | poll t here | polled t here =>
    exact acc.keep here rfl
  | lose t dpc pc here tries =>
    apply acc.keep here
    rw [Pc.held_afterFlush, Pc.held_of_not_owns (.flush pc dpc) (FlushPc.owns_of_tries tries)]
  | acquire t dpc pc here tries =>
    exact acc.keep here (Pc.held_of_not_owns (.flush pc dpc) (FlushPc.owns_of_tries tries)).symm
  | giveUp t dpc here | leave t dpc here => exact acc.keep here (Pc.held_afterFlush dpc)
  | insert t b here =>
    have moved : Accounted s.accepted s.submitted s.list
        (Function.update s.threads t .queueRequest) := acc.keep here rfl
    -- The new command goes to the end on both sides.
    exact (congrArg (· ++ [b]) moved).trans (List.append_assoc _ _ _)
  | removeHead t _ b _ here head =>
    apply acc.flusher ex here rfl
    rw [head]
    simp [Pc.held, CtrlQueue.goto]
  | submit _ _ _ _ here | restage _ _ _ here =>
    apply acc.flusher ex here rfl
    simp [Pc.held, CtrlQueue.goto]

/-! ## The commands on the virtqueue -/

def CtrlQueue.tokens (s : CtrlQueue n) : List (Option GpuVbuffer) :=
  s.vq.inFlight.map QueueEntry.data

theorem keep_once (once : s.tokens.Subperm (s.submitted.map some)) (move : CtrlMove phys s op s') :
    s'.tokens.Subperm (s'.submitted.map some) := by
  cases move with
  | complete k len =>
    exact ((AbstractQueue.inFlight_complete s.vq k len).map _).subperm.trans once
  | drain | dequeue =>
    exact ((AbstractQueue.inFlight_get s.vq).map _).subperm.trans once
  | submit t _ b vq _ done =>
    obtain ⟨r, token, added⟩ := exists_request_of_submitted done
    have new : (vq.inFlight.map QueueEntry.data).Perm (some b :: s.tokens) := by
      rw [← token]
      exact (AbstractQueue.inFlight_add added).map QueueEntry.data
    have last : (some b :: s.submitted.map some).Perm ((s.submitted ++ [b]).map some) := by
      rw [List.map_append]
      exact (List.perm_append_singleton _ _).symm
    exact new.subperm.trans (((List.subperm_cons _).mpr once).trans last.subperm)
  | _ => exact once

/-! ## Runs -/

structure SubmittedInOrder (s : CtrlQueue n) : Prop where
  /-- There is one flusher at most, and the flag says whether there is one. -/
  flusher : Exclusive Pc.owns s.threads s.flushInProgress
  /-- Only the flusher has a command in its hands. -/
  hands : ∀ t, (s.threads t).held ≠ [] → (s.threads t).owns = true
  /-- Every accepted command is submitted, held or staged: the submitted ones are the
  first that were put on the list, in that order. -/
  places : s.accepted = s.submitted ++ gather Pc.held s.threads ++ s.list
  /-- The virtqueue has a command at most as often as it was submitted. -/
  once : s.tokens.Subperm (s.submitted.map some)
  /-- Commands that differ: none is on the virtqueue twice, or in two places. -/
  distinct : s.accepted.Nodup →
    (s.tokens ++ (gather Pc.held s.threads ++ s.list).map some).Nodup

/-- **Commands are submitted once, and in the order in which they were staged.** -/
theorem submittedInOrder_of_reachable {num : Nat}
    (reach : Reachable (· = ctrlStart n num) (Next (ctrlStep phys) fun _ _ => True) s) :
    SubmittedInOrder s := by
  have inv : Exclusive Pc.owns s.threads s.flushInProgress ∧
      Accounted s.accepted s.submitted s.list s.threads ∧
      s.tokens.Subperm (s.submitted.map some) := by
    induction reach with
    | start first =>
      subst first
      refine ⟨exclusive_start n num, ?_, ?_⟩
      · rw [Accounted, gather_nil fun _ => rfl]
        rfl
      · exact List.nil_subperm
    | next _ step ih =>
      obtain ⟨ex, acc, once⟩ := ih
      obtain ⟨op, out, -, stepped⟩ := step
      have move := move_of_step stepped
      exact ⟨keep_exclusive ex move, keep_accounted ex acc move, keep_once once move⟩
  obtain ⟨ex, acc, once⟩ := inv
  refine ⟨ex, ?_, acc, once, ?_⟩
  · intro t some
    by_contra out
    exact some (Pc.held_of_not_owns _ (Bool.eq_false_iff.mpr out))
  intro different
  rw [acc, List.append_assoc] at different
  have all := different.map (Option.some_injective GpuVbuffer)
  rw [List.map_append] at all
  obtain ⟨l, perm, sub⟩ := (List.subperm_append_right _).mpr once
  exact perm.nodup_iff.mp (all.sublist sub)

/-- The ring of two descriptors has the first command, the flusher has found no room for
the second, and a third was put on the list meanwhile. -/
theorem submittedInOrder_while_full :
    ∃ s : CtrlQueue 2, Reachable (· = ctrlStart 2 2) (Next (ctrlStep some) fun _ _ => True) s ∧
      s.submitted = [headerOnly 0x1000] ∧ s.tokens = [some (headerOnly 0x1000)] ∧
      gather Pc.held s.threads = [headerOnly 0x2000] ∧ s.list = [headerOnly 0x3000] ∧
      SubmittedInOrder s := by
  have replay : ∃ s ∈ attempt (ctrlStep some) (fun _ _ => True) (ctrlStart 2 2)
      (.queueBuffer 0 (headerOnly 0x1000) :: List.replicate 7 (.advance 0) ++
        .queueBuffer 1 (headerOnly 0x2000) :: List.replicate 3 (.advance 1) ++
        List.replicate 6 (.advance 0) ++
        .queueBuffer 1 (headerOnly 0x3000) :: [.advance 1]),
      s.submitted = [headerOnly 0x1000] ∧ s.tokens = [some (headerOnly 0x1000)] ∧
        gather Pc.held s.threads = [headerOnly 0x2000] ∧ s.list = [headerOnly 0x3000] := by
    decide
  obtain ⟨s, reach, submitted, tokens, held, list⟩ := reachable_of_replay _ replay
  exact ⟨s, reach, submitted, tokens, held, list, submittedInOrder_of_reachable reach⟩

end KvmGuestDrivers.VioGpu
