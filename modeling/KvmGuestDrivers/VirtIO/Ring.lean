/-
# VirtIO.Ring -- what the split and the packed ring share

The caller's side of `virtqueue_add_buf` (the scatter-gather array, the request
and its indirect area), the result codes, the ways a call can fail to return, and
`vring_need_event`, of which both ring files carry the same copy.
-/
import KvmGuestDrivers.Theory.Counter

namespace KvmGuestDrivers.VirtIO

set_option autoImplicit false

open Theory

/-- How a ring function can fail to return to its caller. -/
inductive Fault where
  /-- `BUG_ON` / `BAD_RING`: `KeBugCheck` stops the system. -/
  | bugCheck
  | hang
  deriving DecidableEq

def faultOf {β : Type} : Except Fault β → Option Fault
  | .error e => some e
  | .ok _ => none

theorem eq_error_of_faultOf {β : Type} {r : Except Fault β} {e : Fault}
    (fault : faultOf r = some e) : r = .error e := by
  cases r with
  | error => exact congrArg _ (Option.some.inj fault)
  | ok => cases fault

def vqAddBufferSuccess : Int := 0

def pageSize : Nat := 4096

/-- `ENOSPC` of `osdep.h`; `add_buf` answers its negation when the ring is full. -/
def enospc : Int := 28

/-- `struct VirtIOBufferDescriptor`, one element of the caller's `sg` array. -/
structure Scatterlist where
  physAddr : Nat
  length : Nat

/-- The arguments of a call of `add_buf` with at least one buffer (`out + in` is
computed in 32 bits).  `data` is the `opaque` pointer and `indirect` the physical
address of the indirect area; `none` stands for `NULL`. -/
structure BufferRequest (α : Type) where
  sg : Nat → Scatterlist
  outNum : Nat
  inNum : Nat
  data : Option α
  indirect : Option Nat
  total_pos : 0 < (outNum + inNum) % 2 ^ 32

namespace BufferRequest

variable {α : Type}

variable (r : BufferRequest α)

def total : Nat := (r.outNum + r.inNum) % 2 ^ 32

theorem pos : 0 < r.total := r.total_pos

def HasOpaque : Prop := r.data.isSome = true

instance : DecidablePred (HasOpaque (α := α)) := fun r =>
  inferInstanceAs (Decidable (r.data.isSome = true))

/-- The buffers fit the indirect area handed in.  Callers hand in one page (256
entries, `virtio_get_indirect_page_capacity`) or a few (viofs: 1024 entries); what
the ring code needs is that their number fits 16 bits. -/
def IndirectFits : Prop := r.indirect ≠ none → r.total < 2 ^ 16

/-- Descriptors the request takes: one for an indirect area, else one a buffer. -/
def cost : Nat := if r.indirect.isSome then 1 else r.total

theorem cost_pos : 0 < r.cost := by
  unfold cost
  split
  · exact Nat.one_pos
  · exact r.pos

end BufferRequest

def oneBuffer (data : Option Unit) : BufferRequest Unit :=
  ⟨fun _ => ⟨0x1000, 512⟩, 1, 0, data, none, by decide⟩

def twoBuffers : BufferRequest Unit :=
  ⟨fun i => ⟨0x1000 + 512 * i, 512⟩, 2, 0, some (), none, by decide⟩

/-- `for (i = 0; i < bound; i++)` over a `u16` counter. -/
def forU16 {σ : Type} (bound : Nat) (body : Nat → σ → σ) (s : σ) : Option σ :=
  forWrapped (2 ^ 16) bound body (2 ^ 16) 0 s

theorem forU16_eq {σ : Type} {bound : Nat} (reach : bound < 2 ^ 16) (body : Nat → σ → σ) (s : σ) :
    forU16 bound body s = some (iterFrom body bound 0 s) :=
  forWrapped_eq body reach (Nat.zero_le _) (le_of_lt reach) s

theorem forU16_diverges {σ : Type} {bound : Nat} (beyond : 2 ^ 16 ≤ bound)
    (body : Nat → σ → σ) (s : σ) : forU16 bound body s = none :=
  forWrapped_diverges body (by decide) beyond (by decide) _ s

/-- `vring_need_event`: all three indices are 16 bits wide and both differences
are truncated to 16 bits. -/
def vringNeedEvent (eventIdx newIdx old : Nat) : Bool :=
  decide (((newIdx : Int) - eventIdx - 1) % 2 ^ 16 < ((newIdx : Int) - old) % 2 ^ 16)

end KvmGuestDrivers.VirtIO
