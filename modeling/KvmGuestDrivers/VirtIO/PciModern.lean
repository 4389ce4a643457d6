/-
# VirtIO.PciModern -- what a modern device's configuration lets the driver map and read

`vio_modern_map_capability` checks the part of a capability that the driver needs, and maps the part
that it has asked for; for the notification area and the device configuration the latter is as long
as the capability says.  `virtio_cread_many` reads the fields of the device configuration until it
has seen the same generation before and after.
-/
import KvmGuestDrivers.VirtIO.Ring

namespace KvmGuestDrivers.VirtIO

set_option autoImplicit false

/-! ## Mapping a capability -/

/-- `offset` and `length` of a `struct virtio_pci_cap`, and the length of its BAR. -/
structure PciCap where
  offset : Nat
  length : Nat
  resourceLen : Nat

structure MapArgs where
  minlen : Nat
  alignment : Nat
  start : Nat
  size : Nat

/-- `vio_modern_map_capability`, up to `pci_map_address_range`: the offset and the length that it is
called with.  `*len` is that length.  `size_t` has the values below `sizeT`. -/
def vioModernMapCapability (sizeT : Nat) (cap : PciCap) (args : MapArgs) : Option (Nat × Nat) :=
  if cap.length < (args.start + args.minlen) % sizeT then none
  else
    let barLength := (cap.length + (2 ^ 32 - args.start)) % 2 ^ 32
    let barOffset := (cap.offset + args.start) % 2 ^ 32
    if barOffset &&& (args.alignment - 1) ≠ 0 then none
    else if cap.resourceLen < (barOffset + args.minlen) % sizeT then none
    else some (barOffset, min barLength args.size)

/-- The calls, with `off` and `multiplier` those of the queue. -/
inductive MapUse where
  | common
  | isr
  | notify
  | deviceConfig
  | queueNotify (off multiplier : Nat)

namespace MapUse

def args (cap : PciCap) : MapUse → MapArgs
  | common => ⟨56, 4, 0, 56⟩
  | isr => ⟨1, 1, 0, 1⟩
  | notify => ⟨2, 2, 0, cap.length⟩
  | deviceConfig => ⟨0, 4, 0, 4096⟩
  | queueNotify off multiplier => ⟨2, 2, off * multiplier % 2 ^ 32, 2⟩

def WantsLen : MapUse → Prop
  | notify | deviceConfig => True
  | common | isr | queueNotify .. => False

end MapUse

/-- The tests that end the call with nothing mapped. -/
def MapRefused (sizeT : Nat) (cap : PciCap) (args : MapArgs) : Prop :=
  cap.length < (args.start + args.minlen) % sizeT ∨
    (cap.offset + args.start) % 2 ^ 32 &&& (args.alignment - 1) ≠ 0 ∨
    cap.resourceLen < ((cap.offset + args.start) % 2 ^ 32 + args.minlen) % sizeT

/-- What a call needs that no test refuses.  One with a `len` maps as much of the capability as
`size` allows, and that has to fit the BAR.  For the others the test of the BAR is enough unless its
sum wraps, which it can where `size_t` has 32 bits; then the rest of the capability has to fit. -/
def MapFits (sizeT : Nat) (cap : PciCap) : MapUse → Prop
  | .notify => cap.offset + cap.length ≤ cap.resourceLen
  | .deviceConfig => cap.offset + min cap.length 4096 ≤ cap.resourceLen
  | use => let args := use.args cap
    (cap.offset + args.start) % 2 ^ 32 + args.minlen < sizeT ∨
      (cap.offset + args.start) % 2 ^ 32 + (cap.length + (2 ^ 32 - args.start)) % 2 ^ 32 ≤
        cap.resourceLen

theorem vioModernMapCapability_eq {sizeT : Nat} {cap : PciCap} {args : MapArgs}
    (passed : ¬ MapRefused sizeT cap args) :
    vioModernMapCapability sizeT cap args = some ((cap.offset + args.start) % 2 ^ 32,
      min ((cap.length + (2 ^ 32 - args.start)) % 2 ^ 32) args.size) := by
  simp only [MapRefused, not_or] at passed
  simp only [vioModernMapCapability, passed, if_false]

theorem vioModernMapCapability_refused {sizeT : Nat} {cap : PciCap} {args : MapArgs}
    (refused : MapRefused sizeT cap args) : vioModernMapCapability sizeT cap args = none := by
  simp only [vioModernMapCapability]
  split_ifs with short odd beyond
  · rfl
  · rfl
  · rfl
  · simp only [MapRefused, short, odd, beyond, or_self] at refused

/-- **What is mapped lies inside the BAR** exactly when a test refuses the call or the
capability fits, in builds of either width. -/
theorem mapped_inside {sizeT : Nat} {cap : PciCap} (use : MapUse)
    (width : sizeT = 2 ^ 32 ∨ sizeT = 2 ^ 64) (offsetWord : cap.offset < 2 ^ 32)
    (lengthWord : cap.length < 2 ^ 32) (resource : cap.resourceLen < sizeT) :
    (∀ offset length,
      vioModernMapCapability sizeT cap (use.args cap) = some (offset, length) →
      offset + length ≤ cap.resourceLen ∧
        (use.WantsLen → length ≤ min cap.length (cap.resourceLen - cap.offset))) ↔
    MapRefused sizeT cap (use.args cap) ∨ MapFits sizeT cap use := by
  by_cases refused : MapRefused sizeT cap (use.args cap)
  · simp [vioModernMapCapability_refused refused, refused]
  · rw [vioModernMapCapability_eq refused, or_iff_right refused]
    simp only [MapRefused, not_or, not_lt] at refused
    obtain ⟨long, -, reaches⟩ := refused
    simp only [Option.some.injEq, Prod.mk.injEq, and_imp, forall_apply_eq_imp_iff, forall_eq']
    rcases width with rfl | rfl <;> cases use with
    | common | isr | notify | deviceConfig =>
      simp only [MapUse.args, MapUse.WantsLen, MapFits, true_implies, false_implies,
        and_true] at *
      omega
    | queueNotify off multiplier =>
      simp only [MapUse.args, MapUse.WantsLen, MapFits, false_implies, and_true] at *
      generalize off * multiplier % 2 ^ 32 = start at *
      omega

/-- The whole configuration of a device, in the second page of its BAR. -/
theorem mapped_inside_config : let cap : PciCap := ⟨4096, 64, 8192⟩
    vioModernMapCapability (2 ^ 64) cap (MapUse.deviceConfig.args cap) = some (4096, 64) ∧
      4096 + 64 ≤ cap.resourceLen := by
  intro cap
  have mapped : vioModernMapCapability (2 ^ 64) cap (MapUse.deviceConfig.args cap) =
      some (4096, 64) := by
    decide
  have fits : cap.offset + min cap.length 4096 ≤ cap.resourceLen := by decide
  exact ⟨mapped, ((mapped_inside .deviceConfig (Or.inr rfl) (by decide) (by decide)
    (by decide)).mpr (Or.inr fits) _ _ mapped).1⟩

/-- A configuration of 4096 bytes in a BAR of 16. -/
theorem config_mapped_beyond : let cap : PciCap := ⟨0, 4096, 16⟩
    vioModernMapCapability (2 ^ 64) cap (MapUse.deviceConfig.args cap) = some (0, 4096) ∧
      cap.resourceLen < 0 + 4096 := by
  decide

/-! ## Reading several fields -/

/-- The configuration space as it is at each access of a run.  Every change moves the generation, an
8-bit counter. -/
structure ConfigRun where
  byte : Nat → Nat → BitVec 8
  changes : Nat → Nat
  later : ∀ {m n}, m ≤ n → changes m ≤ changes n
  same : ∀ {m n}, changes m = changes n → byte m = byte n

/-- `config`, whether it is mapped and how long it is. -/
structure MappedConfig where
  mapped : Bool
  configLen : Nat

section

variable (config : MappedConfig) (run : ConfigRun) (offset count bytes : Nat)

/-- `vio_modern_get_config` at access `now`; `none` when it leaves the buffer alone. -/
def vioModernGetConfig (now offset len : Nat) : Option (List (BitVec 8)) :=
  if config.mapped = false then none
  else if config.configLen < (offset + len) % 2 ^ 32 then none
  else if len = 1 ∨ len = 2 ∨ len = 4 then
    some ((List.range len).map fun k => run.byte now (offset + k))
  else none

def creadField (now i : Nat) : Option (List (BitVec 8)) :=
  vioModernGetConfig config run now ((offset + bytes * i) % 2 ^ 32) bytes

def vioModernGetGeneration (now : Nat) : Nat := run.changes now % 2 ^ 8

/-- The loop of `virtio_cread_many`, after access `now` has read the generation; with the fields it
returns that access for its last pass. -/
def creadLoop : Nat → Nat → Nat → Option (Nat × List (Option (List (BitVec 8))))
  | 0, _, _ => none
  | fuel + 1, now, old =>
    if vioModernGetGeneration run (now + 1 + count) ≠ old then
      creadLoop fuel (now + 1 + count) (vioModernGetGeneration run (now + 1 + count))
    else some (now, (List.range count).map fun i =>
      creadField config run offset bytes (now + 1 + i) i)

def virtioCreadMany (fuel : Nat) : Option (Nat × List (Option (List (BitVec 8)))) :=
  creadLoop config run offset count bytes fuel 0 (vioModernGetGeneration run 0)

end

variable {config : MappedConfig} {run : ConfigRun} {offset count bytes : Nat}

theorem changes_eq {first last : Nat} (order : first ≤ last)
    (few : run.changes last < run.changes first + 2 ^ 8)
    (same : vioModernGetGeneration run last = vioModernGetGeneration run first) :
    run.changes last = run.changes first := by
  have later := run.later order
  simp only [vioModernGetGeneration] at same
  omega

theorem creadLoop_last {fuel now start : Nat} {fields : List (Option (List (BitVec 8)))}
    (read : creadLoop config run offset count bytes fuel now
      (vioModernGetGeneration run now) = some (start, fields)) :
    vioModernGetGeneration run (start + 1 + count) = vioModernGetGeneration run start ∧
      fields = (List.range count).map fun i =>
        creadField config run offset bytes (start + 1 + i) i := by
  induction fuel generalizing now with
  | zero => cases read
  | succ _ ih =>
    unfold creadLoop at read
    split at read
    · exact ih read
    · rename_i equal
      cases read
      exact ⟨not_not.mp equal, rfl⟩

theorem creadLoop_returns {quiet : Nat}
    (still : ∀ n, quiet ≤ n → run.changes n = run.changes quiet) (n now : Nat)
    (near : quiet ≤ now + n) :
    ∃ fuel result, creadLoop config run offset count bytes fuel now
      (vioModernGetGeneration run now) = some result := by
  induction n generalizing now with
  | zero =>
    refine ⟨1, _, if_neg (not_not.mpr ?_)⟩
    rw [vioModernGetGeneration, still _ (by omega), ← still now (by omega)]
    rfl
  | succ n ih =>
    obtain ⟨fuel, result, read⟩ := ih (now + 1 + count) (by omega)
    by_cases equal : vioModernGetGeneration run (now + 1 + count) = vioModernGetGeneration run now
    · exact ⟨1, _, if_neg (not_not.mpr equal)⟩
    · exact ⟨fuel + 1, result, (if_pos equal).trans read⟩

/-- The reads that `vio_modern_get_config` makes; the others leave the buffer alone. -/
def MappedConfig.Readable (config : MappedConfig) (offset len : Nat) : Prop :=
  config.mapped = true ∧ (offset + len) % 2 ^ 32 ≤ config.configLen ∧ (len = 1 ∨ len = 2 ∨ len = 4)

instance (offset len : Nat) : Decidable (config.Readable offset len) :=
  inferInstanceAs (Decidable (_ ∧ _ ∧ _))

theorem vioModernGetConfig_eq (now offset len : Nat) :
    vioModernGetConfig config run now offset len = if config.Readable offset len then
      some ((List.range len).map fun k => run.byte now (offset + k)) else none := by
  unfold vioModernGetConfig MappedConfig.Readable
  split_ifs <;> grind

/-- Consecutive pieces of equal length. -/
theorem flatMap_pieces {α : Type} (f : Nat → α) (bytes count : Nat) :
    ((List.range count).flatMap fun i => (List.range bytes).map fun k => f (bytes * i + k)) =
      (List.range (bytes * count)).map f := by
  induction count with
  | zero => rfl
  | succ count ih =>
    rw [List.range_succ, List.flatMap_append, ih, Nat.mul_succ, List.range_add, List.map_append,
      List.map_map]
    simp only [List.flatMap_singleton, Function.comp_def]

/-- **`virtio_cread_many` returns the bytes of one instant** of its last pass, if fewer than 256
changes are made in that pass: field by field, and as one piece of the configuration space where all
of it can be read.  It does return once there are no more changes. -/
theorem cread_snapshot (config : MappedConfig) (run : ConfigRun) (offset count bytes : Nat) :
    (∀ fuel start fields,
      virtioCreadMany config run offset count bytes fuel = some (start, fields) →
      run.changes (start + 1 + count) < run.changes start + 2 ^ 8 →
      ∃ now, start ≤ now ∧ now ≤ start + 1 + count ∧
        (fields = (List.range count).map fun i =>
          let field := (offset + bytes * i) % 2 ^ 32
          if config.Readable field bytes then
            some ((List.range bytes).map fun k => run.byte now (field + k))
          else none) ∧
        (config.mapped = true → bytes = 1 ∨ bytes = 2 ∨ bytes = 4 →
          offset + bytes * count ≤ config.configLen → offset + bytes * count < 2 ^ 32 →
          fields.flatMap (·.getD []) =
            (List.range (bytes * count)).map fun k => run.byte now (offset + k))) ∧
    ∀ quiet, (∀ n, quiet ≤ n → run.changes n = run.changes quiet) →
      ∃ fuel result, virtioCreadMany config run offset count bytes fuel = some result := by
  constructor
  · intro fuel start fields read few
    obtain ⟨equal, rfl⟩ := creadLoop_last read
    have still := changes_eq (by omega) few equal
    have instant : ∀ i < count, run.byte (start + 1 + i) = run.byte start := by
      intro i inside
      have early := run.later (show start ≤ start + 1 + i by omega)
      have late := run.later (show start + 1 + i ≤ start + 1 + count by omega)
      exact run.same (by omega)
    refine ⟨start, le_rfl, by omega, ?_, ?_⟩
    · refine List.map_congr_left fun i member => ?_
      rw [creadField, vioModernGetConfig_eq, instant i (List.mem_range.mp member)]
    · intro mapped width inside word
      rw [← flatMap_pieces (fun k => run.byte start (offset + k)), List.flatMap_map]
      refine congrArg List.flatten (List.map_congr_left fun i member => ?_)
      have below : bytes * i + bytes ≤ bytes * count := by
        rw [← Nat.mul_succ]
        exact Nat.mul_le_mul_left bytes (List.mem_range.mp member)
      have field : (offset + bytes * i) % 2 ^ 32 = offset + bytes * i :=
        Nat.mod_eq_of_lt (by omega)
      have readable : config.Readable (offset + bytes * i) bytes :=
        ⟨mapped, by rw [Nat.mod_eq_of_lt (by omega)]; omega, width⟩
      rw [creadField, vioModernGetConfig_eq, instant i (List.mem_range.mp member), field,
        if_pos readable]
      simp only [Option.getD_some, Nat.add_assoc]
  · intro quiet still
    exact creadLoop_returns still quiet 0 (by omega)

/-- A space of four bytes that all change between the reads of its two fields. -/
def changingRun : ConfigRun where
  byte now k := BitVec.ofNat 8 (if now < 2 then k else k + 16)
  changes now := if now < 2 then 0 else 1
  later := by
    intro m n order
    split_ifs <;> omega
  same := by
    intro m n equal
    funext k
    split_ifs at * <;> rfl

/-- The first pass has the old first field and the new second one, and is made again. -/
theorem cread_snapshot_changed :
    virtioCreadMany ⟨true, 4⟩ changingRun 0 2 2 2 = some (3, [some [16, 17], some [18, 19]]) ∧
      ∃ now, 3 ≤ now ∧ now ≤ 6 ∧ [16, 17, 18, 19] =
        (List.range 4).map fun k => changingRun.byte now (0 + k) := by
  have read : virtioCreadMany ⟨true, 4⟩ changingRun 0 2 2 2 =
      some (3, [some [16, 17], some [18, 19]]) := by
    decide
  obtain ⟨now, early, late, -, whole⟩ :=
    (cread_snapshot ⟨true, 4⟩ changingRun 0 2 2).1 2 3 _ read (by decide)
  exact ⟨read, now, early, late,
    whole rfl (Or.inr (Or.inl rfl)) (Nat.le_refl 4) (by decide)⟩

end KvmGuestDrivers.VirtIO
