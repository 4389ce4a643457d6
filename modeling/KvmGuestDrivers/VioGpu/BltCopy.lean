/-
# VioGpu.BltCopy -- the memory a CPU blit touches

`VioGpuBltCopyRegion` clips a region to the destination rectangle and to both surfaces, in `LONG`s
that wrap, and compares what is left with the sizes of the two mappings in 64 bits.
-/
import KvmGuestDrivers.Theory.Calls

namespace KvmGuestDrivers.VioGpu

set_option autoImplicit false

open Theory

structure Rect where
  left : BitVec 32
  top : BitVec 32
  right : BitVec 32
  bottom : BitVec 32

/-- What is read of an allocation, and the size of its mapping. -/
structure BltSurface where
  width : BitVec 32
  height : BitVec 32
  stride : BitVec 32
  mapSize : BitVec 64

/-- The rectangles that are left, in pixels. -/
structure BltExtent where
  srcLeft : Nat
  srcTop : Nat
  dstLeft : Nat
  dstTop : Nat
  width : Nat
  height : Nat

def bltBytesPerPixel : Nat := 4

section

variable (src dst : BltSurface) (clampRect region : Rect) (dx dy : BitVec 32)

/-- `VioGpuBltCopyRegion`, up to the offsets. -/
def bltClip : Option BltExtent :=
  let rl := max region.left.toInt clampRect.left.toInt
  let rt := max region.top.toInt clampRect.top.toInt
  let rr := min region.right.toInt clampRect.right.toInt
  let rb := min region.bottom.toInt clampRect.bottom.toInt
  if rr ≤ rl ∨ rb ≤ rt then none
  else
    let sl := long (rl + dx.toInt)
    let st := long (rt + dy.toInt)
    if rl < 0 ∨ rt < 0 ∨ sl < 0 ∨ st < 0 then none
    else
      let w := min (min (long (rr - rl)) (long (dst.width.toInt - rl)))
        (long (src.width.toInt - sl))
      let h := min (min (long (rb - rt)) (long (dst.height.toInt - rt)))
        (long (src.height.toInt - st))
      if w ≤ 0 ∨ h ≤ 0 then none
      else if src.stride.toNat < w.toNat * bltBytesPerPixel ∨
          dst.stride.toNat < w.toNat * bltBytesPerPixel then none
      else some ⟨sl.toNat, st.toNat, rl.toNat, rt.toNat, w.toNat, h.toNat⟩

/-- `src_offset` and `dst_offset`, before they are cut to 64 bits. -/
def bltOffset (s : BltSurface) (left top : Nat) : Nat :=
  top * s.stride.toNat + left * bltBytesPerPixel

/-- `src_required` and `dst_required`, before they are cut to 64 bits. -/
def bltRequired (s : BltSurface) (left top : Nat) (e : BltExtent) : Nat :=
  bltOffset s left top + (e.height - 1) * s.stride.toNat + e.width * bltBytesPerPixel

/-- `VioGpuBltCopyRegion`: the extent that is copied. -/
def vioGpuBltCopyRegion : Option BltExtent :=
  (bltClip src dst clampRect region dx dy).filter fun e =>
    bltRequired src e.srcLeft e.srcTop e % 2 ^ 64 ≤ src.mapSize.toNat ∧
      bltRequired dst e.dstLeft e.dstTop e % 2 ^ 64 ≤ dst.mapSize.toNat

end

def bltByte (s : BltSurface) (left top y x : Nat) : Nat :=
  bltOffset s left top % 2 ^ 64 + y * s.stride.toNat + x

/-- Where a rectangle lies that clipping has left, whatever has wrapped. -/
structure Clipped (left top width height : Nat) : Prop where
  left : left < 2 ^ 31
  top : top < 2 ^ 31
  width : width < 2 ^ 31
  height : 0 < height ∧ height < 2 ^ 31

variable {src dst : BltSurface} {clampRect region : Rect} {dx dy : BitVec 32} {e : BltExtent}

theorem clipped_of_bltClip (clip : bltClip src dst clampRect region dx dy = some e) :
    Clipped e.srcLeft e.srcTop e.width e.height ∧ Clipped e.dstLeft e.dstTop e.width e.height := by
  have bound (x : Int) : long x < 2 ^ 31 := by
    have lt := Int.bmod_lt (x := x) (m := 2 ^ 32) (by decide)
    simp only [long]
    omega
  simp only [bltClip] at clip
  repeat' split at clip
  all_goals cases clip
  have sl := bound (max region.left.toInt clampRect.left.toInt + dx.toInt)
  have st := bound (max region.top.toInt clampRect.top.toInt + dy.toInt)
  have w := bound (min region.right.toInt clampRect.right.toInt -
    max region.left.toInt clampRect.left.toInt)
  have h := bound (min region.bottom.toInt clampRect.bottom.toInt -
    max region.top.toInt clampRect.top.toInt)
  have regionLeft := region.left.toInt_lt
  have regionTop := region.top.toInt_lt
  have clampLeft := clampRect.left.toInt_lt
  have clampTop := clampRect.top.toInt_lt
  refine ⟨⟨?_, ?_, ?_, ?_⟩, ?_, ?_, ?_, ?_⟩ <;> dsimp only <;> omega

section

variable (s : BltSurface) {left top : Nat} (clipped : Clipped left top e.width e.height)

include clipped

theorem bltRequired_lt : bltRequired s left top e < 2 ^ 64 := by
  obtain ⟨leftLt, topLt, widthLt, heightPos, heightLt⟩ := clipped
  have rows : (top + (e.height - 1)) * s.stride.toNat ≤ (2 ^ 32 - 3) * (2 ^ 32 - 1) :=
    Nat.mul_le_mul (by omega) (by omega)
  rw [Nat.add_mul] at rows
  simp only [bltRequired, bltOffset, bltBytesPerPixel]
  omega

theorem bltByte_lt (fits : bltRequired s left top e % 2 ^ 64 ≤ s.mapSize.toNat) {y x : Nat}
    (row : y < e.height) (column : x < e.width * bltBytesPerPixel) :
    bltByte s left top y x < s.mapSize.toNat := by
  have total := bltRequired_lt s clipped
  have before : y * s.stride.toNat ≤ (e.height - 1) * s.stride.toNat :=
    Nat.mul_le_mul_right _ (by omega)
  simp only [bltRequired] at total fits
  rw [bltByte]
  omega

end

/-- **A CPU blit touches nothing outside the two mappings**, and the sizes it compares with them are
the exact ones. -/
theorem blt_inside (src dst : BltSurface) (clampRect region : Rect) (dx dy : BitVec 32)
    (e : BltExtent) :
    (bltClip src dst clampRect region dx dy = some e →
      bltRequired src e.srcLeft e.srcTop e < 2 ^ 64 ∧
        bltRequired dst e.dstLeft e.dstTop e < 2 ^ 64) ∧
    (vioGpuBltCopyRegion src dst clampRect region dx dy = some e →
      ∀ y < e.height, ∀ x < e.width * bltBytesPerPixel,
        bltByte src e.srcLeft e.srcTop y x < src.mapSize.toNat ∧
          bltByte dst e.dstLeft e.dstTop y x < dst.mapSize.toNat) := by
  constructor
  · intro clip
    obtain ⟨source, destination⟩ := clipped_of_bltClip clip
    exact ⟨bltRequired_lt src source, bltRequired_lt dst destination⟩
  · intro copied y row x column
    obtain ⟨clip, fits⟩ := Option.filter_eq_some_iff.mp copied
    obtain ⟨source, destination⟩ := clipped_of_bltClip clip
    simp only [decide_eq_true_eq] at fits
    exact ⟨bltByte_lt src source fits.1 row column, bltByte_lt dst destination fits.2 row column⟩

/-- Of eight rows that are asked for, three lie in the destination; its last byte is written. -/
theorem blt_inside_corner :
    vioGpuBltCopyRegion ⟨8, 8, 32, 256⟩ ⟨4, 4, 16, 64⟩ ⟨0, 0, 4, 4⟩ ⟨1, 1, 9, 9⟩ 2 2 =
        some ⟨3, 3, 1, 1, 3, 3⟩ ∧
      bltByte ⟨4, 4, 16, 64⟩ 1 1 2 11 = 63 ∧ bltByte ⟨8, 8, 32, 256⟩ 3 3 2 11 < 256 :=
  ⟨rfl, rfl, ((blt_inside ⟨8, 8, 32, 256⟩ ⟨4, 4, 16, 64⟩ ⟨0, 0, 4, 4⟩ ⟨1, 1, 9, 9⟩ 2 2
    ⟨3, 3, 1, 1, 3, 3⟩).2 rfl 2 (by decide) 11 (by decide)).1⟩

end KvmGuestDrivers.VioGpu
