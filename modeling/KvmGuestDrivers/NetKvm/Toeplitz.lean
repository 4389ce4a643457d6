/-
# NetKvm.Toeplitz -- the receive-side scaling hash

`ToeplitzHash` hashes a list of chunks with a key of 40 bytes.  For every bit of the input it
adds the 32 bits of the key that are in a register, if the bit is set, and shifts the next bit
of the key into the register.

`toeplitz` is the hash by positions: the exclusive or, over the positions of the set bits, of the
32 bits of the key that start there.  That the register holds just these bits when a position is
reached is the invariant (`Slid`) of the loops; a chunk boundary is nothing to it.

A read past the end of the key has no result in the model.
-/
import KvmGuestDrivers.Theory.Bytes
import KvmGuestDrivers.Theory.Windows

namespace KvmGuestDrivers.NetKvm

set_option autoImplicit false

open Theory

/-! ## The function -/

abbrev HashSecretKey := Vector Byte 40

variable (byte : Byte)

/-- `TOEPLITZ_BYTE_HAS_BIT`, of a `char` that is promoted to `int`. -/
def toeplitzByteHasBit (bit : Nat) : Bool :=
  decide (byte.signExtend 32 &&& 1 <<< (7 - bit) ≠ 0)

/-- `TOEPLITZ_BYTE_BIT_STATE`, of a `char` that is promoted to `int`. -/
def toeplitzByteBitState (bit : Nat) : BitVec 32 :=
  (byte.signExtend 32).sshiftRight (7 - bit) &&& 1

/-- The variables of the loops; `nextKeyByte` is an index into the key. -/
structure ToeplitzState where
  res : BitVec 32
  firstKeyWord : BitVec 32
  nextKeyByte : Nat

def toeplitzBit (keyByte : Byte) (s : ToeplitzState) (bit : Nat) : ToeplitzState :=
  { s with
    res := if toeplitzByteHasBit byte bit then s.res ^^^ s.firstKeyWord else s.res
    firstKeyWord := s.firstKeyWord <<< 1 ||| toeplitzByteBitState keyByte bit }

variable (key : HashSecretKey)

def toeplitzByte (s : ToeplitzState) (byte : Byte) : Option ToeplitzState :=
  key[s.nextKeyByte]?.map fun keyByte =>
    let after := (List.range 8).foldl (toeplitzBit byte keyByte) s
    { after with nextKeyByte := s.nextKeyByte + 1 }

def rtlUlongByteSwap (x : BitVec 32) : BitVec 32 :=
  x.extractLsb' 0 8 ++ x.extractLsb' 8 8 ++ x.extractLsb' 16 8 ++ x.extractLsb' 24 8

/-- `*(UINT32 *)fullKey`. -/
def keyUlong : BitVec 32 := key[3] ++ key[2] ++ key[1] ++ key[0]

variable (sgBuff : List (List Byte))

def toeplitzHash (key : HashSecretKey) : Option (BitVec 32) :=
  let start : ToeplitzState := ⟨0, rtlUlongByteSwap (keyUlong key), 4⟩
  (sgBuff.foldlM (fun s (chunk : List Byte) => chunk.foldlM (toeplitzByte key) s) start).map
    ToeplitzState.res

/-! ## The hash by positions -/

/-- The bits of a string of bytes, the most significant of each byte first. -/
def bitAt (bytes : List Byte) (i : Nat) : Bool := (bytes.getD (i / 8) 0).getMsbD (i % 8)

def keyWindow (i : Nat) : BitVec 32 := window 32 (bitAt key.toList) i

def toeplitz (input : List Byte) : BitVec 32 :=
  xorWhere (bitAt input) (keyWindow key) (8 * input.length)

/-! ## Bits of a byte -/

variable {bit : Nat}

theorem toeplitzByteHasBit_eq (lt : bit < 8) : toeplitzByteHasBit byte bit = byte.getMsbD bit := by
  have all : ∀ byte : Byte, ∀ bit : Fin 8,
      toeplitzByteHasBit byte bit.val = byte.getMsbD bit.val := by decide +kernel
  exact all byte ⟨bit, lt⟩

theorem toeplitzByteBitState_eq (lt : bit < 8) :
    toeplitzByteBitState byte bit = if byte.getMsbD bit then 1 else 0 := by
  have all : ∀ byte : Byte, ∀ bit : Fin 8,
      toeplitzByteBitState byte bit.val = if byte.getMsbD bit.val then 1 else 0 := by
    decide +kernel
  exact all byte ⟨bit, lt⟩

theorem shiftLeft_or_bit (word : BitVec 32) (bit : Bool) :
    word <<< 1 ||| (if bit then 1 else 0) = word.shiftConcat bit := by
  apply BitVec.eq_of_getLsbD_eq
  intro i lt
  rw [BitVec.getLsbD_shiftConcat, BitVec.getLsbD_or,
    BitVec.getLsbD_shiftLeft]
  cases i with
  | zero => cases bit <;> rfl
  | succ => cases bit <;> simp

theorem bitAt_of_getElem? {bytes : List Byte} {k bit : Nat} {byte : Byte}
    (here : bytes[k]? = some byte) (lt : bit < 8) :
    bitAt bytes (8 * k + bit) = byte.getMsbD bit := by
  have index : (8 * k + bit) / 8 = k := by omega
  have inside : (8 * k + bit) % 8 = bit := by omega
  rw [bitAt, index, inside, List.getD_eq_getElem?_getD, here, Option.getD_some]

/-! ## The first word of the key -/

theorem rtlUlongByteSwap_append (a b c d : Byte) :
    rtlUlongByteSwap (d ++ c ++ b ++ a) = a ++ b ++ c ++ d := by
  apply BitVec.eq_of_getLsbD_eq
  simp only [rtlUlongByteSwap, BitVec.getLsbD_append, BitVec.getLsbD_extractLsb']
  grind

theorem getLsbD_append_bytes (a b c d : Byte) {i : Nat} (lt : i < 32) :
    (a ++ b ++ c ++ d).getLsbD i = bitAt [a, b, c, d] (31 - i) := by
  simp only [bitAt]
  grind

theorem rtlUlongByteSwap_keyUlong : rtlUlongByteSwap (keyUlong key) = keyWindow key 0 := by
  have four (n : Nat) (lt : n < 4) :
      [key[0], key[1], key[2], key[3]].getD n 0 = key.toList.getD n 0 := by
    match n, lt with
    | 0, _ | 1, _ | 2, _ | 3, _ => simp
  apply BitVec.eq_of_getLsbD_eq
  intro i lt
  rw [keyUlong, rtlUlongByteSwap_append, getLsbD_append_bytes _ _ _ _ lt, keyWindow,
    getLsbD_window lt, zero_add, bitAt, bitAt, four _ (by omega)]

/-! ## The loops -/

theorem foldlM_chunks (s : ToeplitzState) :
    sgBuff.foldlM (fun s (chunk : List Byte) => chunk.foldlM (toeplitzByte key) s) s =
      sgBuff.flatten.foldlM (toeplitzByte key) s := by
  induction sgBuff generalizing s with
  | nil => rfl
  | cons _ _ ih =>
    rw [List.flatten_cons, List.foldlM_append, List.foldlM_cons]
    congr 1
    funext s'
    exact ih s'

/-- After `n` bits of the input the result is that of the positions passed, and the register
holds the window at the next one. -/
structure SlidBits (key : HashSecretKey) (input : List Byte) (n : Nat) (s : ToeplitzState) :
    Prop where
  res : s.res = xorWhere (bitAt input) (keyWindow key) n
  window : s.firstKeyWord = keyWindow key n

/-- The invariant of the outer loops, after `k` bytes. -/
structure Slid (key : HashSecretKey) (input : List Byte) (k : Nat) (s : ToeplitzState) : Prop where
  bits : SlidBits key input (8 * k) s
  next : s.nextKeyByte = 4 + k

section Loops

variable {key} {input : List Byte} {k : Nat} {s : ToeplitzState} {byte} {keyByte : Byte}

/-- One bit of the input moves the window of the key on. -/
theorem SlidBits.step (slid : SlidBits key input (8 * k + bit) s) (here : input[k]? = some byte)
    (there : key.toList[4 + k]? = some keyByte) (lt : bit < 8) :
    SlidBits key input (8 * k + (bit + 1)) (toeplitzBit byte keyByte s bit) := by
  have ahead : bitAt key.toList (8 * k + bit + 32) = keyByte.getMsbD bit := by
    rw [← bitAt_of_getElem? there lt]
    congr 1
    omega
  constructor
  · rw [← add_assoc, xorWhere_succ, bitAt_of_getElem? here lt, ← slid.res, ← slid.window,
      ← toeplitzByteHasBit_eq byte lt]
    rfl
  · show s.firstKeyWord <<< 1 ||| toeplitzByteBitState keyByte bit = _
    rw [toeplitzByteBitState_eq keyByte lt, shiftLeft_or_bit, slid.window, ← add_assoc,
      keyWindow, keyWindow, window_succ, ahead]

theorem SlidBits.run (slid : SlidBits key input (8 * k) s) (here : input[k]? = some byte)
    (there : key.toList[4 + k]? = some keyByte) {n : Nat} (le : n ≤ 8) :
    SlidBits key input (8 * k + n) ((List.range n).foldl (toeplitzBit byte keyByte) s) := by
  induction n with
  | zero => exact slid
  | succ n ih =>
    rw [List.range_succ, List.foldl_append]
    exact (ih (by omega)).step here there (by omega)

theorem Slid.step (slid : Slid key input k s) (here : input[k]? = some byte) (lt : k < 36) :
    ∃ s', toeplitzByte key s byte = some s' ∧ Slid key input (k + 1) s' := by
  obtain ⟨keyByte, read⟩ : ∃ keyByte, key[4 + k]? = some keyByte :=
    ⟨key[4 + k], Vector.getElem?_eq_getElem (by omega)⟩
  have there : key.toList[4 + k]? = some keyByte := by rw [Vector.getElem?_toList, read]
  have bits := slid.bits.run here there (Nat.le_refl 8)
  refine ⟨{ (List.range 8).foldl (toeplitzBit byte keyByte) s with nextKeyByte := 4 + k + 1 }, ?_,
    ⟨bits.res, bits.window⟩, rfl⟩
  rw [toeplitzByte, slid.next, read, Option.map_some]

theorem Slid.run {passed rest : List Byte} (slid : Slid key (passed ++ rest) passed.length s)
    (short : (passed ++ rest).length ≤ 36) :
    ∃ s', rest.foldlM (toeplitzByte key) s = some s' ∧
      Slid key (passed ++ rest) (passed ++ rest).length s' := by
  induction rest generalizing passed s with
  | nil =>
    rw [List.append_nil] at slid ⊢
    exact ⟨s, rfl, slid⟩
  | cons byte rest ih =>
    have here : (passed ++ byte :: rest)[passed.length]? = some byte := by
      rw [List.getElem?_append_right le_rfl, Nat.sub_self, List.getElem?_cons_zero]
    have room : passed.length < 36 := by
      rw [List.length_append, List.length_cons] at short
      omega
    obtain ⟨s', stepped, slid'⟩ := slid.step here room
    have regrouped : passed ++ byte :: rest = passed ++ [byte] ++ rest := by
      rw [List.append_assoc, List.singleton_append]
    have count : passed.length + 1 = (passed ++ [byte]).length := by
      rw [List.length_append, List.length_singleton]
    rw [regrouped, count] at slid'
    rw [regrouped] at short
    obtain ⟨s'', ran, final⟩ := ih slid' short
    refine ⟨s'', ?_, regrouped ▸ final⟩
    rw [List.foldlM_cons, stepped]
    exact ran

end Loops

variable {sgBuff}

/-- Input of up to 36 bytes has the hash of the definition. -/
theorem toeplitzHash_eq (short : sgBuff.flatten.length ≤ 36) :
    toeplitzHash sgBuff key = some (toeplitz key sgBuff.flatten) := by
  have start : Slid key ([] ++ sgBuff.flatten) ([] : List Byte).length
      ⟨0, rtlUlongByteSwap (keyUlong key), 4⟩ :=
    ⟨⟨rfl, rtlUlongByteSwap_keyUlong key⟩, rfl⟩
  obtain ⟨s, ran, slid⟩ := start.run short
  rw [toeplitzHash, foldlM_chunks, ran, Option.map_some, slid.bits.res]
  rfl

/-- **The software hash is the Toeplitz hash.**  For every key and all chunks of 36 bytes
together there is a result, so no byte past the key is read; it is the hash by positions of
the input, and does not depend on how that is cut into chunks. -/
theorem toeplitzHash_is_toeplitz (key : HashSecretKey) {sgBuff : List (List Byte)}
    (short : (sgBuff.map List.length).sum ≤ 36) :
    toeplitzHash sgBuff key = some (toeplitz key sgBuff.flatten) ∧
      ∀ sgBuff' : List (List Byte), sgBuff'.flatten = sgBuff.flatten →
        toeplitzHash sgBuff' key = toeplitzHash sgBuff key := by
  rw [← List.length_flatten] at short
  refine ⟨toeplitzHash_eq key short, ?_⟩
  intro sgBuff' same
  rw [toeplitzHash_eq key short, toeplitzHash_eq key (same ▸ short), same]

def testKey : HashSecretKey :=
  ⟨#[0x6d, 0x5a, 0x56, 0xda, 0x25, 0x5b, 0x0e, 0xc2, 0x41, 0x67,
    0x25, 0x3d, 0x43, 0xa3, 0x8f, 0xb0, 0xd0, 0xca, 0x2b, 0xcb,
    0xae, 0x7b, 0x30, 0xb4, 0x77, 0xcb, 0x2d, 0xa3, 0x80, 0x30,
    0xf2, 0x0c, 0x6a, 0x42, 0xb7, 0x3b, 0xbe, 0xac, 0x01, 0xfa], rfl⟩

/-- A line of that test: the addresses in one chunk and the ports in another. -/
theorem toeplitzHash_is_toeplitz_testData :
    toeplitzHash [[66, 9, 149, 187, 161, 142, 100, 80], [0x0a, 0xea, 0x06, 0xe6]] testKey =
        some 0x51ccc178 ∧
      toeplitz testKey [66, 9, 149, 187, 161, 142, 100, 80, 0x0a, 0xea, 0x06, 0xe6] =
        0x51ccc178 := by
  have computed : toeplitzHash [[66, 9, 149, 187, 161, 142, 100, 80], [0x0a, 0xea, 0x06, 0xe6]]
      testKey = some 0x51ccc178 := by decide +kernel
  have general := (@toeplitzHash_is_toeplitz testKey
    [[66, 9, 149, 187, 161, 142, 100, 80], [0x0a, 0xea, 0x06, 0xe6]] (by decide)).1
  exact ⟨computed, Option.some.inj (general.symm.trans computed)⟩

end KvmGuestDrivers.NetKvm
