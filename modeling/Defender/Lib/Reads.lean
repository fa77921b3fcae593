import Mathlib.Algebra.Group.Nat.Defs
import Mathlib.Algebra.Group.Int.Defs
import Defender.Lib.Wire
import Defender.Lib.CString

/-!
# Reading a Buffer

A program that is given a buffer and reads words, strings and parts of it by
pointers that it computes. Pointers are counted from the beginning of the buffer and
wrap at the end of the address space, and a read that is not wholly in the buffer is
a fault.

The lowest addresses of a process are never given out, so that a few bytes behind
something that is in the buffer do not wrap (`wrap_add`). That is all that is used of
the width of a pointer.

## Main definitions

* `Buffer`, `Buffer.wrap`: The bytes, and where a pointer points to.
* `Buffer.lowest`: A buffer with given bytes.
* `Buffer.move`, `Buffer.sizeT`: Arithmetic on pointers and sizes.
* `Buffer.Has`, `Buffer.HasString`: Bytes, and strings, that are in the buffer.
* `readByte`, `readWord`, `readDword`, `readBytes`, `readString`: Reads.
* `writeBytes`: A write.

## Theorems

* `safe_readWord_bind`, `safe_readDword_bind`, `safe_readBytes_bind`,
  `safe_readString_bind`: A read, and what is done with the result.
* `readByte_eq_ok`, `readWord_eq_ok`, `readDword_eq_ok`: Reads of what is there.
* `Buffer.wrap_of_lt`, `Buffer.sizeT_natCast`, `Buffer.move_natCast`: What does not wrap.
* `Buffer.wrap_add`, `Buffer.Has.wrap_add`: A few bytes further.
* `Buffer.Has.append`, `Buffer.Has.behind`: Fields one behind the other.
* `Buffer.has_iff_forall`: Bytes, one by one.
* `Buffer.has_add_iff`: The beginning and the field behind it.
* `Buffer.Has.field`: A field of what is in the buffer.
-/

namespace Defender

namespace Reads

open Wire CString

/-- A buffer: what is in it, the number of bits of a pointer, and where it begins. -/
structure Buffer where
  bytes : List UInt8
  bits : Nat
  address : Nat
  wide : 32 ≤ bits
  low : 0x10000 ≤ address
  fits : address + bytes.length ≤ 2 ^ bits

theorem wide_64 : 32 ≤ 64 := by decide

theorem low_lowest : 0x10000 ≤ 0x10000 := Nat.le_refl _

namespace Buffer

/-- A buffer at the lowest address of a process with pointers of 64 bits. -/
def lowest (bytes : List UInt8) (fits : 0x10000 + bytes.length ≤ 2 ^ 64) : Buffer where
  bytes := bytes
  bits := 64
  address := 0x10000
  wide := wide_64
  low := low_lowest
  fits := fits

@[simp] theorem lowest_bytes (bytes : List UInt8) (fits : 0x10000 + bytes.length ≤ 2 ^ 64) :
    (lowest bytes fits).bytes = bytes := rfl

/-- Where a pointer points to. -/
def wrap (b : Buffer) (p : Nat) : Nat :=
  p % 2 ^ b.bits

/-- A pointer that is moved by a signed number of bytes. -/
def move (b : Buffer) (p : Nat) (k : Int) : Nat :=
  ((p + k) % 2 ^ b.bits).toNat

/-- A signed number that is converted to `size_t`. -/
def sizeT (b : Buffer) (k : Int) : Nat :=
  (k % 2 ^ b.bits).toNat

/-- The bytes at a pointer are in the buffer. -/
def Has (b : Buffer) (p n : Nat) : Prop :=
  b.wrap p + n ≤ b.bytes.length

/-- The string at a pointer ends in the buffer. -/
def HasString (b : Buffer) (p : Nat) : Prop :=
  0 ∈ b.bytes.drop (b.wrap p)

instance (b : Buffer) (p n : Nat) : Decidable (b.Has p n) :=
  inferInstanceAs (Decidable (_ ≤ _))

instance (b : Buffer) (p : Nat) : Decidable (b.HasString p) :=
  inferInstanceAs (Decidable (_ ∈ _))

/-- The byte at a pointer, the words, the bytes, and the string. -/
def byte (b : Buffer) (p : Nat) : UInt8 :=
  byteAt b.bytes (b.wrap p)

def word (b : Buffer) (p : Nat) : UInt16 :=
  word16At b.bytes (b.wrap p)

def dword (b : Buffer) (p : Nat) : UInt32 :=
  dwordAt b.bytes (b.wrap p)

def part (b : Buffer) (p n : Nat) : List UInt8 :=
  slice b.bytes (b.wrap p) n

def string (b : Buffer) (p : Nat) : List UInt8 :=
  cstr (b.bytes.drop (b.wrap p))

end Buffer

/-- A read, which gives what it reads if that is in the buffer. -/
def readIf {α : Type} (inside : Prop) [Decidable inside] (a : α) : Except Fault α :=
  if inside then .ok a else .error .overrun

def readByte (b : Buffer) (p : Nat) : Except Fault UInt8 :=
  readIf (b.Has p 1) (b.byte p)

def readWord (b : Buffer) (p : Nat) : Except Fault UInt16 :=
  readIf (b.Has p 2) (b.word p)

def readDword (b : Buffer) (p : Nat) : Except Fault UInt32 :=
  readIf (b.Has p 4) (b.dword p)

def readBytes (b : Buffer) (p n : Nat) : Except Fault (List UInt8) :=
  readIf (b.Has p n) (b.part p n)

def readString (b : Buffer) (p : Nat) : Except Fault (List UInt8) :=
  readIf (b.HasString p) (b.string p)

/-- A write into memory that was allocated, from an offset on. -/
def writeBytes (m : List UInt8) (i : Nat) (d : List UInt8) : Except Fault (List UInt8) :=
  if i + d.length ≤ m.length then .ok (poke m i d) else .error .overrun

/-! ### Reads that do not fault -/

/-- A read is safe when what it reads is there, and the rest with what was read. -/
theorem safe_readIf_bind {α β : Type} (inside : Prop) [Decidable inside] (a : α)
    (f : α → Except Fault β) : Safe (readIf inside a >>= f) ↔ inside ∧ Safe (f a) := by
  unfold readIf
  by_cases h : inside
  · rw [if_pos h, safe_ok_bind]
    exact (and_iff_right h).symm
  · rw [if_neg h]
    exact iff_of_false (not_safe_error _) (fun hsafe => h hsafe.1)

theorem readIf_eq_ok {α : Type} {inside : Prop} [Decidable inside] (a : α) (h : inside) :
    readIf inside a = .ok a :=
  if_pos h

section

variable {β : Type} (b : Buffer) (p n : Nat)

theorem safe_readByte_bind (f : UInt8 → Except Fault β) :
    Safe (readByte b p >>= f) ↔ b.Has p 1 ∧ Safe (f (b.byte p)) :=
  safe_readIf_bind _ _ f

theorem safe_readWord_bind (f : UInt16 → Except Fault β) :
    Safe (readWord b p >>= f) ↔ b.Has p 2 ∧ Safe (f (b.word p)) :=
  safe_readIf_bind _ _ f

theorem safe_readDword_bind (f : UInt32 → Except Fault β) :
    Safe (readDword b p >>= f) ↔ b.Has p 4 ∧ Safe (f (b.dword p)) :=
  safe_readIf_bind _ _ f

theorem safe_readBytes_bind (f : List UInt8 → Except Fault β) :
    Safe (readBytes b p n >>= f) ↔ b.Has p n ∧ Safe (f (b.part p n)) :=
  safe_readIf_bind _ _ f

theorem safe_readString_bind (f : List UInt8 → Except Fault β) :
    Safe (readString b p >>= f) ↔ b.HasString p ∧ Safe (f (b.string p)) :=
  safe_readIf_bind _ _ f

end

section

variable {b : Buffer} {p : Nat}

theorem readByte_eq_ok (h : b.Has p 1) : readByte b p = .ok (b.byte p) :=
  readIf_eq_ok _ h

theorem readWord_eq_ok (h : b.Has p 2) : readWord b p = .ok (b.word p) :=
  readIf_eq_ok _ h

theorem readDword_eq_ok (h : b.Has p 4) : readDword b p = .ok (b.dword p) :=
  readIf_eq_ok _ h

theorem safe_readIf_iff {α : Type} (inside : Prop) [Decidable inside] (a : α) :
    Safe (readIf inside a) ↔ inside := by
  unfold readIf
  by_cases h : inside
  · rw [if_pos h]
    exact iff_of_true (safe_ok a) h
  · rw [if_neg h]
    exact iff_of_false (not_safe_error _) h

end

theorem writeBytes_eq_ok {m d : List UInt8} {i : Nat} (h : i + d.length ≤ m.length) :
    writeBytes m i d = .ok (poke m i d) :=
  if_pos h

theorem writeBytes_safe_iff (m : List UInt8) (i : Nat) (d : List UInt8) :
    Safe (writeBytes m i d) ↔ i + d.length ≤ m.length :=
  safe_readIf_iff _ _

/-! ### Pointers -/

namespace Buffer

variable {b : Buffer} {p n : Nat}

/-- A pointer has at least 32 bits. -/
theorem pow_le (b : Buffer) : 2 ^ 32 ≤ 2 ^ b.bits :=
  Nat.pow_le_pow_right (by decide) b.wide

theorem wrap_of_lt (h : p < 2 ^ 32) : b.wrap p = p :=
  Nat.mod_eq_of_lt (Nat.lt_of_lt_of_le h b.pow_le)

/-- Bytes at a pointer that does not wrap. -/
theorem has_iff_of_lt (h : p < 2 ^ 32) : b.Has p n ↔ p + n ≤ b.bytes.length := by
  rw [Has, wrap_of_lt h]

theorem sizeT_natCast (h : n < 2 ^ b.bits) : b.sizeT n = n := by
  unfold sizeT
  rw [Int.emod_eq_of_lt (Int.natCast_nonneg n) (by exact_mod_cast h), Int.toNat_natCast]

/-- A negative number counts from the end of the address space. -/
theorem sizeT_sub {m : Nat} (hn : n < m) (hm : m ≤ 2 ^ b.bits) :
    b.sizeT ((n : Int) - m) = 2 ^ b.bits - m + n := by
  have hcast : (n : Int) - m + 2 ^ b.bits = ((2 ^ b.bits - m + n : Nat) : Int) := by
    have hpow : ((2 ^ b.bits : Nat) : Int) = 2 ^ b.bits := Int.natCast_pow 2 b.bits
    omega
  have hsize := sizeT_natCast (b := b) (n := 2 ^ b.bits - m + n) (by omega)
  rw [← hcast] at hsize
  unfold sizeT at *
  rwa [Int.add_emod_right] at hsize

theorem sizeT_lt (b : Buffer) (k : Int) : b.sizeT k < 2 ^ b.bits := by
  have hpos : (0 : Int) < 2 ^ b.bits := Int.pow_pos (by decide)
  have hlt := Int.emod_lt_of_pos k hpos
  have hnonneg := Int.emod_nonneg k (Int.ne_of_gt hpos)
  unfold sizeT
  exact_mod_cast (Int.toNat_lt hnonneg).mpr (by exact_mod_cast hlt)

theorem move_natCast (h : p + n < 2 ^ b.bits) : b.move p n = p + n := by
  have hsize := sizeT_natCast h
  unfold sizeT at hsize
  unfold move
  exact_mod_cast hsize

/-- A few bytes behind something that is in the buffer. -/
theorem wrap_add (h : b.Has p 0) {k : Nat} (hk : k < 0x10000) :
    b.wrap (p + k) = b.wrap p + k := by
  have hlow := b.low
  have hfits := b.fits
  unfold Has wrap at h
  unfold wrap
  rw [Nat.add_mod, Nat.mod_eq_of_lt (a := k) (by omega)]
  exact Nat.mod_eq_of_lt (by omega)

/-- As many bytes behind it as are in the buffer. -/
theorem Has.wrap_add (h : b.Has p n) : b.wrap (p + n) = b.wrap p + n := by
  have hlow := b.low
  have hfits := b.fits
  unfold Has wrap at h
  unfold wrap
  rw [Nat.add_mod, Nat.mod_eq_of_lt (a := n) (by omega)]
  exact Nat.mod_eq_of_lt (by omega)

/-- Two fields, one behind the other. -/
theorem Has.append {m : Nat} (h : b.Has p n) (hnext : b.Has (p + n) m) : b.Has p (n + m) := by
  have hwrap := h.wrap_add
  unfold Has at *
  omega

/-- What is behind some bytes that are in the buffer with those. -/
theorem Has.behind {m : Nat} (h : b.Has p (n + m)) : b.Has (p + n) m := by
  have hwrap := (Has.wrap_add (n := n) (by unfold Has at *; omega) : b.wrap (p + n) = _)
  unfold Has at *
  omega

theorem Has.mono {m : Nat} (h : b.Has p n) (hm : m ≤ n) : b.Has p m := by
  unfold Has at *
  omega

/-- Bytes, one by one. Induction on how many they are. -/
theorem has_iff_forall (hn : 0 < n) : b.Has p n ↔ ∀ i < n, b.Has (p + i) 1 := by
  constructor
  · intro h i hi
    exact (h.mono (by omega) : b.Has p (i + 1)).behind
  · intro h
    induction n with
    | zero => exact absurd hn (Nat.lt_irrefl 0)
    | succ n ih =>
        cases n with
        | zero => exact h 0 hn
        | succ n =>
            -- The last byte is behind the others.
            have hfront := ih (Nat.succ_pos n) (fun i hi => h i (by omega))
            exact hfront.append (h (n + 1) (Nat.lt_succ_self _))

/-- A field, from the beginning to its end. -/
theorem has_add_iff (h : b.Has p 0) {k : Nat} (hk : k < 0x10000) :
    b.Has (p + k) n ↔ b.Has p (k + n) := by
  unfold Has
  rw [wrap_add h hk, Nat.add_assoc]

/-- A field of what is in the buffer. -/
theorem Has.field {k m : Nat} (h : b.Has p n) (hk : k < 0x10000) (hn : k + m ≤ n) :
    b.Has (p + k) m :=
  (has_add_iff (h.mono (Nat.zero_le n)) hk).mpr (h.mono hn)

end Buffer

end Reads

end Defender
