import MonitorAgent.Core.BigEndian

/-!
# Fixed-width values in memory

A `Scalar` is an integer type of a number of bytes, signed or not: its values
are its bit patterns. `store` is what a little-endian host leaves in memory, and
`reorder` the value with its bytes the other way round, so storing a reordered
value puts it down in network order (`store_reorder`).
-/
namespace MonitorAgent.BigEndian

universe u

class Scalar (T : Type u) where
  size : Nat
  bits : T → Nat
  ofBits : Nat → T
  bits_lt : ∀ t, bits t < 256 ^ size
  ofBits_bits : ∀ t, ofBits (bits t) = t
  bits_ofBits : ∀ n, n < 256 ^ size → bits (ofBits n) = n

namespace Scalar

instance : Scalar UInt8 where
  size := 1
  bits := UInt8.toNat
  ofBits := UInt8.ofNat
  bits_lt := UInt8.toNat_lt
  ofBits_bits _ := UInt8.ofNat_toNat
  bits_ofBits _ h := UInt8.toNat_ofNat_of_lt' h

instance : Scalar UInt16 where
  size := 2
  bits := UInt16.toNat
  ofBits := UInt16.ofNat
  bits_lt := UInt16.toNat_lt
  ofBits_bits _ := UInt16.ofNat_toNat
  bits_ofBits _ h := UInt16.toNat_ofNat_of_lt' h

instance : Scalar UInt32 where
  size := 4
  bits := UInt32.toNat
  ofBits := UInt32.ofNat
  bits_lt := UInt32.toNat_lt
  ofBits_bits _ := UInt32.ofNat_toNat
  bits_ofBits _ h := UInt32.toNat_ofNat_of_lt' h

instance : Scalar Int32 where
  size := 4
  bits t := t.toUInt32.toNat
  ofBits n := (UInt32.ofNat n).toInt32
  bits_lt t := t.toUInt32.toNat_lt
  ofBits_bits t := by rw [UInt32.ofNat_toNat, Int32.toInt32_toUInt32]
  bits_ofBits n h := by rw [UInt32.toUInt32_toInt32, UInt32.toNat_ofNat_of_lt' h]

instance : Scalar Int64 where
  size := 8
  bits t := t.toUInt64.toNat
  ofBits n := (UInt64.ofNat n).toInt64
  bits_lt t := t.toUInt64.toNat_lt
  ofBits_bits t := by rw [UInt64.ofNat_toNat, Int64.toInt64_toUInt64]
  bits_ofBits n h := by rw [UInt64.toUInt64_toInt64, UInt64.toNat_ofNat_of_lt' h]

variable {T : Type u} [Scalar T]

/-- The bytes of a value, the lowest first. -/
def store (t : T) : List UInt8 := (beBytes (size T) (bits t)).reverse

def reorder (t : T) : T := ofBits (swap (size T) (bits t))

@[simp] theorem length_store (t : T) : (store t).length = size T := by
  rw [store, List.length_reverse, length_beBytes]

theorem swap_lt (n v : Nat) : swap n v < 256 ^ n := by
  have h := beValue_lt (beBytes n v).reverse
  rwa [List.length_reverse, length_beBytes] at h

theorem store_reorder (t : T) : store (reorder t) = beBytes (size T) (bits t) := by
  have hlen : (beBytes (size T) (bits t)).reverse.length = size T := by
    rw [List.length_reverse, length_beBytes]
  rw [store, reorder, bits_ofBits _ (swap_lt _ _), swap, leValue, beBytes_beValue_of_length hlen,
    List.reverse_reverse]

/-- A single byte is the same in either order. -/
theorem store_of_size_one (h : size T = 1) (t : T) : store t = beBytes (size T) (bits t) := by
  rw [store, h]
  rfl

theorem ofBits_mod (t : T) : ofBits (bits t % 256 ^ size T) = t := by
  rw [Nat.mod_eq_of_lt (bits_lt t), ofBits_bits]

end Scalar
end MonitorAgent.BigEndian
