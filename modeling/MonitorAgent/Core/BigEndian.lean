import Mathlib.Data.List.Basic
import Mathlib.Algebra.Order.Ring.Nat

/-!
# Bytes in network order

The value that bytes spell in network order (`beValue`) and the one that a
little-endian host loads from them (`leValue`). `swap` turns one into the
other, which is what `ntohs`, `ntohl` and `ntohll` do on such a host.

* `beValue_beBytes`: what was encoded is read back.
* `swap_leValue`: a value loaded and converted is the one the bytes spell.
-/
namespace MonitorAgent.BigEndian

/-- The `n` low bytes of `v`, the highest first. -/
def beBytes : Nat → Nat → List UInt8
  | 0, _ => []
  | n + 1, v => UInt8.ofNat (v / 256 ^ n) :: beBytes n v

def beValue : List UInt8 → Nat
  | [] => 0
  | b :: bs => b.toNat * 256 ^ bs.length + beValue bs

def leValue (bs : List UInt8) : Nat := beValue bs.reverse

/-- The `n` low bytes of `v`, in the other order. -/
def swap (n v : Nat) : Nat := leValue (beBytes n v)

@[simp] theorem length_beBytes (n v : Nat) : (beBytes n v).length = n := by
  induction n generalizing v with
  | zero => rfl
  | succ n ih => simp [beBytes, ih]

theorem beValue_beBytes (n v : Nat) : beValue (beBytes n v) = v % 256 ^ n := by
  induction n with
  | zero => exact (Nat.mod_one v).symm
  | succ n ih =>
    have hb : (UInt8.ofNat (v / 256 ^ n)).toNat = v / 256 ^ n % 256 := UInt8.toNat_ofNat'
    rw [beBytes, beValue, length_beBytes, ih, hb, Nat.mod_pow_succ, Nat.add_comm, Nat.mul_comm]

theorem beValue_lt (bs : List UInt8) : beValue bs < 256 ^ bs.length := by
  induction bs with
  | nil => exact Nat.one_pos
  | cons b bs ih =>
    have hb : b.toNat * 256 ^ bs.length ≤ 255 * 256 ^ bs.length :=
      Nat.mul_le_mul_right _ (Nat.le_of_lt_succ b.toNat_lt)
    rw [beValue, List.length_cons, Nat.pow_succ]
    omega

/-- Higher bytes are not encoded. -/
theorem beBytes_add_mul (n v c : Nat) : beBytes n (v + c * 256 ^ n) = beBytes n v := by
  induction n generalizing c with
  | zero => rfl
  | succ n ih =>
    have hc : c * 256 ^ (n + 1) = c * 256 * 256 ^ n := by
      rw [Nat.pow_succ, Nat.mul_assoc, Nat.mul_comm 256]
    rw [hc, beBytes, beBytes, ih, Nat.add_mul_div_right _ _ (Nat.pow_pos (by decide))]
    congr 1
    apply UInt8.toNat_inj.mp
    simp only [UInt8.toNat_ofNat']
    omega

/-- Bytes are what their value encodes to. -/
theorem beBytes_beValue (bs : List UInt8) : beBytes bs.length (beValue bs) = bs := by
  induction bs with
  | nil => rfl
  | cons b bs ih =>
    have hlt := beValue_lt bs
    have hhigh : (b.toNat * 256 ^ bs.length + beValue bs) / 256 ^ bs.length = b.toNat := by
      rw [Nat.add_comm, Nat.add_mul_div_right _ _ (Nat.pow_pos (by decide)), Nat.div_eq_of_lt hlt,
        Nat.zero_add]
    rw [beValue, List.length_cons, beBytes, hhigh, Nat.add_comm, beBytes_add_mul, ih,
      UInt8.ofNat_toNat]

theorem beBytes_beValue_of_length {bs : List UInt8} {n : Nat} (h : bs.length = n) :
    beBytes n (beValue bs) = bs :=
  h ▸ beBytes_beValue bs

/-- A little-endian host loads the bytes, then converts what it loaded. -/
theorem swap_leValue {bs : List UInt8} {n : Nat} (h : bs.length = n) :
    swap n (leValue bs) = beValue bs := by
  rw [swap, leValue, leValue,
    beBytes_beValue_of_length (by rw [List.length_reverse, h]), List.reverse_reverse]

/-- Bytes of one length spell different values. -/
theorem beValue_inj {bs bs' : List UInt8} (hlen : bs.length = bs'.length) :
    beValue bs = beValue bs' ↔ bs = bs' := by
  refine ⟨fun h => ?_, congrArg beValue⟩
  rw [← beBytes_beValue bs, hlen, h, beBytes_beValue]

theorem leValue_eq_beValue_iff (bs : List UInt8) : leValue bs = beValue bs ↔ bs.reverse = bs :=
  beValue_inj List.length_reverse

end MonitorAgent.BigEndian
