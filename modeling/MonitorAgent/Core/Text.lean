import Mathlib.Data.List.Lex
import Mathlib.Data.List.TakeWhile
import Mathlib.Order.Lattice

/-!
# Text and numbers in C strings

The character functions of the C locale and `strtol`, over strings of bytes. A
`long` has 32 bits; a number that does not fit is the nearest that does, as
`atoi` has it too. A byte that is not ASCII is neither a space nor a letter.

* `strtol_numeral`: `strtol` reads a numeral back, whatever comes behind it.
-/
namespace MonitorAgent.Text

/-- Strings are ordered by their bytes. -/
instance byteOrder : LinearOrder UInt8 where
  le_refl := UInt8.le_refl
  le_trans _ _ _ := UInt8.le_trans
  lt_iff_le_not_ge a b := by
    rw [UInt8.not_le, iff_and_self]
    exact UInt8.le_of_lt
  le_antisymm _ _ := UInt8.le_antisymm
  le_total := UInt8.le_total
  toDecidableLE := inferInstance
  toDecidableEq := inferInstance
  toDecidableLT := inferInstance

/-- The bytes of an ASCII literal. -/
def ascii (s : String) : List UInt8 := s.toList.map fun c => c.toNat.toUInt8

/-- The C string at the front of the bytes of a `std::string`. -/
def cstr (s : List UInt8) : List UInt8 := s.takeWhile (· ≠ 0)

/-- `isspace`. -/
def isSpace (b : UInt8) : Bool := b = 32 || (9 ≤ b && b ≤ 13)

/-- `tolower`. -/
def toLower (b : UInt8) : UInt8 := if 65 ≤ b ∧ b ≤ 90 then b + 32 else b

/-- `strcasecmp` of two strings is 0. -/
def sameText (s t : List UInt8) : Bool := s.map toLower = t.map toLower

/-- What a digit or a letter counts, if it is a digit in this base. -/
def digitOf (base : Nat) (b : UInt8) : Option Nat :=
  let v := if 48 ≤ b ∧ b ≤ 57 then b.toNat - 48
    else if 97 ≤ b ∧ b ≤ 122 then b.toNat - 87
    else if 65 ≤ b ∧ b ≤ 90 then b.toNat - 55
    else base
  if v < base then some v else none

/-- The number that the digits in front make, behind one that was read before. -/
def magnitude (base : Nat) : Nat → List UInt8 → Nat
  | v, [] => v
  | v, b :: bs =>
    match digitOf base b with
    | some d => magnitude base (v * base + d) bs
    | none => v

/-- `0x` in front of a digit, in base 16. -/
def skipPrefix (base : Nat) (s : List UInt8) : List UInt8 :=
  match s with
  | b :: x :: bs =>
    if base = 16 ∧ b = 48 ∧ (x = 120 ∨ x = 88) ∧
    (bs.head?.bind (digitOf base)).isSome then bs else s
  | _ => s

/-- To the range of a `long`. -/
def clampLong (v : Int) : Int := max (-2147483648) (min v 2147483647)

def signed (base : Nat) (s : List UInt8) : Int :=
  match s with
  | [] => 0
  | b :: bs =>
    if b = 45 then -(magnitude base 0 (skipPrefix base bs) : Int)
    else if b = 43 then magnitude base 0 (skipPrefix base bs)
    else magnitude base 0 (skipPrefix base s)

def strtol (base : Nat) (s : List UInt8) : Int := clampLong (signed base (s.dropWhile isSpace))

def atoi (s : List UInt8) : Int := strtol 10 s

/-! ## Numerals -/

/-- Digits that make the number; zeros may be in front. -/
structure Numeral (base n : Nat) (text : List UInt8) : Prop where
  ne_nil : text ≠ []
  digits : ∀ b ∈ text, (digitOf base b).isSome
  value : magnitude base 0 text = n

/-- What follows is not taken for a part of the numeral. -/
def EndsNumeral (base : Nat) (rest : List UInt8) : Prop :=
  ∀ b ∈ rest.head?, digitOf base b = none ∧ b ≠ 120 ∧ b ≠ 88

instance (base : Nat) (rest : List UInt8) : Decidable (EndsNumeral base rest) :=
  inferInstanceAs (Decidable (∀ b ∈ rest.head?, _))

variable {base n : Nat} {text rest : List UInt8}

theorem digitOf_lt {b : UInt8} (h : b.toNat < 48) : digitOf base b = none := by
  have h48 : ¬ (48 ≤ b ∧ b ≤ 57) := by
    simp only [UInt8.le_iff_toNat_le, UInt8.reduceToNat]
    omega
  have h97 : ¬ (97 ≤ b ∧ b ≤ 122) := by
    simp only [UInt8.le_iff_toNat_le, UInt8.reduceToNat]
    omega
  have h65 : ¬ (65 ≤ b ∧ b ≤ 90) := by
    simp only [UInt8.le_iff_toNat_le, UInt8.reduceToNat]
    omega
  simp [digitOf, h48, h97, h65]

theorem isSpace_lt {b : UInt8} (h : isSpace b = true) : b.toNat < 48 := by
  simp only [isSpace, Bool.or_eq_true, decide_eq_true_eq, Bool.and_eq_true] at h
  rcases h with rfl | ⟨-, h⟩
  · decide
  · have h13 : b.toNat ≤ 13 := UInt8.le_iff_toNat_le.mp h
    omega

/-- A digit is no space, no sign and, in base 16, no `x`. -/
theorem digit_plain {b : UInt8} (h : (digitOf base b).isSome) :
    isSpace b = false ∧ b ≠ 45 ∧ b ≠ 43 ∧ (base = 16 → b ≠ 120 ∧ b ≠ 88) := by
  have hge : 48 ≤ b.toNat := by
    by_contra hlt
    rw [digitOf_lt (Nat.not_le.mp hlt)] at h
    cases h
  refine ⟨?_, ?_, ?_, ?_⟩
  · cases hs : isSpace b with
    | false => rfl
    | true =>
      have := isSpace_lt hs
      omega
  · rintro rfl
    exact absurd hge (by decide)
  · rintro rfl
    exact absurd hge (by decide)
  · rintro rfl
    constructor
    · rintro rfl
      exact absurd h (by decide)
    · rintro rfl
      exact absurd h (by decide)

theorem magnitude_ends (v : Nat) (h : EndsNumeral base rest) : magnitude base v rest = v := by
  cases rest with
  | nil => rfl
  | cons b bs => rw [magnitude, (h b rfl).1]

theorem magnitude_append (hd : ∀ b ∈ text, (digitOf base b).isSome)
    (h : EndsNumeral base rest) (v : Nat) :
    magnitude base v (text ++ rest) = magnitude base v text := by
  induction text generalizing v with
  | nil => exact magnitude_ends v h
  | cons b bs ih =>
    obtain ⟨d, hb⟩ := Option.isSome_iff_exists.mp (hd b List.mem_cons_self)
    rw [List.cons_append, magnitude, magnitude, hb]
    exact ih (fun c hc => hd c (List.mem_cons_of_mem _ hc)) _

/-- There is no prefix to skip. -/
theorem skipPrefix_numeral (hd : ∀ b ∈ text, (digitOf base b).isSome) (hne : text ≠ [])
    (h : EndsNumeral base rest) : skipPrefix base (text ++ rest) = text ++ rest := by
  have hx : ∀ b x bs, text ++ rest = b :: x :: bs → base = 16 → x ≠ 120 ∧ x ≠ 88 := by
    intro b x bs he hbase
    cases text with
    | nil => exact absurd rfl hne
    | cons c cs =>
      cases cs with
      | nil =>
        simp only [List.cons_append, List.nil_append, List.cons.injEq] at he
        obtain ⟨-, hrest⟩ := he
        exact (h x (by rw [hrest]; rfl)).2
      | cons c' cs =>
        simp only [List.cons_append, List.cons.injEq] at he
        obtain ⟨-, rfl, -⟩ := he
        exact (digit_plain (hd c' (by simp))).2.2.2 hbase
  unfold skipPrefix
  split
  · rename_i b x bs he
    rw [if_neg]
    rintro ⟨hbase, -, hx', -⟩
    obtain ⟨h120, h88⟩ := hx b x bs he hbase
    exact hx'.elim h120 h88
  · rfl

theorem clampLong_of_lt {n : Nat} (h : n < 2147483648) : clampLong n = n := by
  simp only [clampLong]
  omega

/-- **A numeral is read back**, whatever comes behind it. -/
theorem strtol_numeral (h : Numeral base n text) (hn : n < 2147483648)
    (hrest : EndsNumeral base rest) :
    strtol base (text ++ rest) = n := by
  obtain ⟨hne, hd, hv⟩ := h
  cases text with
  | nil => exact absurd rfl hne
  | cons b bs =>
    obtain ⟨hsp, h45, h43, -⟩ := digit_plain (hd b List.mem_cons_self)
    have hdrop : (b :: bs ++ rest).dropWhile isSpace = b :: bs ++ rest := by
      rw [List.cons_append, List.dropWhile_cons, hsp]
      rfl
    rw [strtol, hdrop, List.cons_append, signed, if_neg h45, if_neg h43, ← List.cons_append,
      skipPrefix_numeral hd hne hrest, magnitude_append hd hrest, hv, clampLong_of_lt hn]

theorem endsNumeral_nil : EndsNumeral base [] := fun _ hb => nomatch hb

/-- What a stream writes of a number. -/
def numeral (base n : Nat) : List UInt8 := (Nat.toDigits base n).map fun c => c.toNat.toUInt8

theorem atoi_numeral (h : Numeral 10 n text) (hn : n < 2147483648) : atoi text = n := by
  have := strtol_numeral h hn endsNumeral_nil
  rwa [List.append_nil] at this

/-- A number that fits is what it is as 16 bits. -/
theorem toNat_ofInt {n : Nat} (h : n < 65536) : (UInt16.ofInt n).toNat = n := by
  have hmod : ((n : Int) % 2 ^ 16).toNat = n := by omega
  rw [UInt16.ofInt, hmod, UInt16.toNat_ofNat']
  omega

/-- A string without NUL. -/
theorem cstr_eq {s : List UInt8} (h : (0 : UInt8) ∉ s) : cstr s = s := by
  rw [cstr, List.takeWhile_eq_self_iff]
  intro b hb
  simp only [ne_eq, decide_eq_true_eq]
  rintro rfl
  exact h hb

theorem head_append {P : UInt8 → Prop} {xs ys : List UInt8} (hne : xs ≠ []) (h : ∀ b ∈ xs, P b) :
    ∀ b ∈ (xs ++ ys).head?, P b := by
  cases xs with
  | nil => exact absurd rfl hne
  | cons x xs =>
    intro b hb
    cases hb
    exact h x List.mem_cons_self

/-- What is skipped, and what stops it. -/
theorem span_append (p : UInt8 → Bool) {xs : List UInt8} (ys : List UInt8)
    (hx : ∀ b ∈ xs, p b = true)
    (hy : ∀ b ∈ ys.head?, p b = false) :
    (xs ++ ys).takeWhile p = xs ∧ (xs ++ ys).dropWhile p = ys := by
  rw [List.takeWhile_append_of_pos hx, List.dropWhile_append_of_pos hx]
  cases ys with
  | nil => simp
  | cons b ys =>
    have hb := hy b rfl
    simp [hb]

end MonitorAgent.Text
