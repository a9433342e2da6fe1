import Mathlib.Order.Basic
import Mathlib.Order.Lattice
import Mathlib.Data.List.Basic

/-!
# Ordered maps with unique keys

`std::map` as a list of entries in strictly increasing key order. `insert`
leaves an existing entry alone, `assign` (`m[k] = v`) overwrites it, and both
are `put`. An iterator is the key it points at, `none` being `end()`; the one
`erase` returns is the first key after the erased one (`upper`).

Everything a proof needs of a map is what `find?` gives after each operation
(`find?_insert`, `find?_assign`, `find?_erase`), with `mem_entries_iff` for
what an iteration meets and `begin_erase` for a loop that erases as it goes.
-/
namespace MonitorAgent

universe u v

structure StdMap (K : Type u) (V : Type v) [LinearOrder K] where
  entries : List (K × V)
  sorted : entries.Pairwise fun a b => a.1 < b.1

namespace StdMap

variable {K : Type u} {V : Type v} [LinearOrder K]

/-! ## Entry lists -/

def findGo (k : K) : List (K × V) → Option V
  | [] => none
  | e :: es => if e.1 = k then some e.2 else findGo k es

/-- Give `k` the value `g` makes of its old value, in key order. -/
def putGo (k : K) (g : Option V → V) : List (K × V) → List (K × V)
  | [] => [(k, g none)]
  | e :: es =>
    if k < e.1 then (k, g none) :: e :: es
    else if e.1 < k then e :: putGo k g es
    else (k, g (some e.2)) :: es

theorem key_of_mem_putGo (k : K) (g : Option V → V) (p : K × V) :
    ∀ es : List (K × V), p ∈ putGo k g es → p.1 = k ∨ ∃ e ∈ es, e.1 = p.1
  | [], hp => .inl (by simpa [putGo] using congrArg Prod.fst (List.mem_singleton.mp hp))
  | e :: es, hp => by
    unfold putGo at hp
    split at hp
    · rcases List.mem_cons.mp hp with rfl | hp
      · exact .inl rfl
      · exact .inr ⟨p, hp, rfl⟩
    · split at hp
      · rcases List.mem_cons.mp hp with rfl | hp
        · exact .inr ⟨p, List.mem_cons_self, rfl⟩
        · rcases key_of_mem_putGo k g p es hp with h | ⟨e', he, h⟩
          · exact .inl h
          · exact .inr ⟨e', List.mem_cons_of_mem _ he, h⟩
      · rcases List.mem_cons.mp hp with rfl | hp
        · exact .inl rfl
        · exact .inr ⟨p, List.mem_cons_of_mem _ hp, rfl⟩

theorem sorted_putGo (k : K) (g : Option V → V) :
    ∀ es : List (K × V), es.Pairwise (fun a b => a.1 < b.1) →
      (putGo k g es).Pairwise fun a b => a.1 < b.1
  | [], _ => by simp [putGo]
  | e :: es, h => by
    obtain ⟨h1, h2⟩ := List.pairwise_cons.mp h
    unfold putGo
    split
    · rename_i hlt
      refine List.pairwise_cons.mpr ⟨fun p hp => ?_, h⟩
      rcases List.mem_cons.mp hp with rfl | hp
      · exact hlt
      · exact lt_trans hlt (h1 p hp)
    · split
      · rename_i hgt
        refine List.pairwise_cons.mpr ⟨fun p hp => ?_, sorted_putGo k g es h2⟩
        rcases key_of_mem_putGo k g p es hp with rfl | ⟨e', he, heq⟩
        · exact hgt
        · exact heq ▸ h1 e' he
      · rename_i hn hn'
        have he : e.1 = k := le_antisymm (not_lt.mp hn) (not_lt.mp hn')
        exact List.pairwise_cons.mpr ⟨fun p hp => he ▸ h1 p hp, h2⟩

/-! ## Operations -/

def empty : StdMap K V := ⟨[], .nil⟩

/-- mirrors `std::map::find`, with the value instead of the iterator -/
def find? (m : StdMap K V) (k : K) : Option V := findGo k m.entries

def put (m : StdMap K V) (k : K) (g : Option V → V) : StdMap K V :=
  ⟨putGo k g m.entries, sorted_putGo k g m.entries m.sorted⟩

/-- mirrors `std::map::insert` -/
def insert (m : StdMap K V) (k : K) (v : V) : StdMap K V := m.put k (·.getD v)

/-- mirrors `m[k] = v` -/
def assign (m : StdMap K V) (k : K) (v : V) : StdMap K V := m.put k fun _ => v

/-- mirrors `std::map::erase` -/
def erase (m : StdMap K V) (k : K) : StdMap K V :=
  ⟨m.entries.filter (fun e => e.1 ≠ k), m.sorted.filter _⟩

def keys (m : StdMap K V) : List K := m.entries.map Prod.fst

def size (m : StdMap K V) : Nat := m.entries.length

def isEmpty (m : StdMap K V) : Bool := m.entries.isEmpty

/-- mirrors `std::map::begin` -/
def begin (m : StdMap K V) : Option K := m.keys.head?

/-- The first key after `k`. -/
def upper (m : StdMap K V) (k : K) : Option K := m.keys.find? (k < ·)

/-! ## What they find -/

theorem findGo_of_lt (k : K) : ∀ es : List (K × V), (∀ e ∈ es, k < e.1) → findGo k es = none
  | [], _ => rfl
  | e :: es, h => by
    rw [findGo, if_neg (ne_of_gt (h e List.mem_cons_self)),
      findGo_of_lt k es fun e' he => h e' (List.mem_cons_of_mem _ he)]

theorem findGo_putGo (k a : K) (g : Option V → V) :
    ∀ es : List (K × V), es.Pairwise (fun a b => a.1 < b.1) →
      findGo a (putGo k g es) = if a = k then some (g (findGo k es)) else findGo a es
  | [], _ => by simp [putGo, findGo, eq_comm]
  | e :: es, h => by
    obtain ⟨h1, h2⟩ := List.pairwise_cons.mp h
    unfold putGo
    by_cases hlt : k < e.1
    · have hk : findGo k (e :: es) = none := findGo_of_lt k _ fun p hp => by
        rcases List.mem_cons.mp hp with rfl | hp
        · exact hlt
        · exact lt_trans hlt (h1 p hp)
      rw [if_pos hlt, hk]
      by_cases ha : a = k
      · simp [findGo, ha]
      · simp [findGo, ha, Ne.symm ha]
    · by_cases hgt : e.1 < k
      · rw [if_neg hlt, if_pos hgt, findGo, findGo_putGo k a g es h2, findGo, if_neg (ne_of_lt hgt)]
        by_cases ha : a = k
        · simp [ha, ne_of_lt hgt]
        · simp only [if_neg ha, findGo]
      · have he : e.1 = k := le_antisymm (not_lt.mp hlt) (not_lt.mp hgt)
        rw [if_neg hlt, if_neg hgt]
        by_cases ha : a = k
        · simp [findGo, ha, he]
        · simp [findGo, ha, he, Ne.symm ha]

theorem findGo_filter (k a : K) :
    ∀ es : List (K × V), findGo a (es.filter fun e => e.1 ≠ k) = if a = k then none else findGo a es
  | [] => by simp [findGo]
  | e :: es => by
    have ih := findGo_filter k a es
    by_cases he : e.1 = k
    · rw [List.filter_cons_of_neg (by simpa using he), ih]
      by_cases ha : a = k
      · rw [if_pos ha, if_pos ha]
      · rw [if_neg ha, if_neg ha, findGo, if_neg (he ▸ Ne.symm ha)]
    · rw [List.filter_cons_of_pos (by simpa using he), findGo, ih]
      by_cases hea : e.1 = a
      · rw [if_pos hea, if_neg (hea ▸ he), findGo, if_pos hea]
      · rw [if_neg hea, findGo, if_neg hea]

theorem findGo_eq_some (k : K) (v : V) :
    ∀ es : List (K × V), es.Pairwise (fun a b => a.1 < b.1) → (findGo k es = some v ↔ (k, v) ∈ es)
  | [], _ => by simp [findGo]
  | e :: es, h => by
    obtain ⟨h1, h2⟩ := List.pairwise_cons.mp h
    have ih := findGo_eq_some k v es h2
    by_cases he : e.1 = k
    · have hn : (k, v) ∉ es := fun hm => absurd (h1 _ hm) (by rw [he]; exact lt_irrefl k)
      rw [findGo, if_pos he, List.mem_cons, or_iff_left hn, ← he, Prod.ext_iff, Option.some.injEq]
      exact ⟨fun hv => ⟨rfl, hv.symm⟩, fun hv => hv.2.symm⟩
    · rw [findGo, if_neg he, ih, List.mem_cons, or_iff_right]
      rintro rfl
      exact he rfl

@[simp] theorem find?_empty (a : K) : (empty : StdMap K V).find? a = none := rfl

section Find

-- any decision of the test, so that the rules match at every key type
variable (m : StdMap K V) (k a : K) (v : V) [Decidable (a = k)]

theorem find?_insert :
    (m.insert k v).find? a = if a = k then some ((m.find? k).getD v) else m.find? a :=
  (findGo_putGo k a _ m.entries m.sorted).trans (by congr)

theorem find?_assign : (m.assign k v).find? a = if a = k then some v else m.find? a :=
  (findGo_putGo k a _ m.entries m.sorted).trans (by congr)

theorem find?_erase : (m.erase k).find? a = if a = k then none else m.find? a :=
  (findGo_filter k a m.entries).trans (by congr)

end Find

theorem mem_entries_iff (m : StdMap K V) (k : K) (v : V) :
    (k, v) ∈ m.entries ↔ m.find? k = some v :=
  (findGo_eq_some k v m.entries m.sorted).symm

theorem mem_keys_iff (m : StdMap K V) (k : K) : k ∈ m.keys ↔ (m.find? k).isSome := by
  rw [keys, List.mem_map, Option.isSome_iff_exists]
  exact ⟨fun ⟨e, he, hk⟩ => ⟨e.2, hk ▸ (mem_entries_iff m e.1 e.2).mp he⟩,
    fun ⟨v, hf⟩ => ⟨(k, v), (mem_entries_iff m k v).mpr hf, rfl⟩⟩

theorem isEmpty_iff (m : StdMap K V) : m.isEmpty = true ↔ ∀ k, m.find? k = none := by
  rw [isEmpty, List.isEmpty_iff]
  constructor
  · intro he k
    rw [find?, he, findGo]
  · intro h
    refine List.eq_nil_iff_forall_not_mem.mpr fun e he => ?_
    have hf := (mem_entries_iff m e.1 e.2).mp he
    rw [h] at hf
    cases hf

theorem isEmpty_eq_false {m : StdMap K V} {k : K} {v : V} (h : m.find? k = some v) :
    m.isEmpty = false := by
  by_contra hc
  rw [(isEmpty_iff m).mp (Bool.eq_true_of_not_eq_false hc)] at h
  cases h

/-! ## Iterating -/

theorem find?_of_begin_none {m : StdMap K V} (h : m.begin = none) (a : K) : m.find? a = none := by
  have he : m.entries = [] := by simpa [begin, keys] using h
  rw [find?, he, findGo]

theorem entries_of_begin {m : StdMap K V} {k : K} (h : m.begin = some k) :
    ∃ v es, m.entries = (k, v) :: es ∧ ∀ e ∈ es, k < e.1 := by
  have hs := m.sorted
  cases he : m.entries with
  | nil => simp [begin, keys, he] at h
  | cons e es =>
    rw [he] at hs
    obtain ⟨a, v⟩ := e
    have hk : a = k := by simpa [begin, keys, he] using h
    subst hk
    exact ⟨v, es, rfl, (List.pairwise_cons.mp hs).1⟩

theorem find?_begin {m : StdMap K V} {k : K} (h : m.begin = some k) : ∃ v, m.find? k = some v := by
  obtain ⟨v, es, he, -⟩ := entries_of_begin h
  exact ⟨v, by rw [find?, he, findGo, if_pos rfl]⟩

theorem entries_erase_begin {m : StdMap K V} {k : K} (h : m.begin = some k) :
    (m.erase k).entries = m.entries.tail := by
  obtain ⟨v, es, he, hlt⟩ := entries_of_begin h
  change m.entries.filter (fun e => e.1 ≠ k) = m.entries.tail
  rw [he, List.filter_cons_of_neg (by simp), List.tail_cons, List.filter_eq_self]
  exact fun e hm => by simpa using ne_of_gt (hlt e hm)

/-- Erasing the first entry leaves the iterator `erase` returns at the new
first one. -/
theorem begin_erase {m : StdMap K V} {k : K} (h : m.begin = some k) :
    (m.erase k).begin = m.upper k := by
  obtain ⟨v, es, he, hlt⟩ := entries_of_begin h
  rw [begin, upper, keys, keys, entries_erase_begin h, he, List.map_cons, List.tail_cons,
    List.find?_cons_of_neg (by simp)]
  cases es with
  | nil => rfl
  | cons e es => simp [hlt e List.mem_cons_self]

theorem size_erase {m : StdMap K V} {k : K} (h : m.begin = some k) :
    (m.erase k).size + 1 = m.size := by
  obtain ⟨v, es, he, -⟩ := entries_of_begin h
  rw [size, size, entries_erase_begin h, he]
  rfl

end StdMap
end MonitorAgent
