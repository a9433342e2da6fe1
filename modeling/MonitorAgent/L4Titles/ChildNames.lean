import MonitorAgent.L4Titles.Refresh

/-!
# Names of new children

`AddNodeOrRoom` converts the name of a child into `gb_buf`, which has room for
128 characters, and passes the size of that buffer in bytes for its length. A
name of more characters is written beyond the buffer, over whatever stands
behind it on the stack.

* `parseXML_refreshed_iff`: a listing synchronises the children exactly if the
  name of each new child fits the buffer.
* `longName_overruns`: a room whose name has 129 characters.
-/
namespace MonitorAgent.L4

open L3 Titles

/-- The characters of `gb_buf`. mirrors Monitor/Monitor/Node.cpp:95 -/
def gbBufSize : Nat := 128

/-- The UTF-16 units of a name. -/
def wideLength (name : String) : Nat :=
  (name.toList.map fun c => if c.toNat < 0x10000 then 1 else 2).sum

/-- The characters written to a buffer that is said to take `gbLen` of them. A
name that has more fills it, and is an error that nobody looks at.
mirrors Monitor/Monitor/Com.cpp:203-207 -/
def utf8ToGb2312 (gbLen : Nat) (name : String) : Nat := min (wideLength name) gbLen

namespace Titles

/-- `sizeof(gb_buf)` counts bytes, two for a character. Nothing is known of the
program once it has written beyond `gb_buf`: that is `none`.
mirrors Monitor/Monitor/Node.cpp:91-117 -/
def addChild? (t : Titles) (n : NodeRef) (heading : Heading) (e : Entry) : Option Titles :=
  if utf8ToGb2312 (2 * gbBufSize) e.name ≤ gbBufSize then some (t.addChild n heading e) else none

/-- mirrors Monitor/Monitor/TitleNode.cpp:91-110 and 119-138 -/
def parseNode? (n : NodeRef) (heading : Heading) (t : Titles) (e : Entry) : Option Titles :=
  match t.getNodeOrRoom n e.id with
  | some node => some (t.update node e.name e.order e.usercount)
  | none => t.addChild? n heading e

end Titles

/-- mirrors Monitor/Monitor/TitleNode.cpp:71-143 -/
def Noting.parseXML? (t : Titles) (n : NodeRef) (d : Document) : Option Noting :=
  (d.entries.foldlM (parseNode? n d.heading) t).map fun t =>
    Noting.kickoutRedundantNodes t n d.ids

/-- The entry an id has first in a listing: a new child gets its name. -/
def firstListed (es : List Entry) (id : Int) : Option Entry := es.find? fun e => e.id == id

/-- The name fits `gb_buf`. -/
def Entry.Fits (e : Entry) : Prop := wideLength e.name ≤ gbBufSize

instance (e : Entry) : Decidable e.Fits := inferInstanceAs (Decidable (_ ≤ _))

/-- Each id that is new has a name that fits where it is listed first. -/
def NamesFit (t : Titles) (n : NodeRef) (es : List Entry) : Prop :=
  ∀ e ∈ es, t.getNodeOrRoom n e.id = none → firstListed es e.id = some e → e.Fits

instance (t : Titles) (n : NodeRef) (es : List Entry) : Decidable (NamesFit t n es) :=
  inferInstanceAs (Decidable (∀ e ∈ es, _))

/-! ## One entry -/

theorem addChild?_eq (t : Titles) (n : NodeRef) (heading : Heading) (e : Entry) :
    t.addChild? n heading e = if e.Fits then some (t.addChild n heading e) else none := by
  have hfits : utf8ToGb2312 (2 * gbBufSize) e.name ≤ gbBufSize ↔ e.Fits := by
    unfold utf8ToGb2312 Entry.Fits gbBufSize
    omega
  simp only [addChild?, hfits]

/-- An entry is read unless it is a new child's and its name is too long. -/
theorem parseNode?_eq_some {t t' : Titles} {n : NodeRef} {heading : Heading} {e : Entry} :
    parseNode? n heading t e = some t' ↔
      (t.getNodeOrRoom n e.id = none → e.Fits) ∧ t' = parseEntry n heading t e := by
  unfold parseNode? parseEntry
  cases t.getNodeOrRoom n e.id with
  | some c =>
    rw [Option.some.injEq, eq_comm]
    exact (and_iff_right nofun).symm
  | none =>
    rw [addChild?_eq, Option.ite_none_right_eq_some, Option.some.injEq]
    exact and_congr (true_imp_iff.symm.trans (by simp)) eq_comm

section Listing

variable {t : Titles} {n : NodeRef} (h : Tree t)
  (hn : (t.nodes n).alive = true ∧ (t.nodes n).nodeType ≠ .titleRoom)
include h hn

/-- After an entry its id is filed, and no other that was not. -/
theorem parseEntry_none_iff (heading : Heading) (e : Entry) (id : Int) :
    (parseEntry n heading t e).getNodeOrRoom n id = none ↔
      t.getNodeOrRoom n id = none ∧ id ≠ e.id := by
  unfold parseEntry getNodeOrRoom
  cases hf : (t.nodes n).nodes.find? e.id with
  | some c =>
    dsimp only
    rw [(t.update_samePlace c e.name e.order e.usercount n).nodes]
    refine (and_iff_left_of_imp fun hnone => ?_).symm
    rintro rfl
    cases hf.symm.trans hnone
  | none =>
    dsimp only
    rw [h.addChild_find? (h.inUse n hn.1) heading hf]
    by_cases hid : id = e.id
    · rw [if_pos ⟨rfl, hid⟩]
      exact iff_of_false nofun fun hc => hc.2 hid
    · rw [if_neg fun hc => hid hc.2]
      exact (and_iff_left hid).symm

/-- Whether names fit, entry by entry. -/
theorem namesFit_cons (heading : Heading) (e : Entry) (es : List Entry) :
    NamesFit t n (e :: es) ↔ (t.getNodeOrRoom n e.id = none → e.Fits) ∧
      NamesFit (parseEntry n heading t e) n es := by
  have hself : firstListed (e :: es) e.id = some e := List.find?_cons_of_pos (beq_self_eq_true e.id)
  have hother : ∀ id, id ≠ e.id → firstListed (e :: es) id = firstListed es id := fun id hid =>
    List.find?_cons_of_neg (by simpa using hid.symm)
  constructor
  · intro hfit
    refine ⟨fun hnew => hfit e List.mem_cons_self hnew hself, fun e' he' hnew hfirst => ?_⟩
    obtain ⟨hnew, hid⟩ := (parseEntry_none_iff h hn heading e e'.id).mp hnew
    exact hfit e' (List.mem_cons_of_mem _ he') hnew ((hother e'.id hid).trans hfirst)
  · intro ⟨hfit, hrest⟩ e' he' hnew hfirst
    by_cases hid : e'.id = e.id
    · rw [hid, hself] at hfirst
      cases hfirst
      exact hfit hnew
    · rw [hother e'.id hid] at hfirst
      refine hrest e' ?_ ((parseEntry_none_iff h hn heading e e'.id).mpr ⟨hnew, hid⟩) hfirst
      exact List.mem_of_find?_eq_some hfirst

end Listing

/-! ## A listing -/

theorem parse_eq_some_iff {n : NodeRef} (heading : Heading) (es : List Entry) {t t' : Titles}
    (h : Tree t) (hn : (t.nodes n).alive = true ∧ (t.nodes n).nodeType ≠ .titleRoom) :
    es.foldlM (parseNode? n heading) t = some t' ↔
      NamesFit t n es ∧ t' = es.foldl (parseEntry n heading) t := by
  induction es generalizing t with
  | nil =>
    rw [List.foldlM_nil, Option.pure_def, Option.some.injEq, eq_comm]
    exact (and_iff_right nofun).symm
  | cons e es ih =>
    have hg : Grows n heading [e.id] t (parseEntry n heading t e) :=
      grows_parseEntry h hn heading List.mem_cons_self
    rw [List.foldlM_cons, Option.bind_eq_bind, Option.bind_eq_some_iff, List.foldl_cons,
      namesFit_cons h hn heading, and_assoc, ← ih hg.tree hg.reader]
    constructor
    · rintro ⟨t₁, ht₁, hrest⟩
      obtain ⟨hfit, rfl⟩ := parseNode?_eq_some.mp ht₁
      exact ⟨hfit, hrest⟩
    · intro ⟨hfit, hrest⟩
      exact ⟨_, parseNode?_eq_some.mpr ⟨hfit, rfl⟩, hrest⟩

/-- **A listing synchronises the children**, and what it deletes is deleted
once, exactly if the name of each new child fits the buffer that it is
converted into. -/
theorem parseXML_refreshed_iff {t : Titles} {n : NodeRef} (h : Tree t) (hw : Bij t.w)
    (ha : (t.nodes n).alive = true) (hty : (t.nodes n).nodeType = .titleNode) (d : Document) :
    (∃ s, Noting.parseXML? t n d = some s ∧ s.1 = t.parseXML n (some d) ∧ Refreshed t n d s) ↔
      NamesFit t n d.entries := by
  have hn : (t.nodes n).alive = true ∧ (t.nodes n).nodeType ≠ .titleRoom :=
    ⟨ha, by rw [hty]; decide⟩
  constructor
  · rintro ⟨s, hs, -⟩
    obtain ⟨t', ht', -⟩ := Option.map_eq_some_iff.mp hs
    exact ((parse_eq_some_iff d.heading d.entries h hn).mp ht').1
  · intro hfit
    have hparse := (parse_eq_some_iff d.heading d.entries h hn).mpr ⟨hfit, rfl⟩
    refine ⟨Noting.parseXML t n (some d), ?_, parseXML_refreshed h hw ha hty d⟩
    rw [Noting.parseXML?, hparse]
    rfl

/-- Room 9 is not listed any more, room 8 twice, and a new room. -/
theorem parseXML_refreshed_iff_watchedRoom :
    ∃ s, Noting.parseXML? watchedRoom 0
        ⟨.dynamicNode, [], [⟨8, "c", 5, 1⟩, ⟨10, "d", 3, 0⟩, ⟨8, "b", 4, 2⟩]⟩ = some s ∧
      s.1 = watchedRoom.parseXML 0
        (some ⟨.dynamicNode, [], [⟨8, "c", 5, 1⟩, ⟨10, "d", 3, 0⟩, ⟨8, "b", 4, 2⟩]⟩) ∧
      Refreshed watchedRoom 0
        ⟨.dynamicNode, [], [⟨8, "c", 5, 1⟩, ⟨10, "d", 3, 0⟩, ⟨8, "b", 4, 2⟩]⟩ s :=
  (parseXML_refreshed_iff watchedRoom_tree watchedRoom_bij (by decide +kernel)
    (by decide +kernel) _).mpr (by decide +kernel)

/-- One room, with a name of `n` characters. -/
def longNamed (n : Nat) : Document :=
  ⟨.dynamicNode, [], [⟨10, String.ofList (List.replicate n 'a'), 3, 0⟩]⟩

/-- A new room whose name has 129 characters is written beyond the buffer. -/
theorem longName_overruns :
    ¬ ∃ s, Noting.parseXML? watchedRoom 0 (longNamed 129) = some s ∧
      Refreshed watchedRoom 0 (longNamed 129) s := by
  rintro ⟨s, hs, -⟩
  have hnone : (Noting.parseXML? watchedRoom 0 (longNamed 129)).isNone = true := by
    decide +kernel
  rw [hs] at hnone
  cases hnone

end MonitorAgent.L4
