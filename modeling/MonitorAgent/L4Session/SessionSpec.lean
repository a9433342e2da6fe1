import MonitorAgent.L3Wall.World
import Mathlib.Data.List.Chain

/-!
# What a proxy session is for

The abstract session of a proxy: a status, the room ids waiting, the room ids
linked, and the LINK_ROOM and UNLINK_ROOM packets sent. `ProxySession.lean`
shows that the calls of `AvsProxy` refine its steps.

* `foldl_link`: linking a list of ids sends one LINK_ROOM for each distinct id
  not linked yet, in order of first request.
* `Session.Good`, `good_step`: before ONLINE nothing is sent and nothing is
  linked; from then on nothing waits; and the packets of each id alternate,
  the ids linked being those whose last packet is LINK_ROOM.
-/
namespace MonitorAgent.L4

open MonitorAgent.L3

inductive RoomRequest
  | link
  | unlink
deriving DecidableEq

/-- The requests made for one id. -/
def historyOf (id : Int) (packets : List (RoomRequest × Int)) : List RoomRequest :=
  (packets.filter fun packet => packet.2 = id).map Prod.fst

structure Session where
  status : ProxyStatus
  waits : List Int
  linked : Int → Bool
  packets : List (RoomRequest × Int)

namespace Session

/-- Link an id, unless it is. -/
def link (a : Session) (id : Int) : Session :=
  if a.linked id then a
  else { a with linked := Function.update a.linked id true, packets := a.packets ++ [(.link, id)] }

/-- Unlink an id, if it is linked. -/
def unlink (a : Session) (id : Int) : Session :=
  if a.linked id then
    { a with linked := Function.update a.linked id false, packets := a.packets ++ [(.unlink, id)] }
  else a

/-- Everything that waits is linked. -/
def drain (a : Session) : Session := { a.waits.foldl link a with waits := [] }

inductive Op
  | login
  | onRxLogin
  | onRxNAT
  | linkRoom (id : Int)
  | unlinkRoom (id : Int)
deriving DecidableEq

def step (a : Session) : Op → Session
  | .login => if a.status = .uninit then { a with status := .logining } else a
  | .onRxLogin => if a.status = .logining then { a with status := .nating } else a
  | .onRxNAT => if a.status = .nating then { a with status := .online }.drain else a
  | .linkRoom id => if a.status = .online then a.link id else { a with waits := a.waits ++ [id] }
  | .unlinkRoom id => a.unlink id

end Session

/-- The calls before ONLINE concern the status alone. -/
theorem Session.step_login (a : Session) :
    a.step .login = { a with status := if a.status = .uninit then .logining else a.status } := by
  simp only [Session.step]; split <;> rfl

theorem Session.step_onRxLogin (a : Session) :
    a.step .onRxLogin = { a with status := if a.status = .logining then
      .nating else a.status } := by
  simp only [Session.step]; split <;> rfl

/-! ## Alternation -/

/-- `link, unlink, link, …` -/
def Alternates (xs : List RoomRequest) : Prop := (∀ x ∈ xs.head?, x = .link) ∧ xs.IsChain (· ≠ ·)

theorem Alternates.link {xs : List RoomRequest} (h : Alternates xs)
    (hl : xs.getLast? ≠ some .link) :
    Alternates (xs ++ [.link]) := by
  refine ⟨?_, List.isChain_append.mpr ⟨h.2, .singleton _, fun x hx y hy => ?_⟩⟩
  · cases xs with
    | nil => simp
    | cons x xs => simpa using h.1
  · cases hy
    rintro rfl
    exact hl hx

theorem Alternates.unlink {xs : List RoomRequest} (h : Alternates xs)
    (hl : xs.getLast? = some .link) :
    Alternates (xs ++ [.unlink]) := by
  refine ⟨?_, List.isChain_append.mpr ⟨h.2, .singleton _, fun x hx y hy => ?_⟩⟩
  · cases xs with
    | nil => cases hl
    | cons x xs => simpa using h.1
  · cases hy
    rw [hl] at hx
    cases hx
    exact fun e => nomatch e

theorem historyOf_snoc (id : Int) (packets : List (RoomRequest × Int)) (x : RoomRequest) (i : Int) :
    historyOf id (packets ++ [(x, i)]) = historyOf id packets ++ if i = id then [x] else [] := by
  by_cases h : i = id <;> simp [historyOf, h]

namespace Session

/-- The packets of every id alternate, and say whether it is linked. -/
def Tracked (a : Session) : Prop :=
  ∀ id, Alternates (historyOf id a.packets) ∧
    (a.linked id = true ↔ (historyOf id a.packets).getLast? = some .link)

@[simp] theorem link_status (a : Session) (id : Int) : (a.link id).status = a.status := by
  unfold link; split <;> rfl

@[simp] theorem link_waits (a : Session) (id : Int) : (a.link id).waits = a.waits := by
  unfold link; split <;> rfl

@[simp] theorem unlink_status (a : Session) (id : Int) : (a.unlink id).status = a.status := by
  unfold unlink; split <;> rfl

@[simp] theorem unlink_waits (a : Session) (id : Int) : (a.unlink id).waits = a.waits := by
  unfold unlink; split <;> rfl

theorem Tracked.link {a : Session} (h : a.Tracked) (i : Int) : (a.link i).Tracked := by
  unfold Session.link
  split
  · exact h
  · rename_i hn
    intro id
    obtain ⟨ha, hl⟩ := h id
    dsimp only
    rw [historyOf_snoc]
    by_cases hi : i = id
    · subst hi
      rw [if_pos rfl, Function.update_self]
      exact ⟨ha.link fun e => hn (hl.mpr e), by simp⟩
    · rw [if_neg hi, List.append_nil, Function.update_of_ne (Ne.symm hi)]
      exact ⟨ha, hl⟩

theorem Tracked.unlink {a : Session} (h : a.Tracked) (i : Int) : (a.unlink i).Tracked := by
  unfold Session.unlink
  split
  · rename_i hy
    intro id
    obtain ⟨ha, hl⟩ := h id
    dsimp only
    rw [historyOf_snoc]
    by_cases hi : i = id
    · subst hi
      rw [if_pos rfl, Function.update_self]
      exact ⟨ha.unlink (hl.mp hy), by simp⟩
    · rw [if_neg hi, List.append_nil, Function.update_of_ne (Ne.symm hi)]
      exact ⟨ha, hl⟩
  · exact h

/-- Linking a list of ids: one packet for each distinct id not linked yet. -/
theorem foldl_link (ids : List Int) : ∀ a : Session,
    (ids.foldl link a).packets = a.packets ++ (ids.filter (!a.linked ·)).eraseDups.map (.link, ·) ∧
      (ids.foldl link a).status = a.status ∧ (ids.foldl link a).waits = a.waits ∧
      (a.Tracked → (ids.foldl link a).Tracked) := by
  induction ids with
  | nil => exact fun a => ⟨by simp, rfl, rfl, id⟩
  | cons i ids ih =>
    intro a
    obtain ⟨h1, h2, h3, h4⟩ := ih (a.link i)
    refine ⟨?_, h2.trans (link_status a i), h3.trans (link_waits a i), fun ht => h4 (ht.link i)⟩
    rw [List.foldl_cons, h1]
    cases hl : a.linked i with
    | true => simp [link, hl]
    | false =>
      have hf : ids.filter (!Function.update a.linked i true ·) =
          (ids.filter (!a.linked ·)).filter fun b => !b == i := by
        rw [List.filter_filter]
        refine List.filter_congr fun b _ => ?_
        by_cases hb : b = i <;> simp [hb]
      simp [link, hl, hf, List.eraseDups_cons]

theorem link_linked (a : Session) (i id : Int) :
    (a.link i).linked id = true ↔ a.linked id = true ∨ id = i := by
  unfold link
  by_cases hi : id = i
  · subst hi; split <;> simp_all
  · split <;> simp [hi]

theorem unlink_linked (a : Session) (i id : Int) :
    (a.unlink i).linked id = true ↔ a.linked id = true ∧ id ≠ i := by
  unfold unlink
  by_cases hi : id = i
  · subst hi; split <;> simp_all
  · split <;> simp [hi]

theorem foldl_link_linked (ids : List Int) (id : Int) : ∀ a : Session,
    (ids.foldl link a).linked id = true ↔ a.linked id = true ∨ id ∈ ids := by
  induction ids with
  | nil => simp
  | cons i ids ih =>
    intro a
    rw [List.foldl_cons, ih, link_linked, List.mem_cons, or_assoc]

theorem step_onRxNAT_status (a : Session) :
    (a.step .onRxNAT).status = if a.status = .nating then .online else a.status := by
  simp only [step]
  split
  · exact (foldl_link a.waits _).2.1
  · rfl

/-! ## The invariant -/

structure Good (a : Session) : Prop where
  early : a.status ≠ .online → a.packets = [] ∧ ∀ id, a.linked id = false
  late : a.status = .online → a.waits = []
  tracked : a.Tracked

/-- Going online links what waits, each id once. -/
theorem drain_packets (a : Session) (hp : a.packets = []) (hl : ∀ id, a.linked id = false) :
    a.drain.packets = a.waits.eraseDups.map (.link, ·) := by
  have h := (foldl_link a.waits a).1
  simpa [drain, hp, hl] using h

theorem good_drain {a : Session} (h : a.Tracked) (hs : a.status = .online) : a.drain.Good := by
  obtain ⟨-, hst, -, ht⟩ := foldl_link a.waits a
  exact ⟨fun hn => absurd (hst.trans hs) hn, fun _ => rfl, ht h⟩

theorem good_step {a : Session} (h : a.Good) (op : Op) : (a.step op).Good := by
  cases op with
  | login =>
    simp only [step]
    split
    · rename_i hs
      exact ⟨fun _ => h.early (by rw [hs]; decide), (fun e => nomatch e), h.tracked⟩
    · exact h
  | onRxLogin =>
    simp only [step]
    split
    · rename_i hs
      exact ⟨fun _ => h.early (by rw [hs]; decide), (fun e => nomatch e), h.tracked⟩
    · exact h
  | onRxNAT =>
    simp only [step]
    split
    · exact good_drain h.tracked rfl
    · exact h
  | linkRoom id =>
    simp only [step]
    split
    · rename_i hs
      exact ⟨fun hn => absurd (by simpa using hs) hn,
        fun _ => by simpa using h.late hs, h.tracked.link id⟩
    · rename_i hs
      exact ⟨h.early, fun e => absurd e hs, h.tracked⟩
  | unlinkRoom id =>
    by_cases hs : a.status = .online
    · exact ⟨fun hn => absurd (by simpa [step] using hs) hn,
        fun _ => by simpa [step] using h.late hs,
        h.tracked.unlink id⟩
    · have he : a.step (.unlinkRoom id) = a := by
        simp [step, unlink, (h.early hs).2 id]
      rw [he]
      exact h

/-- One step up, or none. -/
def StatusStep (old new : ProxyStatus) : Prop :=
  new = old ∨ (old = .uninit ∧ new = .logining) ∨ (old = .logining ∧ new = .nating) ∨
    (old = .nating ∧ new = .online)

theorem statusStep (a : Session) (op : Op) : StatusStep a.status (a.step op).status := by
  unfold StatusStep
  cases op <;> simp only [step]
  case login => split <;> simp_all
  case onRxLogin => split <;> simp_all
  case onRxNAT =>
    have hst := step_onRxNAT_status a
    simp only [step] at hst
    rw [hst]
    split <;> simp_all
  case linkRoom id => split <;> simp
  case unlinkRoom id => simp

end Session
end MonitorAgent.L4
