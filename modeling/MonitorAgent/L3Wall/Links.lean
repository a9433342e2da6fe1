import MonitorAgent.L3Wall.Teardown

/-!
# Rooms and the proxies they are linked through

`AvsProxy::rooms_` and `TitleRoom::proxy_` refer to each other. `AddRoom`
writes both, `DelRoom` clears both, and `Destory` does so for every room of a
proxy. The references agree (`Links`) as long as a room is added only while
it has no proxy, and what is deleted under a room's id is that room.
-/
namespace MonitorAgent.L3

namespace World

/-! ## What `AddRoom` does -/

section AddRoom

variable (w : World) (p : ProxyRef) (roomId : Int) (r : RoomRef)

theorem addRoom_id (r' : RoomRef) : ((w.addRoom p roomId r).1.rooms r').id = (w.rooms r').id := by
  unfold addRoom
  split
  · rfl
  · rw [onCreate, modifyRoom_rooms]
    split
    · rename_i he; rw [he]; rfl
    · rfl

theorem addRoom_proxy (r' : RoomRef) : ((w.addRoom p roomId r).1.rooms r').proxy =
    if r' = r ∧ (w.proxies p).rooms.find? roomId = none then some p else (w.rooms r').proxy := by
  unfold addRoom
  cases (w.proxies p).rooms.find? roomId with
  | some r₀ => simp
  | none =>
    simp only [Option.isSome_none, Bool.false_eq_true, if_false, and_true]
    rw [onCreate, modifyRoom_rooms]
    split <;> rfl

/-- An entry that exists stays. -/
theorem addRoom_find? (q : ProxyRef) (k : Int) :
    ((w.addRoom p roomId r).1.proxies q).rooms.find? k =
    if q = p ∧ k = roomId then some (((w.proxies p).rooms.find? roomId).getD r) else
      (w.proxies q).rooms.find? k := by
  unfold addRoom
  cases hf : (w.proxies p).rooms.find? roomId with
  | some r₀ =>
    simp only [Option.isSome_some, if_true, Option.getD_some]
    split
    · rename_i he; rw [he.1, he.2, hf]
    · rfl
  | none =>
    simp only [Option.isSome_none, Bool.false_eq_true, if_false, Option.getD_none]
    rw [onCreate, modifyRoom_proxies, modifyProxy_proxies]
    by_cases hqp : q = p
    · simp only [hqp, if_true, StdMap.find?_insert, hf, Option.getD_none, true_and]
    · simp [hqp]

theorem addRoom_rest (q : ProxyRef) :
    ((w.addRoom p roomId r).1.proxies q).waitsRooms = (w.proxies q).waitsRooms ∧
      ((w.addRoom p roomId r).1.proxies q).status = (w.proxies q).status := by
  unfold addRoom
  split
  · exact ⟨rfl, rfl⟩
  · rw [onCreate, modifyRoom_proxies, modifyProxy_proxies]
    split
    · rename_i he; rw [he]; exact ⟨rfl, rfl⟩
    · exact ⟨rfl, rfl⟩

/-- `LinkRoom` on an online proxy adds the room, and sends. -/
theorem linkOnline_eq : (w.linkOnline p r).1.rooms = (w.addRoom p (w.rooms r).id r).1.rooms ∧
    (w.linkOnline p r).1.proxies = (w.addRoom p (w.rooms r).id r).1.proxies := by
  unfold linkOnline
  split
  · rename_i w' heq
    rw [heq]
    exact ⟨sendPacket_rooms w' _, sendPacket_proxies w' _⟩
  · rename_i heq
    rw [heq]
    exact ⟨rfl, rfl⟩

end AddRoom

/-- `UnlinkRoom` takes the room out, and sends. -/
theorem unlinkRoom_eq (w : World) (p : ProxyRef) (r : RoomRef) :
    (w.unlinkRoom p r).1.rooms = (w.delRoom p (w.rooms r).id r).1.rooms ∧
    (w.unlinkRoom p r).1.proxies = (w.delRoom p (w.rooms r).id r).1.proxies := by
  unfold unlinkRoom
  split
  · rename_i w' _ heq
    rw [heq]
    exact ⟨sendPacket_rooms w' _, sendPacket_proxies w' _⟩
  · rename_i heq
    rw [heq]
    exact ⟨rfl, rfl⟩

end World

/-- The entries of proxies are existing rooms under their ids, which point
back, and a room that points to a proxy is its entry. -/
structure Links (live : RoomRef → Prop) (w : World) : Prop where
  entry : ∀ p k r, (w.proxies p).rooms.find? k = some r →
    live r ∧ (w.rooms r).id = k ∧ (w.rooms r).proxy = some p
  back : ∀ r p, live r → (w.rooms r).proxy = some p →
    (w.proxies p).rooms.find? (w.rooms r).id = some r

namespace Links

variable {live : RoomRef → Prop} {w : World} (h : Links live w)
include h

theorem congr {w' : World} (hp : ∀ p, (w'.proxies p).rooms = (w.proxies p).rooms)
    (hi : ∀ r, (w'.rooms r).id = (w.rooms r).id)
    (hr : ∀ r, (w'.rooms r).proxy = (w.rooms r).proxy) :
    Links live w' where
  entry p k r hf := by
    rw [hp] at hf
    rw [hi, hr]
    exact h.entry p k r hf
  back r p hl hq := by
    rw [hr] at hq
    rw [hp, hi]
    exact h.back r p hl hq

theorem addRoom (p : ProxyRef) {r : RoomRef} (hl : live r) (hr : (w.rooms r).proxy = none) :
    Links live (w.addRoom p (w.rooms r).id r).1 := by
  cases hn : (w.proxies p).rooms.find? (w.rooms r).id with
  | some r' =>
    unfold World.addRoom
    rw [hn]
    exact h
  | none =>
    -- the room was no entry of anybody: entries point back
    have hnew : ∀ q k, (w.proxies q).rooms.find? k ≠ some r := fun q k hf => by
      have he := (h.entry q k r hf).2.2
      rw [hr] at he
      cases he
    have hi := World.addRoom_id w p (w.rooms r).id r
    have hq := World.addRoom_proxy w p (w.rooms r).id r
    have hf := World.addRoom_find? w p (w.rooms r).id r
    simp only [hn, and_true, Option.getD_none] at hq hf
    refine ⟨fun q k r' he => ?_, fun r' q hl' he => ?_⟩
    · rw [hf] at he
      rw [hi, hq]
      split at he
      · rename_i hk
        cases he
        exact ⟨hl, hk.2.symm, by rw [if_pos rfl, hk.1]⟩
      · have hne : r' ≠ r := fun e => hnew q k (by rw [← e]; exact he)
        rw [if_neg hne]
        exact h.entry q k r' he
    · rw [hq] at he
      rw [hf, hi]
      split at he
      · rename_i hr'
        cases he
        rw [if_pos ⟨rfl, by rw [hr']⟩, hr']
      · have hb := h.back r' q hl' he
        rw [if_neg]
        · exact hb
        · intro ⟨hqp, hk⟩
          rw [hqp, hk, hn] at hb
          cases hb

/-- A room that is linked already, or has no proxy. -/
theorem linkOnline (p : ProxyRef) {r : RoomRef}
    (hr : ((w.proxies p).rooms.find? (w.rooms r).id).isSome ∨ live r ∧ (w.rooms r).proxy = none) :
    Links live (w.linkOnline p r).1 := by
  obtain ⟨hrooms, hproxies⟩ := World.linkOnline_eq w p r
  have ha : Links live (w.addRoom p (w.rooms r).id r).1 := by
    rcases hr with hs | ⟨hl, hn⟩
    · unfold World.addRoom
      rw [if_pos hs]
      exact h
    · exact h.addRoom p hl hn
  exact ha.congr (fun q => by rw [hproxies]) (fun q => by rw [hrooms]) fun q => by rw [hrooms]

/-- `DelRoom` under the id of the room, if the entry there is the room. -/
theorem delRoom (p : ProxyRef) (r : RoomRef)
    (he : ∀ r', (w.proxies p).rooms.find? (w.rooms r).id = some r' → r' = r) :
    Links live (w.delRoom p (w.rooms r).id r).1 := by
  cases hf : (w.proxies p).rooms.find? (w.rooms r).id with
  | none =>
    unfold World.delRoom
    rw [hf]
    exact h
  | some r' =>
    obtain rfl := he r' hf
    have hi := World.delRoom_id w r' p (w.rooms r').id
    have hq := World.delRoom_proxy w r' p hf
    have hfind := World.delRoom_find? w r' p (w.rooms r').id
    refine ⟨fun q k r he' => ?_, fun r q hl he' => ?_⟩
    · rw [hfind] at he'
      split at he'
      · cases he'
      · rename_i hk
        obtain ⟨hl, hid, hpr⟩ := h.entry q k r he'
        refine ⟨hl, (hi r).trans hid, ?_⟩
        rw [hq, if_neg]
        · exact hpr
        · rintro rfl
          have hback := (h.entry p _ r hf).2.2
          exact hk ⟨Option.some.inj (hpr.symm.trans hback), hid.symm⟩
    · rw [hq] at he'
      split at he'
      · cases he'
      · rename_i hr
        have hb := h.back r q hl he'
        rw [hfind, hi, if_neg]
        · exact hb
        · intro ⟨hqp, hk⟩
          rw [hqp, hk, hf] at hb
          exact hr (Option.some.inj hb).symm

theorem destory (hw : Bij w) (p : ProxyRef) : Links live (w.destory p) := by
  have ht := destory_tornDown p hw fun k r hf => (h.entry p k r hf).2.1
  refine ⟨fun q k r hf => ?_, fun r q hl hq => ?_⟩
  · by_cases hqp : q = p
    · rw [hqp, ht.empty] at hf
      cases hf
    · rw [ht.others q hqp] at hf
      obtain ⟨hl, hid, hpr⟩ := h.entry q k r hf
      rw [ht.id, ht.free r]
      · exact ⟨hl, hid, hpr⟩
      · intro he
        exact hqp (Option.some.inj (hpr.symm.trans (h.entry p _ r he).2.2))
  · by_cases he : (w.proxies p).rooms.find? (w.rooms r).id = some r
    · rw [(ht.held r he).1] at hq
      cases hq
    · rw [ht.free r he] at hq
      have hb := h.back r q hl hq
      have hqp : q ≠ p := by
        intro e
        rw [e] at hb
        exact he hb
      rw [ht.others q hqp, ht.id]
      exact hb

end Links
end MonitorAgent.L3
