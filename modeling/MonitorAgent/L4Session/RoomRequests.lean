import MonitorAgent.L3Wall.Bijection
import MonitorAgent.L3Wall.Links
import MonitorAgent.L4Session.RoomMessages

/-!
# Room requests that cannot be sent

`LinkRoom` and `UnlinkRoom` of an online proxy change `rooms_` and the room
first, and send the request last. When the send fails they say so, but nothing
is put back: the next `LinkRoom` finds the room linked, the next `UnlinkRoom`
does not find it, and neither sends anything.

* `requests_intact_iff`: a request that could not be sent leaves the rooms as
  they were iff it came to no send.
* `request_lost`: both requests fail once, and are never made again.
-/
namespace MonitorAgent.L4

open MonitorAgent.L3

/-- The rooms of the proxy, and the proxy and users of the room. -/
structure Intact (p : ProxyRef) (r : RoomRef) (w w' : World) : Prop where
  rooms : (w'.proxies p).rooms = (w.proxies p).rooms
  proxy : (w'.rooms r).proxy = (w.rooms r).proxy
  users : (w'.rooms r).users = (w.rooms r).users

/-- If the packet of the request could not be sent, nothing has changed, and
the request made again comes to a send. -/
def LeavesIntact (request : World → World × PjStatus) (p : ProxyRef) (r : RoomRef) (w : World) :
    Prop :=
  (request w).2 = .esend → Intact p r w (request w).1 ∧
    (request (request w).1).1.sends = (request w).1.sends + 1

/-! ## The sends of the two requests -/

/-- Teardown sends nothing. -/
theorem sameSends_teardownFrame :
    TeardownFrame fun w w' => w'.sends = w.sends ∧ w'.sendOk = w.sendOk where
  refl _ := ⟨rfl, rfl⟩
  trans h h' := ⟨h'.1.trans h.1, h'.2.trans h.2⟩
  screen w s := by
    unfold World.disconnectUser
    split <;> exact ⟨rfl, rfl⟩
  room _ _ _ _ := ⟨rfl, rfl⟩
  delete _ _ := ⟨rfl, rfl⟩

theorem sendPacket_snd (w : World) (packet : Packet) :
    (w.sendPacket packet).2 = if w.sendOk w.sends then .success else .esend := by
  unfold World.sendPacket
  split <;> rfl

section Online

variable {w : World} {p : ProxyRef} {r : RoomRef}

/-- A room that is linked is not linked again. -/
theorem linkRoom_linked (ho : (w.proxies p).status = .online)
    (hf : ((w.proxies p).rooms.find? (w.rooms r).id).isSome) : w.linkRoom p r = (w, .eexists) := by
  rw [World.linkRoom, if_pos ho, World.linkOnline, World.addRoom, if_pos hf]

theorem linkRoom_new (ho : (w.proxies p).status = .online)
    (hf : (w.proxies p).rooms.find? (w.rooms r).id = none) :
    (w.linkRoom p r).2 = if w.sendOk w.sends then .success else .esend := by
  rw [World.linkRoom, if_pos ho, World.linkOnline, World.addRoom, hf]
  exact sendPacket_snd _ _

/-- A room that is not linked is not unlinked. -/
theorem unlinkRoom_unlinked (hf : (w.proxies p).rooms.find? (w.rooms r).id = none) :
    w.unlinkRoom p r = (w, .enotfound) := by
  rw [World.unlinkRoom, World.delRoom, hf]

theorem unlinkRoom_linked {r₀ : RoomRef} (hf : (w.proxies p).rooms.find? (w.rooms r).id = some r₀) :
    (w.unlinkRoom p r).2 = if w.sendOk w.sends then .success else .esend := by
  have hs := sameSends_teardownFrame.onDestory
    (w.modifyProxy p fun x => { x with rooms := x.rooms.erase (w.rooms r).id }) r
  rw [World.unlinkRoom, World.delRoom_found w r p hf]
  dsimp only
  rw [sendPacket_snd, hs.1, hs.2]
  rfl

/-- Linked in `rooms_`, whether or not the proxy was told. -/
theorem linkRoom_adds (ho : (w.proxies p).status = .online) :
    (((w.linkRoom p r).1.proxies p).rooms.find? ((w.linkRoom p r).1.rooms r).id).isSome ∧
      ((w.linkRoom p r).1.proxies p).status = .online := by
  obtain ⟨hrooms, hproxies⟩ := World.linkOnline_eq w p r
  rw [World.linkRoom, if_pos ho, hrooms, hproxies, World.addRoom_id, World.addRoom_find?,
    if_pos ⟨rfl, rfl⟩, (World.addRoom_rest w p (w.rooms r).id r p).2]
  exact ⟨rfl, ho⟩

/-- Out of `rooms_`, whether or not the proxy was told. -/
theorem unlinkRoom_removes :
    ((w.unlinkRoom p r).1.proxies p).rooms.find? ((w.unlinkRoom p r).1.rooms r).id = none := by
  obtain ⟨hrooms, hproxies⟩ := World.unlinkRoom_eq w p r
  rw [hrooms, hproxies, World.delRoom_id, World.delRoom_find?, if_pos ⟨rfl, rfl⟩]

/-- A request that comes to a send, and to none when it is made again. -/
theorem leavesIntact_iff {request : World → World × PjStatus}
    (hsend : (request w).2 = if w.sendOk w.sends then .success else .esend)
    (hagain : (request (request w).1).1.sends = (request w).1.sends) :
    LeavesIntact request p r w ↔ w.sendOk w.sends = true := by
  cases hs : w.sendOk w.sends with
  | true =>
    rw [hs, if_pos rfl] at hsend
    exact iff_of_true (fun he => nomatch hsend.symm.trans he) rfl
  | false =>
    rw [hs, if_neg Bool.false_ne_true] at hsend
    refine iff_of_false (fun h => ?_) Bool.false_ne_true
    have hsends := (h hsend).2
    rw [hagain] at hsends
    exact Nat.succ_ne_self _ hsends.symm

/-- After a link that could not be sent, `LinkRoom` finds the room there. -/
theorem linkRoom_intact_iff (ho : (w.proxies p).status = .online) :
    LeavesIntact (·.linkRoom p r) p r w ↔
      w.sendOk w.sends = true ∨ ((w.proxies p).rooms.find? (w.rooms r).id).isSome := by
  cases hf : (w.proxies p).rooms.find? (w.rooms r).id with
  | some r₀ =>
    refine iff_of_true (fun he => ?_) (.inr rfl)
    dsimp only at he
    rw [linkRoom_linked ho (by rw [hf]; rfl)] at he
    cases he
  | none =>
    obtain ⟨hadded, hon⟩ := linkRoom_adds (r := r) ho
    rw [leavesIntact_iff (linkRoom_new ho hf) (by rw [linkRoom_linked hon hadded])]
    simp

/-- After an unlink that could not be sent, `UnlinkRoom` finds no room. -/
theorem unlinkRoom_intact_iff :
    LeavesIntact (·.unlinkRoom p r) p r w ↔
      w.sendOk w.sends = true ∨ (w.proxies p).rooms.find? (w.rooms r).id = none := by
  cases hf : (w.proxies p).rooms.find? (w.rooms r).id with
  | none =>
    refine iff_of_true (fun he => ?_) (.inr rfl)
    dsimp only at he
    rw [unlinkRoom_unlinked hf] at he
    cases he
  | some r₀ =>
    rw [leavesIntact_iff (unlinkRoom_linked hf) (by rw [unlinkRoom_unlinked unlinkRoom_removes])]
    simp

end Online

/-- **Room requests.** With the proxy online, a request whose packet could not
be sent has left everything as it was iff the next send succeeds, or the
request comes to no send: the room is linked already, or is not linked. -/
theorem requests_intact_iff {w : World} {p : ProxyRef} (ho : (w.proxies p).status = .online)
    (r : RoomRef) :
    (LeavesIntact (·.linkRoom p r) p r w ↔
      w.sendOk w.sends = true ∨ ((w.proxies p).rooms.find? (w.rooms r).id).isSome) ∧
    (LeavesIntact (·.unlinkRoom p r) p r w ↔
      w.sendOk w.sends = true ∨ (w.proxies p).rooms.find? (w.rooms r).id = none) :=
  ⟨linkRoom_intact_iff ho, unlinkRoom_intact_iff⟩

/-- Room 5 on an online proxy, with the sends numbered `bad` failing. -/
def onlineRoom (linked : Bool) (bad : List Nat) : World :=
  { World.launched with
    proxies := fun p => ⟨p, none, 0, .online,
      if linked && p == 0 then .insert .empty 5 5 else .empty, []⟩
    rooms := fun r => ⟨r, if linked then some 0 else none, .empty, []⟩
    sendOk := fun n => !bad.contains n }

theorem requests_intact_onlineRoom :
    LeavesIntact (·.linkRoom 0 5) 0 5 (onlineRoom true [0]) ∧
      LeavesIntact (·.unlinkRoom 0 5) 0 5 (onlineRoom false [0]) :=
  ⟨(requests_intact_iff (w := onlineRoom true [0]) (p := 0) rfl 5).1.mpr (.inr (by decide +kernel)),
    (requests_intact_iff (w := onlineRoom false [0]) (p := 0) rfl 5).2.mpr
      (.inr (by decide +kernel))⟩

/-- A room that could not be linked counts as linked: the message again, and
nothing is sent. A room that could not be unlinked has lost its proxy: the
message again is an error. -/
theorem request_lost :
    (((onlineRoom false [0]).linkRoom 0 5).2 = .esend ∧
      ¬ LeavesIntact (·.linkRoom 0 5) 0 5 (onlineRoom false [0]) ∧
      (((onlineRoom false [0]).linkRoom 0 5).1.linkRoom 0 5).2 = .eexists ∧
      (((onlineRoom false [0]).linkRoom 0 5).1.linkRoom 0 5).1.sent = []) ∧
    ((onlineRoom true [0]).unlinkRoom 0 5).2 = .esend ∧
      ¬ LeavesIntact (·.unlinkRoom 0 5) 0 5 (onlineRoom true [0]) ∧
      (((onlineRoom true [0]).unlinkRoom 0 5).1.unlinkRoom 0 5).2 = .enotfound ∧
      (ScreenMgr.onUnlinkRoom
        ⟨((onlineRoom true [0]).unlinkRoom 0 5).1, .empty, 1, fun _ => .null, [], []⟩ 5).2 =
        .einval := by
  refine ⟨⟨by decide +kernel, fun h => ?_, by decide +kernel, by decide +kernel⟩, by decide +kernel,
    fun h => ?_,
    by decide +kernel, by decide +kernel⟩
  · exact absurd (h (by decide +kernel)).2 (by decide +kernel)
  · exact absurd (h (by decide +kernel)).2 (by decide +kernel)

end MonitorAgent.L4
