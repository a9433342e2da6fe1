import MonitorAgent.L3Wall.Bijection
import MonitorAgent.L3Wall.Links
import MonitorAgent.L4Session.Scenes

/-!
# What a proxy told the client

The state of a proxy as seen from its connection: the status, the rooms
waiting and linked, and of each user of its rooms what the server said
(`Peer`). `peer` reads it off the world.

An operation on a proxy does to its `Peer` what the abstract operation says,
and leaves the other proxies, their users and the screens that show these
alone: `Served`, for every scene and every call. What an operation on `p` does
to `p` depends on the `Peer` of `p` alone.

This needs rooms and proxies to refer to each other (`Good`). It stays so as
long as no room is in the `rooms_` of two proxies (`Apart`).
-/
namespace MonitorAgent.L4

open MonitorAgent.L3

/-! ## The abstract state -/

/-- A user as the server described one. -/
structure Card where
  userId : Int
  micId : Nat
  audioSsrc : Nat
  videoSsrc : Nat
deriving DecidableEq

abbrev Roster := Int → Option Card

namespace Roster

variable (x : Roster)

def add (userId : Int) (micId : Nat) : Roster :=
  Function.update x userId (some (match x userId with
    | some c => { c with micId := micId }
    | none => ⟨userId, micId, 0, 0⟩))

def mod (userId : Int) (audioSsrc videoSsrc : Nat) : Roster :=
  Function.update x userId ((x userId).map fun c =>
    { c with audioSsrc := audioSsrc, videoSsrc := videoSsrc })

def del (userId : Int) : Roster := Function.update x userId none

/-- The users of a room of a RoomsInfo frame. -/
def announce (users : List UserInfo) : Roster :=
  users.foldl (fun x i => (x.add i.userId i.micId).mod i.userId i.audioSsrc i.videoSsrc) x

end Roster

/-- `users` by the id of the room. -/
@[ext] structure Peer where
  status : ProxyStatus
  waits : List RoomRef
  rooms : Int → Option RoomRef
  users : Int → Roster

namespace Peer

variable (a : Peer)

/-- `ok` says whether the request could be sent. -/
def login (ok : Bool) : Peer :=
  if a.status = .uninit ∧ ok = true then { a with status := .logining } else a

def onRxLogin (ok : Bool) : Peer :=
  if a.status = .logining ∧ ok = true then { a with status := .nating } else a

/-- A room and its id. -/
def link (id : Int) (r : RoomRef) : Peer :=
  if (a.rooms id).isSome then a else { a with rooms := Function.update a.rooms id (some r) }

def linkRoom (id : Int) (r : RoomRef) : Peer :=
  if a.status = .online then a.link id r else { a with waits := a.waits ++ [r] }

def onRxNAT (ids : RoomRef → Int) : Peer :=
  if a.status = .nating then
    { a.waits.foldl (fun a r => a.link (ids r) r) { a with status := .online } with waits := [] }
  else a

def unlinkRoom (id : Int) : Peer :=
  { a with
    rooms := Function.update a.rooms id none
    users := Function.update a.users id fun _ => none }

def destory : Peer := { a with rooms := fun _ => none, users := fun _ _ => none }

/-- What a scene does to the users of a room, if the proxy has the room. -/
def edit (id : Int) (f : Roster → Roster) : Peer :=
  if (a.rooms id).isSome then { a with users := Function.update a.users id (f (a.users id)) } else a

/-- `GetUser` finds the user, or is not called. -/
def Known (roomId userId : Int) : Prop := a.rooms roomId = none ∨ (a.users roomId userId).isSome

instance (roomId userId : Int) : Decidable (a.Known roomId userId) :=
  inferInstanceAs (Decidable (_ ∨ _))

def tellRoom (a : Peer) (x : RoomInfo) : Option Peer :=
  if a.rooms x.roomId ≠ none ∧ 256 ≤ x.users.length then none else
  some (a.edit x.roomId (·.announce x.users))

/-- `none`: the scene does not return. -/
def maintain (ids : RoomRef → Int) (ok : Bool) : Scene → Option Peer
  | .resLogin => some (a.onRxLogin ok)
  | .nat => some (a.onRxNAT ids)
  | .roomsInfo rooms => if 256 ≤ rooms.length then none else rooms.foldlM tellRoom a
  | .modMedia roomId userId audioSsrc videoSsrc =>
    if a.Known roomId userId then some (a.edit roomId (·.mod userId audioSsrc videoSsrc)) else none
  | .addUser roomId userId micId => some (a.edit roomId (·.add userId micId))
  | .delUser roomId userId =>
    if a.Known roomId userId then some (a.edit roomId (·.del userId)) else none
  | .keepAlive => some a

end Peer

/-! ## Seen in the world -/

def card (x : User) : Card := ⟨x.userId, x.micId, x.audioSsrc, x.videoSsrc⟩

def roster (w : World) (r : RoomRef) : Roster := fun userId =>
  ((w.rooms r).users.find? userId).map fun u => card (w.users u)

def peer (w : World) (p : ProxyRef) : Peer where
  status := (w.proxies p).status
  waits := (w.proxies p).waitsRooms
  rooms id := (w.proxies p).rooms.find? id
  users id := ((w.proxies p).rooms.find? id).elim (fun _ => none) (roster w)

theorem roster_congr {w w' : World} {r : RoomRef} {i : Int}
    (hf : (w'.rooms r).users.find? i = (w.rooms r).users.find? i)
    (hu : ∀ u, (w.rooms r).users.find? i = some u → card (w'.users u) = card (w.users u)) :
    roster w' r i = roster w r i := by
  rw [roster, roster, hf]
  cases h : (w.rooms r).users.find? i with
  | none => rfl
  | some u => rw [Option.map_some, Option.map_some, hu u h]

theorem peer_users_some {w : World} {p : ProxyRef} {id : Int} {r : RoomRef}
    (h : (w.proxies p).rooms.find? id = some r) : (peer w p).users id = roster w r := by
  simp only [peer, h, Option.elim_some]

theorem peer_users_none {w : World} {p : ProxyRef} {id : Int}
    (h : (w.proxies p).rooms.find? id = none) :
    (peer w p).users id = fun _ => none := by
  simp only [peer, h, Option.elim_none]

theorem peer_users_congr {w w' : World} {p : ProxyRef} {id : Int}
    (hf : (w'.proxies p).rooms.find? id = (w.proxies p).rooms.find? id)
    (hr : ∀ r, (w.proxies p).rooms.find? id = some r → roster w' r = roster w r) :
    (peer w' p).users id = (peer w p).users id := by
  cases h : (w.proxies p).rooms.find? id with
  | none => rw [peer_users_none h, peer_users_none (hf.trans h)]
  | some r => rw [peer_users_some h, peer_users_some (hf.trans h), hr r h]

/-- A room without a proxy has no users. -/
def Vacant (w : World) : Prop :=
  ∀ r, (w.rooms r).proxy = none → ∀ k, (w.rooms r).users.find? k = none

/-- No room is in the `rooms_` of two proxies. -/
def Apart (w : World) : Prop :=
  ∀ p q k k' r, (w.proxies p).rooms.find? k = some r → (w.proxies q).rooms.find? k' = some r → p = q

structure Good (w : World) : Prop where
  bij : Bij w
  links : Links (fun _ => True) w
  vacant : Vacant w

theorem Good.apart {w : World} (h : Good w) : Apart w := fun p q k k' r hp hq =>
  Option.some.inj ((h.links.entry p k r hp).2.2.symm.trans (h.links.entry q k' r hq).2.2)

/-- The proxy, the users of its rooms and the screens that show them are as
before. -/
structure Untouched (q : ProxyRef) (w w' : World) : Prop where
  proxy : w'.proxies q = w.proxies q
  rooms : ∀ k r, (w.proxies q).rooms.find? k = some r → (w'.rooms r).users = (w.rooms r).users
  users : ∀ k r i u, (w.proxies q).rooms.find? k = some r → (w.rooms r).users.find? i = some u →
    w'.users u = w.users u
  screens : ∀ k r i u s, (w.proxies q).rooms.find? k = some r → (w.rooms r).users.find? i = some u →
    (w.screens s).user = some u → w'.screens s = w.screens s

namespace Untouched

variable {q : ProxyRef} {w w' w'' : World}

theorem refl (q : ProxyRef) (w : World) : Untouched q w w :=
  ⟨rfl, fun _ _ _ => rfl, fun _ _ _ _ _ _ => rfl, fun _ _ _ _ _ _ _ _ => rfl⟩

theorem trans (h : Untouched q w w') (h' : Untouched q w' w'') : Untouched q w w'' where
  proxy := h'.proxy.trans h.proxy
  rooms k r hr := (h'.rooms k r (by rw [h.proxy]; exact hr)).trans (h.rooms k r hr)
  users k r i u hr hu :=
    (h'.users k r i u (by rw [h.proxy]; exact hr) (by rw [h.rooms k r hr]; exact hu)).trans
    (h.users k r i u hr hu)
  screens k r i u s hr hu hs :=
    (h'.screens k r i u s (by rw [h.proxy]; exact hr) (by rw [h.rooms k r hr]; exact hu)
      (by rw [h.screens k r i u s hr hu hs]; exact hs)).trans (h.screens k r i u s hr hu hs)

theorem roster (h : Untouched q w w') {k : Int} {r : RoomRef}
    (hr : (w.proxies q).rooms.find? k = some r) :
    roster w' r = roster w r := by
  funext i
  exact roster_congr (by rw [h.rooms k r hr]) fun u hu => by rw [h.users k r i u hr hu]

theorem peer (h : Untouched q w w') : peer w' q = peer w q := by
  refine Peer.ext (by rw [L4.peer, L4.peer, h.proxy]) (by rw [L4.peer, L4.peer, h.proxy])
    (by rw [L4.peer, L4.peer, h.proxy]) ?_
  funext k
  exact peer_users_congr (by rw [h.proxy]) fun r hr => h.roster hr

theorem of_sameWall (hp : w'.proxies q = w.proxies q) (h : SameWall w w') : Untouched q w w' :=
  ⟨hp, fun _ r _ => h.roomUsers r, fun _ _ _ _ _ _ => by rw [h.users],
    fun _ _ _ _ _ _ _ _ => by rw [h.screens]⟩

end Untouched

section Elsewhere

variable {out : UserRef → Prop} {w w' : World} (hb : Bij w) (he : Elsewhere out w w')
include hb he

/-- The users of a room none of whose users is `out`. -/
theorem roster_elsewhere {r : RoomRef} (hr : (w'.rooms r).users = (w.rooms r).users)
    (ho : ∀ u, (w.users u).titleRoom = r → ¬ out u) : roster w' r = roster w r := by
  funext i
  refine roster_congr (by rw [hr]) fun u hu => ?_
  obtain ⟨ha, ht, -⟩ := hb.filed r i u hu
  rw [he.users u ha (ho u ht)]

theorem Untouched.of_elsewhere {q : ProxyRef} (hq : w'.proxies q = w.proxies q)
    (hr : ∀ k r, (w.proxies q).rooms.find? k = some r → (w'.rooms r).users = (w.rooms r).users ∧
      ∀ u, (w.users u).titleRoom = r → ¬ out u) : Untouched q w w' := by
  refine ⟨hq, fun k r hf => (hr k r hf).1, fun k r i u hf hu => ?_, fun k r i u s hf hu hs => ?_⟩
  · obtain ⟨ha, ht, -⟩ := hb.filed r i u hu
    exact he.users u ha ((hr k r hf).2 u ht)
  · obtain ⟨ha, ht, -⟩ := hb.filed r i u hu
    exact he.screens s u hs ha ((hr k r hf).2 u ht)

end Elsewhere

/-- Ids are never changed. -/
structure SameNames (w w' : World) : Prop where
  proxyId : ∀ q, (w'.proxies q).id = (w.proxies q).id
  roomId : ∀ r, (w'.rooms r).id = (w.rooms r).id

/-- What an operation on `p` comes to: `a` is what `p` is like afterwards. -/
structure Served (p : ProxyRef) (w w' : World) (a : Peer) : Prop where
  good : Good w'
  names : SameNames w w'
  peer : peer w' p = a
  others : ∀ q, q ≠ p → Untouched q w w'

/-! ## The users of one room -/

/-- Only the room, its users and the screens that show them are concerned. -/
structure Confined (r : RoomRef) (w w' : World) : Prop where
  proxies : w'.proxies = w.proxies
  place : ∀ r', (w'.rooms r').id = (w.rooms r').id ∧ (w'.rooms r').proxy = (w.rooms r').proxy
  rooms : ∀ r', r' ≠ r → (w'.rooms r').users = (w.rooms r').users
  elsewhere : Elsewhere (fun u => (w.users u).titleRoom = r) w w'

namespace Confined

variable {r : RoomRef} {w w' w'' : World}

theorem trans (h : Confined r w w') (h' : Confined r w' w'') : Confined r w w'' where
  proxies := h'.proxies.trans h.proxies
  place r' := ⟨(h'.place r').1.trans (h.place r').1, (h'.place r').2.trans (h.place r').2⟩
  rooms r' hr := (h'.rooms r' hr).trans (h.rooms r' hr)
  elsewhere := by
    refine ⟨fun u ha ho => ?_, fun s u hs ha ho => ?_⟩
    · have hu := h.elsewhere.users u ha ho
      exact (h'.elsewhere.users u (by rw [hu]; exact ha) (by rw [hu]; exact ho)).trans hu
    · have hu := h.elsewhere.users u ha ho
      have hs' := h.elsewhere.screens s u hs ha ho
      exact (h'.elsewhere.screens s u (by rw [hs']; exact hs) (by rw [hu]; exact ha)
        (by rw [hu]; exact ho)).trans hs'

theorem of_sameWall (hp : w'.proxies = w.proxies) (hw : SameWall w w')
    (hr : ∀ r', (w'.rooms r').id = (w.rooms r').id ∧ (w'.rooms r').proxy = (w.rooms r').proxy) :
    Confined r w w' :=
  ⟨hp, hr, fun r' _ => hw.roomUsers r', .of_same hw.screens hw.users⟩

theorem untouched (hb : Bij w) (h : Confined r w w') {q : ProxyRef}
    (hq : ∀ k, (w.proxies q).rooms.find? k ≠ some r) : Untouched q w w' :=
  .of_elsewhere hb h.elsewhere (by rw [h.proxies]) fun k r' hr => by
    have hne : r' ≠ r := fun he => hq k (he ▸ hr)
    exact ⟨h.rooms r' hne, fun u ht => by rw [ht]; exact hne⟩

theorem roster (hb : Bij w) (h : Confined r w w') {r' : RoomRef} (hr : r' ≠ r) :
    roster w' r' = roster w r' :=
  roster_elsewhere hb h.elsewhere (h.rooms r' hr) fun u ht => by rw [ht]; exact hr

theorem links (h : Confined r w w') (hl : Links (fun _ => True) w) : Links (fun _ => True) w' :=
  hl.congr (fun p => by rw [h.proxies]) (fun r' => (h.place r').1) fun r' => (h.place r').2

end Confined

/-- The users of the room change as `f` says. -/
structure Edit (r : RoomRef) (f : Roster → Roster) (w w' : World) : Prop where
  bij : Bij w'
  confined : Confined r w w'
  roster : roster w' r = f (roster w r)

theorem Edit.trans {r : RoomRef} {f g : Roster → Roster} {w w' w'' : World} (h : Edit r f w w')
    (h' : Edit r g w' w'') :
    Edit r (fun x => g (f x)) w w'' :=
  ⟨h'.bij, h.confined.trans h'.confined, by rw [h'.roster, h.roster]⟩

theorem Edit.after {r : RoomRef} {f : Roster → Roster} {w w' w'' : World} (hc : Confined r w w')
    (hr : L4.roster w' r = L4.roster w r) (h : Edit r f w' w'') : Edit r f w w'' :=
  ⟨h.bij, hc.trans h.confined, by rw [h.roster, hr]⟩

theorem Good.edit {w w' : World} (h : Good w) {p : ProxyRef} {id : Int} {r : RoomRef}
    {f : Roster → Roster}
    (hr : (w.proxies p).rooms.find? id = some r) (he : Edit r f w w') :
    Served p w w' ((peer w p).edit id f) := by
  have hent := h.links.entry p id r hr
  obtain ⟨hb, hc, hf⟩ := he
  refine ⟨⟨hb, hc.links h.links, fun r' hp k => ?_⟩,
    ⟨fun q => by rw [hc.proxies], fun r' => (hc.place r').1⟩, ?_,
    fun q hq => hc.untouched h.bij fun k he => hq (h.apart q p k id r he hr)⟩
  · rw [(hc.place r').2] at hp
    rw [hc.rooms r']
    · exact h.vacant r' hp k
    · rintro rfl
      rw [hent.2.2] at hp
      cases hp
  · have hsome : ((peer w p).rooms id).isSome = true := Option.isSome_of_eq_some hr
    rw [Peer.edit, if_pos hsome]
    refine Peer.ext ?_ ?_ ?_ ?_
    · exact congrArg AvsProxy.status (congrFun hc.proxies p)
    · exact congrArg AvsProxy.waitsRooms (congrFun hc.proxies p)
    · funext k
      change (w'.proxies p).rooms.find? k = (w.proxies p).rooms.find? k
      rw [hc.proxies]
    · funext k
      dsimp only
      rw [Function.update_apply]
      split
      · rename_i hk
        rw [hk, peer_users_some hr, peer_users_some (by rw [hc.proxies]; exact hr), hf]
      · rename_i hk
        refine peer_users_congr (by rw [hc.proxies]) fun r' hr' => hc.roster h.bij ?_
        rintro rfl
        exact hk ((h.links.entry p k r' hr').2.1.symm.trans hent.2.1)

section Edits

variable {w : World} (hb : Bij w) (r : RoomRef) (userId : Int)

theorem roster_of_sameWall {w w' : World} (h : SameWall w w') (r : RoomRef) :
    roster w' r = roster w r := by
  funext i
  exact roster_congr (by rw [h.roomUsers]) fun u _ => by rw [h.users]

include hb

theorem newUser_edit (micId : Nat) (hn : (w.rooms r).users.find? userId = none) :
    Edit r (·.add userId micId) w (w.newUser r userId micId) := by
  have hne : ∀ u, (w.users u).alive = true → u ≠ w.nextUser :=
    fun u ha => Nat.ne_of_lt (hb.fresh u ha)
  have hroom : ∀ r', ((w.newUser r userId micId).rooms r').id = (w.rooms r').id ∧
      ((w.newUser r userId micId).rooms r').proxy = (w.rooms r').proxy ∧
      (r' ≠ r → ((w.newUser r userId micId).rooms r').users = (w.rooms r').users) := fun r' => by
    simp only [World.newUser, World.modifyRoom_rooms, World.modifyUser_rooms]
    split
    · rename_i he; rw [he]; exact ⟨rfl, rfl, fun h => absurd rfl h⟩
    · exact ⟨rfl, rfl, fun _ => rfl⟩
  refine ⟨hb.step (.create w r userId micId hn), ⟨rfl, fun r' => ⟨(hroom r').1, (hroom r').2.1⟩,
    fun r' => (hroom r').2.2, fun u ha _ => by rw [World.newUser_users,
      if_neg (hne u ha)], fun _ _ _ _ _ => rfl⟩,
    Function.eq_update_iff.mpr ⟨?_, fun i hi => roster_congr ?_ fun u hu => ?_⟩⟩
  · have h0 : roster w r userId = none := by rw [roster, hn, Option.map_none]
    rw [h0, roster, World.newUser_find?, if_pos ⟨rfl, rfl⟩, Option.map_some, World.newUser_users,
      if_pos rfl]
    rfl
  · rw [World.newUser_find?, if_neg fun h => hi h.2]
  · rw [World.newUser_users, if_neg (hne u (hb.filed r i u hu).1)]

/-- The record of one user of the room is changed, and no identity. -/
theorem record_edit {u : UserRef} (hf : (w.rooms r).users.find? userId = some u) {w' : World}
    (g : User → User)
    (hb' : Bij w') (hs : w'.screens = w.screens) (hrooms : w'.rooms = w.rooms)
    (hp : w'.proxies = w.proxies)
    (hu : ∀ v, w'.users v = if v = u then g (w.users u) else w.users v) :
    Edit r (fun x => Function.update x userId (some (card (g (w.users u))))) w w' := by
  obtain ⟨-, ht, hk⟩ := hb.filed r userId u hf
  refine ⟨hb', ⟨hp, fun r' => by rw [hrooms]; exact ⟨rfl, rfl⟩,
    fun r' _ => by rw [hrooms], fun v _ ho => ?_,
    fun _ _ _ _ _ => by rw [hs]⟩, Function.eq_update_iff.mpr ⟨?_, fun i hi => ?_⟩⟩
  · rw [hu, if_neg]
    rintro rfl
    exact ho ht
  · rw [roster, hrooms, hf, Option.map_some, hu, if_pos rfl]
  · refine roster_congr (by rw [hrooms]) fun v hv => ?_
    rw [hu, if_neg]
    rintro rfl
    exact hi ((hb.filed r i v hv).2.2.symm.trans hk)

theorem modMedia_edit {u : UserRef} (hf : (w.rooms r).users.find? userId = some u)
    (audioSsrc videoSsrc : Nat) :
    Edit r (·.mod userId audioSsrc videoSsrc) w (w.modMedia u audioSsrc videoSsrc) := by
  have he :=
    record_edit hb r userId hf (fun x => { x with audioSsrc := audioSsrc, videoSsrc := videoSsrc })
    (hb.modMedia u audioSsrc videoSsrc) (World.modMedia_screens ..) (World.modMedia_rooms ..)
    (World.modMedia_proxies ..) (World.modMedia_users w u audioSsrc videoSsrc)
  have h0 : roster w r userId = some (card (w.users u)) := by rw [roster, hf, Option.map_some]
  refine ⟨he.bij, he.confined, ?_⟩
  rw [he.roster, Roster.mod, h0]
  rfl

/-- `AddUser` also says which user it returns. -/
theorem addUser_edit (micId : Nat) : Edit r (·.add userId micId) w (w.addUser r userId micId).1 ∧
    ((w.addUser r userId micId).1.rooms r).users.find? userId =
    some (w.addUser r userId micId).2 := by
  have hd : Bij (if (w.rooms r).users.isEmpty then w.delAll r else w) ∧
      Confined r w (if (w.rooms r).users.isEmpty then w.delAll r else w) ∧
      roster (if (w.rooms r).users.isEmpty then w.delAll r else w) r = roster w r := by
    split
    · have hw := SameWall.delAll w r
      refine ⟨hb.steps hw.steps, .of_sameWall rfl hw fun r' => ?_, roster_of_sameWall hw r⟩
      rw [World.delAll, World.modifyRoom_rooms]
      split
      · rename_i he; rw [he]; exact ⟨rfl, rfl⟩
      · exact ⟨rfl, rfl⟩
    · exact ⟨hb, .of_sameWall rfl (.refl w) fun _ => ⟨rfl, rfl⟩, rfl⟩
  unfold World.addUser
  generalize (if (w.rooms r).users.isEmpty then w.delAll r else w) = w₁ at hd
  obtain ⟨hb₁, hc, hr⟩ := hd
  dsimp only
  split
  · rename_i u hf
    have he := record_edit hb₁ r userId hf (fun x => { x with micId := micId })
      (hb₁.step (.micId w₁ u micId)) rfl rfl rfl (World.modifyUser_users w₁ u _)
    have h0 : roster w₁ r userId = some (card (w₁.users u)) := by rw [roster, hf, Option.map_some]
    refine ⟨.after hc hr ⟨he.bij, he.confined, ?_⟩, hf⟩
    rw [he.roster, Roster.add, h0]
    rfl
  · rename_i hn
    exact ⟨.after hc hr (newUser_edit hb₁ r userId micId hn),
      by rw [World.newUser_find?, if_pos ⟨rfl, rfl⟩]⟩

theorem delUser_edit : Edit r (·.del userId) w (w.delUser r userId).1 := by
  have hrooms := World.delUser_rooms w r userId
  have helse := delUser_elsewhere hb r userId
  have hfind : ∀ i, ((w.delUser r userId).1.rooms r).users.find? i =
      if i = userId then none else (w.rooms r).users.find? i := fun i => by
    cases hf : (w.rooms r).users.find? userId with
    | some u => rw [(World.delUser_users w r hf).1, StdMap.find?_erase]
    | none =>
      unfold World.delUser
      rw [hf]
      dsimp only
      rw [(World.addNull_if_rooms w r _ r).1]
      split
      · rename_i hi; rw [hi, hf]
      · rfl
  refine ⟨hb.steps (delUser_steps hb r userId), ⟨sameProxies_teardownFrame.delUser w r userId,
    fun r' => ⟨(hrooms r').2.1, (hrooms r').1⟩, fun r' hne => by rw [(hrooms r').2.2 hne],
    helse.mono fun u hf => (hb.filed r userId u hf).2.1⟩,
    Function.eq_update_iff.mpr ⟨by rw [roster, hfind, if_pos rfl, Option.map_none], fun i hi => ?_⟩⟩
  refine roster_congr (by rw [hfind, if_neg hi]) fun u hu => ?_
  obtain ⟨ha, -, hk⟩ := hb.filed r i u hu
  rw [helse.users u ha]
  intro hf
  exact hi (hk.symm.trans (hb.filed r userId u hf).2.2)

end Edits

/-! ## Scenes about users -/

namespace Served

variable {p : ProxyRef} {w w' w'' : World} {a b : Peer}

theorem refl (h : Good w) : Served p w w (L4.peer w p) :=
  ⟨h, ⟨fun _ => rfl, fun _ => rfl⟩, rfl, fun q _ => .refl q w⟩

theorem trans (h : Served p w w' a) (h' : Served p w' w'' b) : Served p w w'' b where
  good := h'.good
  names := ⟨fun q => (h'.names.proxyId q).trans (h.names.proxyId q), fun r =>
    (h'.names.roomId r).trans (h.names.roomId r)⟩
  peer := h'.peer
  others q hq := (h.others q hq).trans (h'.others q hq)

/-- One after the other, where either may not return. -/
theorem bind {o : Option World} {x : Option Peer} {f : World → Option World}
    {g : Peer → Option Peer} (h : Option.Rel (Served p w) o x)
    (hf : ∀ w', Good w' → Option.Rel (Served p w') (f w') (g (L4.peer w' p))) :
    Option.Rel (Served p w) (o.bind f) (x.bind g) := by
  cases h with
  | none => exact .none
  | @some w' a hs =>
    have h' := hf w' hs.good
    rw [hs.peer] at h'
    cases hfw : f w' <;> cases hga : g a <;> rw [hfw, hga] at h'
    case none.none => simp only [Option.bind_some, hfw, hga]; exact .none
    case some.some =>
      cases h' with | some hs' => simp only [Option.bind_some, hfw, hga]; exact .some (hs.trans hs')
    all_goals cases h'

end Served

theorem Peer.edit_none {a : Peer} {id : Int} (h : a.rooms id = none) (f : Roster → Roster) :
    a.edit id f = a := by
  rw [Peer.edit, h, if_neg]
  exact fun e => nomatch e

theorem announce_edit (r : RoomRef) (users : List UserInfo) {w : World} (hb : Bij w) :
    Edit r (·.announce users) w (users.foldl (fun w x =>
      let (w, u) := w.addUser r x.userId x.micId
      w.modUser (some u) x.audioSsrc x.videoSsrc) w) := by
  induction users generalizing w with
  | nil => exact ⟨hb, .of_sameWall rfl (.refl w) fun _ => ⟨rfl, rfl⟩, rfl⟩
  | cons x users ih =>
    obtain ⟨ha, hf⟩ := addUser_edit hb r x.userId x.micId
    have hm := modMedia_edit ha.bij r x.userId hf x.audioSsrc x.videoSsrc
    exact (ha.trans hm).trans (ih hm.bij)

section UserScenes

variable {w : World} (h : Good w) (p : ProxyRef)
include h

theorem applyRoom_served (x : RoomInfo) :
    Option.Rel (Served p w) (applyRoom p w x) ((peer w p).tellRoom x) := by
  unfold applyRoom World.getRoom Peer.tellRoom
  cases hr : (w.proxies p).rooms.find? x.roomId with
  | none =>
    have ha : (peer w p).rooms x.roomId = none := hr
    rw [ha, if_neg (by simp), Peer.edit_none ha]
    exact .some (.refl h)
  | some r =>
    have ha : (peer w p).rooms x.roomId ≠ none := by
      change (w.proxies p).rooms.find? x.roomId ≠ none
      rw [hr]
      exact fun e => nomatch e
    simp only [applyUsers, ha, ne_eq, not_false_eq_true, true_and]
    split
    · exact .none
    · exact .some (h.edit hr (announce_edit r x.users h.bij))

theorem roomsInfoScene_served (rooms : List RoomInfo) {ids : RoomRef → Int} {ok : Bool} :
    Option.Rel (Served p w) (roomsInfoScene w p rooms)
    ((peer w p).maintain ids ok (.roomsInfo rooms)) := by
  have hfold : ∀ (rooms : List RoomInfo) {w : World}, Good w →
      Option.Rel (Served p w) (rooms.foldlM (applyRoom p) w)
      (rooms.foldlM Peer.tellRoom (peer w p)) := fun rooms => by
    induction rooms with
    | nil => exact fun h => .some (.refl h)
    | cons x rooms ih => exact fun h => Served.bind (applyRoom_served h p x) fun w' h' => ih h'
  simp only [roomsInfoScene, Peer.maintain]
  split
  · exact .none
  · exact hfold rooms h

/-- A scene that asks the room for a user first. -/
theorem getUser_served (roomId userId : Int) {f : RoomRef → UserRef → World} {g : Roster → Roster}
    (hf : ∀ r u, (w.rooms r).users.find? userId = some u → Edit r g w (f r u)) :
    Option.Rel (Served p w)
      (match w.getRoom p roomId with
        | none => some w
        | some r => (w.getUser r userId).map (f r))
      (if (peer w p).Known roomId userId then some ((peer w p).edit roomId g) else none) := by
  unfold World.getRoom World.getUser
  cases hr : (w.proxies p).rooms.find? roomId with
  | none =>
    have ha : (peer w p).rooms roomId = none := hr
    rw [if_pos (.inl ha), Peer.edit_none ha]
    exact .some (.refl h)
  | some r =>
    have hknown : (peer w p).Known roomId userId ↔
    ((w.rooms r).users.find? userId).isSome = true := by
      have ha : (peer w p).rooms roomId ≠ none := by
        change (w.proxies p).rooms.find? roomId ≠ none
        rw [hr]
        exact fun e => nomatch e
      rw [Peer.Known, peer_users_some hr, roster, Option.isSome_map, or_iff_right ha]
    dsimp only
    cases hu : (w.rooms r).users.find? userId with
    | none =>
      rw [if_neg (by rw [hknown, hu]; exact fun e => nomatch e)]
      exact .none
    | some u =>
      rw [if_pos (by rw [hknown, hu]; rfl)]
      exact .some (h.edit hr (hf r u hu))

theorem addUserScene_served (roomId userId : Int) (micId : Nat) :
    Served p w (addUserScene w p roomId userId micId)
    ((peer w p).edit roomId (·.add userId micId)) := by
  unfold addUserScene World.getRoom
  split
  · rename_i hr
    rw [Peer.edit_none hr]
    exact .refl h
  · rename_i r hr
    exact h.edit hr (addUser_edit h.bij r userId micId).1

end UserScenes

/-! ## Calls -/

theorem sameNames_callFrame (p : ProxyRef) : CallFrame p SameNames where
  refl _ := ⟨fun _ => rfl, fun _ => rfl⟩
  trans h h' :=
    ⟨fun q => (h'.proxyId q).trans (h.proxyId q), fun r => (h'.roomId r).trans (h.roomId r)⟩
  send w packet :=
    ⟨fun q => by rw [World.sendPacket_proxies], fun r => by rw [World.sendPacket_rooms]⟩
  proxy w f hf := ⟨fun q => by
    rw [World.modifyProxy_proxies]
    split
    · rename_i he; rw [hf, he]
    · rfl, fun _ => rfl⟩
  create w r := ⟨fun _ => rfl, fun r' => by
    rw [World.onCreate, World.modifyRoom_rooms]
    split
    · rename_i he; rw [he]
    · rfl⟩

theorem sameNames_teardownFrame : TeardownFrame SameNames where
  refl := (sameNames_callFrame 0).refl
  trans := (sameNames_callFrame 0).trans
  screen w s :=
    ⟨fun q => by rw [World.disconnectUser_proxies], fun r => by rw [World.disconnectUser_rooms]⟩
  room w r f hf := ⟨fun _ => rfl, fun r' => by
    rw [World.modifyRoom_rooms]
    split
    · rename_i he; rw [he, (hf _).1]
    · rfl⟩
  delete _ _ := ⟨fun _ => rfl, fun _ => rfl⟩

/-- A call on `p` concerns no other proxy, and no user. -/
theorem aside_callFrame (p : ProxyRef) :
    CallFrame p fun w w' => SameWall w w' ∧ ∀ q, q ≠ p → w'.proxies q = w.proxies q where
  refl w := ⟨.refl w, fun _ _ => rfl⟩
  trans h h' := ⟨h.1.trans h'.1, fun q hq => (h'.2 q hq).trans (h.2 q hq)⟩
  send w packet := ⟨.sendPacket w packet, fun q _ => by rw [World.sendPacket_proxies]⟩
  proxy w f _ := ⟨.modifyProxy w p f, fun q hq => by rw [World.modifyProxy_proxies, if_neg hq]⟩
  create w r := ⟨.modifyRoom w r _ fun _ => rfl, fun _ _ => rfl⟩

section Calls

variable {w : World} (h : Good w) (p : ProxyRef)

/-- `Login` could be sent. -/
def loginSent (w : World) : Bool := w.sendOk w.sends

/-- All three datagrams of `OnRxLogin` could be sent. -/
def natsSent (w : World) : Bool := (List.range 3).all fun i => w.sendOk (w.sends + i)

theorem sendNats_rest (n : Nat) (w : World) : (w.sendNats p n).1.rooms = w.rooms ∧
    (w.sendNats p n).1.proxies = w.proxies ∧
    ((w.sendNats p n).2 = .success ↔ ∀ i < n, w.sendOk (w.sends + i) = true) := by
  induction n generalizing w with
  | zero => exact ⟨rfl, rfl, iff_of_true rfl fun i hi => absurd hi (Nat.not_lt_zero i)⟩
  | succ n ih =>
    unfold World.sendNats World.sendPacket
    cases hok : w.sendOk w.sends with
    | true =>
      obtain ⟨hr, hp, hs⟩ := ih { w with sends := w.sends + 1, sent := w.sent ++ [w.natPacket p] }
      refine ⟨hr, hp, hs.trans ⟨fun hall i hi => ?_, fun hall i hi => ?_⟩⟩
      · cases i with
        | zero => exact hok
        | succ i =>
          have := hall i (Nat.lt_of_succ_lt_succ hi)
          rwa [Nat.add_right_comm] at this
      · have := hall (i + 1) (Nat.succ_lt_succ hi)
        rwa [← Nat.add_assoc, Nat.add_right_comm] at this
    | false =>
      refine ⟨rfl, rfl, iff_of_false (fun e => by cases e) fun hall => ?_⟩
      have h0 := hall 0 (Nat.succ_pos n)
      rw [Nat.add_zero, hok] at h0
      cases h0

include h

/-- The proxy gets on, its rooms stay. -/
theorem Good.progress {w' : World} (hw : SameWall w w') (hr : w'.rooms = w.rooms)
    (hq : ∀ q, q ≠ p → w'.proxies q = w.proxies q) (hp : w'.proxies p =
      { w.proxies p with
        status := (w'.proxies p).status, waitsRooms := (w'.proxies p).waitsRooms }) :
    Served p w w'
      { peer w p with status := (w'.proxies p).status, waits := (w'.proxies p).waitsRooms } := by
  have hrooms : ∀ q, (w'.proxies q).rooms = (w.proxies q).rooms ∧
    (w'.proxies q).id = (w.proxies q).id := fun q => by
    by_cases he : q = p
    · rw [he, hp]; exact ⟨rfl, rfl⟩
    · rw [hq q he]; exact ⟨rfl, rfl⟩
  refine ⟨⟨h.bij.steps hw.steps, h.links.congr (fun q => (hrooms q).1) (fun r => by rw [hr])
    fun r => by rw [hr],
    fun r => by rw [hr]; exact h.vacant r⟩, ⟨fun q => (hrooms q).2, fun r => by rw [hr]⟩, ?_,
    fun q he => .of_sameWall (hq q he) hw⟩
  refine Peer.ext rfl rfl ?_ ?_
  · funext k
    change (w'.proxies p).rooms.find? k = (w.proxies p).rooms.find? k
    rw [(hrooms p).1]
  · funext k
    exact peer_users_congr (by rw [(hrooms p).1]) fun r _ => roster_of_sameWall hw r

/-- The status and the rooms waiting are changed. -/
theorem modifyProxy_served (f : AvsProxy → AvsProxy) (hf : f (w.proxies p) =
      { w.proxies p with
        status := (f (w.proxies p)).status, waitsRooms := (f (w.proxies p)).waitsRooms }) :
    Served p w (w.modifyProxy p f)
      { peer w p with
        status := (f (w.proxies p)).status, waits := (f (w.proxies p)).waitsRooms } := by
  have hp := h.progress p (SameWall.modifyProxy w p f) rfl
    (fun q hq => by rw [World.modifyProxy_proxies, if_neg hq])
    (by rw [World.modifyProxy_proxies, if_pos rfl]; exact hf)
  rwa [World.modifyProxy_proxies, if_pos rfl] at hp

/-- A request that takes the proxy from one status to the next if it could be
sent: `x` is the world after sending it. -/
theorem handshake_served (old new : ProxyStatus) {x w' : World} (ok : Bool) (hw : SameWall w x)
    (hr : x.rooms = w.rooms) (hp : x.proxies = w.proxies)
    (he : w' = if (w.proxies p).status = old then (if ok then x.setStatus p new else x) else w) :
    Served p w w' (if (peer w p).status = old ∧ ok = true then
      { peer w p with status := new } else peer w p) := by
  have hsame : Served p w x (peer w p) := by
    have hx := h.progress p hw hr (fun q _ => by rw [hp]) (by rw [hp])
    rwa [hp] at hx
  by_cases hs : (w.proxies p).status = old
  · rw [if_pos hs] at he
    cases ok with
    | true =>
      rw [if_pos ⟨hs, rfl⟩]
      rw [if_pos rfl] at he
      subst he
      have hset : Served p x (x.setStatus p new) { peer x p with status := new } :=
        modifyProxy_served hsame.good p (fun a => { a with status := new }) rfl
      rw [hsame.peer] at hset
      exact hsame.trans hset
    | false =>
      rw [if_neg fun hc => nomatch hc.2]
      rw [if_neg fun hc => nomatch hc] at he
      exact he ▸ hsame
  · rw [if_neg hs] at he
    rw [if_neg fun hc => hs hc.1]
    rw [he]
    exact .refl h

theorem login_served : Served p w (w.login p).1 ((peer w p).login (loginSent w)) := by
  refine handshake_served h p .uninit .logining (loginSent w) (.sendPacket w (w.loginPacket p))
    (World.sendPacket_rooms w _) (World.sendPacket_proxies w _) ?_
  unfold World.login World.sendLogin World.sendPacket loginSent
  by_cases hs : (w.proxies p).status = .uninit
  · rw [if_neg (not_not.mpr hs), if_pos hs]
    cases w.sendOk w.sends <;> rfl
  · rw [if_pos hs, if_neg hs]

theorem onRxLogin_served : Served p w (w.onRxLogin p).1 ((peer w p).onRxLogin (natsSent w)) := by
  obtain ⟨hr, hp, hsent⟩ := sendNats_rest p 3 w
  have hok : (w.sendNats p 3).2 = .success ↔ natsSent w = true := by
    rw [hsent, natsSent, List.all_eq_true]
    exact ⟨fun ha i hi => ha i (List.mem_range.mp hi), fun ha i hi => ha i (List.mem_range.mpr hi)⟩
  refine handshake_served h p .logining .nating
    (natsSent w) ((SameWall.callFrame p).sendNats w 3) hr hp ?_
  unfold World.onRxLogin
  by_cases hs : (w.proxies p).status = .logining
  · rw [if_neg (not_not.mpr hs), if_pos hs]
    cases hst : w.sendNats p 3 with
    | mk x status =>
      rw [hst] at hok
      cases status with
      | success => rw [if_pos (hok.mp rfl)]
      | _ => rw [if_neg fun hc => nomatch hok.mpr hc]
  · rw [if_pos hs, if_neg hs]

/-- Other proxies keep their rooms, so a room that ends up with `p`, and was
not there, had no proxy. -/
theorem Good.proxy_none {w' : World} (ha : Apart w') (hq : ∀ q, q ≠ p → w'.proxies q = w.proxies q)
    {r : RoomRef}
    (hn : (w.proxies p).rooms.find? (w.rooms r).id = none) {k : Int}
    (hr : (w'.proxies p).rooms.find? k = some r) :
    (w.rooms r).proxy = none := by
  by_contra hne
  obtain ⟨q, hp⟩ := Option.ne_none_iff_exists'.mp hne
  have hb := h.links.back r q trivial hp
  by_cases hqp : q = p
  · rw [hqp, hn] at hb
    cases hb
  · exact hqp (ha q p _ k r (by rw [hq q hqp]; exact hb) hr)

theorem linkOnline_served (r : RoomRef)
    (hfree : (w.proxies p).rooms.find? (w.rooms r).id = none → (w.rooms r).proxy = none) :
    Served p w (w.linkOnline p r).1 ((peer w p).link (w.rooms r).id r) := by
  obtain ⟨hw, hq⟩ := (aside_callFrame p).linkOnline w r
  obtain ⟨hrooms, hproxies⟩ := World.linkOnline_eq w p r
  have hlinks := h.links.linkOnline p (r := r) (by
    cases hn : (w.proxies p).rooms.find? (w.rooms r).id with
    | some r' => exact .inl rfl
    | none => exact .inr ⟨trivial, hfree hn⟩)
  have hrest := World.addRoom_rest w p (w.rooms r).id r p
  have hfind := World.addRoom_find? w p (w.rooms r).id r p
  have hproxy := World.addRoom_proxy w p (w.rooms r).id r
  rw [← hproxies] at hrest hfind
  rw [← hrooms] at hproxy
  have hvacant : Vacant (w.linkOnline p r).1 := fun r' hp' k => by
    rw [hw.roomUsers]
    rw [hproxy] at hp'
    split at hp'
    · cases hp'
    · exact h.vacant r' hp' k
  refine ⟨⟨h.bij.steps hw.steps, hlinks, hvacant⟩, (sameNames_callFrame p).linkOnline w r, ?_,
    fun q he => .of_sameWall (hq q he) hw⟩
  cases hn : (w.proxies p).rooms.find? (w.rooms r).id with
  | some r' =>
    have ha : ((peer w p).rooms (w.rooms r).id).isSome = true := Option.isSome_of_eq_some hn
    have hsame : ∀ k, ((w.linkOnline p r).1.proxies p).rooms.find? k =
      (w.proxies p).rooms.find? k := fun k => by
      rw [hfind]
      split
      · rename_i he; rw [he.2, hn]; rfl
      · rfl
    rw [Peer.link, if_pos ha]
    exact Peer.ext hrest.2 hrest.1 (funext hsame)
      (funext fun k => peer_users_congr (hsame k) fun r' _ => roster_of_sameWall hw r')
  | none =>
    have ha : ¬ ((peer w p).rooms (w.rooms r).id).isSome = true := by
      change ¬ ((w.proxies p).rooms.find? (w.rooms r).id).isSome = true
      rw [hn]
      exact fun e => nomatch e
    simp only [hn, Option.getD_none, true_and] at hfind
    rw [Peer.link, if_neg ha]
    refine Peer.ext hrest.2 hrest.1 (funext fun k => ?_) (funext fun k => ?_)
    · change ((w.linkOnline p r).1.proxies p).rooms.find? k = _
      rw [hfind]
      exact (Function.update_apply ..).symm
    · by_cases hk : k = (w.rooms r).id
      · -- the room comes without users
        rw [peer_users_some (by rw [hfind, if_pos hk]), peer_users_none
          (by rw [hk, hn]), roster_of_sameWall hw]
        funext i
        rw [roster, h.vacant r (hfree hn), Option.map_none]
      · exact peer_users_congr (by rw [hfind, if_neg hk]) fun r' _ => roster_of_sameWall hw r'

theorem linkRoom_served (r : RoomRef) (ha : Apart (w.linkRoom p r).1) :
    Served p w (w.linkRoom p r).1 ((peer w p).linkRoom (w.rooms r).id r) := by
  unfold World.linkRoom at ha ⊢
  unfold Peer.linkRoom
  by_cases hs : (w.proxies p).status = .online
  · have hs' : (peer w p).status = .online := hs
    rw [if_pos hs] at ha ⊢
    rw [if_pos hs']
    refine linkOnline_served h p r fun hn => ?_
    refine h.proxy_none p ha ((aside_callFrame p).linkOnline w r).2 hn (k := (w.rooms r).id) ?_
    rw [(World.linkOnline_eq w p r).2, World.addRoom_find?, if_pos ⟨rfl, rfl⟩, hn, Option.getD_none]
  · have hs' : (peer w p).status ≠ .online := hs
    rw [if_neg hs, if_neg hs']
    exact modifyProxy_served h p (fun x => { x with waitsRooms := x.waitsRooms ++ [r] }) rfl

end Calls

theorem Peer.link_status (a : Peer) (id : Int) (r : RoomRef) : (a.link id r).status = a.status := by
  unfold Peer.link
  split <;> rfl

/-- An entry stays while rooms are linked. -/
theorem linkRooms_keeps (p : ProxyRef) (rs : List RoomRef) (w : World) {k : Int} {r : RoomRef}
    (hr : (w.proxies p).rooms.find? k = some r) :
    ((rs.foldl (fun w r => (w.linkRoom p r).1) w).proxies p).rooms.find? k = some r := by
  induction rs generalizing w with
  | nil => exact hr
  | cons r' rs ih =>
    apply ih
    dsimp only
    unfold World.linkRoom
    split
    · rw [(World.linkOnline_eq w p r').2, World.addRoom_find?]
      split
      · rename_i he
        rw [← he.2, hr, Option.getD_some]
      · exact hr
    · rw [World.pushWaits, World.modifyProxy_proxies, if_pos rfl]
      exact hr

/-- The rooms that waited are linked one after the other. That none of them is
in the `rooms_` of two proxies is known at the end. -/
theorem linkRooms_served {w : World} (h : Good w) (p : ProxyRef) (rs : List RoomRef)
    (hs : (w.proxies p).status = .online)
    (ha : Apart (rs.foldl (fun w r => (w.linkRoom p r).1) w)) :
    Served p w (rs.foldl (fun w r => (w.linkRoom p r).1) w)
      (rs.foldl (fun a r => a.link (w.rooms r).id r) (peer w p)) := by
  induction rs generalizing w with
  | nil => exact .refl h
  | cons r rs ih =>
    have heq : (w.linkRoom p r).1 = (w.linkOnline p r).1 := by rw [World.linkRoom, if_pos hs]
    have hlink : Served p w (w.linkRoom p r).1 ((peer w p).link (w.rooms r).id r) := by
      rw [heq]
      refine linkOnline_served h p r fun hn => ?_
      refine h.proxy_none p ha ((aside_callFrame p).linkRooms w (r :: rs)).2 hn
        (k := (w.rooms r).id) ?_
      refine linkRooms_keeps p rs (w.linkRoom p r).1 ?_
      rw [heq, (World.linkOnline_eq w p r).2, World.addRoom_find?, if_pos ⟨rfl, rfl⟩, hn,
        Option.getD_none]
    have hst : ((w.linkRoom p r).1.proxies p).status = .online := by
      have hstatus := congrArg Peer.status hlink.peer
      rw [Peer.link_status] at hstatus
      exact hstatus.trans hs
    have hrest := ih hlink.good hst ha
    simp only [hlink.names.roomId, hlink.peer] at hrest
    exact hlink.trans hrest

theorem onRxNAT_served {w : World} (h : Good w) (p : ProxyRef) (ha : Apart (w.onRxNAT p).1) :
    Served p w (w.onRxNAT p).1 ((peer w p).onRxNAT fun r => (w.rooms r).id) := by
  unfold World.onRxNAT at ha ⊢
  unfold Peer.onRxNAT
  by_cases hs : (w.proxies p).status = .nating
  · have hs' : (peer w p).status = .nating := hs
    rw [if_neg (not_not.mpr hs)] at ha ⊢
    rw [if_pos hs']
    have hset : Served p w (w.setStatus p .online) { peer w p with status := .online } :=
      modifyProxy_served h p (fun x => { x with status := .online }) rfl
    have hproxy : (w.setStatus p .online).proxies p = { w.proxies p with status := .online } := by
      rw [World.setStatus, World.modifyProxy_proxies, if_pos rfl]
    unfold World.drainWaits at ha ⊢
    rw [hproxy] at ha ⊢
    have hrooms : ∀ (x : World) (q : ProxyRef),
        ((x.modifyProxy p fun a => { a with waitsRooms := [] }).proxies q).rooms =
          (x.proxies q).rooms := fun x q => by
      rw [World.modifyProxy_proxies]
      split
      · rename_i he; rw [he]
      · rfl
    have hlink := linkRooms_served hset.good p (w.proxies p).waitsRooms (by rw [hproxy])
      fun q q' k k' r hq hq' =>
      ha q q' k k' r (by rw [hrooms]; exact hq) (by rw [hrooms]; exact hq')
    simp only [hset.names.roomId, hset.peer] at hlink
    generalize (w.proxies p).waitsRooms.foldl (fun w r => (w.linkRoom p r).1)
      (w.setStatus p .online) = x at hlink
    have hclear : Served p x (x.modifyProxy p fun a =>
      { a with waitsRooms := [] }) { peer x p with waits := [] } :=
      modifyProxy_served hlink.good p (fun a => { a with waitsRooms := [] }) rfl
    rw [hlink.peer] at hclear
    exact (hset.trans hlink).trans hclear
  · have hs' : (peer w p).status ≠ .nating := hs
    rw [if_pos hs, if_neg hs']
    exact .refl h

/-! ## Rooms leaving -/

section Leave

variable {w : World} (h : Good w) (p : ProxyRef)
include h

theorem sendPacket_served (packet : Packet) : Served p w (w.sendPacket packet).1 (peer w p) := by
  have hp := h.progress p (SameWall.sendPacket w packet) (World.sendPacket_rooms w packet)
    (fun q _ => by rw [World.sendPacket_proxies]) (by rw [World.sendPacket_proxies])
  rwa [World.sendPacket_proxies] at hp

theorem delRoom_served {r : RoomRef} (hp : (w.rooms r).proxy = some p) :
    Served p w (w.delRoom p (w.rooms r).id r).1 ((peer w p).unlinkRoom (w.rooms r).id) := by
  have hr := h.links.back r p trivial hp
  have hproxies := World.delRoom_proxies w r p hr
  have hfind := World.delRoom_find? w r p (w.rooms r).id
  have helse := delRoom_elsewhere h.bij p (w.rooms r).id r
  have hrooms : ∀ r', r' ≠ r → (w.delRoom p (w.rooms r).id r).1.rooms r' = w.rooms r' :=
    fun r' hne =>
    World.delRoom_rooms_ne w r p _ hne
  refine ⟨⟨h.bij.steps (delRoom_steps h.bij p _ r), h.links.delRoom p r fun r' he =>
    Option.some.inj (he.symm.trans hr),
    fun r' hp' k => ?_⟩, (sameNames_callFrame p).delRoom sameNames_teardownFrame w _ r, ?_,
      fun q hq => ?_⟩
  · by_cases he : r' = r
    · rw [he]
      exact World.delRoom_users w r p hr (h.bij.toFiling.userId r) k
    · rw [hrooms r' he] at hp' ⊢
      exact h.vacant r' hp' k
  · refine Peer.ext ?_ ?_ (funext fun k => ?_) (funext fun k => ?_)
    · rw [peer, hproxies, Function.update_self]; rfl
    · rw [peer, hproxies, Function.update_self]; rfl
    · change ((w.delRoom p (w.rooms r).id r).1.proxies p).rooms.find? k = _
      dsimp only [Peer.unlinkRoom]
      rw [hfind, Function.update_apply]
      simp only [true_and]
      rfl
    · dsimp only [Peer.unlinkRoom]
      rw [Function.update_apply]
      split
      · rename_i hk
        rw [peer_users_none (by rw [hfind, if_pos ⟨rfl, hk⟩])]
      · rename_i hk
        refine peer_users_congr (by rw [hfind, if_neg fun hc => hk hc.2]) fun r' hr' => ?_
        have hne : r' ≠ r := by
          rintro rfl
          exact hk (h.links.entry p k r' hr').2.1.symm
        exact roster_elsewhere h.bij helse (by rw [hrooms r' hne]) fun u ht => by rw [ht]; exact hne
  · refine .of_elsewhere h.bij helse (by rw [hproxies, Function.update_of_ne hq]) fun k r' hr' => ?_
    have hne : r' ≠ r := by
      rintro rfl
      exact hq (Option.some.inj ((h.links.entry q k r' hr').2.2.symm.trans hp))
    exact ⟨by rw [hrooms r' hne], fun u ht => by rw [ht]; exact hne⟩

theorem unlinkRoom_served {r : RoomRef} (hp : (w.rooms r).proxy = some p) :
    Served p w (w.unlinkRoom p r).1 ((peer w p).unlinkRoom (w.rooms r).id) := by
  have hd := delRoom_served h p hp
  have hr := h.links.back r p trivial hp
  have hs := sendPacket_served hd.good p ((w.delRoom p (w.rooms r).id r).1.unlinkRoomPacket p r)
  rw [hd.peer] at hs
  have heq : (w.unlinkRoom p r).1 =
      ((w.delRoom p (w.rooms r).id r).1.sendPacket
        ((w.delRoom p (w.rooms r).id r).1.unlinkRoomPacket p r)).1 := by
    rw [World.unlinkRoom, World.delRoom_found w r p hr]
  rw [heq]
  exact hd.trans hs

omit h in
theorem destoryGo_status (n : Nat) (proom : Option Int) :
    ((World.destoryGo p n proom w).proxies p).status = (w.proxies p).status := by
  induction n generalizing w proom with
  | zero => rfl
  | succ n ih =>
    cases proom with
    | none => rfl
    | some k =>
      unfold World.destoryGo
      split
      · rfl
      · rename_i r _
        rw [ih]
        cases hf : (w.proxies p).rooms.find? (w.rooms r).id with
        | none => rw [World.delRoom, hf]
        | some r' => rw [World.delRoom_proxies w r p hf, Function.update_self]

omit h in
theorem destory_status : ((w.destory p).proxies p).status = (w.proxies p).status := by
  rw [World.destory, destoryGo_status, World.modifyProxy_proxies, if_pos rfl]

theorem destory_served : Served p w (w.destory p) (peer w p).destory := by
  have hid : ∀ k r, (w.proxies p).rooms.find? k = some r → (w.rooms r).id = k := fun k r hf =>
    (h.links.entry p k r hf).2.1
  have ht := destory_tornDown p h.bij hid
  refine ⟨⟨h.bij.steps (destory_steps h.bij p), h.links.destory h.bij p, fun r hp k => ?_⟩,
    (sameNames_callFrame p).destory sameNames_teardownFrame w,
    Peer.ext (destory_status p) ht.waits (funext ht.empty) (funext fun k =>
      peer_users_none (ht.empty k)),
    fun q hq => ?_⟩
  · by_cases hf : (w.proxies p).rooms.find? (w.rooms r).id = some r
    · exact (ht.held r hf).2 k
    · rw [ht.free r hf] at hp ⊢
      exact h.vacant r hp k
  · refine .of_elsewhere h.bij (destory_elsewhere p h.bij hid) (ht.others q hq) fun k r hr => ?_
    have hf : (w.proxies p).rooms.find? (w.rooms r).id ≠ some r :=
      fun hf => hq (h.apart q p _ _ r hr hf)
    exact ⟨by rw [ht.free r hf], fun u hu => by rw [hu]; exact hf⟩

end Leave

/-! ## Users changing seats -/

/-- Users change seats at most. -/
structure Seated (w w' : World) : Prop where
  rooms : w'.rooms = w.rooms
  proxies : w'.proxies = w.proxies
  card : ∀ u, card (w'.users u) = card (w.users u)

namespace Seated

variable {w w' : World}

theorem seatFrame : SeatFrame Seated where
  refl _ := ⟨rfl, rfl, fun _ => rfl⟩
  trans h h' :=
    ⟨h'.rooms.trans h.rooms, h'.proxies.trans h.proxies, fun u => (h'.card u).trans (h.card u)⟩
  send w packet := ⟨World.sendPacket_rooms w packet, World.sendPacket_proxies w packet,
    fun u => by rw [(SameWall.sendPacket w packet).users]⟩
  connect w s u := ⟨World.connectUser_rooms w s u, World.connectUser_proxies w s u, fun u' => by
    rw [World.connectUser_users]
    split
    · rename_i he; rw [he]; rfl
    · rfl⟩
  disconnect w s := ⟨World.disconnectUser_rooms w s, World.disconnectUser_proxies w s, fun u' => by
    cases hs : (w.screens s).user with
    | none => rw [World.disconnectUser_of_idle w s hs]
    | some u =>
      rw [World.disconnectUser_users w s u' hs]
      split
      · rename_i he; rw [he]; rfl
      · rfl⟩

variable (h : Seated w w')
include h

theorem good (hg : Good w) (hb : Bij w') : Good w' :=
  ⟨hb, hg.links.congr (fun p => by rw [h.proxies]) (fun r => by rw [h.rooms])
    fun r => by rw [h.rooms],
    fun r => by rw [h.rooms]; exact hg.vacant r⟩

theorem peer (p : ProxyRef) : peer w' p = peer w p := by
  refine Peer.ext (by rw [L4.peer, L4.peer, h.proxies]) (by rw [L4.peer, L4.peer, h.proxies])
    (by rw [L4.peer, L4.peer, h.proxies]) (funext fun k => ?_)
  refine peer_users_congr (by rw [h.proxies]) fun r _ => funext fun i => ?_
  exact roster_congr (by rw [h.rooms]) fun u _ => h.card u

end Seated

/-! ## Scenes -/

/-- What a scene does, or that it does not return, depends on what its proxy
was told and on whether datagrams can be sent. -/
theorem maintain_served {w : World} (h : Good w) (p : ProxyRef) (scene : Scene)
    (ha : scene = .nat → Apart (w.onRxNAT p).1) :
    Option.Rel (Served p w) (maintain w p scene)
      ((peer w p).maintain (fun r => (w.rooms r).id) (natsSent w) scene) := by
  cases scene with
  | resLogin => exact .some (onRxLogin_served h p)
  | nat => exact .some (onRxNAT_served h p (ha rfl))
  | roomsInfo rooms => exact roomsInfoScene_served h p rooms
  | modMedia roomId userId audioSsrc videoSsrc =>
    exact getUser_served h p roomId userId fun r u hu =>
    modMedia_edit h.bij r userId hu audioSsrc videoSsrc
  | addUser roomId userId micId => exact .some (addUserScene_served h p roomId userId micId)
  | delUser roomId userId =>
    exact getUser_served h p roomId userId fun r _ _ => delUser_edit h.bij r userId
  | keepAlive => exact .some (.refl h)

end MonitorAgent.L4
