import MonitorAgent.L1Wire.RoomsInfo
import Mathlib.Data.List.Induction
import MonitorAgent.L3Wall.Bijection
import MonitorAgent.L4Session.Scenes

/-!
# A rooms-info frame applied

`RoomsInfoScene::Maintain` (Monitor/Monitor/Scene/AvsProxyScene/src/RoomsInfoScene.cpp:24-49)
on what the decoder made of a frame, with its counters of 8 bits. It comes down
to one visit for each listed user of a room that the proxy knows (`visits`), in
the order of the frame, so the last entry of a user is the one that stays.

* `roomsInfoMaintain_scene`: on a decoded frame the loops are `roomsInfoScene`.
* `roomsInfo_exact`: a frame that fits the buffer is read back exactly, and
  applied exactly.
-/
namespace MonitorAgent.L4

open MonitorAgent.L3 ForLoop LTS

/-- An entry of the parameter, as numbers. -/
def told (x : L1.UserInfo) : UserInfo :=
  ⟨x.userId.toInt, x.micId.toNat, x.audioSsrc.toNat, x.videoSsrc.toNat⟩

def toldRoom (x : L1.ListedRoom) : RoomInfo := ⟨x.roomId.toInt, x.users.map told⟩

/-- mirrors Monitor/Monitor/Scene/AvsProxyScene/src/RoomsInfoScene.cpp:38-43 -/
def maintainUser (r : RoomRef) (w : World) (x : UserInfo) : World :=
  let (w, u) := w.addUser r x.userId x.micId
  w.modUser (some u) x.audioSsrc x.videoSsrc

/-- `j` is a `pj_uint8_t`.
mirrors Monitor/Monitor/Scene/AvsProxyScene/src/RoomsInfoScene.cpp:36-45 -/
def maintainUsers (fuel : Nat) (r : RoomRef) (x : L1.RoomInfo) (w : World) : Option World :=
  forLoop 256 x.userCount.toNat
    (fun j w => x.usersInfo[j]?.map fun user => maintainUser r w (told user)) fuel 0 w

/-- mirrors Monitor/Monitor/Scene/AvsProxyScene/src/RoomsInfoScene.cpp:32-47 -/
def maintainRoom (fuel : Nat) (p : ProxyRef) (x : L1.RoomInfo) (w : World) : Option World :=
  match w.getRoom p x.roomId.toInt with
  | some r => maintainUsers fuel r x w
  | none => some w

/-- `i` is a `pj_uint8_t` too.
mirrors Monitor/Monitor/Scene/AvsProxyScene/src/RoomsInfoScene.cpp:24-49 -/
def roomsInfoMaintain (fuel : Nat) (p : ProxyRef) (roomCount : UInt32) (rooms : List L1.RoomInfo)
    (w : World) :
    Option World :=
  if roomCount.toNat = 0 then some w
  else forLoop 256 roomCount.toNat (fun i w => rooms[i]?.bind fun x =>
    maintainRoom fuel p x w) fuel 0 w

/-! ## The loops are folds -/

section Folds

variable {fuel : Nat} (p : ProxyRef)

theorem maintainUsers_eq {x : L1.ListedRoom} (hm : x.users.length < 256)
    (hf : x.users.length < fuel) (r : RoomRef)
    (w : World) :
    maintainUsers fuel r x.info w = some ((x.users.map told).foldl (maintainUser r) w) := by
  have hcount : x.info.userCount.toNat = x.users.length := by
    simp only [L1.ListedRoom.info, UInt32.toNat_ofNat']
    omega
  have hbody : ∀ (j : Nat) w user, x.users[j]? = some user →
      (x.info.usersInfo[j]?.map fun user => maintainUser r w (told user)) =
      some (maintainUser r w (told user)) := by
    intro j w user hj
    have hj' : x.info.usersInfo[j]? = some user := hj
    rw [hj', Option.map_some]
  have hloop := forLoop_list (f := fun w user => some (maintainUser r w (told user))) hm hbody hf w
  rw [maintainUsers, hcount, List.foldl_map]
  exact hloop.trans List.foldlM_pure

theorem applyUsers_eq {r : RoomRef} {users : List UserInfo} (h : users.length < 256) (w : World) :
    applyUsers w r users = some (users.foldl (maintainUser r) w) := if_neg (by omega)

theorem maintainRoom_eq {x : L1.ListedRoom} (hm : x.users.length < 256) (hf : x.users.length < fuel)
    (w : World) :
    maintainRoom fuel p x.info w = applyRoom p w (toldRoom x) := by
  have hid : x.info.roomId.toInt = (toldRoom x).roomId := rfl
  rw [maintainRoom, applyRoom, hid]
  cases w.getRoom p (toldRoom x).roomId with
  | none => rfl
  | some r =>
    simp only []
    rw [maintainUsers_eq hm hf, toldRoom, applyUsers_eq (by rwa [List.length_map])]

/-- On a decoded frame the loops are those of `roomsInfoScene`. -/
theorem roomsInfoMaintain_scene {rooms : List L1.ListedRoom} (hm : rooms.length < 256)
    (hf : rooms.length < fuel) (husers : ∀ x ∈ rooms, x.users.length < 256 ∧ x.users.length < fuel)
    (w : World) :
    roomsInfoMaintain fuel p (.ofNat rooms.length) (rooms.map L1.ListedRoom.info) w =
      roomsInfoScene w p (rooms.map toldRoom) := by
  have hcount : (UInt32.ofNat rooms.length).toNat = rooms.length := by
    simp only [UInt32.toNat_ofNat']
    omega
  have hbody : ∀ (i : Nat) w x, rooms[i]? = some x →
      ((rooms.map L1.ListedRoom.info)[i]?.bind fun x => maintainRoom fuel p x w) =
      applyRoom p w (toldRoom x) := by
    intro i w x hi
    have hx := husers x (List.mem_of_getElem? hi)
    rw [List.getElem?_map, hi, Option.map_some, Option.bind_some, maintainRoom_eq p hx.1 hx.2]
  have hloop := forLoop_list hm hbody hf w
  rw [roomsInfoScene, if_neg (by rw [List.length_map]; omega), List.foldlM_map, ← hloop,
    roomsInfoMaintain, hcount]
  split
  · rename_i h0
    obtain rfl : rooms = [] := List.eq_nil_of_length_eq_zero h0
    obtain ⟨k, rfl⟩ : ∃ k, fuel = k + 1 := ⟨fuel - 1, by omega⟩
    rfl
  · rfl

end Folds

/-! ## One visit for each listed user -/

/-- The users listed for rooms that `p` knows, in the order of the frame. -/
def visits (p : ProxyRef) (w : World) (rooms : List RoomInfo) : List (RoomRef × UserInfo) :=
  rooms.flatMap fun x => match w.getRoom p x.roomId with
    | some r => x.users.map fun user => (r, user)
    | none => []

def visit (w : World) (e : RoomRef × UserInfo) : World := maintainUser e.1 w e.2

/-- The last entry for the user `k` of the room `r`. -/
def lastEntry (es : List (RoomRef × UserInfo)) (r : RoomRef) (k : Int) : Option UserInfo :=
  ((es.filter fun e => e.1 = r ∧ e.2.userId = k).getLast?).map Prod.snd

/-- The user filed under `k` in `r`. -/
def userRecord (w : World) (r : RoomRef) (k : Int) : Option User :=
  ((w.rooms r).users.find? k).map w.users

/-- The user has the values of the entry. -/
def Carries (user : User) (x : UserInfo) : Prop :=
  user.micId = x.micId ∧ user.audioSsrc = x.audioSsrc ∧ user.videoSsrc = x.videoSsrc

/-- The user `k` of `r` is as its last entry says, or as it was. -/
def Told (es : List (RoomRef × UserInfo)) (w w' : World) (r : RoomRef) (k : Int) : Prop :=
  match lastEntry es r k with
  | some x => ∃ user, userRecord w' r k = some user ∧ Carries user x
  | none => userRecord w' r k = userRecord w r k

/-- `AddUser` up to the deletion of the tree items. -/
theorem addUser_cases (w : World) (r : RoomRef) (userId : Int) (micId : Nat) :
    ∃ w₁, SameWall w w₁ ∧ w₁.proxies = w.proxies ∧
      w.addUser r userId micId = match (w.rooms r).users.find? userId with
        | some u => (w₁.modifyUser u fun x => { x with micId := micId }, u)
        | none => (w₁.newUser r userId micId, w.nextUser) := by
  refine ⟨if (w.rooms r).users.isEmpty then w.delAll r else w, ?_, ?_, ?_⟩
  · split
    · exact .delAll w r
    · exact .refl w
  · split <;> rfl
  · unfold World.addUser
    split
    · have h : ((w.delAll r).rooms r).users = (w.rooms r).users := (SameWall.delAll w r).roomUsers r
      simp only [h]
      rfl
    · rfl

theorem maintainUser_proxies (r : RoomRef) (w : World) (x : UserInfo) :
    (maintainUser r w x).proxies = w.proxies := by
  obtain ⟨w₁, -, hp, heq⟩ := addUser_cases w r x.userId x.micId
  simp only [maintainUser, World.modUser, World.modMedia_proxies, heq]
  cases (w.rooms r).users.find? x.userId with
  | some u => exact hp
  | none => exact hp

theorem maintainUser_bij {w : World} (hw : Bij w) (r : RoomRef) (x : UserInfo) :
    Bij (maintainUser r w x) :=
  (hw.steps (addUser_steps w r x.userId x.micId)).modMedia _ _ _

theorem userRecord_maintainUser (w : World) (r : RoomRef) (x : UserInfo) :
    ∃ user, userRecord (maintainUser r w x) r x.userId = some user ∧ Carries user x := by
  obtain ⟨w₁, hsame, -, heq⟩ := addUser_cases w r x.userId x.micId
  simp only [userRecord, maintainUser, World.modUser, World.modMedia_rooms, heq]
  cases hf : (w.rooms r).users.find? x.userId with
  | some u =>
    have hu :
        ((w₁.modifyUser u fun y => { y with micId := x.micId }).rooms r).users.find? x.userId =
          some u := by
      rw [World.modifyUser_rooms, hsame.roomUsers, hf]
    simp only [hu, Option.map_some, World.modMedia_users, World.modifyUser_users, if_true]
    exact ⟨_, rfl, rfl, rfl, rfl⟩
  | none =>
    have hu : ((w₁.newUser r x.userId x.micId).rooms r).users.find? x.userId =
        some w₁.nextUser := by
      rw [World.newUser_find?, if_pos ⟨rfl, rfl⟩]
    simp only [hu, Option.map_some, World.modMedia_users, hsame.nextUser, World.newUser_users,
      if_true]
    exact ⟨_, rfl, rfl, rfl, rfl⟩

/-- Another user is another object, and keeps its record. -/
theorem userRecord_maintainUser_of_ne {w : World} (hw : Bij w) {r r' : RoomRef} {x : UserInfo}
    {k : Int} (h : ¬ (r' = r ∧ k = x.userId)) :
    userRecord (maintainUser r w x) r' k = userRecord w r' k := by
  obtain ⟨w₁, hsame, -, heq⟩ := addUser_cases w r x.userId x.micId
  simp only [userRecord, maintainUser, World.modUser, World.modMedia_rooms, heq]
  cases hf : (w.rooms r).users.find? x.userId with
  | some u =>
    simp only [World.modifyUser_rooms, hsame.roomUsers]
    cases hk : (w.rooms r').users.find? k with
    | none => rfl
    | some u' =>
      have hne : u' ≠ u := by
        rintro rfl
        obtain ⟨-, hr, hid⟩ := hw.filed r _ _ hf
        obtain ⟨-, hr', hid'⟩ := hw.filed r' _ _ hk
        exact h ⟨hr'.symm.trans hr, hid'.symm.trans hid⟩
      simp only [Option.map_some, World.modMedia_users, World.modifyUser_users, if_neg hne,
        hsame.users]
  | none =>
    simp only [World.newUser_find?, if_neg h, hsame.roomUsers]
    cases hk : (w.rooms r').users.find? k with
    | none => rfl
    | some u' =>
      have hlt := hw.fresh u' (hw.filed r' k u' hk).1
      have hne : u' ≠ w.nextUser := Nat.ne_of_lt hlt
      simp only [Option.map_some, World.modMedia_users, World.newUser_users, hsame.nextUser,
        if_neg hne, hsame.users]

/-! ## The whole frame -/

theorem getRoom_maintainUser (p : ProxyRef) (r : RoomRef) (w : World) (x : UserInfo)
    (roomId : Int) :
    (maintainUser r w x).getRoom p roomId = w.getRoom p roomId := by
  rw [World.getRoom, maintainUser_proxies, World.getRoom]

theorem getRoom_visits (p : ProxyRef) (es : List (RoomRef × UserInfo)) (w : World) (roomId : Int) :
    (es.foldl visit w).getRoom p roomId = w.getRoom p roomId := by
  induction es generalizing w with
  | nil => rfl
  | cons e es ih => rw [List.foldl_cons, ih, visit, getRoom_maintainUser]

theorem visits_congr {p : ProxyRef} {w w' : World} (h : ∀ k, w'.getRoom p k = w.getRoom p k)
    (rooms : List RoomInfo) :
    visits p w' rooms = visits p w rooms := by
  simp only [visits, h]

theorem applyRoom_visits {p : ProxyRef} {x : RoomInfo} (h : x.users.length < 256) (w : World) :
    applyRoom p w x = some ((visits p w [x]).foldl visit w) := by
  rw [applyRoom, visits, List.flatMap_singleton]
  cases w.getRoom p x.roomId with
  | none => rfl
  | some r =>
    simp only [List.foldl_map]
    exact applyUsers_eq h w

theorem roomsInfoScene_visits {p : ProxyRef} {rooms : List RoomInfo} (hm : rooms.length < 256)
    (husers : ∀ x ∈ rooms, x.users.length < 256) (w : World) :
    roomsInfoScene w p rooms = some ((visits p w rooms).foldl visit w) := by
  rw [roomsInfoScene, if_neg (by omega)]
  clear hm
  induction rooms generalizing w with
  | nil => rfl
  | cons x rooms ih =>
    have hsplit : visits p w (x :: rooms) = visits p w [x] ++ visits p w rooms :=
      show visits p w ([x] ++ rooms) = _ from List.flatMap_append
    rw [List.foldlM_cons, applyRoom_visits (husers x (List.mem_cons_self ..)), Option.bind_eq_bind,
      Option.bind_some,
      ih (fun y hy => husers y (List.mem_cons_of_mem x hy)),
        visits_congr (getRoom_visits p _ w), hsplit,
      List.foldl_append]

theorem lastEntry_append (es : List (RoomRef × UserInfo)) (e : RoomRef × UserInfo) (r : RoomRef)
    (k : Int) :
    lastEntry (es ++ [e]) r k = if e.1 = r ∧ e.2.userId = k then some e.2 else
      lastEntry es r k := by
  by_cases h : e.1 = r ∧ e.2.userId = k
  · have hlast : [e].filter (fun e => e.1 = r ∧ e.2.userId = k) = [e] :=
      List.filter_eq_self.mpr fun e' he' => by simpa [List.mem_singleton.mp he'] using h
    rw [lastEntry, List.filter_append, hlast, List.getLast?_concat, if_pos h, Option.map_some]
  · have hlast : [e].filter (fun e => e.1 = r ∧ e.2.userId = k) = [] :=
      List.filter_eq_nil_iff.mpr fun e' he' => by simpa [List.mem_singleton.mp he'] using h
    rw [lastEntry, List.filter_append, hlast, List.append_nil, if_neg h, lastEntry]

theorem visits_told {w : World} (hw : Bij w) (es : List (RoomRef × UserInfo)) :
    Bij (es.foldl visit w) ∧ ∀ r k, Told es w (es.foldl visit w) r k := by
  induction es using List.reverseRecOn with
  | nil => exact ⟨hw, fun r k => rfl⟩
  | append_singleton es e ih =>
    obtain ⟨hb, htold⟩ := ih
    rw [List.foldl_append, List.foldl_cons, List.foldl_nil]
    refine ⟨maintainUser_bij hb e.1 e.2, fun r k => ?_⟩
    rw [Told, lastEntry_append]
    by_cases hlast : e.1 = r ∧ e.2.userId = k
    · obtain ⟨rfl, rfl⟩ := hlast
      rw [if_pos ⟨rfl, rfl⟩]
      exact userRecord_maintainUser _ e.1 e.2
    · rw [if_neg hlast, visit, userRecord_maintainUser_of_ne hb fun h => hlast ⟨h.1.symm, h.2.symm⟩]
      exact htold r k

/-- **A rooms-info frame is read back and applied exactly.** -/
theorem roomsInfo_exact {tcp : L1.TcpParameter} {rooms : List L1.ListedRoom} {mem : L1.Memory}
    (hfit : (L1.encodeRoomsInfo tcp rooms).length ≤ L1.TcpStorage.MAX_STORAGE_SIZE)
    (hmem : L1.Spells mem 0 (L1.encodeRoomsInfo tcp rooms)) {fuel : Nat} (hf : 256 ≤ fuel) :
    (∃ c, L1.roomsInfoParameter mem fuel ⟨0, (L1.encodeRoomsInfo tcp rooms).length, []⟩ =
        some (.roomsInfo tcp (.ofNat rooms.length) (rooms.map L1.ListedRoom.info), c) ∧
      c.storage = (L1.encodeRoomsInfo tcp rooms).length ∧ c.storageLen = 0) ∧
    (L1.Counts rooms.length ∧ ∀ x ∈ rooms, L1.Counts x.users.length) ∧
    ∀ w, wallSys.Reachable w → ∀ p, ∃ w',
      roomsInfoMaintain fuel p (.ofNat rooms.length) (rooms.map L1.ListedRoom.info) w = some w' ∧
      w' = (visits p w (rooms.map toldRoom)).foldl visit w ∧
      ∀ r k, Told (visits p w (rooms.map toldRoom)) w w' r k := by
  have hrooms := L1.rooms_le hfit
  have husers : ∀ x ∈ rooms, x.users.length < 256 ∧ x.users.length < fuel := fun x hx => by
    have := L1.users_le hfit hx
    omega
  refine ⟨L1.roomsInfoParameter_encoded hfit hmem hf, L1.counters_of_length hfit, fun w hw p => ?_⟩
  have htold := (visits_told (bij_inductive.reachable w hw) (visits p w (rooms.map toldRoom))).2
  refine ⟨_, ?_, rfl, htold⟩
  rw [roomsInfoMaintain_scene p (by omega) (by omega) husers]
  refine roomsInfoScene_visits (by rw [List.length_map]; omega) (fun x hx => ?_) w
  obtain ⟨y, hy, rfl⟩ := List.mem_map.mp hx
  have := (husers y hy).1
  rwa [toldRoom, List.length_map]

/-- A room with one user listed twice. -/
def twiceListed : List L1.ListedRoom := [⟨7, [⟨9, 1, 0x11, 0x22⟩, ⟨9, 2, 0x33, 0x44⟩]⟩]

def twiceListedMemory : L1.Memory :=
  fun i => (L1.encodeRoomsInfo ⟨58, 1, 1, 1⟩ twiceListed).getD i 0

/-- The proxy knows the room. -/
def roomKnown : World :=
  World.launched.modifyProxy 0 fun x => { x with rooms := x.rooms.insert 7 7 }

theorem roomsInfo_twiceListed :
    ∃ w', roomsInfoMaintain 256 0 1 (twiceListed.map L1.ListedRoom.info) roomKnown = some w' ∧
      ∃ user, userRecord w' 7 9 = some user ∧ Carries user ⟨9, 2, 0x33, 0x44⟩ := by
  have hr : wallSys.Reachable roomKnown :=
    .init ⟨World.launched_launched.screens, fun _ => rfl, fun _ => rfl, fun _ => rfl⟩
  have hmem : L1.Spells twiceListedMemory 0 (L1.encodeRoomsInfo ⟨58, 1, 1, 1⟩ twiceListed) := by
    decide +kernel
  obtain ⟨-, -, happly⟩ := roomsInfo_exact (by decide) hmem (Nat.le_refl 256)
  obtain ⟨w', hw', -, htold⟩ := happly roomKnown hr 0
  exact ⟨w', hw', htold 7 9⟩

end MonitorAgent.L4
