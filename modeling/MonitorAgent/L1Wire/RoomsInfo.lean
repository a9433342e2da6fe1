import MonitorAgent.L1Wire.Decoding

/-!
# The rooms-info frame

What the server encodes, and what `RoomsInfoParameter`
(Monitor/Monitor/Scene/AvsProxyScene/src/RoomsInfoScene.cpp:4-22) reads back.
`Spells` says that the memory holds some bytes at an offset; it splits along
the fields, so the reader is followed field by field.

* `roomsInfoParameter_encoded`: the values are read back, and the cursor is at
  the end of the frame.
* `counters_of_length`: a frame that fits `MAX_STORAGE_SIZE` has at most 126
  rooms and at most 50 users, so no counter of 8 bits wraps.
-/
namespace MonitorAgent.L1

open BigEndian TcpStorage

/-- A room as the server lists it. -/
structure ListedRoom where
  roomId : Int32
  users : List UserInfo
deriving DecidableEq

/-! ## Encoding -/

def encodeHeader (tcp : TcpParameter) : List UInt8 :=
  beBytes 2 tcp.length.toNat ++ (beBytes 2 tcp.clientRequestType.toNat ++
    (beBytes 2 tcp.proxyId.toNat ++ beBytes 2 tcp.clientId.toNat))

def encodeUser (x : UserInfo) : List UInt8 :=
  beBytes 8 x.userId.toUInt64.toNat ++ (beBytes 4 x.micId.toNat ++
    (beBytes 4 x.audioSsrc.toNat ++ beBytes 4 x.videoSsrc.toNat))

def encodeUsers (users : List UserInfo) : List UInt8 := users.flatMap encodeUser

def encodeRoom (x : ListedRoom) : List UInt8 :=
  beBytes 4 x.roomId.toUInt32.toNat ++ (beBytes 4 x.users.length ++ encodeUsers x.users)

def encodeRooms (rooms : List ListedRoom) : List UInt8 := rooms.flatMap encodeRoom

def encodeRoomsInfo (tcp : TcpParameter) (rooms : List ListedRoom) : List UInt8 :=
  encodeHeader tcp ++ (beBytes 4 rooms.length ++ encodeRooms rooms)

/-- What the decoder makes of it. -/
def ListedRoom.info (x : ListedRoom) : RoomInfo := ⟨x.roomId, .ofNat x.users.length, x.users⟩

/-- A counter of 8 bits reaches `count`. -/
def Counts (count : Nat) : Prop := ∀ j < count, (j + 1) % 256 = j + 1

theorem length_encodeHeader (tcp : TcpParameter) : (encodeHeader tcp).length = 8 := by
  simp [encodeHeader]

theorem length_encodeUser (x : UserInfo) : (encodeUser x).length = 20 := by
  simp [encodeUser]

theorem length_encodeUsers (users : List UserInfo) :
    (encodeUsers users).length = 20 * users.length := by
  induction users with
  | nil => rfl
  | cons x users ih =>
    rw [encodeUsers, List.flatMap_cons, List.length_append, length_encodeUser, ← encodeUsers, ih,
      List.length_cons]
    omega

theorem length_encodeRoom (x : ListedRoom) : (encodeRoom x).length = 8 + 20 * x.users.length := by
  rw [encodeRoom, List.length_append, List.length_append, length_beBytes, length_beBytes,
    length_encodeUsers]
  omega

theorem encodeRooms_cons (x : ListedRoom) (rooms : List ListedRoom) :
    encodeRooms (x :: rooms) = encodeRoom x ++ encodeRooms rooms := List.flatMap_cons

theorem length_encodeRoomsInfo (tcp : TcpParameter) (rooms : List ListedRoom) :
    (encodeRoomsInfo tcp rooms).length = 12 + (encodeRooms rooms).length := by
  rw [encodeRoomsInfo, List.length_append, List.length_append, length_encodeHeader, length_beBytes]
  omega

theorem length_rooms (rooms : List ListedRoom) : 8 * rooms.length ≤ (encodeRooms rooms).length := by
  induction rooms with
  | nil => exact Nat.le_refl 0
  | cons x rooms ih =>
    rw [encodeRooms_cons, List.length_append, length_encodeRoom, List.length_cons]
    omega

theorem length_users {rooms : List ListedRoom} {x : ListedRoom} (h : x ∈ rooms) :
    20 * x.users.length ≤ (encodeRooms rooms).length := by
  induction rooms with
  | nil => cases h
  | cons y rooms ih =>
    rw [encodeRooms_cons, List.length_append, length_encodeRoom]
    rcases List.mem_cons.mp h with rfl | h
    · omega
    · have := ih h
      omega

section Fits

variable {tcp : TcpParameter} {rooms : List ListedRoom}
  (hfit : (encodeRoomsInfo tcp rooms).length ≤ MAX_STORAGE_SIZE)
include hfit

theorem rooms_le : rooms.length ≤ 126 := by
  have hlen := length_encodeRoomsInfo tcp rooms
  have hrooms := length_rooms rooms
  simp only [MAX_STORAGE_SIZE] at hfit
  omega

theorem users_le {x : ListedRoom} (h : x ∈ rooms) : x.users.length ≤ 50 := by
  have hlen := length_encodeRoomsInfo tcp rooms
  have husers := length_users h
  simp only [MAX_STORAGE_SIZE] at hfit
  omega

theorem counters_of_length : Counts rooms.length ∧ ∀ x ∈ rooms, Counts x.users.length := by
  have hrooms := rooms_le hfit
  constructor
  · intro j hj
    omega
  · intro x hx j hj
    have husers := users_le hfit hx
    omega

end Fits

/-! ## Reading back -/

/-- The memory holds these bytes from `off` on. -/
def Spells (mem : Memory) (off : Nat) (bs : List UInt8) : Prop := mem.bytes off bs.length = bs

instance (mem : Memory) (off : Nat) (bs : List UInt8) : Decidable (Spells mem off bs) :=
  inferInstanceAs (Decidable (_ = _))

theorem Spells.append {mem : Memory} {off : Nat} {as bs : List UInt8}
    (h : Spells mem off (as ++ bs)) :
    Spells mem off as ∧ Spells mem (off + as.length) bs := by
  have hsplit : mem.bytes off (as.length + bs.length) =
      mem.bytes off as.length ++ mem.bytes (off + as.length) bs.length := by
    simp [Memory.bytes, List.range_add, Nat.add_assoc]
  rw [Spells, List.length_append, hsplit] at h
  exact List.append_inj h (by simp [Memory.bytes])

theorem Spells.value {mem : Memory} {off size v : Nat} (h : Spells mem off (beBytes size v)) :
    mem.value off size = v % 256 ^ size := by
  rw [Spells, length_beBytes] at h
  rw [Memory.value, h, beValue_beBytes]

theorem Spells.field {mem : Memory} {off size v : Nat} {bs : List UInt8}
    (h : Spells mem off (beBytes size v ++ bs)) :
    mem.value off size = v % 256 ^ size ∧ Spells mem (off + size) bs := by
  obtain ⟨hv, hbs⟩ := h.append
  rw [length_beBytes] at hbs
  exact ⟨hv.value, hbs⟩

theorem uint16_read (x : UInt16) : UInt16.ofNat (x.toNat % 256 ^ 2) = x := by
  have hlt : x.toNat < 256 ^ 2 := x.toNat_lt
  rw [Nat.mod_eq_of_lt hlt, UInt16.ofNat_toNat]

theorem uint32_read (x : UInt32) : UInt32.ofNat (x.toNat % 256 ^ 4) = x := by
  have hlt : x.toNat < 256 ^ 4 := x.toNat_lt
  rw [Nat.mod_eq_of_lt hlt, UInt32.ofNat_toNat]

theorem int32_read (x : Int32) : int32 (x.toUInt32.toNat % 256 ^ 4) = x := by
  rw [int32, uint32_read]
  rfl

theorem int64_read (x : Int64) : int64 (x.toUInt64.toNat % 256 ^ 8) = x := by
  have hlt : x.toUInt64.toNat < 256 ^ 8 := x.toUInt64.toNat_lt
  rw [int64, Nat.mod_eq_of_lt hlt, UInt64.ofNat_toNat]
  rfl

section Reading

variable {mem : Memory} {off : Nat}

theorem headerAt_encoded {tcp : TcpParameter} (h : Spells mem off (encodeHeader tcp)) :
    headerAt mem off = tcp := by
  obtain ⟨h0, h⟩ := h.field
  obtain ⟨h2, h⟩ := h.field
  obtain ⟨h4, h⟩ := h.field
  have h6 := h.value
  rw [headerAt, h0, h2, h4, h6]
  simp only [uint16_read]

theorem userAt_encoded {x : UserInfo} (h : Spells mem off (encodeUser x)) : userAt mem off = x := by
  obtain ⟨h0, h⟩ := h.field
  obtain ⟨h8, h⟩ := h.field
  obtain ⟨h12, h⟩ := h.field
  have h16 := h.value
  rw [userAt, h0, h8, h12, h16]
  simp only [int64_read, uint32_read]

theorem usersAt_succ_left (mem : Memory) (off n : Nat) :
    usersAt mem off (n + 1) = userAt mem off :: usersAt mem (off + 20) n := by
  simp [usersAt, List.range_succ_eq_map, Nat.mul_succ, Nat.add_assoc, Nat.add_comm 20]

theorem usersAt_encoded {users : List UserInfo} (h : Spells mem off (encodeUsers users)) :
    usersAt mem off users.length = users := by
  induction users generalizing off with
  | nil => rfl
  | cons x users ih =>
    rw [encodeUsers, List.flatMap_cons, ← encodeUsers] at h
    obtain ⟨hx, hrest⟩ := h.append
    rw [length_encodeUser] at hrest
    rw [List.length_cons, usersAt_succ_left, userAt_encoded hx, ih hrest]

theorem room_encoded {x : ListedRoom} (hcount : x.users.length ≤ 50)
    (h : Spells mem off (encodeRoom x)) :
    userCountAt mem off = x.users.length ∧ roomAt mem off = x.info := by
  obtain ⟨hid, h⟩ := h.field
  obtain ⟨hn, husers⟩ := h.field
  have hlt : x.users.length % 256 ^ 4 = x.users.length := Nat.mod_eq_of_lt (by omega)
  rw [hlt] at hn
  have hcount' : userCountAt mem off = x.users.length := hn
  rw [Nat.add_assoc] at husers
  refine ⟨hcount', ?_⟩
  rw [roomAt, hcount', hid, int32_read, usersAt_encoded husers, ListedRoom.info]

theorem rooms_encoded {rooms : List ListedRoom} (hcount : ∀ x ∈ rooms, x.users.length ≤ 50)
    (h : Spells mem off (encodeRooms rooms)) :
    RoomsEnd mem rooms.length off ∧ roomsAt mem rooms.length off = rooms.map ListedRoom.info ∧
      roomsSize mem rooms.length off = (encodeRooms rooms).length := by
  induction rooms generalizing off with
  | nil => exact ⟨trivial, rfl, rfl⟩
  | cons x rooms ih =>
    have hx50 := hcount x (List.mem_cons_self ..)
    rw [encodeRooms_cons] at h
    obtain ⟨hx, hrest⟩ := h.append
    obtain ⟨hn, hroom⟩ := room_encoded hx50 hx
    have hsize : roomSize mem off = (encodeRoom x).length := by rw [roomSize, hn, length_encodeRoom]
    rw [← hsize] at hrest
    obtain ⟨hends, hrooms, hlen⟩ := ih (fun y hy => hcount y (List.mem_cons_of_mem x hy)) hrest
    refine ⟨⟨by omega, hends⟩, ?_, ?_⟩
    · rw [List.length_cons, roomsAt, hroom, hrooms, List.map_cons]
    · rw [List.length_cons, roomsSize, hlen, hsize, encodeRooms_cons, List.length_append]

/-- The values are read back, and the cursor ends behind the last byte. -/
theorem roomsInfoParameter_encoded {tcp : TcpParameter} {rooms : List ListedRoom}
    (hfit : (encodeRoomsInfo tcp rooms).length ≤ MAX_STORAGE_SIZE)
    (h : Spells mem 0 (encodeRoomsInfo tcp rooms)) {fuel : Nat} (hf : 256 ≤ fuel) :
    ∃ c, roomsInfoParameter mem fuel ⟨0, (encodeRoomsInfo tcp rooms).length, []⟩ =
        some (.roomsInfo tcp (.ofNat rooms.length) (rooms.map ListedRoom.info), c) ∧
      c.storage = (encodeRoomsInfo tcp rooms).length ∧ c.storageLen = 0 := by
  have hrooms126 := rooms_le hfit
  obtain ⟨hheader, hbody⟩ := h.append
  rw [length_encodeHeader] at hbody
  obtain ⟨hcount, hlist⟩ := hbody.field
  have hlt : rooms.length % 256 ^ 4 = rooms.length := Nat.mod_eq_of_lt (by omega)
  rw [hlt] at hcount
  obtain ⟨hends, hrooms, hsize⟩ := rooms_encoded (fun x hx => users_le hfit hx) hlist
  have hread := roomsInfoParameter_eq mem hf (c := ⟨0, (encodeRoomsInfo tcp rooms).length, []⟩)
    (by rw [hcount]; exact hends)
  simp only [hcount, headerAt_encoded hheader, hrooms] at hread
  generalize hc : Cursor.skip _ _ = c at hread
  have hstorage : c.storage = (encodeRoomsInfo tcp rooms).length := by
    rw [← hc, Cursor.skip_storage, List.sum_append, List.sum_cons, roomsSizes_sum, hsize,
      length_encodeRoomsInfo, headerSizes]
    simp
    omega
  have htracks := (Cursor.tracks_start (encodeRoomsInfo tcp rooms).length).skip
    (Nat.lt_of_le_of_lt hfit (by decide)) (headerSizes ++ 4 :: roomsSizes mem rooms.length (0 + 12))
  rw [hc] at htracks
  have hleft := (htracks.left (Nat.le_of_eq hstorage)).1
  exact ⟨c, hread, hstorage, by omega⟩

end Reading

end MonitorAgent.L1
