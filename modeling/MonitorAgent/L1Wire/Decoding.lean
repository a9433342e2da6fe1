import MonitorAgent.L1Wire.Parameter

/-!
# What the decoder reads

A constructor that returns has read the fields of its layout one after the
other (`Cursor.skip`), the lists of `RoomsInfoParameter` as long as the counts
in the memory say. No length is looked at, so a read is inside the frame if
the whole layout is.

* `contained_iff`: the reads of a frame are inside it, and decoding ends,
  exactly if the frame is as long as its type and its counts say.
* `usersInfo_none`: with a count of 256 or more the constructor does not
  return.
-/
namespace MonitorAgent.L1

open BigEndian ForLoop TcpStorage

/-- What a field of that size reads to. -/
def Memory.value (mem : Memory) (off size : Nat) : Nat := beValue (mem.bytes off size)

theorem Memory.length_bytes (mem : Memory) (off size : Nat) :
    (mem.bytes off size).length = size := by
  simp [Memory.bytes]

theorem Memory.value_lt (mem : Memory) (off size : Nat) : mem.value off size < 256 ^ size := by
  have h := beValue_lt (mem.bytes off size)
  rwa [mem.length_bytes] at h

theorem Memory.load_lt (mem : Memory) (off size : Nat) : mem.load off size < 256 ^ size := by
  have h := beValue_lt (mem.bytes off size).reverse
  rwa [List.length_reverse, mem.length_bytes] at h

theorem unserialize_load (mem : Memory) (off size : Nat) :
    unserialize size (mem.load off size) = mem.value off size :=
  swap_leValue (mem.length_bytes off size)

theorem pjNtohAssign_eq (mem : Memory) (size : Nat) (c : Cursor) :
    pjNtohAssign mem size c = (mem.value c.storage size, c.advance size) := by
  rw [pjNtohAssign, unserialize_load]

/-! ## The cursor -/

namespace Cursor

/-- Fields of these sizes are read. -/
def skip (sizes : List Nat) (c : Cursor) : Cursor := sizes.foldl advance c

@[simp] theorem advance_storage (c : Cursor) (size : Nat) :
    (c.advance size).storage = c.storage + size := rfl

theorem skip_cons (size : Nat) (sizes : List Nat) (c : Cursor) :
    c.skip (size :: sizes) = (c.advance size).skip sizes :=
  rfl

@[simp] theorem skip_nil (c : Cursor) : c.skip [] = c := rfl

@[simp] theorem skip_append (as bs : List Nat) (c : Cursor) :
    c.skip (as ++ bs) = (c.skip as).skip bs :=
  List.foldl_append

@[simp] theorem skip_storage (sizes : List Nat) (c : Cursor) :
    (c.skip sizes).storage = c.storage + sizes.sum := by
  induction sizes generalizing c with
  | nil => rfl
  | cons size sizes ih =>
    rw [skip_cons, ih, advance_storage, List.sum_cons, Nat.add_assoc]

/-- The fields read so far lie one after the other up to the pointer. -/
structure Tracks (n : Nat) (c : Cursor) : Prop where
  upTo : ∀ r ∈ c.reads, r.offset + r.size ≤ c.storage
  last : c.storage = 0 ∨ ∃ r ∈ c.reads, r.offset + r.size = c.storage
  left : c.storage ≤ n → c.storageLen = n - c.storage ∧ ∀ r ∈ c.reads, r.size ≤ r.storageLen

theorem tracks_start (n : Nat) : Tracks n ⟨0, n, []⟩ :=
  ⟨by simp, .inl rfl, by simp⟩

theorem Tracks.advance {n : Nat} {c : Cursor} (h : Tracks n c) (hn : n < 65536) (size : Nat) :
    Tracks n (c.advance size) where
  upTo r hr := by
    simp only [Cursor.advance, List.mem_append, List.mem_singleton] at hr ⊢
    rcases hr with hr | rfl
    · have := h.upTo r hr
      omega
    · exact Nat.le_refl _
  last := .inr ⟨⟨c.storage, size, c.storageLen⟩, by simp [Cursor.advance], rfl⟩
  left hle := by
    have hle' : c.storage + size ≤ n := hle
    obtain ⟨hleft, hreads⟩ := h.left (by omega)
    constructor
    · simp only [Cursor.advance, u16, hleft]
      omega
    · intro r hr
      simp only [Cursor.advance, List.mem_append, List.mem_singleton] at hr
      rcases hr with hr | rfl
      · exact hreads r hr
      · simp only [hleft]
        omega

theorem Tracks.skip {n : Nat} {c : Cursor} (h : Tracks n c) (hn : n < 65536) (sizes : List Nat) :
    Tracks n (c.skip sizes) := by
  induction sizes generalizing c with
  | nil => exact h
  | cons size sizes ih => exact ih (h.advance hn size)

end Cursor

/-- The bytes read belong to the frame, and `storage_len` stays above zero. -/
def Read.Inside (n : Nat) (r : Read) : Prop := r.offset + r.size ≤ n ∧ r.size ≤ r.storageLen

instance (n : Nat) (r : Read) : Decidable (r.Inside n) := inferInstanceAs (Decidable (_ ∧ _))

theorem Cursor.Tracks.inside_iff {n : Nat} {c : Cursor} (h : c.Tracks n) :
    (∀ r ∈ c.reads, r.Inside n) ↔ c.storage ≤ n := by
  constructor
  · intro hr
    rcases h.last with h0 | ⟨r, hmem, hend⟩
    · omega
    · have := (hr r hmem).1
      omega
  · intro hle r hr
    have := h.upTo r hr
    exact ⟨by omega, (h.left hle).2 r hr⟩

/-! ## Lists of users and rooms -/

variable (mem : Memory)

def userSizes : List Nat := [8, 4, 4, 4]

def userAt (off : Nat) : UserInfo :=
  ⟨int64 (mem.value off 8), .ofNat (mem.value (off + 8) 4), .ofNat (mem.value (off + 12) 4),
    .ofNat (mem.value (off + 16) 4)⟩

def usersAt (off n : Nat) : List UserInfo := (List.range n).map fun j => userAt mem (off + 20 * j)

def usersSizes (n : Nat) : List Nat := (List.replicate n userSizes).flatten

theorem userInfo_eq (c : Cursor) : userInfo mem c = (userAt mem c.storage, c.skip userSizes) := by
  simp only [userInfo, pjNtohAssign_eq]
  rfl

theorem usersSizes_sum (n : Nat) : (usersSizes n).sum = 20 * n := by
  simp [usersSizes, userSizes, Nat.mul_comm]

theorem usersAt_succ (off i : Nat) :
    (usersAt mem off i ++ [default]).set i (userAt mem (off + 20 * i)) =
      usersAt mem off (i + 1) := by
  have hlen : (usersAt mem off i).length = i := by simp [usersAt]
  rw [List.set_append_right _ _ (by omega), hlen, Nat.sub_self]
  simp [usersAt, List.range_succ]

theorem skip_usersSizes_succ (c : Cursor) (i : Nat) :
    (c.skip (usersSizes i)).skip userSizes = c.skip (usersSizes (i + 1)) := by
  rw [← Cursor.skip_append]
  simp [usersSizes, List.replicate_succ']

/-- The state of the loop over the users after `i` passes. -/
def usersPass (c : Cursor) (i : Nat) : List UserInfo × Cursor :=
  (usersAt mem c.storage i, c.skip (usersSizes i))

theorem usersInfo_eq {fuel n : Nat} (hn : n < 256) (hf : n < fuel) (c : Cursor) :
    usersInfo mem fuel n c = some (usersPass mem c n) := by
  refine forLoop_steps (usersPass mem c) hn (fun i _ => ?_) (Nat.zero_le n) hf
  simp only [usersPass, userInfo_eq, Cursor.skip_storage, usersSizes_sum, usersAt_succ,
    skip_usersSizes_succ]

/-- `j` is back at 0 before it reaches the count. -/
theorem usersInfo_none {n : Nat} (hn : 256 ≤ n) (fuel : Nat) (c : Cursor) :
    usersInfo mem fuel n c = none :=
  forLoop_none hn fuel (by decide) _

def userCountAt (off : Nat) : Nat := mem.value (off + 4) 4

/-- The size of a room, with the users it says it has. -/
def roomSize (off : Nat) : Nat := 8 + 20 * userCountAt mem off

def roomsSize : Nat → Nat → Nat
  | 0, _ => 0
  | n + 1, off => roomSize mem off + roomsSize n (off + roomSize mem off)

/-- No room says it has more users than `j` can count. -/
def RoomsEnd : Nat → Nat → Prop
  | 0, _ => True
  | n + 1, off => userCountAt mem off < 256 ∧ RoomsEnd n (off + roomSize mem off)

def roomAt (off : Nat) : RoomInfo :=
  ⟨int32 (mem.value off 4), .ofNat (userCountAt mem off),
    usersAt mem (off + 8) (userCountAt mem off)⟩

def roomsAt : Nat → Nat → List RoomInfo
  | 0, _ => []
  | n + 1, off => roomAt mem off :: roomsAt n (off + roomSize mem off)

def roomSizes (off : Nat) : List Nat := [4, 4] ++ usersSizes (userCountAt mem off)

def roomsSizes : Nat → Nat → List Nat
  | 0, _ => []
  | n + 1, off => roomSizes mem off ++ roomsSizes n (off + roomSize mem off)

theorem roomSizes_sum (off : Nat) : (roomSizes mem off).sum = roomSize mem off := by
  rw [roomSizes, List.sum_append, usersSizes_sum]
  rfl

theorem roomsSizes_sum (n off : Nat) : (roomsSizes mem n off).sum = roomsSize mem n off := by
  induction n generalizing off with
  | zero => rfl
  | succ n ih => rw [roomsSizes, List.sum_append, roomSizes_sum, ih, roomsSize]

/-- The state of the loop over the rooms after a room. -/
theorem skip_roomSizes_storage (c : Cursor) :
    (c.skip (roomSizes mem c.storage)).storage = c.storage + roomSize mem c.storage := by
  rw [Cursor.skip_storage, roomSizes_sum]

theorem roomsInfo_succ (fuel n : Nat) (c : Cursor) :
    roomsInfo mem fuel (n + 1) c =
      (usersInfo mem fuel (userCountAt mem c.storage) (c.skip [4, 4])).bind fun (users, c') =>
        (roomsInfo mem fuel n c').map fun (rooms, c'') =>
          (⟨int32 (mem.value c.storage 4), .ofNat (userCountAt mem c.storage), users⟩ ::
            rooms, c'') := by
  rw [roomsInfo]
  simp only [pjNtohAssign_eq, Cursor.advance_storage, Cursor.skip_cons, Cursor.skip_nil,
    userCountAt]

theorem usersPass_room (c : Cursor) (n : Nat) :
    usersPass mem (c.skip [4, 4]) n = (usersAt mem (c.storage + 8) n,
      c.skip ([4, 4] ++ usersSizes n)) := by
  simp [usersPass, Cursor.skip_cons]

theorem roomsInfo_eq {fuel : Nat} (hf : 256 ≤ fuel) {n : Nat} {c : Cursor}
    (h : RoomsEnd mem n c.storage) :
    roomsInfo mem fuel n c = some (roomsAt mem n c.storage,
      c.skip (roomsSizes mem n c.storage)) := by
  induction n generalizing c with
  | zero => rfl
  | succ n ih =>
    obtain ⟨hcount, hrest⟩ := h
    have hstorage := skip_roomSizes_storage mem c
    have husers := usersInfo_eq mem hcount (show _ < fuel by omega) (c.skip [4, 4])
    rw [roomsInfo_succ, husers, Option.bind_some, usersPass_room, ← roomSizes]
    simp only []
    rw [ih (by rwa [hstorage]), hstorage, Option.map_some, roomsSizes, Cursor.skip_append, roomsAt,
      roomAt]

theorem roomsInfo_mono {fuel fuel' : Nat} (hf : fuel ≤ fuel') {n : Nat} {c : Cursor}
    {x : List RoomInfo × Cursor} (h : roomsInfo mem fuel n c = some x) :
    roomsInfo mem fuel' n c = some x := by
  induction n generalizing c x with
  | zero => exact h
  | succ n ih =>
    rw [roomsInfo_succ] at h ⊢
    obtain ⟨⟨users, c'⟩, husers, hrest⟩ := Option.bind_eq_some_iff.mp h
    obtain ⟨rooms, hrooms, hx⟩ := Option.map_eq_some_iff.mp hrest
    have husers' : usersInfo mem fuel' (userCountAt mem c.storage) (c.skip [4, 4]) =
      some (users, c') :=
      forLoop_mono hf husers
    rw [husers', Option.bind_some]
    simp only []
    rw [ih hrooms, Option.map_some, ← hx]

theorem roomsEnd_of_roomsInfo {fuel : Nat} (hf : 256 ≤ fuel) {n : Nat} {c : Cursor}
    {x : List RoomInfo × Cursor} (h : roomsInfo mem fuel n c = some x) :
    RoomsEnd mem n c.storage := by
  induction n generalizing c x with
  | zero => exact trivial
  | succ n ih =>
    rw [roomsInfo_succ] at h
    by_cases hcount : userCountAt mem c.storage < 256
    · rw [usersInfo_eq mem hcount (by omega), Option.bind_some, usersPass_room, ← roomSizes] at h
      obtain ⟨y, hy, -⟩ := Option.map_eq_some_iff.mp h
      have hrest := ih hy
      rw [skip_roomSizes_storage] at hrest
      exact ⟨hcount, hrest⟩
    · rw [usersInfo_none mem (Nat.le_of_not_lt hcount), Option.bind_none] at h
      cases h

/-- The loop over the users goes on forever for the first room with too many. -/
theorem roomsInfo_none (fuel : Nat) {n : Nat} {c : Cursor} (h : ¬ RoomsEnd mem n c.storage) :
    roomsInfo mem fuel n c = none := by
  rw [Option.eq_none_iff_forall_ne_some]
  intro x hx
  have hx' := roomsInfo_mono mem (Nat.le_max_left fuel 256) hx
  exact h (roomsEnd_of_roomsInfo mem (Nat.le_max_right fuel 256) hx')

/-- A count that the loop cannot reach announces more than a frame holds. -/
theorem lt_roomsSize {n off : Nat} (h : ¬ RoomsEnd mem n off) :
    MAX_STORAGE_SIZE < roomsSize mem n off := by
  induction n generalizing off with
  | zero => exact absurd trivial h
  | succ n ih =>
    rw [roomsSize]
    by_cases hcount : userCountAt mem off < 256
    · have hrest : MAX_STORAGE_SIZE < roomsSize mem n (off + roomSize mem off) :=
        ih fun hr => h ⟨hcount, hr⟩
      omega
    · simp only [roomSize, MAX_STORAGE_SIZE]
      omega

/-! ## Frames -/

def headerSizes : List Nat := [2, 2, 2, 2]

def headerAt (off : Nat) : TcpParameter :=
  ⟨.ofNat (mem.value off 2), .ofNat (mem.value (off + 2) 2), .ofNat (mem.value (off + 4) 2),
    .ofNat (mem.value (off + 6) 2)⟩

theorem tcpParameter_eq (c : Cursor) :
    tcpParameter mem c = (headerAt mem c.storage, c.skip headerSizes) := by
  simp only [tcpParameter, pjNtohAssign_eq]
  rfl

/-- The fields of a frame of that type, with the counts it announces. -/
def layout : ClientRequest → List Nat
  | .login | .keepAlive => headerSizes
  | .roomsInfo => headerSizes ++ 4 :: roomsSizes mem (mem.value 8 4) 12
  | .roomModMedia => headerSizes ++ [4, 8, 4, 4]
  | .roomAddUser => headerSizes ++ [4, 8, 4]
  | .roomDelUser => headerSizes ++ [4, 8]

/-- What the type and the counts of a frame announce. -/
def announcedSize : Nat :=
  match mem.request? with
  | none => 0
  | some .login | some .keepAlive => 8
  | some .roomsInfo => 12 + roomsSize mem (mem.value 8 4) 12
  | some .roomModMedia => 28
  | some .roomAddUser => 24
  | some .roomDelUser => 20

/-- Decoding a frame of `n` bytes ends, and all reads were inside it. -/
def Contained (n : Nat) : Prop :=
  ∃ fuel param reads, tcpParamScene mem fuel n = some (param, reads) ∧ ∀ r ∈ reads, r.Inside n

theorem announcedSize_roomsInfo (h : mem.request? = some .roomsInfo) :
    announcedSize mem = 12 + roomsSize mem (mem.value 8 4) 12 := by
  rw [announcedSize, h]

theorem layout_sum {request : ClientRequest} (h : mem.request? = some request) :
    (layout mem request).sum = announcedSize mem := by
  cases request with
  | roomsInfo =>
    rw [announcedSize_roomsInfo mem h, layout, List.sum_append, List.sum_cons, roomsSizes_sum,
      ← Nat.add_assoc]
    congr 1
  | login | roomModMedia | roomAddUser | roomDelUser | keepAlive =>
    rw [announcedSize, h]
    rfl

theorem skip_header_storage (c : Cursor) : (c.skip headerSizes).storage = c.storage + 8 := by
  rw [Cursor.skip_storage]
  rfl

theorem roomsInfoParameter_bind (fuel : Nat) (c : Cursor) :
    roomsInfoParameter mem fuel c =
      (roomsInfo mem fuel (mem.value (c.storage + 8) 4) ((c.skip headerSizes).advance 4)).map
      fun (rooms, c') =>
        (.roomsInfo (headerAt mem c.storage) (.ofNat (mem.value (c.storage + 8) 4)) rooms, c') := by
  rw [roomsInfoParameter]
  simp only [tcpParameter_eq, pjNtohAssign_eq, skip_header_storage]

theorem roomsInfoParameter_eq {fuel : Nat} (hf : 256 ≤ fuel) {c : Cursor}
    (h : RoomsEnd mem (mem.value (c.storage + 8) 4) (c.storage + 12)) :
    roomsInfoParameter mem fuel c =
      some (.roomsInfo (headerAt mem c.storage) (.ofNat (mem.value (c.storage + 8) 4))
        (roomsAt mem (mem.value (c.storage + 8) 4) (c.storage + 12)),
        c.skip (headerSizes ++ 4 :: roomsSizes mem (mem.value (c.storage + 8) 4)
          (c.storage + 12))) := by
  rw [roomsInfoParameter_bind]
  generalize mem.value (c.storage + 8) 4 = count at h ⊢
  have hstorage : ((c.skip headerSizes).advance 4).storage = c.storage + 12 := by
    rw [Cursor.advance_storage, skip_header_storage]
  rw [roomsInfo_eq mem hf (by rwa [hstorage]), hstorage, Option.map_some, Cursor.skip_append,
    Cursor.skip_cons]

theorem roomsInfoParameter_none (fuel : Nat) {c : Cursor}
    (h : ¬ RoomsEnd mem (mem.value (c.storage + 8) 4) (c.storage + 12)) :
    roomsInfoParameter mem fuel c = none := by
  rw [roomsInfoParameter_bind]
  generalize mem.value (c.storage + 8) 4 = count at h ⊢
  have hstorage : ((c.skip headerSizes).advance 4).storage = c.storage + 12 := by
    rw [Cursor.advance_storage, skip_header_storage]
  rw [roomsInfo_none mem fuel (by rwa [hstorage]), Option.map_none]

/-- No count of the frame is beyond the counter that runs up to it. -/
def CountsEnd (mem : Memory) : Prop :=
  mem.request? = some .roomsInfo → RoomsEnd mem (mem.value 8 4) 12

theorem parameter_eq {fuel : Nat} (hf : 256 ≤ fuel) {request : ClientRequest}
    (h : mem.request? = some request) (hends : CountsEnd mem) (n : Nat) :
    ∃ param, parameter mem fuel request ⟨0, n, []⟩ =
      some (param, Cursor.skip (layout mem request) ⟨0, n, []⟩) := by
  cases request with
  | login | keepAlive => exact ⟨_, rfl⟩
  | roomsInfo => exact ⟨_, roomsInfoParameter_eq mem hf (c := ⟨0, n, []⟩) (hends h)⟩
  | roomModMedia =>
    refine ⟨.modMedia (headerAt mem 0) (int32 (mem.value 8 4)) (int64 (mem.value 12 8))
      (.ofNat (mem.value 20 4))
      (.ofNat (mem.value 24 4)), ?_⟩
    simp only [parameter, modMediaParameter, tcpParameter_eq, pjNtohAssign_eq]
    rfl
  | roomAddUser =>
    refine ⟨.addUser (headerAt mem 0) (int32 (mem.value 8 4)) (int64 (mem.value 12 8))
      (.ofNat (mem.value 20 4)), ?_⟩
    simp only [parameter, addUserParameter, tcpParameter_eq, pjNtohAssign_eq]
    rfl
  | roomDelUser =>
    refine ⟨.delUser (headerAt mem 0) (int32 (mem.value 8 4)) (int64 (mem.value 12 8)), ?_⟩
    simp only [parameter, delUserParameter, tcpParameter_eq, pjNtohAssign_eq]
    rfl

theorem parameter_none (fuel : Nat) {request : ClientRequest} (h : mem.request? = some request)
    (hends : ¬ CountsEnd mem) (n : Nat) : parameter mem fuel request ⟨0, n, []⟩ = none := by
  obtain ⟨hrooms, hcounts⟩ := Classical.not_imp.mp hends
  obtain rfl : request = .roomsInfo := Option.some.inj (h.symm.trans hrooms)
  exact roomsInfoParameter_none mem fuel hcounts

theorem parameter_mono {fuel fuel' : Nat} (hf : fuel ≤ fuel') {request : ClientRequest} {c : Cursor}
    {x : Parameter × Cursor} (h : parameter mem fuel request c = some x) :
    parameter mem fuel' request c = some x := by
  cases request with
  | roomsInfo =>
    rw [parameter, roomsInfoParameter_bind] at h ⊢
    obtain ⟨y, hy, hx⟩ := Option.map_eq_some_iff.mp h
    rw [roomsInfo_mono mem hf hy, Option.map_some, hx]
  | login | roomModMedia | roomAddUser | roomDelUser | keepAlive => exact h

/-- Whatever the fuel, a frame whose decoding ends has its layout read. -/
theorem cursor_of_parameter {fuel : Nat} {request : ClientRequest}
    (hreq : mem.request? = some request) {n : Nat}
    {param : Parameter} {c : Cursor} (h : parameter mem fuel request ⟨0, n, []⟩ = some (param, c)) :
    c = Cursor.skip (layout mem request) ⟨0, n, []⟩ := by
  have hends : CountsEnd mem := by
    by_contra hends
    rw [parameter_none mem fuel hreq hends] at h
    cases h
  obtain ⟨param', hparam⟩ := parameter_eq mem (Nat.le_max_right fuel 256) hreq hends n
  have h' := parameter_mono mem (Nat.le_max_left fuel 256) h
  exact (Prod.mk.inj (Option.some.inj (h'.symm.trans hparam))).2

theorem tcpParamScene_isSome {fuel : Nat} (hf : 256 ≤ fuel) (hends : CountsEnd mem) (n : Nat) :
    (tcpParamScene mem fuel n).isSome := by
  rw [tcpParamScene]
  by_cases h0 : n = 0
  · rw [if_pos h0]
    rfl
  · rw [if_neg h0]
    cases hreq : mem.request? with
    | none => rfl
    | some request =>
      obtain ⟨param, hparam⟩ := parameter_eq mem hf hreq hends n
      simp only [hparam, Option.map_some, Option.isSome_some]

theorem countsEnd_of_isSome {fuel n : Nat} (hn : n ≠ 0) (h : (tcpParamScene mem fuel n).isSome) :
    CountsEnd mem := by
  by_contra hends
  obtain ⟨hrooms, -⟩ := Classical.not_imp.mp hends
  rw [tcpParamScene, if_neg hn, hrooms] at h
  simp only [parameter_none mem fuel hrooms hends] at h
  cases h

theorem countsEnd_of_announced {n : Nat} (hn : n ≤ MAX_STORAGE_SIZE) (h : announcedSize mem ≤ n) :
    CountsEnd mem := by
  intro hreq
  by_contra hends
  have hlt := lt_roomsSize mem hends
  rw [announcedSize_roomsInfo mem hreq] at h
  generalize roomsSize mem (mem.value 8 4) 12 = size at h hlt
  omega

theorem layout_inside_iff {request : ClientRequest} (hreq : mem.request? = some request) {n : Nat}
    (hn : n ≤ MAX_STORAGE_SIZE) :
    (∀ r ∈ (Cursor.skip (layout mem request) ⟨0, n, []⟩).reads, r.Inside n) ↔
      announcedSize mem ≤ n := by
  have hwide : n < 65536 := Nat.lt_of_le_of_lt hn (by decide)
  rw [((Cursor.tracks_start n).skip hwide (layout mem request)).inside_iff, Cursor.skip_storage,
    layout_sum mem hreq, Nat.zero_add]

theorem typeRead_inside_iff (n : Nat) : Read.Inside n ⟨2, 2, n⟩ ↔ 4 ≤ n := by
  simp only [Read.Inside]
  omega

theorem announced_of_contained {n : Nat} (h1 : 1 ≤ n) (hn : n ≤ MAX_STORAGE_SIZE)
    (h : Contained mem n) :
    4 ≤ n ∧ announcedSize mem ≤ n := by
  obtain ⟨fuel, param, reads, hscene, hinside⟩ := h
  have h0 : n ≠ 0 := by omega
  rw [tcpParamScene, if_neg h0] at hscene
  cases hreq : mem.request? with
  | none =>
    rw [hreq] at hscene
    obtain ⟨-, rfl⟩ := Prod.mk.inj (Option.some.inj hscene)
    have hsize : announcedSize mem = 0 := by rw [announcedSize, hreq]
    exact ⟨(typeRead_inside_iff n).mp (hinside _ (List.mem_singleton_self _)), by omega⟩
  | some request =>
    rw [hreq] at hscene
    obtain ⟨⟨param', c⟩, hparam, heq⟩ := Option.map_eq_some_iff.mp hscene
    obtain ⟨rfl, rfl⟩ := Prod.mk.inj heq
    obtain rfl := cursor_of_parameter mem hreq hparam
    rw [List.forall_mem_cons, typeRead_inside_iff, layout_inside_iff mem hreq hn] at hinside
    exact hinside

theorem contained_of_announced {n : Nat} (hn : n ≤ MAX_STORAGE_SIZE) (h4 : 4 ≤ n)
    (h : announcedSize mem ≤ n) :
    Contained mem n := by
  have h0 : n ≠ 0 := by omega
  simp only [Contained, tcpParamScene, if_neg h0]
  cases hreq : mem.request? with
  | none =>
    refine ⟨0, none, [⟨2, 2, n⟩], rfl, ?_⟩
    rw [List.forall_mem_singleton, typeRead_inside_iff]
    exact h4
  | some request =>
    obtain ⟨param, hparam⟩ :=
      parameter_eq mem (Nat.le_refl 256) hreq (countsEnd_of_announced mem hn h) n
    simp only []
    refine ⟨256, some param, _, by rw [hparam]; rfl, ?_⟩
    rw [List.forall_mem_cons, typeRead_inside_iff, layout_inside_iff mem hreq hn]
    exact ⟨h4, h⟩

/-- The reads are inside the frame, and decoding it ends, if it is as long as
its type and its counts announce. -/
theorem contained_iff {n : Nat} (h1 : 1 ≤ n) (hn : n ≤ MAX_STORAGE_SIZE) :
    Contained mem n ↔ 4 ≤ n ∧ announcedSize mem ≤ n :=
  ⟨announced_of_contained mem h1 hn, fun ⟨h4, h⟩ => contained_of_announced mem hn h4 h⟩

def frameMemory (frame : List UInt8) : Memory := fun i => frame.getD i 0

/-- A frame that adds a user, with its header and no more: the fields behind
are read from what follows it in memory. -/
theorem bare_addUser_escapes : ¬ Contained (frameMemory [0, 6, 0, 3, 0, 1, 0, 1]) 8 := by
  intro h
  exact absurd (announced_of_contained _ (by decide) (by decide) h).2 (by decide)

theorem addUser_contained :
    Contained (frameMemory ([0, 22, 0, 3, 0, 1, 0, 1] ++ [0, 0, 0, 7] ++ [0, 0, 0, 0, 0, 0, 0, 9] ++
      [0, 0, 0, 2])) 24 :=
  (contained_iff _ (by decide) (by decide)).mpr (by decide)

end MonitorAgent.L1
