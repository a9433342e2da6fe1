import MonitorAgent.L3Wall.Teardown

/-!
# The loops of teardown end

The loops of `OnDestory` and `Destory` again, now with a bound on the passes
that has nothing to do with the maps: a loop that needs more, or that would
follow an iterator without an entry, gives `none`.

* `destoryWithin_eq`: from some bound on, `Destory` returns, and leaves what
  `destory` says.
-/
namespace MonitorAgent.L3

namespace World

/-- mirrors Monitor/Monitor/TitleRoom.cpp:71-79 -/
def onDestoryLoop (r : RoomRef) : Nat → Option Int → World → Option World
  | _, none, w => some w
  | 0, some _, _ => none
  | n + 1, some k, w =>
    match (w.rooms r).users.find? k with
    | none => none
    | some u => onDestoryLoop r n (w.delUser r (w.users u).userId).2
      (w.delUser r (w.users u).userId).1

/-- mirrors Monitor/Monitor/TitleRoom.cpp:69-84 -/
def onDestoryWithin (n : Nat) (w : World) (r : RoomRef) : Option World :=
  (onDestoryLoop r n (w.rooms r).users.begin w).map
    fun w => w.modifyRoom r fun x => { x with proxy := none }

/-- mirrors Monitor/Monitor/AvsProxy.cpp:245-255 -/
def delRoomWithin (n : Nat) (w : World) (p : ProxyRef) (roomId : Int) (r : RoomRef) :
    Option (World × Option Int) :=
  match (w.proxies p).rooms.find? roomId with
  | none => some (w, none)
  | some _ =>
    (onDestoryWithin n (w.modifyProxy p fun x => { x with rooms := x.rooms.erase roomId }) r).map
      fun w' => (w', (w.proxies p).rooms.upper roomId)

/-- mirrors Monitor/Monitor/AvsProxy.cpp:127-139 -/
def destoryLoop (p : ProxyRef) (n : Nat) : Nat → Option Int → World → Option World
  | _, none, w => some w
  | 0, some _, _ => none
  | m + 1, some k, w =>
    match (w.proxies p).rooms.find? k with
    | none => none
    | some r => (w.delRoomWithin n p (w.rooms r).id r).bind fun x => destoryLoop p n m x.2 x.1

/-- `Destory`, each of whose loops gets `n` passes.
mirrors Monitor/Monitor/AvsProxy.cpp:111-140 -/
def destoryWithin (n : Nat) (w : World) (p : ProxyRef) : Option World :=
  let w := w.modifyProxy p fun x => { x with ip := none }
  destoryLoop p n n (w.proxies p).rooms.begin w

/-! ## Users of a room -/

/-- A pass for each user is enough. -/
theorem onDestoryLoop_eq (r : RoomRef) (n m : Nat) (w : World)
    (hid : ∀ k u, (w.rooms r).users.find? k = some u → (w.users u).userId = k)
    (hn : (w.rooms r).users.size ≤ n) (hm : (w.rooms r).users.size ≤ m) :
    onDestoryLoop r n (w.rooms r).users.begin w =
      some (onDestoryGo r m (w.rooms r).users.begin w) := by
  induction n generalizing w m with
  | zero =>
    cases hb : (w.rooms r).users.begin with
    | none =>
      rw [onDestoryLoop]
      cases m <;> rfl
    | some k₀ =>
      have := StdMap.size_erase hb
      omega
  | succ n ih =>
    cases hb : (w.rooms r).users.begin with
    | none =>
      rw [onDestoryLoop]
      cases m <;> rfl
    | some k₀ =>
      obtain ⟨u, hu⟩ := StdMap.find?_begin hb
      obtain ⟨hit, hsize, hid'⟩ := delUser_begin w r hid hb hu
      obtain ⟨m, rfl⟩ :=
        Nat.exists_eq_succ_of_ne_zero (Nat.ne_of_gt
          (Nat.lt_of_lt_of_le (Nat.zero_lt_of_lt hsize) hm))
      rw [onDestoryLoop, onDestoryGo, hu]
      dsimp only
      rw [hit]
      exact ih m _ hid' (by omega) (by omega)

theorem onDestoryWithin_eq {w : World} {r : RoomRef} {n : Nat}
    (hid : ∀ k u, (w.rooms r).users.find? k = some u → (w.users u).userId = k)
    (hn : (w.rooms r).users.size ≤ n) : onDestoryWithin n w r = some (w.onDestory r) := by
  rw [onDestoryWithin, onDestoryLoop_eq r n _ w hid hn (Nat.le_refl _)]
  rfl

/-! ## Rooms of a proxy -/

theorem delRoomWithin_eq {w : World} {p : ProxyRef} {k : Int} {r r₀ : RoomRef} {n : Nat}
    (hf : (w.proxies p).rooms.find? k = some r₀)
    (hid : ∀ k u, (w.rooms r).users.find? k = some u → (w.users u).userId = k)
    (hn : (w.rooms r).users.size ≤ n) :
    w.delRoomWithin n p k r = some ((w.delRoom p k r).1, (w.delRoom p k r).2.2) := by
  have he := onDestoryWithin_eq (w := w.modifyProxy p fun x => { x with rooms := x.rooms.erase k })
    hid hn
  rw [delRoomWithin, delRoom, hf]
  dsimp only
  rw [he]
  rfl

/-- A pass for each room is enough, if a pass for each of its users is. -/
theorem destoryLoop_eq (p : ProxyRef) (n m l : Nat) {w : World} (hw : Bij w)
    (hid : ∀ k r, (w.proxies p).rooms.find? k = some r → (w.rooms r).id = k)
    (hn : ∀ k r, (w.proxies p).rooms.find? k = some r → (w.rooms r).users.size ≤ n)
    (hm : (w.proxies p).rooms.size ≤ m) (hl : (w.proxies p).rooms.size ≤ l) :
    destoryLoop p n m (w.proxies p).rooms.begin w =
      some (destoryGo p l (w.proxies p).rooms.begin w) := by
  induction m generalizing w l with
  | zero =>
    cases hb : (w.proxies p).rooms.begin with
    | none =>
      rw [destoryLoop]
      cases l <;> rfl
    | some k₀ =>
      have := StdMap.size_erase hb
      omega
  | succ m ih =>
    cases hb : (w.proxies p).rooms.begin with
    | none =>
      rw [destoryLoop]
      cases l <;> rfl
    | some k₀ =>
      obtain ⟨r₀, hf⟩ := StdMap.find?_begin hb
      obtain ⟨hit, hsize, hid'⟩ := delRoom_begin hid hb hf
      have hk := hid k₀ r₀ hf
      obtain ⟨l, rfl⟩ :=
        Nat.exists_eq_succ_of_ne_zero (Nat.ne_of_gt
          (Nat.lt_of_lt_of_le (Nat.zero_lt_of_lt hsize) hl))
      rw [destoryLoop, destoryGo, hf]
      dsimp only
      rw [delRoomWithin_eq (by rw [hk]; exact hf) (hw.toFiling.userId r₀) (hn k₀ r₀ hf),
        Option.bind_some]
      dsimp only
      rw [hit]
      refine ih l (hw.steps (delRoom_steps hw p _ r₀)) hid' (fun k r hr => ?_) (by omega) (by omega)
      -- the rooms that are left keep their users
      rw [delRoom_find?, hk] at hr
      split at hr
      · cases hr
      · rename_i hne
        have hrr : r ≠ r₀ := by
          rintro rfl
          exact hne ⟨rfl, (hid k r hr).symm.trans hk⟩
        rw [delRoom_rooms_ne w r₀ p _ hrr]
        exact hn k r hr

theorem exists_users_bound (w : World) (rs : List RoomRef) :
    ∃ n, ∀ r ∈ rs, (w.rooms r).users.size ≤ n := by
  induction rs with
  | nil => exact ⟨0, fun r hr => absurd hr List.not_mem_nil⟩
  | cons r rs ih =>
    obtain ⟨n, hn⟩ := ih
    refine ⟨max (w.rooms r).users.size n, fun r' hr' => ?_⟩
    rcases List.mem_cons.mp hr' with rfl | hr'
    · exact Nat.le_max_left _ _
    · exact Nat.le_trans (hn r' hr') (Nat.le_max_right _ _)

/-- **Termination.** With passes enough for the rooms, and for the users of
each, both loops end. -/
theorem destoryWithin_eq (p : ProxyRef) {w : World} (hw : Bij w)
    (hid : ∀ k r, (w.proxies p).rooms.find? k = some r → (w.rooms r).id = k) :
    ∃ N, ∀ n, N ≤ n → w.destoryWithin n p = some (w.destory p) := by
  have he := SameWall.modifyProxy w p fun x => { x with ip := none }
  have hr : ((w.modifyProxy p fun x => { x with ip := none }).proxies p).rooms =
      (w.proxies p).rooms := by
    rw [World.modifyProxy_proxies, if_pos rfl]
  obtain ⟨N, hN⟩ := exists_users_bound w ((w.proxies p).rooms.entries.map Prod.snd)
  refine ⟨max (w.proxies p).rooms.size N, fun n hn => ?_⟩
  refine destoryLoop_eq p n n _ (hw.steps he.steps) (by rw [hr]; exact hid) (fun k r hf => ?_)
    (by rw [hr]; omega) (Nat.le_refl _)
  rw [hr] at hf
  exact Nat.le_trans (hN r (List.mem_map.mpr
    ⟨(k, r), (StdMap.mem_entries_iff _ k r).mpr hf, rfl⟩)) (by omega)

end World

end MonitorAgent.L3
