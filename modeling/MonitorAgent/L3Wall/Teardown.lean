import MonitorAgent.L3Wall.Operations

/-!
# What teardown leaves

`TitleRoom::OnDestory` deletes every user of its room and forgets the proxy;
`AvsProxy::Destory` does so for every room of the proxy. Both loop with the
iterator an erasure returns, and rely on the entry being filed under the id
of its object: a user under `user_id_`, a room under `id_`.

* `onDestory_users`: the room has no users left.
* `destory_tornDown`: the proxy has no rooms left, its rooms have no users
  and no proxy, and every other room and proxy is as before.
* `onDestory_elsewhere`, `destory_elsewhere`: users of other rooms, and the
  screens that show them, are as before.
-/
namespace MonitorAgent.L3

/-- Proxies stay as they are. -/
theorem sameProxies_teardownFrame : TeardownFrame fun w w' => w'.proxies = w.proxies where
  refl _ := rfl
  trans h h' := h'.trans h
  screen w s := World.disconnectUser_proxies w s
  room _ _ _ _ := rfl
  delete _ _ := rfl

/-- Users keep their ids and rooms. -/
theorem sameOwner_teardownFrame : TeardownFrame fun w w' =>
    ∀ u, (w'.users u).userId = (w.users u).userId ∧
    (w'.users u).titleRoom = (w.users u).titleRoom where
  refl _ _ := ⟨rfl, rfl⟩
  trans h h' u := ⟨(h' u).1.trans (h u).1, (h' u).2.trans (h u).2⟩
  screen w s u := by
    cases hs : (w.screens s).user with
    | none => rw [World.disconnectUser_of_idle w s hs]; exact ⟨rfl, rfl⟩
    | some v => exact ⟨(SameIdentity.disconnect w s v hs).userId u,
      (SameIdentity.disconnect w s v hs).titleRoom u⟩
  room _ _ _ _ _ := ⟨rfl, rfl⟩
  delete w u' u := by
    rw [World.modifyUser_users]
    split
    · rename_i he; rw [he]; exact ⟨rfl, rfl⟩
    · exact ⟨rfl, rfl⟩

theorem sameOwner_callFrame (p : ProxyRef) : CallFrame p fun w w' =>
    ∀ u, (w'.users u).userId = (w.users u).userId ∧
    (w'.users u).titleRoom = (w.users u).titleRoom where
  refl _ _ := ⟨rfl, rfl⟩
  trans h h' u := ⟨(h' u).1.trans (h u).1, (h' u).2.trans (h u).2⟩
  send w packet u := by rw [(SameWall.sendPacket w packet).users]; exact ⟨rfl, rfl⟩
  proxy _ _ _ _ := ⟨rfl, rfl⟩
  create _ _ _ := ⟨rfl, rfl⟩

/-- No screen takes a user and no user comes to life. -/
structure Fades (w w' : World) : Prop where
  user : ∀ s u, (w'.screens s).user = some u → (w.screens s).user = some u
  alive : ∀ u, (w'.users u).alive = true → (w.users u).alive = true

theorem Fades.teardownFrame : TeardownFrame Fades where
  refl _ := ⟨fun _ _ => id, fun _ => id⟩
  trans h h' := ⟨fun s u => h.user s u ∘ h'.user s u, fun u => h.alive u ∘ h'.alive u⟩
  screen w s := by
    cases hs : (w.screens s).user with
    | none => rw [World.disconnectUser_of_idle w s hs]; exact ⟨fun _ _ => id, fun _ => id⟩
    | some v =>
      refine ⟨fun s' u hu =>
        ?_, fun u ha => by rwa [(SameIdentity.disconnect w s v hs).alive] at ha⟩
      rw [World.disconnectUser_screens w s s' hs] at hu
      split at hu
      · cases hu
      · exact hu
  room _ _ _ _ := ⟨fun _ _ => id, fun _ => id⟩
  delete w u' := by
    refine ⟨fun _ _ => id, fun u ha => ?_⟩
    rw [World.modifyUser_users] at ha
    split at ha
    · cases ha
    · exact ha

theorem Fades.callFrame (p : ProxyRef) : CallFrame p Fades where
  refl := Fades.teardownFrame.refl
  trans := Fades.teardownFrame.trans
  send w packet := by
    have h := SameWall.sendPacket w packet
    exact ⟨fun s u hu => by rwa [h.screens] at hu, fun u ha => by rwa [h.users] at ha⟩
  proxy _ _ _ := ⟨fun _ _ => id, fun _ => id⟩
  create _ _ := ⟨fun _ _ => id, fun _ => id⟩

/-- A screen whose user the room has lost is idle: the user is deleted, and no
other comes there. -/
theorem Fades.idle {w w' : World} (hfade : Fades w w') (hw : Bij w) (hsteps : WallSteps w w')
    {r : RoomRef} {k : Int} {u : UserRef} (hf : (w.rooms r).users.find? k = some u)
    (hlost : (w'.rooms r).users.find? k ≠ some u) {s : ScreenRef}
    (hs : (w.screens s).user = some u) :
    (w'.screens s).user = none ∧ (w'.screens s).mediaActive = false := by
  have hw' := hw.steps hsteps
  have hdead : (w'.users u).alive = false :=
    (filed_or_dead hsteps hf (hw.fresh u (hw.filed r k u hf).1)).1.resolve_left hlost
  have hnone : (w'.screens s).user = none := by
    cases hv : (w'.screens s).user with
    | none => rfl
    | some v =>
      cases hs.symm.trans (hfade.user s v hv)
      rw [hw'.shows s u hv] at hdead
      cases hdead
  exact ⟨hnone, by rw [hw'.active, hnone]; rfl⟩

namespace World

variable (w : World) (r : RoomRef)

/-! ## Users of a room -/

theorem delFound_rooms (userId : Int) (u : UserRef) : (w.delFound r userId u).rooms =
    (w.modifyRoom r fun x =>
      { x with users := x.users.erase userId, items := x.items.erase (some u) }).rooms := by
  unfold delFound
  dsimp only
  rw [modifyUser_rooms]
  split
  · exact disconnectUser_rooms ..
  · rfl

theorem addNull_if_rooms (c : Prop) [Decidable c] (r' : RoomRef) :
    ((if c then w.addNull r else w).rooms r').users = (w.rooms r').users ∧
      ((if c then w.addNull r else w).rooms r').proxy = (w.rooms r').proxy ∧
      ((if c then w.addNull r else w).rooms r').id = (w.rooms r').id ∧
      (r' ≠ r → (if c then w.addNull r else w).rooms r' = w.rooms r') := by
  split
  · rw [addNull, modifyRoom_rooms]
    by_cases he : r' = r
    · rw [if_pos he, he]
      exact ⟨rfl, rfl, rfl, fun hn => absurd rfl hn⟩
    · rw [if_neg he]
      exact ⟨rfl, rfl, rfl, fun _ => rfl⟩
  · exact ⟨rfl, rfl, rfl, fun _ => rfl⟩

/-- `DelUser` keeps the room's id and proxy, and touches no other room. -/
theorem delUser_rooms (userId : Int) (r' : RoomRef) :
    ((w.delUser r userId).1.rooms r').proxy = (w.rooms r').proxy ∧
      ((w.delUser r userId).1.rooms r').id = (w.rooms r').id ∧
      (r' ≠ r → (w.delUser r userId).1.rooms r' = w.rooms r') := by
  unfold delUser
  split
  · rename_i u _
    dsimp only
    obtain ⟨-, hp, hi, hr⟩ := addNull_if_rooms (w.delFound r userId u) r
      (((w.delFound r userId u).rooms r).users.isEmpty = true) r'
    have hm := congrFun (delFound_rooms w r userId u) r'
    rw [modifyRoom_rooms] at hm
    refine ⟨hp.trans ?_, hi.trans ?_, fun hn => (hr hn).trans ?_⟩
    · rw [hm]
      split
      · rename_i he; rw [he]
      · rfl
    · rw [hm]
      split
      · rename_i he; rw [he]
      · rfl
    · rw [hm, if_neg hn]
  · exact ⟨(addNull_if_rooms w r _ r').2.1, (addNull_if_rooms w r _ r').2.2.1,
      (addNull_if_rooms w r _ r').2.2.2⟩

theorem delUser_users {userId : Int} {u : UserRef} (hf : (w.rooms r).users.find? userId = some u) :
    ((w.delUser r userId).1.rooms r).users = (w.rooms r).users.erase userId ∧
      (w.delUser r userId).2 = (w.rooms r).users.upper userId := by
  unfold delUser
  rw [hf]
  dsimp only
  refine ⟨(addNull_if_rooms _ r _ r).1.trans ?_, rfl⟩
  rw [delFound_rooms, modifyRoom_rooms, if_pos rfl]

theorem onDestoryGo_rooms_ne (n : Nat) (puser : Option Int) {r' : RoomRef} (hr : r' ≠ r) :
    (onDestoryGo r n puser w).rooms r' = w.rooms r' := by
  induction n generalizing w puser with
  | zero => rfl
  | succ n ih =>
    cases puser with
    | none => rfl
    | some k =>
      unfold onDestoryGo
      split
      · rfl
      · exact (ih _ _).trans ((delUser_rooms w r _ r').2.2 hr)

theorem onDestoryGo_id (n : Nat) (puser : Option Int) :
    ((onDestoryGo r n puser w).rooms r).id = (w.rooms r).id := by
  induction n generalizing w puser with
  | zero => rfl
  | succ n ih =>
    cases puser with
    | none => rfl
    | some k =>
      unfold onDestoryGo
      split
      · rfl
      · exact (ih _ _).trans (delUser_rooms w r _ r).2.1

/-- With users filed under their ids, a pass that starts from the first user
erases it, and the next one starts from the new first. -/
theorem delUser_begin (hid : ∀ k u, (w.rooms r).users.find? k = some u → (w.users u).userId = k)
    {k₀ : Int} {u : UserRef} (hb : (w.rooms r).users.begin = some k₀)
    (hu : (w.rooms r).users.find? k₀ = some u) :
    (w.delUser r (w.users u).userId).2 = ((w.delUser r (w.users u).userId).1.rooms r).users.begin ∧
      ((w.delUser r (w.users u).userId).1.rooms r).users.size < (w.rooms r).users.size ∧
      ∀ k u', ((w.delUser r (w.users u).userId).1.rooms r).users.find? k = some u' →
        ((w.delUser r (w.users u).userId).1.users u').userId = k := by
  obtain ⟨he, hit⟩ := delUser_users w r hu
  have hsize := StdMap.size_erase hb
  rw [hid k₀ u hu, hit, he, StdMap.begin_erase hb]
  refine ⟨rfl, by omega, fun k u' hf => ?_⟩
  rw [StdMap.find?_erase] at hf
  rw [(sameOwner_teardownFrame.delUser w r k₀ u').1]
  split at hf
  · cases hf
  · exact hid k u' hf

theorem onDestoryGo_users (n : Nat)
    (hid : ∀ k u, (w.rooms r).users.find? k = some u → (w.users u).userId = k)
    (hn : (w.rooms r).users.size ≤ n) (k : Int) :
    ((onDestoryGo r n (w.rooms r).users.begin w).rooms r).users.find? k = none := by
  induction n generalizing w with
  | zero =>
    have he : (w.rooms r).users.entries = [] := List.length_eq_zero_iff.mp (Nat.le_zero.mp hn)
    rw [onDestoryGo, StdMap.find?, he, StdMap.findGo]
  | succ n ih =>
    cases hb : (w.rooms r).users.begin with
    | none => exact StdMap.find?_of_begin_none hb k
    | some k₀ =>
      obtain ⟨u, hu⟩ := StdMap.find?_begin hb
      obtain ⟨hit, hsize, hid'⟩ := delUser_begin w r hid hb hu
      unfold onDestoryGo
      rw [hu]
      dsimp only
      rw [hit]
      exact ih _ hid' (by omega)

theorem onDestory_rooms_ne {r' : RoomRef} (hr : r' ≠ r) :
    (w.onDestory r).rooms r' = w.rooms r' := by
  rw [onDestory, modifyRoom_rooms, if_neg hr]
  exact onDestoryGo_rooms_ne w r _ _ hr

theorem onDestory_id (r' : RoomRef) : ((w.onDestory r).rooms r').id = (w.rooms r').id := by
  by_cases hr : r' = r
  · rw [onDestory, modifyRoom_rooms, if_pos hr, hr]
    exact onDestoryGo_id w r _ _
  · rw [onDestory_rooms_ne w r hr]

theorem onDestory_proxy (r' : RoomRef) :
    ((w.onDestory r).rooms r').proxy = if r' = r then none else (w.rooms r').proxy := by
  split
  · rename_i hr
    rw [onDestory, modifyRoom_rooms, if_pos hr]
  · rename_i hr
    rw [onDestory_rooms_ne w r hr]

theorem onDestory_users (hid : ∀ k u, (w.rooms r).users.find? k = some u → (w.users u).userId = k)
    (k : Int) :
    ((w.onDestory r).rooms r).users.find? k = none := by
  rw [onDestory, modifyRoom_rooms, if_pos rfl]
  exact onDestoryGo_users w r _ hid (Nat.le_refl _) k

/-! ## Rooms of a proxy -/

theorem delRoom_found (p : ProxyRef) {roomId : Int} {r₀ : RoomRef}
    (hf : (w.proxies p).rooms.find? roomId = some r₀) :
    w.delRoom p roomId r =
      ((w.modifyProxy p fun x => { x with rooms := x.rooms.erase roomId }).onDestory r,
      .success, (w.proxies p).rooms.upper roomId) := by
  unfold delRoom
  rw [hf]

theorem delRoom_proxies (p : ProxyRef) {roomId : Int} {r₀ : RoomRef}
    (hf : (w.proxies p).rooms.find? roomId = some r₀) :
    (w.delRoom p roomId r).1.proxies =
      Function.update w.proxies p { w.proxies p with
        rooms := (w.proxies p).rooms.erase roomId } := by
  rw [delRoom_found w r p hf]
  exact sameProxies_teardownFrame.onDestory _ r

theorem delRoom_find? (p : ProxyRef) (roomId : Int) (q : ProxyRef) (k : Int) :
    ((w.delRoom p roomId r).1.proxies q).rooms.find? k =
      if q = p ∧ k = roomId then none else (w.proxies q).rooms.find? k := by
  cases hf : (w.proxies p).rooms.find? roomId with
  | none =>
    unfold delRoom
    rw [hf]
    dsimp only
    split
    · rename_i he; rw [he.1, he.2, hf]
    · rfl
  | some r₀ =>
    rw [delRoom_proxies w r p hf, Function.update_apply]
    by_cases hq : q = p
    · simp only [hq, if_true, StdMap.find?_erase, true_and]
    · simp [hq]

theorem delRoom_rest (p : ProxyRef) (roomId : Int) (q : ProxyRef) :
    ((w.delRoom p roomId r).1.proxies q).waitsRooms = (w.proxies q).waitsRooms := by
  cases hf : (w.proxies p).rooms.find? roomId with
  | none =>
    unfold delRoom
    rw [hf]
  | some r₀ =>
    rw [delRoom_proxies w r p hf, Function.update_apply]
    split
    · rename_i he; rw [he]
    · rfl

theorem delRoom_id (p : ProxyRef) (roomId : Int) (r' : RoomRef) :
    ((w.delRoom p roomId r).1.rooms r').id = (w.rooms r').id := by
  unfold delRoom
  split
  · rfl
  · exact onDestory_id _ r r'

theorem delRoom_proxy (p : ProxyRef) {roomId : Int} {r₀ : RoomRef}
    (hf : (w.proxies p).rooms.find? roomId = some r₀) (r' : RoomRef) :
    ((w.delRoom p roomId r).1.rooms r').proxy = if r' = r then none else (w.rooms r').proxy := by
  rw [delRoom_found w r p hf]
  exact onDestory_proxy _ r r'

/-- Rooms filed under their ids stay so. -/
theorem delRoom_filed {p : ProxyRef}
    (hid : ∀ k r, (w.proxies p).rooms.find? k = some r → (w.rooms r).id = k) (roomId k : Int)
    (r' : RoomRef) (hf : ((w.delRoom p roomId r).1.proxies p).rooms.find? k = some r') :
    ((w.delRoom p roomId r).1.rooms r').id = k := by
  rw [delRoom_find?] at hf
  rw [delRoom_id]
  split at hf
  · cases hf
  · exact hid k r' hf

/-- A room taken out has no users left. -/
theorem delRoom_users (p : ProxyRef) {roomId : Int} {r₀ : RoomRef}
    (hf : (w.proxies p).rooms.find? roomId = some r₀)
    (hid : ∀ k u, (w.rooms r).users.find? k = some u → (w.users u).userId = k) (k : Int) :
    ((w.delRoom p roomId r).1.rooms r).users.find? k = none := by
  rw [delRoom_found w r p hf]
  exact onDestory_users (w.modifyProxy p fun x => { x with rooms := x.rooms.erase roomId }) r hid k

theorem delRoom_rooms_ne (p : ProxyRef) (roomId : Int) {r' : RoomRef} (hr : r' ≠ r) :
    (w.delRoom p roomId r).1.rooms r' = w.rooms r' := by
  unfold delRoom
  split
  · rfl
  · exact onDestory_rooms_ne _ r hr

end World

/-- The proxy lost its rooms, its rooms lost their users and the proxy, and
nothing else changed hands. -/
structure TornDown (p : ProxyRef) (w w' : World) : Prop where
  empty : ∀ k, (w'.proxies p).rooms.find? k = none
  others : ∀ q, q ≠ p → w'.proxies q = w.proxies q
  waits : (w'.proxies p).waitsRooms = (w.proxies p).waitsRooms
  id : ∀ r, (w'.rooms r).id = (w.rooms r).id
  held : ∀ r, (w.proxies p).rooms.find? (w.rooms r).id = some r →
    (w'.rooms r).proxy = none ∧ ∀ k, (w'.rooms r).users.find? k = none
  free : ∀ r, (w.proxies p).rooms.find? (w.rooms r).id ≠ some r → w'.rooms r = w.rooms r

theorem TornDown.refl {p : ProxyRef} {w : World} (h : ∀ k, (w.proxies p).rooms.find? k = none) :
    TornDown p w w where
  empty := h
  others _ _ := rfl
  waits := rfl
  id _ := rfl
  held r hr := by rw [h] at hr; cases hr
  free _ _ := rfl

theorem Filing.userId {w : World} (h : Filing w) (r : RoomRef) :
    ∀ k u, (w.rooms r).users.find? k = some u → (w.users u).userId = k :=
      fun k u hf => (h.filed r k u hf).2.2

/-- A room is taken out first, and then all the others. -/
theorem TornDown.delRoom {p : ProxyRef} {k : Int} {r₀ : RoomRef} {w w' : World} (hw : Filing w)
    (hf : (w.proxies p).rooms.find? k = some r₀) (hk : (w.rooms r₀).id = k)
    (h : TornDown p (w.delRoom p k r₀).1 w') : TornDown p w w' where
  empty := h.empty
  others q hq := by
    rw [h.others q hq, World.delRoom_proxies w r₀ p hf, Function.update_of_ne hq]
  waits := h.waits.trans (World.delRoom_rest w r₀ p k p)
  id r := (h.id r).trans (World.delRoom_id w r₀ p k r)
  held r hr := by
    by_cases he : r = r₀
    · subst he
      rw [h.free r]
      · exact ⟨(World.delRoom_proxy w r p hf r).trans (if_pos rfl),
          World.delRoom_users w r p hf (hw.userId r)⟩
      · rw [World.delRoom_id, hk, World.delRoom_find?, if_pos ⟨rfl, rfl⟩]
        intro e
        cases e
    · apply h.held r
      rw [World.delRoom_id, World.delRoom_find?, if_neg]
      · exact hr
      · intro ⟨_, hrk⟩
        rw [hrk, hf] at hr
        exact he (Option.some.inj hr).symm
  free r hr := by
    have he : r ≠ r₀ := fun he => hr (by rw [he, hk, hf])
    rw [h.free r, World.delRoom_rooms_ne w r₀ p k he]
    rw [World.delRoom_id, World.delRoom_find?]
    split
    · intro e
      cases e
    · exact hr

/-- With rooms filed under their ids, a pass that starts from the first room
takes it out, and the next one starts from the new first. -/
theorem World.delRoom_begin {w : World} {p : ProxyRef}
    (hid : ∀ k r, (w.proxies p).rooms.find? k = some r → (w.rooms r).id = k) {k₀ : Int}
    {r₀ : RoomRef} (hb : (w.proxies p).rooms.begin = some k₀)
    (hf : (w.proxies p).rooms.find? k₀ = some r₀) :
    (w.delRoom p (w.rooms r₀).id r₀).2.2 =
      ((w.delRoom p (w.rooms r₀).id r₀).1.proxies p).rooms.begin ∧
      ((w.delRoom p (w.rooms r₀).id r₀).1.proxies p).rooms.size < (w.proxies p).rooms.size ∧
      ∀ k r, ((w.delRoom p (w.rooms r₀).id r₀).1.proxies p).rooms.find? k = some r →
        ((w.delRoom p (w.rooms r₀).id r₀).1.rooms r).id = k := by
  have hsize := StdMap.size_erase hb
  have hrooms : ((w.delRoom p k₀ r₀).1.proxies p).rooms = (w.proxies p).rooms.erase k₀ := by
    rw [delRoom_proxies w r₀ p hf, Function.update_self]
  rw [hid k₀ r₀ hf, hrooms, StdMap.begin_erase hb, delRoom_found w r₀ p hf]
  refine ⟨rfl, by omega, fun k r hr => ?_⟩
  rw [← delRoom_found w r₀ p hf]
  exact delRoom_filed w r₀ hid k₀ k r (by rwa [hrooms])

theorem destoryGo_tornDown (p : ProxyRef) (n : Nat) {w : World} (hw : Bij w)
    (hid : ∀ k r, (w.proxies p).rooms.find? k = some r → (w.rooms r).id = k)
    (hn : (w.proxies p).rooms.size ≤ n) :
    TornDown p w (World.destoryGo p n (w.proxies p).rooms.begin w) := by
  induction n generalizing w with
  | zero =>
    have he : (w.proxies p).rooms.entries = [] := List.length_eq_zero_iff.mp (Nat.le_zero.mp hn)
    exact .refl fun k => by rw [StdMap.find?, he, StdMap.findGo]
  | succ n ih =>
    cases hb : (w.proxies p).rooms.begin with
    | none => exact .refl (StdMap.find?_of_begin_none hb)
    | some k₀ =>
      obtain ⟨r₀, hf⟩ := StdMap.find?_begin hb
      obtain ⟨hit, hsize, hid'⟩ := World.delRoom_begin hid hb hf
      have hk := hid k₀ r₀ hf
      unfold World.destoryGo
      rw [hf]
      dsimp only
      rw [hit]
      have ht := ih (hw.steps (delRoom_steps hw p (w.rooms r₀).id r₀)) hid' (by omega)
      rw [hk] at ht ⊢
      exact .delRoom hw.toFiling hf hk ht

theorem destory_tornDown (p : ProxyRef) {w : World} (hw : Bij w)
    (hid : ∀ k r, (w.proxies p).rooms.find? k = some r → (w.rooms r).id = k) :
    TornDown p w (w.destory p) := by
  have he := SameWall.modifyProxy w p fun x => { x with ip := none }
  have hr : ((w.modifyProxy p fun x => { x with ip := none }).proxies p).rooms =
    (w.proxies p).rooms := by
    rw [World.modifyProxy_proxies, if_pos rfl]
  have h :=
    destoryGo_tornDown p ((w.modifyProxy p fun x => { x with ip := none }).proxies p).rooms.size
    (hw.steps he.steps) (by rw [hr]; exact hid) (Nat.le_refl _)
  refine ⟨h.empty, fun q hq => (h.others q hq).trans ?_, h.waits.trans ?_, h.id,
    fun r hf => h.held r ?_,
    fun r hf => h.free r ?_⟩
  · rw [World.modifyProxy_proxies, if_neg hq]
  · rw [World.modifyProxy_proxies, if_pos rfl]
  · rw [hr]; exact hf
  · rw [hr]; exact hf

/-! ## Users of other rooms -/

/-- Live users that are not `out`, and the screens that show them, are as
before. -/
structure Elsewhere (out : UserRef → Prop) (w w' : World) : Prop where
  users : ∀ u, (w.users u).alive = true → ¬ out u → w'.users u = w.users u
  screens : ∀ s u, (w.screens s).user = some u → (w.users u).alive = true → ¬ out u →
    w'.screens s = w.screens s

namespace Elsewhere

variable {out : UserRef → Prop} {w w' w'' : World}

theorem of_same (hs : w'.screens = w.screens) (hu : w'.users = w.users) : Elsewhere out w w' :=
  ⟨fun _ _ _ => by rw [hu], fun _ _ _ _ _ => by rw [hs]⟩

theorem trans (h : Elsewhere out w w') (h' : Elsewhere out w' w'') : Elsewhere out w w'' where
  users u ha hn := (h'.users u (by rw [h.users u ha hn]; exact ha) hn).trans (h.users u ha hn)
  screens s u hs ha hn :=
    (h'.screens s u (by rw [h.screens s u hs ha hn]; exact hs)
      (by rw [h.users u ha hn]; exact ha) hn).trans
      (h.screens s u hs ha hn)

/-- A change outside the wall before. -/
theorem after (hw : SameWall w w') (h : Elsewhere out w' w'') : Elsewhere out w w'' :=
  trans (of_same hw.screens hw.users) h

theorem mono {out' : UserRef → Prop} (h : Elsewhere out w w') (hi : ∀ u, out u → out' u) :
    Elsewhere out' w w' :=
  ⟨fun u ha hn => h.users u ha fun ho => hn (hi u ho),
    fun s u hs ha hn => h.screens s u hs ha fun ho => hn (hi u ho)⟩

end Elsewhere

/-- Only the user deleted, and the screen that user is on, are concerned. -/
theorem delUser_elsewhere {w : World} (hw : Bij w) (r : RoomRef) (userId : Int) :
    Elsewhere (fun u => (w.rooms r).users.find? userId = some u) w (w.delUser r userId).1 := by
  have hn : ∀ (w : World) (c : Prop) [Decidable c], (if c then w.addNull r else w).users = w.users ∧
      (if c then w.addNull r else w).screens = w.screens := by
    intro w c _
    split <;> exact ⟨rfl, rfl⟩
  unfold World.delUser
  split
  · rename_i u hf
    dsimp only
    refine .trans ?_ (.of_same (hn _ _).2 (hn _ _).1)
    have hdrop : ∀ w' : World, Elsewhere (fun u' => some u = some u') w' (w'.dropUser r userId u) :=
      fun w' =>
      ⟨fun u' _ ho => by rw [World.dropUser_users, if_neg fun e => ho (by rw [e])],
        fun _ _ _ _ _ => rfl⟩
    rw [World.delFound_eq, hf]
    split
    · rename_i s hs
      have hu := (hw.paired s u (hw.filed r userId u hf).1).mpr hs
      refine .trans ⟨fun u' _ ho => ?_, fun s' u' hs' _ ho => ?_⟩ (hdrop _)
      · rw [World.disconnectUser_users w s u' hu, if_neg fun e => ho (by rw [e])]
      · rw [World.disconnectUser_screens w s s' hu, if_neg]
        rintro rfl
        exact ho (hu.symm.trans hs')
    · exact hdrop w
  · exact .of_same (hn _ _).2 (hn _ _).1

theorem onDestoryGo_elsewhere {w : World} (hw : Bij w) (r : RoomRef) (n : Nat)
    (puser : Option Int) :
    Elsewhere (fun u => (w.users u).titleRoom = r) w (World.onDestoryGo r n puser w) := by
  induction n generalizing w puser with
  | zero => exact .of_same rfl rfl
  | succ n ih =>
    cases puser with
    | none => exact .of_same rfl rfl
    | some k =>
      unfold World.onDestoryGo
      split
      · exact .of_same rfl rfl
      · rename_i u _
        have hsteps := delUser_steps hw r (w.users u).userId
        refine ((delUser_elsewhere hw r _).mono fun u' hf => (hw.filed r _ u' hf).2.1).trans
          ((ih (hw.steps hsteps) _).mono fun u' hr => ?_)
        rwa [(sameOwner_teardownFrame.delUser w r _ u').2] at hr

theorem onDestory_elsewhere {w : World} (hw : Bij w) (r : RoomRef) :
    Elsewhere (fun u => (w.users u).titleRoom = r) w (w.onDestory r) :=
  (onDestoryGo_elsewhere hw r _ _).trans (.of_same rfl rfl)

theorem delRoom_elsewhere {w : World} (hw : Bij w) (p : ProxyRef) (roomId : Int) (r : RoomRef) :
    Elsewhere (fun u => (w.users u).titleRoom = r) w (w.delRoom p roomId r).1 := by
  unfold World.delRoom
  split
  · exact .of_same rfl rfl
  · have he := SameWall.modifyProxy w p fun x => { x with rooms := x.rooms.erase roomId }
    exact .after he (onDestory_elsewhere (hw.steps he.steps) r)

theorem destoryGo_elsewhere (p : ProxyRef) (n : Nat) (proom : Option Int) {w : World} (hw : Bij w)
    (hid : ∀ k r, (w.proxies p).rooms.find? k = some r → (w.rooms r).id = k) :
    Elsewhere (fun u => (w.proxies p).rooms.find? (w.rooms (w.users u).titleRoom).id =
      some (w.users u).titleRoom) w
      (World.destoryGo p n proom w) := by
  induction n generalizing w proom with
  | zero => exact .of_same rfl rfl
  | succ n ih =>
    cases proom with
    | none => exact .of_same rfl rfl
    | some k =>
      unfold World.destoryGo
      split
      · exact .of_same rfl rfl
      · rename_i r hf
        have hk := hid k r hf
        have howner : ∀ u, ((w.delRoom p k r).1.users u).titleRoom = (w.users u).titleRoom :=
          fun u => by
          rw [World.delRoom_found w r p hf]
          exact (sameOwner_teardownFrame.onDestory _ r u).2
        rw [hk]
        refine ((delRoom_elsewhere hw p k r).mono fun u hu => ?_).trans
          ((ih _ (hw.steps (delRoom_steps hw p k r)) (World.delRoom_filed w r hid k)).mono
            fun u hu => ?_)
        · rw [hu, hk, hf]
        · rw [World.delRoom_find?, World.delRoom_id, howner] at hu
          split at hu
          · cases hu
          · exact hu

theorem destory_elsewhere (p : ProxyRef) {w : World} (hw : Bij w)
    (hid : ∀ k r, (w.proxies p).rooms.find? k = some r → (w.rooms r).id = k) :
    Elsewhere (fun u => (w.proxies p).rooms.find? (w.rooms (w.users u).titleRoom).id =
      some (w.users u).titleRoom) w
      (w.destory p) := by
  have he := SameWall.modifyProxy w p fun x => { x with ip := none }
  have hr : ((w.modifyProxy p fun x => { x with ip := none }).proxies p).rooms =
    (w.proxies p).rooms := by
    rw [World.modifyProxy_proxies, if_pos rfl]
  have h :=
    destoryGo_elsewhere p ((w.modifyProxy p fun x => { x with ip := none }).proxies p).rooms.size
    ((w.modifyProxy p fun x => { x with ip := none }).proxies p).rooms.begin (hw.steps he.steps)
    (by rw [hr]; exact hid)
  exact .after he (h.mono fun u hu => by rwa [hr] at hu)

end MonitorAgent.L3
