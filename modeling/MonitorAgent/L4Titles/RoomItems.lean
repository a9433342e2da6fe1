import MonitorAgent.L3Wall.Bijection
import MonitorAgent.L4Titles.ChildIndex
import MonitorAgent.L4Titles.Listing

/-!
# A room's items are its users

The tree control keeps a second copy of `users_`: an item for each user, or an
empty one when there is none. `AddUser` clears the items before the first user
comes, `DelUser` puts the empty one back after the last has gone.

`items_mirror_users`: from the moment a room is added on, whatever the wall
does, as long as `DelUser` is called for users the room has, the items are
the users.
-/
namespace MonitorAgent.L4

open L3 LTS

/-- One item for each user, or the placeholder. -/
structure Mirrored (users : StdMap Int UserRef) (items : List (Option UserRef)) : Prop where
  placeholder : users.isEmpty = true → items = [none]
  nodup : items.Nodup
  item : users.isEmpty = false → ∀ x, x ∈ items ↔ ∃ k u, users.find? k = some u ∧ x = some u

namespace Mirrored

variable {users : StdMap Int UserRef} {items : List (Option UserRef)} {k : Int} {u : UserRef}

theorem created : Mirrored .empty [none] where
  placeholder _ := rfl
  nodup := List.nodup_singleton _
  item he := nomatch he

/-- The first user comes, to a room whose items were cleared. -/
theorem first (he : users.isEmpty = true) (k : Int) (u : UserRef) :
    Mirrored (users.assign k u) [some u] := by
  have hf : (users.assign k u).find? k = some u := by rw [StdMap.find?_assign, if_pos rfl]
  refine ⟨fun h => ?_, List.nodup_singleton _, fun _ x => ?_⟩
  · rw [StdMap.isEmpty_eq_false hf] at h
    cases h
  · rw [List.mem_singleton]
    constructor
    · rintro rfl
      exact ⟨k, u, hf, rfl⟩
    · rintro ⟨k', u', hf', rfl⟩
      rw [StdMap.find?_assign, (StdMap.isEmpty_iff users).mp he] at hf'
      split at hf'
      · cases hf'; rfl
      · cases hf'

/-- Another user comes. -/
theorem add (h : Mirrored users items) (he : users.isEmpty = false) (hk : users.find? k = none)
    (hu : ∀ k', users.find? k' ≠ some u) : Mirrored (users.assign k u) (items ++ [some u]) := by
  have hf : (users.assign k u).find? k = some u := by rw [StdMap.find?_assign, if_pos rfl]
  have hnew : some u ∉ items := fun hm => by
    obtain ⟨k', u', hf', e⟩ := (h.item he _).mp hm
    cases e
    exact hu k' hf'
  refine ⟨fun h' => ?_, ?_, fun _ x => ?_⟩
  · rw [StdMap.isEmpty_eq_false hf] at h'
    cases h'
  · refine List.nodup_append.mpr ⟨h.nodup, List.nodup_singleton _, fun x hx y hy e => ?_⟩
    rw [List.mem_singleton.mp hy] at e
    exact hnew (e ▸ hx)
  · rw [List.mem_append, List.mem_singleton, h.item he]
    constructor
    · rintro (⟨k', u', hf', rfl⟩ | rfl)
      · refine ⟨k', u', ?_, rfl⟩
        rw [StdMap.find?_assign, if_neg]
        · exact hf'
        · rintro rfl
          rw [hk] at hf'
          cases hf'
      · exact ⟨k, u, hf, rfl⟩
    · rintro ⟨k', u', hf', rfl⟩
      rw [StdMap.find?_assign] at hf'
      split at hf'
      · cases hf'; exact .inr rfl
      · exact .inl ⟨k', u', hf', rfl⟩

/-- A user goes; after the last one the placeholder comes back. -/
theorem erase (h : Mirrored users items) (hf : users.find? k = some u)
    (hone : ∀ k', users.find? k' = some u → k' = k) :
    Mirrored (users.erase k) (if (users.erase k).isEmpty then items.erase (some u) ++ [none]
      else items.erase (some u)) := by
  have hitem : ∀ x, x ∈ items.erase (some u) ↔
      ∃ k' u', (users.erase k).find? k' = some u' ∧ x = some u' := by
    intro x
    rw [h.nodup.mem_erase_iff, h.item (StdMap.isEmpty_eq_false hf)]
    constructor
    · rintro ⟨hne, k', u', hf', rfl⟩
      refine ⟨k', u', ?_, rfl⟩
      rw [StdMap.find?_erase, if_neg]
      · exact hf'
      · rintro rfl
        exact hne (hf'.symm.trans hf)
    · rintro ⟨k', u', hf', rfl⟩
      rw [StdMap.find?_erase] at hf'
      split at hf'
      · cases hf'
      · rename_i hk
        refine ⟨fun e => hk (hone k' ?_), k', u', hf', rfl⟩
        rw [hf', e]
  cases he : (users.erase k).isEmpty with
  | false =>
    rw [if_neg Bool.false_ne_true]
    exact ⟨fun h' => (nomatch he.symm.trans h'), h.nodup.erase _, fun _ => hitem⟩
  | true =>
    have hnil : items.erase (some u) = [] := List.eq_nil_iff_forall_not_mem.mpr fun x hx => by
      obtain ⟨k', u', hf', -⟩ := (hitem x).mp hx
      rw [(StdMap.isEmpty_iff _).mp he] at hf'
      cases hf'
    rw [if_pos rfl, hnil]
    exact ⟨fun _ => rfl, List.nodup_singleton _, fun h' => nomatch he.symm.trans h'⟩

end Mirrored

/-- The items of the room in a world. -/
def ItemsMirror (r : RoomRef) (w : World) : Prop :=
  Mirrored (w.rooms r).users (w.rooms r).items

/-! ## Calls that leave rooms' users and items alone -/

/-- Rooms keep their users and their items. -/
def SameItems (w w' : World) : Prop :=
  ∀ r, (w'.rooms r).users = (w.rooms r).users ∧ (w'.rooms r).items = (w.rooms r).items

theorem SameItems.of_rooms {w w' : World} (h : w'.rooms = w.rooms) : SameItems w w' :=
  fun r => by rw [h]; exact ⟨rfl, rfl⟩

theorem SameItems.refl (w : World) : SameItems w w := .of_rooms rfl

theorem SameItems.trans {w w' w'' : World} (h : SameItems w w') (h' : SameItems w' w'') :
    SameItems w w'' :=
  fun r => ⟨(h' r).1.trans (h r).1, (h' r).2.trans (h r).2⟩

theorem SameItems.callFrame (p : ProxyRef) : CallFrame p SameItems where
  refl := .refl
  trans := .trans
  send w packet := .of_rooms (World.sendPacket_rooms w packet)
  proxy w f _ := .of_rooms rfl
  create w r r' := by
    rw [World.onCreate, World.modifyRoom_rooms]
    split
    · rename_i he; rw [he]; exact ⟨rfl, rfl⟩
    · exact ⟨rfl, rfl⟩

theorem SameItems.seatFrame : SeatFrame SameItems where
  refl := .refl
  trans := .trans
  send w packet := .of_rooms (World.sendPacket_rooms w packet)
  connect w s u := .of_rooms (World.connectUser_rooms w s u)
  disconnect w s := .of_rooms (World.disconnectUser_rooms w s)

theorem ItemsMirror.same {r : RoomRef} {w w' : World} (h : ItemsMirror r w) (e : SameItems w w') :
    ItemsMirror r w' := by
  unfold ItemsMirror
  rw [(e r).1, (e r).2]
  exact h

/-! ## Users come and go -/

section Users

variable {r : RoomRef} {w : World} (h : ItemsMirror r w)
include h

theorem ItemsMirror.addUser (hw : Filing w) (r' : RoomRef) (userId : Int) (micId : Nat) :
    ItemsMirror r (w.addUser r' userId micId).1 := by
  have hfresh : ∀ k, (w.rooms r').users.find? k ≠ some w.nextUser := fun k hf =>
    absurd (hw.fresh _ (hw.filed r' k _ hf).1) (Nat.lt_irrefl _)
  unfold World.addUser
  cases he : (w.rooms r').users.isEmpty with
  | true =>
    have hn : ((w.delAll r').rooms r').users.find? userId = none := by
      rw [World.delAll, World.modifyRoom_rooms, if_pos rfl]
      exact (StdMap.isEmpty_iff _).mp he userId
    simp only [if_true, hn]
    unfold ItemsMirror World.newUser
    dsimp only
    rw [World.modifyRoom_rooms]
    split
    · rename_i hr
      rw [World.modifyUser_rooms, World.delAll, World.modifyRoom_rooms, if_pos rfl]
      exact .first he userId _
    · rename_i hr
      rw [World.modifyUser_rooms, World.delAll, World.modifyRoom_rooms, if_neg hr]
      exact h
  | false =>
    simp only [Bool.false_eq_true, if_false]
    cases hf : (w.rooms r').users.find? userId with
    | some u => exact h
    | none =>
      unfold ItemsMirror World.newUser
      dsimp only
      rw [World.modifyRoom_rooms]
      split
      · rename_i hr
        subst hr
        exact h.add he hf hfresh
      · exact h

/-- With an id the room has. -/
theorem ItemsMirror.delUser (hw : Filing w) (r' : RoomRef) (userId : Int)
    (hf : r' = r → ((w.rooms r).users.find? userId).isSome = true) :
    ItemsMirror r (w.delUser r' userId).1 := by
  by_cases hr : r' = r
  · subst hr
    obtain ⟨u, hu⟩ := Option.isSome_iff_exists.mp (hf rfl)
    have hone : ∀ k, (w.rooms r').users.find? k = some u → k = userId := fun k hk =>
      (hw.filed r' k u hk).2.2.symm.trans (hw.filed r' userId u hu).2.2
    have hm := congrFun (World.delFound_rooms w r' userId u) r'
    rw [World.modifyRoom_rooms, if_pos rfl] at hm
    have herase := Mirrored.erase h hu hone
    unfold World.delUser ItemsMirror
    rw [hu]
    dsimp only
    rw [hm]
    dsimp only
    split
    · rename_i he
      rw [if_pos he] at herase
      rw [World.addNull, World.modifyRoom_rooms, if_pos rfl, hm]
      exact herase
    · rename_i he
      rw [if_neg he] at herase
      rw [hm]
      exact herase
  · unfold ItemsMirror
    rw [(World.delUser_rooms w r' userId r).2.2 fun e => hr e.symm]
    exact h

end Users

/-! ## Teardown -/

section Teardown

variable {r : RoomRef} {w : World} (hw : Bij w) (h : ItemsMirror r w)
include hw h

/-- The loop deletes users it finds. -/
theorem ItemsMirror.onDestoryGo (r' : RoomRef) (n : Nat) (puser : Option Int) :
    ItemsMirror r (World.onDestoryGo r' n puser w) := by
  induction n generalizing w puser with
  | zero => exact h
  | succ n ih =>
    cases puser with
    | none => exact h
    | some k =>
      unfold World.onDestoryGo
      split
      · exact h
      · rename_i u hf
        refine ih (hw.steps (delUser_steps hw r' _)) (h.delUser hw.toFiling r' _ ?_) _
        rintro rfl
        rw [(hw.filed r' k u hf).2.2, hf]
        rfl

theorem ItemsMirror.onDestory (r' : RoomRef) : ItemsMirror r (w.onDestory r') := by
  have hgo := ItemsMirror.onDestoryGo hw h r' (w.rooms r').users.size (w.rooms r').users.begin
  refine hgo.same fun r₀ => ?_
  rw [World.onDestory, World.modifyRoom_rooms]
  split
  · rename_i he; rw [he]; exact ⟨rfl, rfl⟩
  · exact ⟨rfl, rfl⟩

theorem ItemsMirror.delRoom (p : ProxyRef) (roomId : Int) (r' : RoomRef) :
    ItemsMirror r (w.delRoom p roomId r').1 := by
  unfold World.delRoom
  split
  · exact h
  · have he := SameWall.modifyProxy w p fun x => { x with rooms := x.rooms.erase roomId }
    exact ItemsMirror.onDestory (hw.steps he.steps) (h.same (.of_rooms rfl)) r'

theorem ItemsMirror.unlinkRoom (p : ProxyRef) (r' : RoomRef) :
    ItemsMirror r (w.unlinkRoom p r').1 :=
  (ItemsMirror.delRoom hw h p _ r').same (.of_rooms (World.unlinkRoom_eq w p r').1)

theorem ItemsMirror.destoryGo (p : ProxyRef) (n : Nat) (proom : Option Int) :
    ItemsMirror r (World.destoryGo p n proom w) := by
  induction n generalizing w proom with
  | zero => exact h
  | succ n ih =>
    cases proom with
    | none => exact h
    | some k =>
      unfold World.destoryGo
      split
      · exact h
      · exact ih (hw.steps (delRoom_steps hw p _ _)) (ItemsMirror.delRoom hw h p _ _) _

theorem ItemsMirror.destory (p : ProxyRef) : ItemsMirror r (w.destory p) := by
  have he := SameWall.modifyProxy w p fun x => { x with ip := none }
  exact ItemsMirror.destoryGo (hw.steps he.steps) (h.same (.of_rooms rfl)) p _ _

end Teardown

/-! ## The life of a room -/

/-- The wall, but that `DelUser` on `r` is given an id of `users_`. -/
def roomStep (r : RoomRef) (w : World) : WallOp → Option World
  | .delUser r' userId =>
    if r' = r ∧ (w.rooms r).users.find? userId = none then none else w.wallStep (.delUser r' userId)
  | op => w.wallStep op

/-- Where the room has just been created and added under a node. -/
def RoomAdded (r : RoomRef) (w : World) : Prop :=
  ∃ (t : Titles) (n : NodeRef) (e : Entry), n < t.nextNode ∧ Bij t.w ∧ t.nextNode = r ∧
    w = (t.addChild n .dynamicNode e).w

def roomSys (r : RoomRef) : LTS World WallOp := .ofFn (RoomAdded r) (roomStep r)

theorem RoomAdded.mirror {r : RoomRef} {w : World} (h : RoomAdded r w) :
    Bij w ∧ ItemsMirror r w := by
  obtain ⟨t, n, e, hn, hw, rfl, rfl⟩ := h
  have hrooms : ∀ r', (t.addChild n .dynamicNode e).w.rooms r' =
      if r' = t.nextNode then ⟨e.id, t.memory t.nextNode, .empty, [none]⟩ else t.w.rooms r' :=
        fun r' => by
    rw [addChild_w hn, if_pos rfl, World.addNull, World.modifyRoom_rooms, World.modifyRoom_rooms,
      if_pos rfl]
    split
    · rfl
    · rename_i he
      rw [World.modifyRoom_rooms, if_neg he]
  refine ⟨?_, ?_⟩
  · refine hw.ofRooms ?_ ?_ ?_ fun r' k u hf => ?_
    · rw [addChild_w hn]; rfl
    · rw [addChild_w hn]; rfl
    · rw [addChild_w hn]; rfl
    · rw [hrooms] at hf
      split at hf
      · rw [StdMap.find?_empty] at hf
        cases hf
      · exact hf
  · rw [ItemsMirror, hrooms, if_pos rfl]
    exact .created

theorem roomStep_wall {r : RoomRef} {w w' : World} {op : WallOp} (h : roomStep r w op = some w') :
    w.wallStep op = some w' ∧
      ∀ r' userId, op = .delUser r' userId → r' = r →
        ((w.rooms r).users.find? userId).isSome = true := by
  cases op
  case delUser r' userId =>
    simp only [roomStep] at h
    split at h
    · cases h
    · rename_i hc
      refine ⟨h, fun r'' k he hr => ?_⟩
      cases he
      cases hf : (w.rooms r).users.find? userId with
      | some _ => rfl
      | none => exact absurd ⟨hr, hf⟩ hc
  all_goals exact ⟨h, fun _ _ => nofun⟩

theorem ItemsMirror.wallStep {r : RoomRef} {w w' : World} {op : WallOp} (hw : Bij w)
    (h : ItemsMirror r w) (hs : roomStep r w op = some w') : ItemsMirror r w' := by
  obtain ⟨hwall, hdel⟩ := roomStep_wall hs
  clear hs
  cases op
  case linkScreenUser idx u =>
    simp only [World.wallStep] at hwall
    split at hwall
    · exact h.same (SameItems.seatFrame.linkScreenUser w hwall)
    · cases hwall
  case unlinkScreenUser s u =>
    simp only [World.wallStep] at hwall
    split at hwall
    · cases hwall
      exact h.same (SameItems.seatFrame.unlinkScreenUser w _ _)
    · cases hwall
  case connectUser s u =>
    simp only [World.wallStep] at hwall
    split at hwall
    · cases hwall
      exact h.same (.of_rooms (World.connectUser_rooms w s u))
    · cases hwall
  case modUser u a v =>
    obtain ⟨-, rfl⟩ := wallStep_modUser hwall
    exact h.same (.of_rooms (World.modMedia_rooms w u a v))
  all_goals cases hwall
  case disconnectUser s => exact h.same (.of_rooms (World.disconnectUser_rooms w s))
  case cleanScreens => exact h.same (SameItems.seatFrame.cleanScreens w)
  case addUser r' userId micId => exact h.addUser hw.toFiling r' userId micId
  case delUser r' userId => exact h.delUser hw.toFiling r' userId (hdel r' userId rfl)
  case linkRoom p r' => exact h.same ((SameItems.callFrame p).linkRoom w r')
  case onRxNAT p => exact h.same ((SameItems.callFrame p).onRxNAT w)
  case unlinkRoom p r' => exact ItemsMirror.unlinkRoom hw h p r'
  case onDestory r' => exact ItemsMirror.onDestory hw h r'
  case destory p => exact ItemsMirror.destory hw h p

theorem itemsMirror_inductive (r : RoomRef) :
    (roomSys r).Inductive fun w => Bij w ∧ ItemsMirror r w where
  init _ h := h.mirror
  step w op w' h hs :=
    ⟨bij_inductive.step w op w' h.1 (roomStep_wall hs).1, h.2.wallStep h.1 hs⟩

/-- **The items are the users**, and the users are filed under their ids,
whatever happens to the room and around it. -/
theorem items_mirror_users (r : RoomRef) (w : World) (hr : (roomSys r).Reachable w) :
    ItemsMirror r w ∧ ∀ k u, (w.rooms r).users.find? k = some u →
      (w.users u).userId = k ∧ (w.users u).titleRoom = r := by
  obtain ⟨hw, h⟩ := (itemsMirror_inductive r).reachable w hr
  exact ⟨h, fun k u hf => ⟨(hw.filed r k u hf).2.2, (hw.filed r k u hf).2.1⟩⟩

/-- A room under the node of `Titles.launched`. -/
theorem roomAdded_launched :
    RoomAdded 1 (Titles.launched.addChild 0 .dynamicNode ⟨9, "", 0, 0⟩).w :=
  ⟨.launched, 0, ⟨9, "", 0, 0⟩, Nat.zero_lt_one, .launched World.launched_launched, rfl, rfl⟩

/-- Two users come, the first goes, the room is torn down and filled again. -/
def roomLife : List WallOp :=
  [.addUser 1 7 1, .addUser 1 8 2, .delUser 1 7, .onDestory 1, .addUser 1 7 3]

theorem items_mirror_users_roomLife :
    ∃ w, (w.rooms 1).items = [some 2] ∧ ItemsMirror 1 w := by
  obtain ⟨w, hr, hp⟩ := exists_reachable_of_exec (RoomAdded 1) (roomStep 1) roomLife
    (fun w => (w.rooms 1).items == [some 2]) roomAdded_launched (by decide +kernel)
  exact ⟨w, beq_iff_eq.mp hp, (items_mirror_users 1 w hr).1⟩

end MonitorAgent.L4
