import MonitorAgent.L3Wall.AvsProxy

/-!
# Assigning users to screens

`ScreenMgr::LinkScreenUser`, `UnlinkScreenUser`
(Monitor/Monitor/ScreenMgr.cpp:226-271), `CleanScreens` (843-849) and the
screen an RTP packet is given to (562-584).
-/
namespace MonitorAgent.L3

/-- `User::operator==`. mirrors Monitor/Monitor/TitleRoom.h:39-45 -/
def User.same (a b : User) : Bool :=
  a.userId == b.userId && a.titleRoom == b.titleRoom && a.audioSsrc == b.audioSsrc &&
  a.videoSsrc == b.videoSsrc

namespace World

/-- The screen lets go of whomever it shows, named or not.
mirrors Monitor/Monitor/ScreenMgr.cpp:258-271 -/
def unlinkScreenUser (w : World) (screen : Option ScreenRef) (oldUser : Option UserRef) : World :=
  match screen, oldUser with
  | some s, some u =>
    let w := (w.disconnectUser s).1
    match (w.rooms (w.users u).titleRoom).proxy with
    | none => w
    | some p => (w.unlinkRoomUser p (some u)).1
  | _, _ => w

/-- `LinkScreenUser` from the test of the new screen on.
mirrors Monitor/Monitor/ScreenMgr.cpp:246-255 -/
def takeScreen (w : World) (p : ProxyRef) (newScreen : ScreenRef) (newUser : UserRef) : World :=
  match w.getUser? newScreen with
  | some oldUser =>
    if (w.users newUser).same (w.users oldUser) then w
    else
      let w := w.unlinkScreenUser (some newScreen) (some oldUser)
      let w := (w.linkRoomUser p (some newUser)).1
      (w.connectUser newScreen (some newUser)).1
  | none =>
    let w := (w.linkRoomUser p (some newUser)).1
    (w.connectUser newScreen (some newUser)).1

/-- `none` is the read of `screens_` past its end.
mirrors Monitor/Monitor/ScreenMgr.cpp:226-256 -/
def linkScreenUser (w : World) (newScreenIdx : Nat) (newUser : Option UserRef) : Option World :=
  if newScreenIdx = INVALID_SCREEN_INDEX then some w
  else match newUser with
    | none => some w
    | some u =>
      match (w.rooms (w.users u).titleRoom).proxy with
      | none => some w
      | some p =>
        if h : newScreenIdx < MAXIMAL_SCREEN_NUM then
          match (w.users u).screen with
          | some oldScreen =>
            if oldScreen = ⟨newScreenIdx, h⟩ then some w
            else some ((w.unlinkScreenUser (some oldScreen) (some u)).takeScreen p
              ⟨newScreenIdx, h⟩ u)
          | none => some (w.takeScreen p ⟨newScreenIdx, h⟩ u)
        else none

/-- mirrors Monitor/Monitor/ScreenMgr.cpp:843-849 -/
def cleanScreens (w : World) : World :=
  (List.finRange MAXIMAL_SCREEN_NUM).foldl (fun w s => (w.disconnectUser s).1) w

/-- The screen a media packet is given to.
mirrors Monitor/Monitor/ScreenMgr.cpp:568-579 -/
def mediaScreen (w : World) (m : Medium) (ssrc : Nat) : Option ScreenRef :=
  match (w.avIndexMap m).find? ssrc with
  | none => none
  | some idx => if h : idx < MAXIMAL_SCREEN_NUM then some ⟨idx, h⟩ else none

end World
end MonitorAgent.L3
