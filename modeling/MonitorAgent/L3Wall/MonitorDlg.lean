import MonitorAgent.L3Wall.ScreenMgr

/-!
# The message handlers of the dialog

What `CMonitorDlg` does for the messages about users and screens
(Monitor/Monitor/MonitorDlg.cpp:340-406,440-445), run by the thread that reads
`g_mainframe_pipe`. The user to link is not in the message: it is the one
selected last.
-/
namespace MonitorAgent.L3

/-- What `SendMessage` writes to the pipe.
mirrors Monitor/Monitor/MonitorDlg.cpp:459-492 -/
inductive Message
  | selectUser (user : Option UserRef)
  | watchRoomUser (user : Option UserRef) (idx : Nat)
  | linkRoomUser (idx : Nat)
  | unlinkRoomUser (user : Option UserRef) (screen : Option ScreenRef)
  | expandedRoom (title : Option RoomRef) (room : RoomRef)
  | shrinkedRoom (room : RoomRef)
  | disconnectAllProxys
  | cleanScreens
  | continueTraverse (title : RoomRef)
  | changeLayout
deriving DecidableEq

/-- mirrors Monitor/Monitor/MonitorDlg.h:63-64 -/
structure MonitorDlg where
  w : World
  isDraging : Bool
  dragingUser : Option UserRef

namespace MonitorDlg

variable (d : MonitorDlg)

/-- mirrors Monitor/Monitor/MonitorDlg.cpp:340-344 -/
def onLButtonUp : MonitorDlg := { d with isDraging := false, dragingUser := none }

/-- mirrors Monitor/Monitor/MonitorDlg.cpp:362-371 -/
def onSelectUser (user : Option UserRef) : MonitorDlg :=
  match user with
  | none => d
  | some u => { d with isDraging := true, dragingUser := some u }

/-- `none` is the read of `screens_` past its end.
mirrors Monitor/Monitor/MonitorDlg.cpp:373-384 -/
def onLinkScreenUser (screenIdx : Nat) : Option MonitorDlg :=
  if screenIdx ≠ INVALID_SCREEN_INDEX ∧ d.dragingUser.isSome ∧ d.isDraging then
    (d.w.linkScreenUser screenIdx d.dragingUser).map fun w => ⟨w, false, none⟩
  else some d

/-- mirrors Monitor/Monitor/MonitorDlg.cpp:386-395 -/
def onWatchRoomUser (user : Option UserRef) (screenIdx : Nat) : Option MonitorDlg :=
  if user.isSome ∧ screenIdx ≠ INVALID_SCREEN_INDEX then
    (d.w.linkScreenUser screenIdx user).map fun w => { d with w := w }
  else some d

/-- mirrors Monitor/Monitor/MonitorDlg.cpp:397-406 -/
def onUnlinkScreenUser (user : Option UserRef) (screen : Option ScreenRef) : MonitorDlg :=
  if user.isSome ∧ screen.isSome then { d with w := d.w.unlinkScreenUser screen user } else d

/-- mirrors Monitor/Monitor/MonitorDlg.cpp:440-445 -/
def onCleanScreens : MonitorDlg := { d with w := d.w.cleanScreens }

end MonitorDlg
end MonitorAgent.L3
