import MonitorAgent.Core.LTS
import MonitorAgent.L1Wire.FrameLoop

/-!
# Room in the receive buffer

`EventOnTcpRead` (Monitor/Monitor/ScreenMgr.cpp:587-649) asks `recv` for what
`tcp_storage_` has room for and takes 0 bytes for a closed connection, so it
relies on room being left whenever its loop exits. The loop exits on a length
that no buffer holds, on a frame that is not complete and on the last one.

* `frameStep_within`: one pass keeps what is buffered within `tcp_storage_`, and an
  exit leaves room.
* `room_left`: along any run of read events there is room for the next one, the
  connection is not taken for closed, and every `memcpy` stays in the buffer.
-/
namespace MonitorAgent.L1

open LTS TcpStorage

/-- The bytes from `src` on that a pass moves to the front. -/
structure Shift where
  src : Nat
  n : Nat

/-- The `memcpy` of a pass that has cut a frame off and has more.
mirrors Monitor/Monitor/ScreenMgr.cpp:623-628 -/
def shift? (s : Conn) : Option Shift :=
  if Complete s.storage s.offset ∧ totalLen s.storage < s.offset then
    some ⟨totalLen s.storage, s.offset - totalLen s.storage⟩
  else none

/-- The connection at the head of a pass of the loop entered with `s`. -/
inductive Pass (s : Conn) : Conn → Prop
  | first : Pass s s
  | again {s₁ s₂ : Conn} (pass : Pass s s₁) (step : frameStep s₁ = (s₂, false)) : Pass s s₂

/-! ## Read events -/

/-- `recv` is asked for this many bytes. -/
def requested (s : Conn) : Nat := MAX_STORAGE_SIZE - s.offset

/-- What `recv` takes of the bytes that are there. -/
def taken (s : Conn) (avail : List UInt8) : List UInt8 := avail.take (requested s)

/-- A read event that ends, with bytes at the socket. -/
inductive ReadEvent (s : Conn) (avail : List UInt8) : Conn → Prop
  | read {s' : Conn} (some_read : taken s avail ≠ []) (fuel : Nat)
      (exit : frameLoop fuel (received s (taken s avail)) = some s') : ReadEvent s avail s'
  | closed (none_read : taken s avail = []) : ReadEvent s avail { s with closed := true }

/-- A proxy as it is constructed; nothing is stored in the buffer yet.
mirrors Monitor/Monitor/AvsProxy.cpp:10-22 -/
structure Constructed (s : Conn) : Prop where
  offset : s.offset = 0
  closed : s.closed = false

def readSys : LTS Conn (List UInt8) where
  init := Constructed
  step s avail s' := avail ≠ [] ∧ ReadEvent s avail s'

/-- The next read event finds room, and whatever it reads, its loop moves bytes
of the buffer only. -/
structure HasRoom (s : Conn) : Prop where
  below : s.offset < MAX_STORAGE_SIZE
  asks : 1 ≤ requested s ∧ s.offset + requested s ≤ MAX_STORAGE_SIZE
  opened : s.closed = false
  reads : ∀ avail : List UInt8, avail ≠ [] → taken s avail ≠ []
  shifts : ∀ avail s', Pass (received s (taken s avail)) s' → ∀ m ∈ shift? s',
    m.src + m.n ≤ MAX_STORAGE_SIZE

/-- `eventOnTcpRead` is such an event. -/
theorem readEvent_of_eventOnTcpRead {s s' : Conn} {avail : List UInt8}
    (h : eventOnTcpRead s avail = some s') : ReadEvent s avail s' := by
  rw [eventOnTcpRead] at h
  split at h
  · exact .read (List.ne_nil_of_length_pos ‹_›) _ h
  · cases h
    exact .closed (List.length_eq_zero_iff.mp (by simp only [taken, requested]; omega))

/-! ## One pass -/

/-- What is buffered is within the buffer, and less than all of it if the loop
exits. -/
theorem frameStep_within {s s' : Conn} {exit : Bool} (h : s.offset ≤ MAX_STORAGE_SIZE)
    (hs : frameStep s = (s', exit)) :
    s'.closed = s.closed ∧ s'.offset ≤ MAX_STORAGE_SIZE ∧
      (exit = true → s'.offset < MAX_STORAGE_SIZE) := by
  have hmax : MAX_STORAGE_SIZE = 1024 := rfl
  simp only [frameStep] at hs
  split at hs
  · -- a length that no buffer holds
    cases hs
    exact ⟨rfl, by simp only []; omega, fun _ => by simp only []; omega⟩
  · split at hs
    · -- an incomplete frame
      cases hs
      exact ⟨rfl, h, fun _ => by omega⟩
    · split at hs
      · cases hs
        exact ⟨rfl, by simp only []; omega, fun e => Bool.noConfusion e⟩
      · -- the last frame
        cases hs
        exact ⟨rfl, by simp only []; omega, fun _ => by simp only []; omega⟩

/-- A pass that moves bytes has cut off a frame and has more. -/
theorem shift?_some {s : Conn} {m : Shift} (h : shift? s = some m) :
    Complete s.storage s.offset ∧ totalLen s.storage < s.offset ∧
      m = ⟨totalLen s.storage, s.offset - totalLen s.storage⟩ := by
  obtain ⟨⟨hc, hmore⟩, he⟩ := Option.ite_none_right_eq_some.mp h
  exact ⟨hc, hmore, (Option.some.inj he).symm⟩

theorem shift?_within {s : Conn} (h : s.offset ≤ MAX_STORAGE_SIZE) :
    ∀ m ∈ shift? s, m.src + m.n ≤ MAX_STORAGE_SIZE := by
  intro m hm
  obtain ⟨-, hmore, rfl⟩ := shift?_some hm
  simp only []
  omega

/-- `shift?` is what the pass moves. -/
theorem frameStep_shift {s : Conn} {m : Shift} (h : shift? s = some m) :
    (frameStep s).1.storage = s.storage.moveToFront m.src m.n := by
  obtain ⟨hc, hmore, rfl⟩ := shift?_some h
  rw [frameStep_more hc hmore]

theorem frameStep_noShift {s : Conn} (h : shift? s = none) :
    (frameStep s).1.storage = s.storage := by
  by_contra hne
  have hmoves : Complete s.storage s.offset ∧ totalLen s.storage < s.offset := by
    simp only [frameStep] at hne
    simp only [Complete, totalLen]
    split at hne
    · exact absurd rfl hne
    · split at hne
      · exact absurd rfl hne
      · split at hne
        · exact ⟨⟨by omega, by omega⟩, by omega⟩
        · exact absurd rfl hne
  rw [shift?, if_pos hmoves] at h
  cases h

/-! ## The loop and the events -/

theorem Pass.within {s s' : Conn} (hp : Pass s s') (h : s.offset ≤ MAX_STORAGE_SIZE) :
    s'.offset ≤ MAX_STORAGE_SIZE := by
  induction hp with
  | first => exact h
  | again _ step ih => exact (frameStep_within ih step).2.1

theorem frameLoop_exit {fuel : Nat} {s s' : Conn} (h : s.offset ≤ MAX_STORAGE_SIZE)
    (hl : frameLoop fuel s = some s') : s'.closed = s.closed ∧ s'.offset < MAX_STORAGE_SIZE := by
  induction fuel generalizing s with
  | zero => cases hl
  | succ fuel ih =>
    rw [frameLoop] at hl
    split at hl
    · rename_i hs
      cases hl
      obtain ⟨hc, -, hexit⟩ := frameStep_within h hs
      exact ⟨hc, hexit rfl⟩
    · rename_i hs
      obtain ⟨hc, hle, -⟩ := frameStep_within h hs
      obtain ⟨hc', hlt⟩ := ih hle hl
      exact ⟨hc'.trans hc, hlt⟩

theorem length_taken_le (s : Conn) (avail : List UInt8) : (taken s avail).length ≤ requested s :=
  List.length_take_le _ _

/-- A `recv` that takes what is asked for stays in the buffer. -/
theorem received_within {s : Conn} (h : s.offset ≤ MAX_STORAGE_SIZE) (avail : List UInt8) :
    (received s (taken s avail)).offset ≤ MAX_STORAGE_SIZE := by
  have hlen := length_taken_le s avail
  have hmax : MAX_STORAGE_SIZE = 1024 := rfl
  simp only [requested] at hlen
  simp only [received, u16]
  omega

theorem hasRoom_of_below {s : Conn} (hb : s.offset < MAX_STORAGE_SIZE) (hc : s.closed = false) :
    HasRoom s where
  below := hb
  asks := by
    rw [requested]
    omega
  opened := hc
  reads avail hne := by
    intro he
    rcases List.take_eq_nil_iff.mp he with h0 | h0
    · rw [requested] at h0
      omega
    · exact hne h0
  shifts avail s' hp := shift?_within (hp.within (received_within (Nat.le_of_lt hb) avail))

/-- A read event that ends leaves room for the next one. -/
theorem HasRoom.readEvent {s s' : Conn} {avail : List UInt8} (h : HasRoom s) (hne : avail ≠ [])
    (he : ReadEvent s avail s') : HasRoom s' := by
  cases he with
  | read _ fuel exit =>
    obtain ⟨hc, hlt⟩ := frameLoop_exit (received_within (Nat.le_of_lt h.below) avail) exit
    exact hasRoom_of_below hlt (hc.trans h.opened)
  | closed none_read => exact absurd none_read (h.reads avail hne)

theorem hasRoom_inductive : readSys.Inductive HasRoom where
  init s h := hasRoom_of_below (by rw [h.offset]; decide) h.closed
  step _ _ _ h hs := h.readEvent hs.1 hs.2

/-- **Room is left.** After every read event that ends, whatever was received
and whatever the buffer held before. -/
theorem room_left {s₀ s : Conn} {ms : List (Move Conn (List UInt8))} (h0 : Constructed s₀)
    (hr : readSys.Run s₀ ms s) : ∀ x ∈ visited s₀ ms, HasRoom x :=
  hasRoom_inductive.visited hr (hasRoom_inductive.init s₀ h0)

/-- Two frames, the second one cut: it is moved to the front. -/
theorem room_left_twoFrames :
    ∃ s, eventOnTcpRead ⟨.fill 0, 0, [], false⟩ [0, 6, 0, 0, 0, 1, 0, 1, 0, 6, 0] = some s ∧
      s.offset = 3 ∧ HasRoom s := by
  obtain ⟨s, hs⟩ :
      ∃ s, eventOnTcpRead ⟨.fill 0, 0, [], false⟩ [0, 6, 0, 0, 0, 1, 0, 1, 0, 6, 0] = some s :=
    Option.isSome_iff_exists.mp (by decide +kernel)
  have hoff : (eventOnTcpRead ⟨.fill 0, 0, [], false⟩ [0, 6, 0, 0, 0, 1, 0, 1, 0, 6, 0]).map
      Conn.offset = some 3 := by
    decide +kernel
  rw [hs] at hoff
  refine ⟨s, hs, Option.some.inj hoff, ?_⟩
  exact room_left ⟨rfl, rfl⟩ (.cons ⟨by decide, readEvent_of_eventOnTcpRead hs⟩ (.nil s)) s
    (by simp [visited])

end MonitorAgent.L1
