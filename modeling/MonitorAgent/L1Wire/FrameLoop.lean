import MonitorAgent.L1Wire.Decoding

/-!
# The frame loop and its calls

The `do … while (1)` loop of `EventOnTcpRead` (Monitor/Monitor/ScreenMgr.cpp:604-634)
with the calls of `TcpParamScene`: a pass goes on only after the frame it cut
off is decoded. `Boundary` lists the places in the buffer where a frame begins.

* `frameStep_same`: a length of 65534 makes `total_len` 0, and the pass leaves
  the buffer as it is.
* `frameLoop_ends_iff`: the loop ends exactly if no frame begins with that
  length, and no complete frame announces a room with more users than the
  decoder counts.
-/
namespace MonitorAgent.L1

open TcpStorage

/-- `tcp_storage_` and what is behind it. -/
def memory (t : Storage) (beyond : Memory) : Memory := fun i =>
  if i < MAX_STORAGE_SIZE then t.byte i else beyond (i - MAX_STORAGE_SIZE)

/-- `total_len`. -/
def totalLen (t : Storage) : Nat := u16 (t.packetLen + 2)

/-- A frame of `n` buffered bytes is complete. -/
def Complete (t : Storage) (n : Nat) : Prop := totalLen t ≤ MAX_STORAGE_SIZE ∧ totalLen t ≤ n

instance (t : Storage) (n : Nat) : Decidable (Complete t n) := inferInstanceAs (Decidable (_ ∧ _))

-- What is behind `tcp_storage_` begins with `tcp_storage_offset_`, so it depends on it.
variable (beyond : Nat → Memory)

/-- The call of a pass, if it makes one. The offset is counted down before.
mirrors Monitor/Monitor/ScreenMgr.cpp:620-622 -/
def call (fuel : Nat) (s : Conn) : Option Unit :=
  if Complete s.storage s.offset then
    (tcpParamScene (memory s.storage (beyond (s.offset - totalLen s.storage))) fuel
      (totalLen s.storage)).map
      fun _ => ()
  else some ()

/-- mirrors Monitor/Monitor/ScreenMgr.cpp:604-634 -/
def callingLoop : Nat → Conn → Option Conn
  | 0, _ => none
  | fuel + 1, s =>
    (call beyond fuel s).bind fun _ =>
      match frameStep s with
      | (s', true) => some s'
      | (s', false) => callingLoop fuel s'

/-- Where the calls return, the loop does what it does without them. -/
theorem frameLoop_of_callingLoop {fuel : Nat} {s s' : Conn}
    (h : callingLoop beyond fuel s = some s') :
    frameLoop fuel s = some s' := by
  induction fuel generalizing s with
  | zero => cases h
  | succ fuel ih =>
    rw [callingLoop] at h
    obtain ⟨_, -, h⟩ := Option.bind_eq_some_iff.mp h
    rw [frameLoop]
    generalize frameStep s = pass at h ⊢
    rcases pass with ⟨s₁, _ | _⟩
    · exact ih h
    · exact h

/-- The connection at the head of the loop, after a `recv`.
mirrors Monitor/Monitor/ScreenMgr.cpp:594-603 -/
def received (s : Conn) (data : List UInt8) : Conn :=
  { s with storage := s.storage.recv s.offset data, offset := u16 (s.offset + u16 data.length) }

def LoopEnds (s : Conn) : Prop := ∃ fuel s', callingLoop beyond fuel s = some s'

/-! ## Where frames begin -/

/-- A frame begins at the front of a buffer of `n` bytes, and one behind each
complete frame that is not the last. With one byte left, the length is read
from it and from the second byte of the frame before. -/
inductive Boundary : Storage → Nat → Storage → Nat → Prop
  | front (t n) : Boundary t n t n
  | behind {t n t' n'} (complete : Complete t n) (pos : 0 < totalLen t) (more : totalLen t < n)
      (rest : Boundary (t.moveToFront (totalLen t) (n - totalLen t)) (n - totalLen t) t' n') :
      Boundary t n t' n'

/-- The frame has a length that does not wrap to 0, and counts that end. -/
def FrameEnds (t : Storage) (n : Nat) : Prop :=
  t.packetLen ≠ 65534 ∧ (Complete t n → CountsEnd (memory t (beyond (n - totalLen t))))

/-! ## One pass -/

theorem packetLen_lt (t : Storage) : t.packetLen < 65536 := by
  have h0 := (t.byte 0).toNat_lt
  have h1 := (t.byte 1).toNat_lt
  rw [Storage.packetLen]
  omega

theorem totalLen_eq_zero_iff (t : Storage) : totalLen t = 0 ↔ t.packetLen = 65534 := by
  have h := packetLen_lt t
  simp only [totalLen, u16]
  omega

theorem moveToFront_zero (t : Storage) {n : Nat} (hn : n ≤ MAX_STORAGE_SIZE) :
    t.moveToFront 0 n = t := by
  have hmin : min n (MAX_STORAGE_SIZE - 0) = n := by omega
  obtain ⟨bytes, size⟩ := t
  simp only [Storage.moveToFront, hmin, List.drop_zero, List.take_append_drop]

theorem frameStep_incomplete {s : Conn} (h : ¬ Complete s.storage s.offset) :
    (frameStep s).2 = true := by
  simp only [Complete, totalLen] at h
  simp only [frameStep]
  split
  · rfl
  · rw [if_pos (by omega)]

theorem frameStep_last {s : Conn} (hc : Complete s.storage s.offset)
    (h : totalLen s.storage = s.offset) :
    (frameStep s).2 = true := by
  obtain ⟨hmax, -⟩ := hc
  simp only [totalLen] at hmax h
  simp only [frameStep]
  rw [if_neg (by omega), if_neg (by omega), if_neg (by omega)]

theorem frameStep_more {s : Conn} (hc : Complete s.storage s.offset)
    (h : totalLen s.storage < s.offset) :
    frameStep s = (⟨s.storage.moveToFront (totalLen s.storage) (s.offset - totalLen s.storage),
      s.offset - totalLen s.storage, s.frames ++ [s.storage.bytes.take (totalLen s.storage)],
      s.closed⟩, false) := by
  obtain ⟨hmax, -⟩ := hc
  simp only [totalLen] at hmax h ⊢
  simp only [frameStep]
  rw [if_neg (by omega), if_neg (by omega), if_pos (by omega)]

theorem call_isSome {fuel : Nat} (hf : 256 ≤ fuel) {s : Conn}
    (h : FrameEnds beyond s.storage s.offset) :
    (call beyond fuel s).isSome := by
  rw [call]
  by_cases hc : Complete s.storage s.offset
  · rw [if_pos hc, Option.isSome_map]
    exact tcpParamScene_isSome _ hf (h.2 hc) _
  · rw [if_neg hc]
    rfl

/-- A pass whose call returns and that is not repeated. -/
theorem frameEnds_of_call {fuel : Nat} {s : Conn} (hpos : totalLen s.storage ≠ 0)
    (h : (call beyond fuel s).isSome) : FrameEnds beyond s.storage s.offset := by
  refine ⟨fun h0 => hpos ((totalLen_eq_zero_iff _).mpr h0), fun hc => ?_⟩
  rw [call, if_pos hc, Option.isSome_map] at h
  exact countsEnd_of_isSome _ hpos h

/-! ## The loop -/

theorem frameEnds_of_loop {fuel : Nat} {s s' : Conn} (hpos : 0 < s.offset)
    (hmax : s.offset ≤ MAX_STORAGE_SIZE)
    (h : callingLoop beyond fuel s = some s') {t : Storage} {n : Nat}
    (hb : Boundary s.storage s.offset t n) :
    FrameEnds beyond t n := by
  induction fuel generalizing s t n with
  | zero => cases h
  | succ fuel ih =>
    rw [callingLoop] at h
    obtain ⟨u, hcall, hrest⟩ := Option.bind_eq_some_iff.mp h
    have hsome : (call beyond fuel s).isSome := by rw [hcall]; rfl
    by_cases h0 : totalLen s.storage = 0
    · -- the next pass finds the same buffer
      have hc : Complete s.storage s.offset := ⟨by omega, by omega⟩
      rw [frameStep_more hc (by omega), h0, Nat.sub_zero, moveToFront_zero _ hmax] at hrest
      have hagain :=
        ih (s := ⟨s.storage, s.offset, s.frames ++ [_], s.closed⟩) hpos hmax hrest (.front _ _)
      exact absurd ((totalLen_eq_zero_iff _).mp h0) hagain.1
    · cases hb with
      | front => exact frameEnds_of_call beyond h0 hsome
      | behind hc htotal hmore hb' =>
        rw [frameStep_more hc hmore] at hrest
        exact ih (s := ⟨_, _, _, _⟩) (Nat.sub_pos_of_lt hmore)
          (Nat.le_trans (Nat.sub_le _ _) hmax) hrest hb'

theorem loop_of_frameEnds {fuel : Nat} {s : Conn} (hf : 256 + s.offset < fuel) (hpos : 0 < s.offset)
    (h : ∀ t n, Boundary s.storage s.offset t n → FrameEnds beyond t n) :
    (callingLoop beyond fuel s).isSome := by
  induction fuel generalizing s with
  | zero => omega
  | succ fuel ih =>
    have hends := h _ _ (.front _ _)
    have h0 : totalLen s.storage ≠ 0 := fun h0 => hends.1 ((totalLen_eq_zero_iff _).mp h0)
    have hsome : (call beyond fuel s).isSome := call_isSome beyond (by omega) hends
    obtain ⟨u, hcall⟩ := Option.isSome_iff_exists.mp hsome
    rw [callingLoop, hcall, Option.bind_some]
    by_cases hc : Complete s.storage s.offset
    · rcases Nat.lt_or_eq_of_le hc.2 with hmore | hlast
      · rw [frameStep_more hc hmore]
        refine ih (s := ⟨_, _, _, _⟩) ?_ (Nat.sub_pos_of_lt hmore) fun t n hb => ?_
        · simp only []
          omega
        · exact h t n (.behind hc (by omega) hmore hb)
      · obtain ⟨s', hs'⟩ : ∃ s', frameStep s = (s', true) :=
          ⟨_, Prod.ext rfl (frameStep_last hc hlast)⟩
        rw [hs']
        rfl
    · obtain ⟨s', hs'⟩ : ∃ s', frameStep s = (s', true) :=
        ⟨_, Prod.ext rfl (frameStep_incomplete hc)⟩
      rw [hs']
      rfl

/-- A received chunk that fits leaves at least one byte in the buffer. -/
theorem received_offset {s : Conn} {data : List UInt8} (hdata : 0 < data.length)
    (hfit : s.offset + data.length ≤ MAX_STORAGE_SIZE) :
    (received s data).offset = s.offset + data.length := by
  have hmax : MAX_STORAGE_SIZE = 1024 := rfl
  simp only [received, u16]
  omega

/-- The loop ends exactly if every frame in the buffer does. -/
theorem frameLoop_ends_iff {s : Conn} {data : List UInt8} (hdata : 0 < data.length)
    (hfit : s.offset + data.length ≤ MAX_STORAGE_SIZE) :
    LoopEnds beyond (received s data) ↔
      ∀ t n, Boundary (s.storage.recv s.offset data) (s.offset + data.length) t n →
      FrameEnds beyond t n := by
  have hoff := received_offset hdata hfit
  have hpos : 0 < (received s data).offset := by omega
  rw [← hoff]
  constructor
  · intro ⟨fuel, s', h⟩ t n hb
    exact frameEnds_of_loop beyond hpos (by omega) h hb
  · intro h
    exact ⟨_, Option.isSome_iff_exists.mp (loop_of_frameEnds beyond (Nat.lt_succ_self _) hpos h)⟩

/-- The length 65534, received alone. -/
theorem length_65534_loops :
    ¬ LoopEnds (fun _ _ => 0) (received ⟨.fill 0, 0, [], false⟩ [0xFF, 0xFE]) := by
  intro ⟨fuel, s', h⟩
  have hends := frameEnds_of_loop _ (by decide) (by decide) h (.front _ _)
  exact hends.1 (by decide)

/-- A login response, received whole. -/
theorem login_ends :
    LoopEnds (fun _ _ => 0) (received ⟨.fill 0, 0, [], false⟩ [0, 6, 0, 0, 0, 1, 0, 1]) := by
  refine (frameLoop_ends_iff _ (by decide) (by decide)).mpr fun t n hb => ?_
  cases hb with
  | front => exact ⟨by decide, fun _ hreq => absurd hreq (by decide)⟩
  | behind _ _ hmore => exact absurd hmore (by decide)

end MonitorAgent.L1
