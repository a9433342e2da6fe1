import MonitorAgent.L1Wire.TcpStorage
import Mathlib.Data.List.Infix

/-!
# Reassembly of the proxy's frames

The reader of `TcpStorage.lean` against the stream it is fed: a stream is
the concatenation of `Frame`s, cut anywhere into `recv` results.

`Synced` is the state between two reads: `done` frames have been handed on,
the buffer holds a proper prefix of what follows, and, while fewer than two
bytes are buffered, `tcp_storage_[1]` still is the byte `staleByte` says.
The loop body reads the length from two bytes even then, so it computes a
length from one fresh and one stale byte. That guess is at most 1025
(`packetLen_lone`) and does no harm except at exactly 1025: first byte 3,
stale byte 0xFF. There the offset is reset and a received byte is dropped.

Results:
* `event_spec`: one read keeps `Synced` for more frames, or hits the case
  above.
* `reassembles_iff`: a stream is reassembled, at every cut, exactly when no
  cut leaves a lone 3 in front of a stale 0xFF.
* `reassembly_cut`: a stream and a cut that lose a frame.
-/
namespace MonitorAgent.L1.TcpStorage

/-- The big-endian length in the first two bytes. -/
def lenField (bs : List UInt8) : Nat := (bs.getD 0 0).toNat * 256 + (bs.getD 1 0).toNat

/-- A well-formed frame: its length field counts the bytes after the field,
and the whole fits the buffer. -/
structure Frame where
  bytes : List UInt8
  min : 8 ≤ bytes.length
  max : bytes.length ≤ MAX_STORAGE_SIZE
  len : bytes.length = lenField bytes + 2

def wire (fs : List Frame) : List UInt8 := fs.flatMap Frame.bytes

@[simp] theorem wire_nil : wire [] = [] := rfl
@[simp] theorem wire_cons (f : Frame) (fs : List Frame) : wire (f :: fs) = f.bytes ++ wire fs := rfl
@[simp] theorem wire_append (fs gs : List Frame) : wire (fs ++ gs) = wire fs ++ wire gs := by
  simp [wire]

/-- Every chunk is a possible `recv` result at its place in the run: not
empty, and no longer than what the read asked for. -/
def fits (s : Conn) : List (List UInt8) → Bool
  | [] => true
  | c :: cs => c.length > 0 && c.length ≤ MAX_STORAGE_SIZE - s.offset &&
      match eventOnTcpRead s c with
      | some s' => fits s' cs
      | none => false

/-- Of the `rcvd` bytes of the stream `fs`, the complete frames have been
handed on and the rest, shorter than its frame, is buffered. -/
def InStep (fs : List Frame) (rcvd : List UInt8) (s : Conn) : Prop :=
  ∃ done todo, fs = done ++ todo ∧ s.frames = done.map Frame.bytes ∧
    rcvd = wire done ++ s.buffered ∧ ∀ f ∈ todo.head?, s.buffered.length < f.bytes.length

/-- The stream `fs`, read from `s₀` in the given chunks: in step after every
read, and at the end every frame handed on and nothing left. -/
def Reassembles (fs : List Frame) (s₀ : Conn) (chunks : List (List UInt8)) : Prop :=
  (∀ k ≤ chunks.length, ∃ s, events s₀ (chunks.take k) = some s ∧
      InStep fs (s₀.buffered ++ (chunks.take k).flatten) s) ∧
    ∃ s, events s₀ chunks = some s ∧ s.frames = fs.map Frame.bytes ∧ s.buffered = []

/-- What `tcp_storage_[1]` holds while no second byte of the next frame has
come: the second byte of the last frame, or what was there at the start. -/
def staleByte (t₀ : Storage) (done : List Frame) : UInt8 :=
  match done.getLast? with
  | some f => f.bytes.getD 1 0
  | none => t₀.byte 1

/-- The bytes received end with the first byte of a frame alone, that byte
is 3, and the byte behind it in the buffer is 0xFF. -/
def LoneLengthByte (t₀ : Storage) (fs : List Frame) (rcvd : List UInt8) : Prop :=
  ∃ done todo, fs = done ++ todo ∧ rcvd = wire done ++ [3] ∧ staleByte t₀ done = 0xFF

theorem staleByte_snoc (t₀ : Storage) (done : List Frame) (f : Frame) :
    staleByte t₀ (done ++ [f]) = f.bytes.getD 1 0 := by
  simp [staleByte]

theorem u16_of_lt {n : Nat} (h : n < 65536) : u16 n = n := Nat.mod_eq_of_lt h

/-- A byte received of the frame under way is that byte of the frame. -/
theorem byte_of_stream {t : Storage} {n i : Nat} {f : Frame} {rest tail : List UInt8}
    (h : t.bytes.take n ++ rest = f.bytes ++ tail) (hn : n ≤ MAX_STORAGE_SIZE) (hi : i < n)
    (h2 : i < 2) :
    t.byte i = f.bytes.getD i 0 := by
  have hl : (t.bytes.take n).length = n := by simp only [List.length_take, t.size]; omega
  have hf := f.min
  have e := congrArg (fun l => l.getD i 0) h
  simp only [List.getD_eq_getElem?_getD] at e
  rw [List.getElem?_append_left (by omega), List.getElem?_append_left (by omega)] at e
  rw [t.byte_of_take n i hi, List.getD_eq_getElem?_getD, List.getD_eq_getElem?_getD, e]

/-- From two bytes on, the length read is that of the frame under way. -/
theorem packetLen_of_two {t : Storage} {n : Nat} {f : Frame} {rest tail : List UInt8}
    (h : t.bytes.take n ++ rest = f.bytes ++ tail) (hn : n ≤ MAX_STORAGE_SIZE) (h2 : 2 ≤ n) :
    u16 (t.packetLen + 2) = f.bytes.length := by
  have h0 := byte_of_stream h hn (i := 0) (by omega) (by omega)
  have h1 := byte_of_stream h hn (i := 1) (by omega) (by omega)
  have hf := f.len
  have hm : f.bytes.length ≤ 1024 := f.max
  simp only [lenField, ← h0, ← h1] at hf
  rw [Storage.packetLen, ← hf, u16_of_lt (by omega)]

/-- With one byte received the length read is a guess: never short enough to
be cut off, and too long for the buffer in one case only. -/
theorem packetLen_lone {t : Storage} {f : Frame} {rest tail : List UInt8}
    (h : t.bytes.take 1 ++ rest = f.bytes ++ tail) :
    1 < u16 (t.packetLen + 2) ∧
      (u16 (t.packetLen + 2) > MAX_STORAGE_SIZE ↔ t.bytes.take 1 = [3] ∧ t.byte 1 = 0xFF) := by
  have h0 := byte_of_stream h (by decide) (i := 0) (by omega) (by omega)
  have hf := f.len
  have hm : f.bytes.length ≤ 1024 := f.max
  have hb := (t.byte 1).toNat_lt
  have ht : t.bytes.take 1 = [t.byte 0] := by
    have hs := t.size
    cases hc : t.bytes with
    | nil => rw [hc] at hs; cases hs
    | cons b bs => simp [Storage.byte, hc]
  simp only [lenField, ← h0] at hf
  have h3 : t.byte 0 = 3 ↔ (t.byte 0).toNat = 3 := by rw [← UInt8.toNat_inj]; rfl
  have hFF : t.byte 1 = 0xFF ↔ (t.byte 1).toNat = 255 := by rw [← UInt8.toNat_inj]; rfl
  rw [ht, Storage.packetLen, u16_of_lt (by omega), List.cons.injEq, h3, hFF, MAX_STORAGE_SIZE]
  simp only [and_true]
  omega

/-! ## One pass of the loop -/

/-- `done` has been handed on, `todo` is what is left of the stream, and
`rest` of it is still to come. -/
structure Synced (t₀ : Storage) (done todo : List Frame) (rest : List UInt8) (s : Conn) : Prop where
  frames : s.frames = done.map Frame.bytes
  stream : s.buffered ++ rest = wire todo
  offset : s.offset ≤ MAX_STORAGE_SIZE
  stale : s.offset ≤ 1 → s.storage.byte 1 = staleByte t₀ done

/-- Between two reads: the frame under way is not complete. -/
def Partial (todo : List Frame) (s : Conn) : Prop := ∀ f ∈ todo.head?, s.offset < f.bytes.length

/-- Received bytes belong to a frame. -/
theorem Synced.head {t₀ : Storage} {done todo : List Frame} {rest : List UInt8} {s : Conn}
    (h : Synced t₀ done todo rest s) (h0 : 0 < s.offset) : ∃ f fs, todo = f :: fs := by
  cases todo with
  | cons f fs => exact ⟨f, fs, rfl⟩
  | nil =>
    have hl := buffered_length s h.offset
    have hs := congrArg List.length h.stream
    simp only [List.length_append, wire_nil, List.length_nil] at hs
    omega

/-- A complete frame is cut off the front. -/
theorem Synced.cut {t₀ : Storage} {done fs : List Frame} {f : Frame} {rest : List UInt8} {s : Conn}
    (h : Synced t₀ done (f :: fs) rest s) (hc : f.bytes.length ≤ s.offset) {t : Storage}
    (ht : t.bytes.take (s.offset - f.bytes.length) =
      (s.storage.bytes.drop f.bytes.length).take (s.offset - f.bytes.length))
    (h1 : s.offset - f.bytes.length ≤ 1 → t.byte 1 = s.storage.byte 1) :
    Synced t₀ (done ++ [f]) fs rest
      { s with
        offset := s.offset - f.bytes.length
        frames := s.frames ++ [s.storage.bytes.take f.bytes.length]
        storage := t } := by
  have hb : s.buffered ++ rest = f.bytes ++ wire fs := h.stream
  have hl := buffered_length s h.offset
  have hf : s.storage.bytes.take f.bytes.length = f.bytes := by
    have e := congrArg (List.take f.bytes.length) hb
    rw [List.take_append_of_le_length (by omega), List.take_left, Conn.buffered, List.take_take,
      Nat.min_eq_left hc] at e
    exact e
  constructor
  · simp [h.frames, hf]
  · have e := congrArg (List.drop f.bytes.length) hb
    rw [List.drop_append_of_le_length (by omega), List.drop_left, Conn.buffered,
      List.drop_take] at e
    simpa only [Conn.buffered, ht] using e
  · exact Nat.le_trans (Nat.sub_le ..) h.offset
  · intro hle
    have hm := f.min
    rw [h1 hle, staleByte_snoc]
    exact byte_of_stream (i := 1) hb h.offset (by omega) (by omega)

/-- How a read ends: between two frames, or with the offset reset by a
guessed length of 1025. -/
inductive Outcome (t₀ : Storage) (fs : List Frame) (rest : List UInt8) (s : Conn) : Prop
  | synced (done todo : List Frame) : fs = done ++ todo → Synced t₀ done todo rest s →
      Partial todo s → (s.buffered = [3] → staleByte t₀ done ≠ 0xFF) → Outcome t₀ fs rest s
  | reset (done todo : List Frame) : fs = done ++ todo → s.frames = done.map Frame.bytes →
      s.buffered = [] → 3 :: rest = wire todo → staleByte t₀ done = 0xFF → Outcome t₀ fs rest s

/-- With one byte buffered the length is a guess, and the loop ends. -/
theorem frameStep_lone {t₀ : Storage} {done fs : List Frame} {f : Frame} {rest : List UInt8}
    {s : Conn} (h : Synced t₀ done (f :: fs) rest s) (h1 : s.offset = 1) :
    ∃ s', frameStep s = (s', true) ∧ Outcome t₀ (done ++ f :: fs) rest s' := by
  have hb : s.storage.bytes.take s.offset ++ rest = f.bytes ++ wire fs := h.stream
  have hmin := f.min
  rw [h1] at hb
  obtain ⟨hlt, hgt⟩ := packetLen_lone hb
  have hst := h.stale (by omega)
  by_cases hbad : s.storage.bytes.take 1 = [3] ∧ s.storage.byte 1 = 0xFF
  · refine ⟨{ s with offset := 0 }, by simp only [frameStep, if_pos (hgt.mpr hbad)], ?_⟩
    apply Outcome.reset done (f :: fs) rfl
    · exact h.frames
    · simp [Conn.buffered]
    · rwa [hbad.1] at hb
    · exact hst ▸ hbad.2
  · refine ⟨s, by simp only [frameStep, if_neg (fun hg => hbad (hgt.mp hg)), h1, if_pos hlt], ?_⟩
    apply Outcome.synced done (f :: fs) rfl h
    · intro g hg
      cases hg
      omega
    · intro h3 hFF
      exact hbad ⟨by rwa [Conn.buffered, h1] at h3, hst.trans hFF⟩

/-- With two bytes or more the length is the frame's. -/
theorem frameStep_known {t₀ : Storage} {done fs : List Frame} {f : Frame} {rest : List UInt8}
    {s : Conn} (h : Synced t₀ done (f :: fs) rest s) (h2 : 2 ≤ s.offset) :
    (∃ s', frameStep s = (s', true) ∧ Outcome t₀ (done ++ f :: fs) rest s') ∨
      ∃ s', frameStep s = (s', false) ∧ Synced t₀ (done ++ [f]) fs rest s' ∧
        0 < s'.offset ∧ s'.offset < s.offset := by
  have hb : s.storage.bytes.take s.offset ++ rest = f.bytes ++ wire fs := h.stream
  have hmin := f.min
  have hmax := f.max
  have ho := h.offset
  have hlen := packetLen_of_two hb ho h2
  have hle : ¬ f.bytes.length > MAX_STORAGE_SIZE := by omega
  by_cases hc : f.bytes.length ≤ s.offset
  · by_cases hr : s.offset - f.bytes.length > 0
    · refine .inr ⟨_, ?_,
        h.cut hc (t := s.storage.moveToFront f.bytes.length (s.offset - f.bytes.length))
        ?_ ?_, hr, by dsimp only; omega⟩
      · simp only [frameStep, hlen, if_neg hle,
          if_neg (show ¬ f.bytes.length > s.offset by omega), if_pos hr]
      · apply Storage.take_moveToFront
        omega
      · apply Storage.byte_moveToFront_of_le
        omega
    · have hz : s.offset - f.bytes.length = 0 := by omega
      have hs := h.cut hc (t := s.storage) (by simp [hz]) (fun _ => rfl)
      refine .inl ⟨_, ?_, .synced (done ++ [f]) fs (by simp) hs ?_ ?_⟩
      · simp only [frameStep, hlen, if_neg hle,
          if_neg (show ¬ f.bytes.length > s.offset by omega), if_neg hr]
      · intro g _
        have := g.min
        dsimp only
        omega
      · simp [Conn.buffered, hz]
  · refine .inl ⟨s, ?_, .synced done (f :: fs) rfl h ?_ ?_⟩
    · simp only [frameStep, hlen, if_neg hle, if_pos (show f.bytes.length > s.offset by omega)]
    · intro g hg
      cases hg
      omega
    · intro h3
      have := buffered_length s ho
      simp only [h3, List.length_singleton] at this
      omega

/-- One pass of the loop body: a frame is cut off and more is left, or the
loop ends. -/
theorem frameStep_spec {t₀ : Storage} {done fs : List Frame} {f : Frame} {rest : List UInt8}
    {s : Conn} (h : Synced t₀ done (f :: fs) rest s) (h0 : 0 < s.offset) :
    (∃ s', frameStep s = (s', true) ∧ Outcome t₀ (done ++ f :: fs) rest s') ∨
      ∃ s', frameStep s = (s', false) ∧ Synced t₀ (done ++ [f]) fs rest s' ∧
        0 < s'.offset ∧ s'.offset < s.offset := by
  by_cases h1 : s.offset = 1
  · exact .inl (frameStep_lone h h1)
  · exact frameStep_known h (by omega)

/-- The loop ends: every pass that goes on has cut off a frame. -/
theorem frameLoop_spec {t₀ : Storage} {rest : List UInt8} :
    ∀ (n : Nat) {done todo : List Frame} {s : Conn}, Synced t₀ done todo rest s → 0 < s.offset →
      s.offset < n → ∃ s', frameLoop n s = some s' ∧ Outcome t₀ (done ++ todo) rest s'
  | 0, _, _, _, _, _, hn => absurd hn (by omega)
  | n + 1, done, todo, s, h, h0, hn => by
    obtain ⟨f, fs, rfl⟩ := h.head h0
    rcases frameStep_spec h h0 with ⟨s', he, ho⟩ | ⟨s', he, hs, hpos, hlt⟩
    · exact ⟨s', by simp only [frameLoop, he], ho⟩
    · obtain ⟨s'', hl, ho⟩ := frameLoop_spec n hs hpos (by omega)
      exact ⟨s'', by simp only [frameLoop, he, hl], by simpa using ho⟩

/-! ## One read, and all reads -/

/-- **One read.** From between two frames, a `recv` result that fits leads
to between two frames again, or to the reset. -/
theorem event_spec {t₀ : Storage} {done todo : List Frame} {c rest : List UInt8} {s : Conn}
    (h : Synced t₀ done todo (c ++ rest) s) (hc : 0 < c.length)
    (hfit : c.length ≤ MAX_STORAGE_SIZE - s.offset) :
    ∃ s', eventOnTcpRead s c = some s' ∧ Outcome t₀ (done ++ todo) rest s' := by
  have ho : s.offset ≤ 1024 := h.offset
  have hf : s.offset + c.length ≤ 1024 := by rw [MAX_STORAGE_SIZE] at hfit; omega
  have hu : u16 (s.offset + u16 c.length) = s.offset + c.length := by
    rw [u16_of_lt (show c.length < 65536 by omega), u16_of_lt (by omega)]
  have hs : Synced t₀ done todo rest
      { s with storage := s.storage.recv s.offset c, offset := s.offset + c.length } := by
    refine ⟨h.frames, ?_, hf, ?_⟩
    · have hst := h.stream
      simp only [Conn.buffered] at hst ⊢
      rw [Storage.take_recv _ _ _ hf, List.append_assoc, hst]
    · intro hle
      dsimp only at hle ⊢
      rw [Storage.byte_recv_of_le _ _ _ _ hf (by omega)]
      exact h.stale (by omega)
  obtain ⟨s', hl, hout⟩ := frameLoop_spec (MAX_STORAGE_SIZE + 1) hs (by dsimp only; omega)
    (by dsimp only [MAX_STORAGE_SIZE]; omega)
  refine ⟨s', ?_, hout⟩
  rw [eventOnTcpRead, List.take_of_length_le hfit, if_pos hc, hu]
  exact hl

/-- A proper prefix of a frame contains no whole frame. -/
theorem eq_nil_of_short {xs todo : List Frame} {b c : List UInt8} (h : b = wire xs ++ c)
    (hs : ∀ f ∈ (xs ++ todo).head?, b.length < f.bytes.length) : xs = [] := by
  cases xs with
  | nil => rfl
  | cons f fs =>
    have := hs f rfl
    simp only [h, wire_cons, List.length_append] at this
    omega

/-- The bytes received say how many frames are complete. -/
theorem done_unique {done done' todo todo' : List Frame} {b b' : List UInt8}
    (hfs : done ++ todo = done' ++ todo') (hr : wire done ++ b = wire done' ++ b')
    (hs : ∀ f ∈ todo.head?, b.length < f.bytes.length)
    (hs' : ∀ f ∈ todo'.head?, b'.length < f.bytes.length) : done = done' ∧ b = b' := by
  rcases List.append_eq_append_iff.mp hfs with ⟨xs, rfl, rfl⟩ | ⟨xs, rfl, rfl⟩
  · rw [wire_append, List.append_assoc, List.append_cancel_left_eq] at hr
    obtain rfl := eq_nil_of_short hr hs
    simpa using hr
  · rw [wire_append, List.append_assoc, List.append_cancel_left_eq] at hr
    obtain rfl := eq_nil_of_short hr.symm hs'
    simpa using hr

theorem Synced.inStep {t₀ : Storage} {done todo : List Frame} {rest : List UInt8} {s : Conn}
    (h : Synced t₀ done todo rest s) (hp : Partial todo s) :
    InStep (done ++ todo) (wire done ++ s.buffered) s :=
  ⟨done, todo, rfl, h.frames, rfl, fun f hf => by
    rw [buffered_length s h.offset]; exact hp f hf⟩

/-- In step, or a lone 3 before a stale 0xFF: one of the two, never both. -/
theorem Outcome.cases {t₀ : Storage} {fs : List Frame} {rcvd rest : List UInt8} {s : Conn}
    (h : Outcome t₀ fs rest s) (hr : rcvd ++ rest = wire fs) :
    (¬ LoneLengthByte t₀ fs rcvd ∧ ∃ done todo, fs = done ++ todo ∧ rcvd = wire done ++ s.buffered ∧
        Synced t₀ done todo rest s ∧ Partial todo s) ∨
      (LoneLengthByte t₀ fs rcvd ∧ ¬ InStep fs rcvd s) := by
  cases h with
  | synced done todo hfs hsync hp hn =>
    subst hfs
    have hrc : rcvd = wire done ++ s.buffered := by
      rw [wire_append, ← hsync.stream, ← List.append_assoc] at hr
      exact List.append_cancel_right hr
    refine .inl ⟨?_, done, todo, rfl, hrc, hsync, hp⟩
    intro ⟨done', todo', hfs', hr', hFF⟩
    obtain ⟨rfl, hb⟩ := done_unique hfs' (hrc.symm.trans hr')
      (fun f hf => by rw [buffered_length s hsync.offset]; exact hp f hf)
      (fun f _ => by have := f.min; simp only [List.length_singleton]; omega)
    exact hn hb hFF
  | reset done todo hfs hframes hbuf h3 hFF =>
    subst hfs
    have hrc : rcvd = wire done ++ [3] := by
      rw [wire_append, ← h3, ← List.singleton_append, ← List.append_assoc] at hr
      exact List.append_cancel_right hr
    refine .inr ⟨⟨done, todo, rfl, hrc, hFF⟩, ?_⟩
    intro ⟨done', todo', _, hf', hr', _⟩
    -- the same frames were handed on, so the 3 is accounted for nowhere
    have hw : wire done' = wire done := by
      have e := congrArg List.flatten (hf'.symm.trans hframes)
      simpa [wire, List.flatMap_def] using e
    rw [hrc, hbuf, hw] at hr'
    simp at hr'

theorem events_take_succ {s s₁ : Conn} {c : List UInt8} (he : eventOnTcpRead s c = some s₁)
    (cs : List (List UInt8)) (k : Nat) :
    events s ((c :: cs).take (k + 1)) = events s₁ (cs.take k) := by
  simp only [List.take_succ_cons, events, he, Option.bind_some]

theorem flatten_take_succ (rcvd c : List UInt8) (cs : List (List UInt8)) (k : Nat) :
    rcvd ++ ((c :: cs).take (k + 1)).flatten = (rcvd ++ c) ++ (cs.take k).flatten := by
  simp only [List.take_succ_cons, List.flatten_cons, List.append_assoc]

/-- The reads from a state between two frames are in step throughout exactly
when no read ends with a lone 3 before a stale 0xFF. -/
theorem reads_iff {t₀ : Storage} :
    ∀ (chunks : List (List UInt8)) {done todo : List Frame} {s : Conn},
    Synced t₀ done todo chunks.flatten s → Partial todo s → fits s chunks = true →
    ((∀ k ≤ chunks.length, ∃ s', events s (chunks.take k) = some s' ∧
        InStep (done ++ todo) (wire done ++ s.buffered ++ (chunks.take k).flatten) s') ↔
      ∀ k, 1 ≤ k → k ≤ chunks.length →
        ¬ LoneLengthByte t₀ (done ++ todo) (wire done ++ s.buffered ++ (chunks.take k).flatten))
  | [], done, todo, s, h, hp, _ => by
    refine ⟨fun _ k h1 hk => absurd hk (by simp only [List.length_nil]; omega), fun _ k hk => ?_⟩
    obtain rfl : k = 0 := by simpa using hk
    exact ⟨s, rfl, by simpa using Synced.inStep h hp⟩
  | c :: cs, done, todo, s, h, hp, hfit => by
    simp only [fits, Bool.and_eq_true, decide_eq_true_eq, List.flatten_cons] at hfit h
    obtain ⟨s₁, he, ho⟩ := event_spec h hfit.1.1 hfit.1.2
    have hfit' : fits s₁ cs = true := by simpa only [he] using hfit.2
    have hr : (wire done ++ s.buffered ++ c) ++ cs.flatten = wire (done ++ todo) := by
      simp only [wire_append, ← h.stream, List.append_assoc]
    have hz : ∃ s', events s [] = some s' ∧
      InStep (done ++ todo) (wire done ++ s.buffered ++ []) s' :=
      ⟨s, rfl, by simpa using Synced.inStep h hp⟩
    have hcons := events_take_succ he cs
    have hfl := flatten_take_succ (wire done ++ s.buffered) c cs
    rcases ho.cases hr with ⟨hn, done', todo', hfs, hrc, hsync, hp'⟩ | ⟨hl, hni⟩
    · have ih := reads_iff cs hsync hp' hfit'
      rw [← hrc, ← hfs] at ih
      constructor
      · intro hall k h1 hk
        obtain ⟨k, rfl⟩ := Nat.exists_eq_add_of_le' h1
        rw [hfl]
        rcases Nat.eq_zero_or_pos k with rfl | hpos
        · simpa using hn
        · exact ih.mp (fun j hj => by
            have := hall (j + 1) (by simpa using hj)
            rwa [hcons, hfl] at this) k hpos (by simpa using hk)
      · intro hall k hk
        cases k with
        | zero => exact hz
        | succ k =>
          rw [hcons, hfl]
          exact ih.mpr (fun j h1 hj => by
            have := hall (j + 1) (by omega) (by simpa using hj)
            rwa [hfl] at this) k (by simpa using hk)
    · -- the first read already falls out of step
      constructor
      · intro hall
        obtain ⟨s', he', hi⟩ := hall 1 (by simp)
        rw [hcons, hfl] at *
        simp only [List.take_zero, events, Option.some.injEq] at he'
        subst he'
        exact absurd (by simpa using hi) hni
      · intro hall
        exact absurd (by simpa using hl) (hall 1 (by omega) (by simp))

theorem InStep.complete {fs : List Frame} {s : Conn} (h : InStep fs (wire fs) s) :
    s.frames = fs.map Frame.bytes ∧ s.buffered = [] := by
  obtain ⟨done, todo, rfl, hf, hr, hs⟩ := h
  rw [wire_append, List.append_cancel_left_eq] at hr
  have hs' : ∀ f ∈ (todo ++ []).head?, s.buffered.length < f.bytes.length := by simpa using hs
  obtain rfl := eq_nil_of_short (hr.symm.trans (List.append_nil _).symm) hs'
  exact ⟨by simpa using hf, hr.symm⟩

/-- **Reassembly.** However the stream `fs` is cut into reads, and whatever
the buffer held before, every read leaves the reader in step and every frame
is handed on once, in order and unaltered, exactly when no read ends with a
lone length byte 3 before a stale 0xFF. -/
theorem reassembles_iff (fs : List Frame) (s₀ : Conn) (chunks : List (List UInt8))
    (hfresh : s₀.frames = []) (hwire : s₀.buffered ++ chunks.flatten = wire fs)
    (hshort : ∀ f ∈ fs.head?, s₀.offset < f.bytes.length) (hoff : s₀.offset ≤ MAX_STORAGE_SIZE)
    (hfits : fits s₀ chunks = true) :
    Reassembles fs s₀ chunks ↔ ∀ k, 1 ≤ k → k ≤ chunks.length →
      ¬ LoneLengthByte s₀.storage fs (s₀.buffered ++ (chunks.take k).flatten) := by
  have hsync : Synced s₀.storage [] fs chunks.flatten s₀ := ⟨hfresh, hwire, hoff, fun _ => rfl⟩
  have h := reads_iff chunks hsync hshort hfits
  simp only [List.nil_append, wire_nil] at h
  rw [← h, Reassembles, and_iff_left_iff_imp]
  intro hall
  obtain ⟨s, he, hi⟩ := hall chunks.length (Nat.le_refl _)
  rw [List.take_length] at he hi
  rw [hwire] at hi
  exact ⟨s, he, hi.complete⟩

/-- A proxy whose buffer holds zeros and nothing received. -/
def fresh : Conn := ⟨.fill 0, 0, [], false⟩

def frame8 : Frame := ⟨[0, 6, 0, 0, 0, 0, 0, 0], by decide, by decide, by decide⟩

theorem reassembles_frame8 : Reassembles [frame8] fresh [[0], [6, 0, 0, 0], [0, 0, 0]] := by
  refine (reassembles_iff [frame8] fresh _ rfl (by decide) (by decide) (by decide)
    (by decide +kernel)).mpr ?_
  intro k h1 hk ⟨done, todo, _, hr, _⟩
  have hl := congrArg List.getLast? hr
  have h3 : k = 1 ∨ k = 2 ∨ k = 3 := by simp only [List.length_cons, List.length_nil] at hk; omega
  rcases h3 with rfl | rfl | rfl <;> simp [fresh, Conn.buffered] at hl

/-- Length 0x00FF: its second byte stays in the buffer as 0xFF. -/
def frame257 : Frame :=
  ⟨0x00 :: 0xFF :: List.replicate 255 0, by decide +kernel, by decide +kernel, by decide +kernel⟩

/-- Length 0x0300. -/
def frame770 : Frame :=
  ⟨0x03 :: 0x00 :: List.replicate 768 2, by decide +kernel, by decide +kernel, by decide +kernel⟩

def cutChunks : List (List UInt8) := [frame257.bytes, [0x03], frame770.bytes.tail]

/-- Two frames, the second cut after its first byte: the byte is dropped. -/
theorem reassembly_cut :
    fresh.buffered ++ cutChunks.flatten = wire [frame257, frame770] ∧ fits fresh cutChunks = true ∧
      ¬ Reassembles [frame257, frame770] fresh cutChunks := by
  refine ⟨by decide +kernel, by decide +kernel, fun h => ?_⟩
  obtain ⟨s, he, done, todo, -, hf, hr, -⟩ := h.1 2 (by decide +kernel)
  have hev : (events fresh (cutChunks.take 2)).map (fun s =>
    (s.frames.flatten.length, s.buffered.length)) =
      some (257, 0) := by decide +kernel
  simp only [he, Option.map_some, Option.some.injEq, Prod.mk.injEq] at hev
  have hlen : (fresh.buffered ++ (cutChunks.take 2).flatten).length = 258 := by decide +kernel
  have hw : (wire done).length = 257 := by rw [← hev.1, hf, wire, List.flatMap_def]
  rw [hr, List.length_append, hw, hev.2] at hlen
  omega

end MonitorAgent.L1.TcpStorage
