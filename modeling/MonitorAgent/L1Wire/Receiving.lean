import MonitorAgent.L1Wire.FrameLoop
import MonitorAgent.L1Wire.Reassembly
import MonitorAgent.L1Wire.RoomsInfo

/-!
# What a read constructs

`EventOnTcpRead` (Monitor/Monitor/ScreenMgr.cpp:587-635) with the parameters its
calls of `TcpParamScene` construct. A call is made on the buffer itself, before
what is left is moved to the front, so the memory behind the frame is the rest
of the stream and what older frames have left there.

* `receive_spec`: in step with a stream of frames that can be decoded, a read
  constructs the parameters of the frames it completes, in order, whatever is
  behind them.
-/
namespace MonitorAgent.L1

open TcpStorage

variable (beyond : Nat → Memory)

/-- The parameter of a pass, if there is one; `none` if a constructor does not
return. mirrors Monitor/Monitor/ScreenMgr.cpp:617-621 -/
def passParameter (fuel : Nat) (s : Conn) : Option (Option Parameter) :=
  if Complete s.storage s.offset then
    (tcpParamScene (memory s.storage (beyond (s.offset - totalLen s.storage))) fuel
      (totalLen s.storage)).map
      fun x => x.1
  else some none

/-- mirrors Monitor/Monitor/ScreenMgr.cpp:604-634 -/
def receivingLoop (fuel : Nat) : Nat → Conn → Option (Conn × List Parameter)
  | 0, _ => none
  | n + 1, s =>
    (passParameter beyond fuel s).bind fun param =>
      match frameStep s with
      | (s', true) => some (s', param.toList)
      | (s', false) => (receivingLoop fuel n s').map fun x => (x.1, param.toList ++ x.2)

/-- A read event with the parameters constructed. mirrors Monitor/Monitor/ScreenMgr.cpp:587-649 -/
def receive (fuel : Nat) (s : Conn) (avail : List UInt8) : Option (Conn × List Parameter) :=
  let data := avail.take (MAX_STORAGE_SIZE - s.offset)
  if data.length > 0 then receivingLoop beyond fuel (MAX_STORAGE_SIZE + 1) (received s data)
  else some ({ s with closed := true }, [])

/-- Whatever is behind the frame, decoding it ends, with what `decoded` says. -/
def Decodes (fuel : Nat) (f : Frame) (decoded : Option Parameter) : Prop :=
  ∀ mem, Spells mem 0 f.bytes →
    (tcpParamScene mem fuel f.bytes.length).map (fun x => x.1) = some decoded

section Pass

variable {fuel : Nat} {t₀ : Storage} {done fs : List Frame} {f : Frame} {rest : List UInt8}
  {s : Conn} {decoded : Frame → Option Parameter}

/-- A buffered frame is in the memory `TcpParamScene` is given. -/
theorem spells_memory {t : Storage} {mem : Memory} {bs : List UInt8}
    (hb : t.bytes.take bs.length = bs)
    (hle : bs.length ≤ MAX_STORAGE_SIZE) : Spells (memory t mem) 0 bs := by
  unfold Spells Memory.bytes
  apply List.ext_getElem
  · simp
  · intro i hi _
    have hlt : i < bs.length := by simpa using hi
    simp only [List.getElem_map, List.getElem_range, Nat.zero_add, memory,
      if_pos (Nat.lt_of_lt_of_le hlt hle)]
    rw [t.byte_of_take bs.length i hlt, hb, List.getD_eq_getElem?_getD,
      List.getElem?_eq_getElem hlt, Option.getD_some]

/-- The frame under way, as far as it is buffered. -/
theorem take_frame (h : Synced t₀ done (f :: fs) rest s) (hc : f.bytes.length ≤ s.offset) :
    s.storage.bytes.take f.bytes.length = f.bytes := by
  have hb : s.buffered ++ rest = f.bytes ++ wire fs := h.stream
  have hl := buffered_length s h.offset
  have e := congrArg (List.take f.bytes.length) hb
  rw [List.take_append_of_le_length (by omega), List.take_left, Conn.buffered, List.take_take,
    Nat.min_eq_left hc] at e
  exact e

theorem frames_complete (hc : Complete s.storage s.offset) :
    (frameStep s).1.frames = s.frames ++ [s.storage.bytes.take (totalLen s.storage)] := by
  obtain ⟨hmax, hle⟩ := hc
  simp only [totalLen] at hmax hle ⊢
  simp only [frameStep]
  rw [if_neg (by omega), if_neg (by omega)]
  split <;> rfl

theorem frames_incomplete (hc : ¬ Complete s.storage s.offset) :
    (frameStep s).1.frames = s.frames := by
  simp only [Complete, totalLen] at hc
  simp only [frameStep]
  split
  · rfl
  · rw [if_pos (by omega)]

/-- One pass: the frame under way is decoded and cut off, or not complete. -/
theorem pass_spec (h : Synced t₀ done (f :: fs) rest s) (h0 : 0 < s.offset)
    (hd : Decodes fuel f (decoded f)) :
    (passParameter beyond fuel s = some none ∧ (frameStep s).1.frames = s.frames ∧
      (frameStep s).2 = true) ∨
      (passParameter beyond fuel s = some (decoded f) ∧
        (frameStep s).1.frames = s.frames ++ [f.bytes]) := by
  have ho : s.offset ≤ 1024 := h.offset
  have hmin := f.min
  have hmax := f.max
  have hmax' : MAX_STORAGE_SIZE = 1024 := rfl
  by_cases hc : f.bytes.length ≤ s.offset
  · -- Complete: the two bytes of the length are there.
    have hlen : totalLen s.storage = f.bytes.length :=
      packetLen_of_two h.stream h.offset (by omega)
    have htake := take_frame h hc
    refine .inr ⟨?_, ?_⟩
    · rw [passParameter, if_pos ⟨by omega, by omega⟩, hlen]
      exact hd _ (spells_memory htake hmax)
    · rw [frames_complete ⟨by omega, by omega⟩, hlen, htake]
  · have hn : ¬ Complete s.storage s.offset := by
      intro ⟨hfit, hle⟩
      by_cases h1 : s.offset = 1
      · have hb : s.storage.bytes.take 1 ++ rest = f.bytes ++ wire fs := h1 ▸ h.stream
        have hlt : 1 < totalLen s.storage := (packetLen_lone hb).1
        omega
      · have hlen : totalLen s.storage = f.bytes.length :=
          packetLen_of_two h.stream h.offset (by omega)
        omega
    refine .inl ⟨?_, frames_incomplete hn, frameStep_incomplete hn⟩
    rw [passParameter, if_neg hn]

/-- The loop with its calls is the loop. -/
theorem frameLoop_of_receivingLoop {n : Nat} {s' : Conn} {params : List Parameter}
    (h : receivingLoop beyond fuel n s = some (s', params)) : frameLoop n s = some s' := by
  induction n generalizing s params with
  | zero => cases h
  | succ n ih =>
    obtain ⟨param, -, hloop⟩ := Option.bind_eq_some_iff.mp h
    split at hloop
    · rename_i t ht
      cases hloop
      simp only [frameLoop, ht]
    · rename_i t ht
      obtain ⟨x, hx, he⟩ := Option.map_eq_some_iff.mp hloop
      cases he
      simp only [frameLoop, ht]
      exact ih hx

theorem receivingLoop_spec (hd : ∀ g ∈ f :: fs, Decodes fuel g (decoded g)) {n : Nat}
    (h : Synced t₀ done (f :: fs) rest s) (h0 : 0 < s.offset) (hn : s.offset < n) :
    ∃ s' xs todo, f :: fs = xs ++ todo ∧ s'.frames = s.frames ++ xs.map Frame.bytes ∧
      receivingLoop beyond fuel n s = some (s', xs.filterMap decoded) := by
  induction n generalizing done f fs s with
  | zero => omega
  | succ n ih =>
    have hpass := pass_spec beyond h h0 (hd f List.mem_cons_self)
    rcases frameStep_spec h h0 with ⟨s', he, -⟩ | ⟨s', he, hs, hpos, hlt⟩
    · rcases hpass with ⟨hp, hf, -⟩ | ⟨hp, hf⟩
      · refine ⟨s', [], f :: fs, rfl, by simpa [he] using hf, ?_⟩
        rw [receivingLoop, hp, Option.bind_some, he]
        rfl
      · refine ⟨s', [f], fs, rfl, by simpa [he] using hf, ?_⟩
        rw [receivingLoop, hp, Option.bind_some, he]
        cases hdec : decoded f <;> simp [hdec]
    · rcases hpass with ⟨-, -, hb⟩ | ⟨hp, hf⟩
      · rw [he] at hb; cases hb
      · rw [he] at hf
        obtain ⟨g, gs, rfl⟩ := hs.head hpos
        obtain ⟨s'', xs, todo, hsplit, hframes, hloop⟩ :=
          ih (fun x hx => hd x (List.mem_cons_of_mem f hx)) hs hpos (by omega)
        refine ⟨s'', f :: xs, todo, by rw [hsplit]; rfl, ?_, ?_⟩
        · rw [hframes, hf, List.map_cons, List.append_assoc]
          rfl
        · rw [receivingLoop, hp, Option.bind_some, he]
          simp only [hloop, Option.map_some]
          cases hdec : decoded f <;> simp [hdec]

end Pass

/-- **One read.** In step with a stream of frames that can be decoded, a read
constructs the parameters of the frames it completes. -/
theorem receive_spec {fuel : Nat} {t₀ : Storage} {done todo : List Frame} {c rest : List UInt8}
    {s : Conn} {decoded : Frame → Option Parameter} (h : Synced t₀ done todo (c ++ rest) s)
    (hc : 0 < c.length) (hfit : c.length ≤ MAX_STORAGE_SIZE - s.offset)
    (hd : ∀ g ∈ todo, Decodes fuel g (decoded g)) :
    ∃ s' xs todo', todo = xs ++ todo' ∧ s'.frames = s.frames ++ xs.map Frame.bytes ∧
      receive beyond fuel s c = some (s', xs.filterMap decoded) ∧ eventOnTcpRead s c = some s' := by
  have ho : s.offset ≤ 1024 := h.offset
  have hf : s.offset + c.length ≤ 1024 := by rw [MAX_STORAGE_SIZE] at hfit; omega
  have hu : u16 (s.offset + u16 c.length) = s.offset + c.length := by
    rw [u16_of_lt (show c.length < 65536 by omega), u16_of_lt (by omega)]
  have hs : Synced t₀ done todo rest (received s c) := by
    refine ⟨h.frames, ?_, by rw [received, hu]; exact hf, ?_⟩
    · have hst := h.stream
      simp only [received, Conn.buffered, hu] at hst ⊢
      rw [Storage.take_recv _ _ _ hf, List.append_assoc, hst]
    · intro hle
      simp only [received, hu] at hle ⊢
      rw [Storage.byte_recv_of_le _ _ _ _ hf (by omega)]
      exact h.stale (by omega)
  have hpos : 0 < (received s c).offset := by simp only [received, hu]; omega
  have hlt : (received s c).offset < MAX_STORAGE_SIZE + 1 := by
    simp only [received, hu, MAX_STORAGE_SIZE]; omega
  obtain ⟨f, fs, rfl⟩ := hs.head hpos
  obtain ⟨s', xs, todo', hsplit, hframes, hloop⟩ := receivingLoop_spec beyond hd hs hpos hlt
  refine ⟨s', xs, todo', hsplit, hframes, ?_, ?_⟩
  · rw [receive, List.take_of_length_le hfit, if_pos hc]
    exact hloop
  · rw [eventOnTcpRead, List.take_of_length_le hfit, if_pos hc]
    exact frameLoop_of_receivingLoop beyond hloop

end MonitorAgent.L1
