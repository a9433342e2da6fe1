import MonitorAgent.L1Http.Pump

/-!
# What a complete response is

The strings that a response is complete with, as a grammar: heads of lines, all but
the last with status 100, and then a body in chunks, or of the announced length.
Lines end in LF; CRs count nowhere. A chunk is followed by a line that may hold
anything, and trailers are lines that are not blank.

* `chunkedBody_iff`, `sizedBody_iff`: the body is read to its end, and no further.
* `heads_iff`: so are the heads.
* `complete_iff`: the strings of the grammar are those a response is complete with.
* `close_iff`: and those it is complete with when the connection closes.
-/
namespace MonitorAgent.L1.Http

open Text

/-- A line as it is received, without the LF that ends it. -/
structure Line where
  bytes : List UInt8
  one : (10 : UInt8) ∉ bytes

namespace Line

variable (l : Line)

def text : List UInt8 := l.bytes.filter (· ≠ 13)

def wire : List UInt8 := l.bytes ++ [10]

end Line

def Line.wires (ls : List Line) : List UInt8 := (ls.map wire).flatten

/-- Without a line, or with a first one. -/
theorem exists_line (xs : List UInt8) : (10 : UInt8) ∉ xs ∨ ∃ (l : Line) (ys : List UInt8),
    xs = l.wire ++ ys := by
  by_cases h : (10 : UInt8) ∈ xs
  · obtain ⟨w, ys, rfl, hw⟩ := List.eq_append_cons_of_mem h
    exact .inr ⟨⟨w, hw⟩, ys, by simp [Line.wire]⟩
  · exact .inl h

/-- A chunk, with the line of its size and the line behind it. -/
structure Chunk where
  size : Line
  data : List UInt8
  ending : Line
  counts : strtol 16 (cstr size.text) = data.length
  ne_nil : data ≠ []

def Chunk.wire (c : Chunk) : List UInt8 := c.size.wire ++ c.data ++ c.ending.wire

/-- Lines that are not blank, and a blank one. -/
structure Block where
  lines : List Line
  blank : Line
  filled : ∀ l ∈ lines, l.text ≠ []
  blank_nil : blank.text = []

def Block.wire (b : Block) : List UInt8 := Line.wires b.lines ++ b.blank.wire

theorem Block.texts_filled (b : Block) : ∀ l ∈ b.lines.map Line.text, l ≠ [] := by
  intro l hl
  obtain ⟨l', hl', rfl⟩ := List.mem_map.mp hl
  exact b.filled l' hl'

/-- Without a block, or with a first one. -/
theorem exists_block (xs : List UInt8) :
    (∃ (ls : List Line) (w : List UInt8), (∀ l ∈ ls, l.text ≠ []) ∧ (10 : UInt8) ∉ w ∧
      xs = Line.wires ls ++ w) ∨
      ∃ (b : Block) (ys : List UInt8), xs = b.wire ++ ys := by
  induction hn : xs.length using Nat.strong_induction_on generalizing xs with
  | h n ih =>
    rcases exists_line xs with hw | ⟨l, ys, rfl⟩
    · exact .inl ⟨[], xs, by simp, hw, rfl⟩
    · by_cases hl : l.text = []
      · exact .inr ⟨⟨[], l, by simp, hl⟩, ys, rfl⟩
      · have hlt : ys.length < n := by
          rw [← hn, Line.wire]
          simp
          omega
        rcases ih _ hlt ys rfl with ⟨ls, w, hls, hw, rfl⟩ | ⟨b, zs, rfl⟩
        · exact .inl ⟨l :: ls, w, by simpa [hl] using hls, hw, by simp [Line.wires]⟩
        · exact .inr ⟨⟨l :: b.lines, b.blank, by simpa [hl] using b.filled, b.blank_nil⟩, zs,
            by simp [Block.wire, Line.wires]⟩

structure ChunkedBody where
  chunks : List Chunk
  last : Line
  last_zero : strtol 16 (cstr last.text) = 0
  trailers : Block

namespace ChunkedBody

variable (b : ChunkedBody)

def wire : List UInt8 := (b.chunks.map Chunk.wire).flatten ++ b.last.wire ++ b.trailers.wire

def data : List UInt8 := (b.chunks.map Chunk.data).flatten

end ChunkedBody

/-- A status line, header lines, and a blank line. -/
structure Head where
  status : Line
  fields : Block

def Head.wire (h : Head) : List UInt8 := h.status.wire ++ h.fields.wire

namespace Response

variable {r r' : Response} {xs out rest : List UInt8}

/-! ## Lines -/

/-- What a response makes of a whole line. -/
def readLine (r : Response) (line : List UInt8) : Except Wobbly Response :=
  match r.state with
  | .statusLine => r.processStatusLine line
  | .headers => .ok (r.processHeaderLine line)
  | .trailers => .ok (r.processTrailerLine line)
  | .chunkLen => .ok (r.processChunkLenLine line)
  | .chunkEnd => .ok { r with state := .chunkLen }
  | .body | .complete => .ok r

theorem run_open (hs : isLineState r.state = true) {w : List UInt8} (hw : (10 : UInt8) ∉ w) :
    byByte.run r w = .ok ⟨{ r with lineBuf := r.lineBuf ++ w.filter (· ≠ 13) }, [], []⟩ := by
  induction w generalizing r with
  | nil => simp
  | cons c w ih =>
    obtain ⟨hc, hw⟩ := List.ne_and_not_mem_of_not_mem_cons hw
    have hn : byByte.next r c = _ := next_line hs c
    rw [if_neg (Ne.symm hc)] at hn
    by_cases h13 : c = 13
    · rw [if_pos h13] at hn
      rw [Reader.run_go hn, Reader.map_after_nil, ih hs hw, List.filter_cons_of_neg (by simp [h13])]
    · rw [if_neg h13] at hn
      have hrest := ih (r := { r with lineBuf := r.lineBuf ++ [c] }) hs hw
      rw [Reader.run_go hn, Reader.map_after_nil, hrest, List.filter_cons_of_pos (by simp [h13])]
      simp

/-- Nothing but `processLine` clears the line. -/
theorem processLine_eq (hb : r.lineBuf = []) (line : List UInt8) :
    { r with lineBuf := line }.processLine = r.readLine line := by
  obtain ⟨state, method, versionString, version, status, reason, headers, bytesRead,
    chunked, chunkLeft, length,
    willClose, lineBuf, headerAccum⟩ := r
  simp only at hb
  subst hb
  cases state with
  | statusLine =>
    simp only [processLine, readLine, processStatusLine]
    split
    · rfl
    · split <;> rfl
  | headers =>
    simp only [processLine, readLine, processHeaderLine, flushHeader, Except.map]
    congr 1
    split
    · split <;> split <;> rfl
    · split
      · rfl
      · split <;> rfl
  | trailers =>
    simp only [processLine, readLine, processTrailerLine, Except.map]
    split <;> rfl
  | chunkLen =>
    simp only [processLine, readLine, processChunkLenLine, Except.map]
    split <;> rfl
  | chunkEnd => rfl
  | body => rfl
  | complete => rfl

theorem readLine_lineBuf (hb : r.lineBuf = []) {line : List UInt8} (h : r.readLine line = .ok r') :
    r'.lineBuf = [] := by
  rw [← processLine_eq hb, processLine] at h
  obtain ⟨r₁, -, rfl⟩ := ok_of_map h
  rfl

/-- A whole line is read at once. -/
theorem run_line (hs : isLineState r.state = true) (hb : r.lineBuf = []) (l : Line)
    (ys : List UInt8) :
    byByte.run r (l.wire ++ ys) = (wobbly (r.readLine l.text)).bind fun r' => byByte.run r' ys := by
  rw [Line.wire, List.append_assoc, Reader.run_append (run_open hs l.one), Reader.map_after_nil,
    hb, List.nil_append]
  have hn : byByte.next { r with lineBuf := l.text } 10 = _ :=
    next_line (r := { r with lineBuf := l.text }) hs 10
  rw [if_pos rfl, processLine_eq hb] at hn
  cases hl : r.readLine l.text with
  | ok r' =>
    rw [hl] at hn
    rw [List.singleton_append, ← Line.text, Reader.run_go hn, Reader.map_after_nil]
    rfl
  | error w =>
    rw [hl] at hn
    rw [List.singleton_append, ← Line.text, Reader.run_fail hn]
    rfl

theorem run_line_ok (hs : isLineState r.state = true) (hb : r.lineBuf = []) {l : Line}
    (h : r.readLine l.text = .ok r') (ys : List UInt8) :
    byByte.run r (l.wire ++ ys) = byByte.run r' ys := by
  rw [run_line hs hb, h]
  rfl

/-- Blocks are read line by line, in a state that a line leaves only when it is blank. -/
theorem run_lines {S : ResponseState} {f : Response → List UInt8 → Response}
    (hS : isLineState S = true)
    (hf : ∀ r : Response, r.state = S → ∀ l, r.readLine l = .ok (f r l) ∧
      (l ≠ [] → (f r l).state = S))
    (hs : r.state = S) (hb : r.lineBuf = []) {ls : List Line} (hls : ∀ l ∈ ls, l.text ≠ [])
      (ys : List UInt8) :
    ∃ r', byByte.run r (Line.wires ls ++ ys) = byByte.run r' ys ∧ r'.state = S ∧ r'.lineBuf = [] ∧
      r' = (ls.map Line.text).foldl f r := by
  induction ls generalizing r with
  | nil => exact ⟨r, rfl, hs, hb, rfl⟩
  | cons l ls ih =>
    obtain ⟨hread, hkeep⟩ := hf r hs l.text
    have hl := hls l List.mem_cons_self
    obtain ⟨r', hr', hs', hb', he⟩ :=
      ih (hkeep hl) (readLine_lineBuf hb hread) (List.forall_mem_of_forall_mem_cons hls)
    refine ⟨r', ?_, hs', hb', he⟩
    rw [Line.wires, List.map_cons, List.flatten_cons, List.append_assoc,
      run_line_ok (by rw [hs]; exact hS) hb hread]
    exact hr'

/-! ## Chunks -/

/-- Behind a chunk. -/
def afterChunk (r : Response) (c : Chunk) : Response :=
  { r with bytesRead := r.bytesRead + c.data.length, chunkLeft := 0 }

theorem readLine_chunkLen (hs : r.state = .chunkLen) (line : List UInt8) :
    r.readLine line = .ok (r.processChunkLenLine line) := by
  rw [readLine, hs]

/-- Before the data of a chunk, and behind it. -/
theorem run_chunk_data (r : Response) (hc : r.chunked = true) {data : List UInt8} (hne : data ≠ [])
    (ys : List UInt8) :
    byByte.run { r with chunkLeft := data.length, state := .body } (data ++ ys) =
      (byByte.run
        { r with bytesRead := r.bytesRead + data.length, chunkLeft := 0, state := .chunkEnd }
        ys).map (·.after data) := by
  have hbody := run_body (r := { r with chunkLeft := data.length, state := .body }) rfl hne
    (by simp [room, hc])
  rw [Reader.run_append hbody]
  simp [taken, advanced, settled, room, hc]

theorem run_chunk
    (hs : r.state = .chunkLen) (hc : r.chunked = true) (hb : r.lineBuf = []) (c : Chunk)
    (ys : List UInt8) :
    byByte.run r (c.wire ++ ys) = (byByte.run (r.afterChunk c) ys).map (·.after c.data) := by
  have hne : (c.data.length : Int) ≠ 0 := by
    have := List.length_pos_of_ne_nil c.ne_nil
    omega
  have hsize : r.readLine c.size.text =
    .ok { r with chunkLeft := c.data.length, state := .body } := by
    rw [readLine_chunkLen hs, processChunkLenLine, c.counts, if_neg hne]
  have hend : byByte.run { r.afterChunk c with state := .chunkEnd } (c.ending.wire ++ ys) =
      byByte.run { r.afterChunk c with state := .chunkLen } ys :=
    run_line_ok (r := { r.afterChunk c with state := .chunkEnd }) rfl hb rfl ys
  have hdata := run_chunk_data r hc c.ne_nil (c.ending.wire ++ ys)
  rw [Chunk.wire, List.append_assoc, List.append_assoc, run_line_ok (by rw [hs]; rfl) hb hsize,
    hdata]
  show (byByte.run { r.afterChunk c with state := .chunkEnd } _).map _ = _
  rw [hend, ← hs]
  rfl

/-- Behind a body in chunks. -/
def afterChunks (r : Response) (b : ChunkedBody) : Response :=
  { r with state := .complete, bytesRead := r.bytesRead +
    b.data.length, chunkLeft := 0, headerAccum := [] }

theorem trailers_step (r : Response) (hs : r.state = .trailers) (l : List UInt8) :
    r.readLine l = .ok (r.processTrailerLine l) ∧
    (l ≠ [] → (r.processTrailerLine l).state = .trailers) := by
  refine ⟨by rw [readLine, hs], fun hl => ?_⟩
  rw [processTrailerLine, if_neg hl]
  exact hs

theorem run_trailers (hs : r.state = .trailers) (hb : r.lineBuf = []) (b : Block)
    (ys : List UInt8) :
    byByte.run r (b.wire ++ ys) = .ok ⟨r.finish, [], ys⟩ := by
  have hsame : ∀ ls : List Line, (∀ l ∈ ls, l.text ≠ []) →
    (ls.map Line.text).foldl processTrailerLine r = r := by
    intro ls hls
    induction ls with
    | nil => rfl
    | cons l ls ih =>
      rw [List.map_cons, List.foldl_cons, processTrailerLine, if_neg (hls l List.mem_cons_self),
        ih (List.forall_mem_of_forall_mem_cons hls)]
  obtain ⟨r', hr', -, -, he⟩ := run_lines rfl trailers_step hs hb b.filled (b.blank.wire ++ ys)
  rw [hsame _ b.filled] at he
  subst he
  have hblank : r'.readLine b.blank.text = .ok r'.finish := by
    rw [b.blank_nil, (trailers_step r' hs []).1, processTrailerLine, if_pos rfl]
  rw [Block.wire, List.append_assoc, hr', run_line_ok (by rw [hs]; rfl) hb hblank]
  exact Reader.run_of_stopped (M := byByte) (next_complete rfl) ys

theorem run_chunks
    (hs : r.state = .chunkLen) (hc : r.chunked = true) (hb : r.lineBuf = []) (b : ChunkedBody)
    (ys : List UInt8) :
    byByte.run r (b.wire ++ ys) = .ok ⟨r.afterChunks b, b.data, ys⟩ := by
  obtain ⟨chunks, last, hlast, trailers⟩ := b
  induction chunks generalizing r with
  | nil =>
    simp only [ChunkedBody.wire, List.map_nil, List.flatten_nil, List.nil_append, List.append_assoc]
    have hread : r.readLine last.text = .ok { r with
      chunkLeft := 0, state := .trailers, headerAccum := [] } := by
      rw [readLine_chunkLen hs, processChunkLenLine, hlast, if_pos rfl]
    have htrailers := run_trailers
      (r := { r with chunkLeft := 0, state := .trailers, headerAccum := [] }) rfl hb
      trailers ys
    rw [run_line_ok (by rw [hs]; rfl) hb hread, htrailers]
    simp [finish, afterChunks, ChunkedBody.data]
  | cons c chunks ih =>
    have hrest := ih (r := r.afterChunk c) hs hc hb
    simp only [ChunkedBody.wire, List.map_cons, List.flatten_cons, List.append_assoc] at hrest ⊢
    rw [run_chunk hs hc hb, hrest]
    simp [Except.map, Read.after, afterChunks, afterChunk, ChunkedBody.data, Int.add_assoc]

/-- The response is complete behind these bytes. -/
def Completes (r : Response) (xs out rest : List UInt8) : Prop :=
  ∃ r', byByte.run r xs = .ok ⟨r', out, rest⟩ ∧ r'.state = .complete

theorem Completes.congr {r t : Response} {xs ys : List UInt8}
    (h : byByte.run r xs = byByte.run t ys) :
    r.Completes xs out rest ↔ t.Completes ys out rest := by
  rw [Completes, Completes, h]

theorem not_completes {s : Response} {o : List UInt8} (h : byByte.run r xs = .ok ⟨s, o, []⟩)
    (hs : s.state ≠ .complete) :
    ¬ r.Completes xs out rest := by
  rintro ⟨r', hr', hc⟩
  rw [h] at hr'
  cases hr'
  exact hs hc

theorem Completes.after {t : Response} {ys o : List UInt8}
    (h : byByte.run r xs = (byByte.run t ys).map (·.after o)) (hc : r.Completes xs out rest) :
    ∃ out', out = o ++ out' ∧ t.Completes ys out' rest := by
  obtain ⟨r', hr', hs⟩ := hc
  rw [h] at hr'
  obtain ⟨⟨s, o', rs⟩, ht, he⟩ := ok_of_map hr'
  cases he
  exact ⟨o', rfl, _, ht, hs⟩

theorem Completes.line (h : r.Completes xs out rest) (hs : isLineState r.state = true)
    (hb : r.lineBuf = []) :
    ∃ (l : Line) (ys : List UInt8) (r' : Response), xs = l.wire ++ ys ∧ r.readLine l.text = .ok r' ∧
    r'.Completes ys out rest := by
  rcases exists_line xs with hw | ⟨l, ys, rfl⟩
  · exact absurd h (not_completes (run_open hs hw) (isLineState_iff.mp hs).2)
  · cases hl : r.readLine l.text with
    | ok r' => exact ⟨l, ys, r', rfl, hl, (Completes.congr (run_line_ok hs hb hl ys)).mp h⟩
    | error w =>
      obtain ⟨r', hr', -⟩ := h
      rw [run_line hs hb, hl] at hr'
      cases hr'

/-- A response that gets complete in a body has room for some bytes, and gets them. -/
theorem Completes.body (h : r.Completes xs out rest) (hs : r.state = .body) {n : Int}
    (hroom : r.room = some n)
    (hn : n ≠ 0) :
    ∃ (data ys : List UInt8), xs = data ++ ys ∧ data ≠ [] ∧ data.length = n := by
  cases xs with
  | nil =>
    refine absurd h (not_completes (Reader.run_nil r) ?_)
    rw [hs]
    simp
  | cons b xs =>
    rcases lt_trichotomy n 0 with hneg | rfl | hpos
    · obtain ⟨r', hr', -⟩ := h
      rw [Reader.run_fail (M := byByte) (next_backwards hs hroom hneg b)] at hr'
      cases hr'
    · exact absurd rfl hn
    · obtain ⟨k, rfl⟩ := Int.eq_ofNat_of_zero_le hpos.le
      by_cases hk : k ≤ (b :: xs).length
      · refine ⟨(b :: xs).take k, (b :: xs).drop k, (List.take_append_drop k _).symm, ?_, ?_⟩
        · refine List.ne_nil_of_length_pos ?_
          rw [List.length_take_of_le hk]
          omega
        · rw [List.length_take_of_le hk]
      · have hlt : ∀ m ∈ r.room, ((b :: xs).length : Int) < m := by
          rw [hroom]
          intro m hm
          cases hm
          omega
        have hrun := run_body hs (List.cons_ne_nil b xs) fun m hm => (hlt m hm).le
        refine absurd h (not_completes hrun ?_)
        rw [taken_lt hlt]
        show r.state ≠ .complete
        rw [hs]
        simp

theorem Completes.trailers (h : r.Completes xs out rest) (hs : r.state = .trailers)
    (hb : r.lineBuf = []) :
    ∃ b : Block, xs = b.wire ++ rest ∧ out = [] := by
  rcases exists_block xs with ⟨ls, w, hls, hw, rfl⟩ | ⟨b, ys, rfl⟩
  · obtain ⟨r', hr', hs', -, -⟩ := run_lines rfl trailers_step hs hb hls w
    have hopen := run_open (by rw [hs']; rfl) hw
    rw [← hr'] at hopen
    refine absurd h (not_completes hopen ?_)
    show r'.state ≠ .complete
    rw [hs']
    simp
  · obtain ⟨r', hr', -⟩ := h
    rw [run_trailers hs hb] at hr'
    cases hr'
    exact ⟨b, rfl, rfl⟩

/-- A body in chunks that gets complete is one. -/
theorem Completes.chunks (h : r.Completes xs out rest) (hs : r.state = .chunkLen)
    (hc : r.chunked = true)
    (hb : r.lineBuf = []) : ∃ b : ChunkedBody, xs = b.wire ++ rest ∧ out = b.data := by
  induction hn : xs.length using Nat.strong_induction_on generalizing r xs out with
  | h n ih =>
    obtain ⟨l, ys, r₁, rfl, hread, h₁⟩ := h.line (by rw [hs]; rfl) hb
    have hb₁ := readLine_lineBuf hb hread
    rw [readLine_chunkLen hs, processChunkLenLine] at hread
    split at hread
    · rename_i hz
      cases hread
      obtain ⟨b, rfl, rfl⟩ := h₁.trailers rfl hb₁
      exact ⟨⟨[], l, hz, b⟩, by simp [ChunkedBody.wire], rfl⟩
    · rename_i hz
      cases hread
      obtain ⟨data, zs, rfl, hne, hlen⟩ := h₁.body rfl (by simp only [room, hc, if_true]) hz
      obtain ⟨out', rfl, h₂⟩ := Completes.after (run_chunk_data r hc hne zs) (by rwa [hlen])
      obtain ⟨l', ws, r₃, rfl, hread', h₃⟩ := h₂.line rfl hb
      cases hread'
      have hlt : ws.length < n := by
        rw [← hn, Line.wire, Line.wire]
        simp only [List.length_append]
        omega
      obtain ⟨b, rfl, rfl⟩ := ih _ hlt h₃ rfl hc hb rfl
      exact ⟨⟨⟨l, data, l', hlen.symm, hne⟩ :: b.chunks, b.last, b.last_zero, b.trailers⟩,
        by simp [ChunkedBody.wire, Chunk.wire], by simp [ChunkedBody.data]⟩

/-! ## Announced lengths -/

/-- A body of length 0 is over with a byte behind it. -/
theorem run_empty (hs : r.state = .body) (hc : r.chunked = false)
    (hroom : r.room = some 0) (hne : xs ≠ []) :
    byByte.run r xs = .ok ⟨r.finish, [], xs⟩ := by
  have hset : r.settled = r.finish := by simp [settled, hs, hroom, hc, finish]
  cases xs with
  | nil => exact absurd rfl hne
  | cons b xs =>
    refine Reader.run_stop (M := byByte) ?_
    show r.next b = _
    rw [← next_settled, hset, next_complete rfl]

/-- Without a length, all that comes is body. -/
theorem run_toClose (hs : r.state = .body) (hroom : r.room = none) (xs : List UInt8) :
    byByte.run r xs = .ok ⟨r.advanced xs.length, xs, []⟩ := by
  cases xs with
  | nil =>
    rw [List.length_nil, advanced_zero]
    rfl
  | cons b xs =>
    have hall : ∀ n ∈ r.room, ((b :: xs).length : Int) < n := by
      rw [hroom]
      intro n hn
      cases hn
    rw [run_body hs (List.cons_ne_nil b xs) fun n hn => (hall n hn).le, taken_lt hall]

/-- Behind a body of the announced length. -/
theorem run_sized (hs : r.state = .body) (hc : r.chunked = false) (hread : r.bytesRead = 0)
    (hlen : r.length = out.length) (hne : out ≠ []) (ys : List UInt8) :
    byByte.run r (out ++ ys) =
      .ok ⟨{ r with bytesRead := out.length, state := .complete }, out, ys⟩ := by
  have h1 : r.length ≠ -1 := by omega
  have hroom : r.room = some (out.length : Int) := by
    rw [room, hc, if_neg Bool.false_ne_true, if_neg h1, hread, hlen, Int.sub_zero]
  have hle : ∀ n ∈ r.room, (out.length : Int) ≤ n := by
    rw [hroom]
    intro n hn
    cases hn
    exact le_rfl
  have htaken : r.taken out.length = { r with bytesRead := out.length, state := .complete } := by
    simp [taken, advanced, settled, room, hc, hs, h1, hread, ← hlen]
  rw [Reader.run_append (run_body hs hne hle), htaken,
    Reader.run_of_stopped (M := byByte) (next_complete rfl)]
  simp [Except.map, Read.after]

/-- A body without chunks gets complete with as many bytes as were announced, and with one more if
there were none. -/
theorem sizedBody_iff (hs : r.state = .body) (hc : r.chunked = false) (hread : r.bytesRead = 0) :
    r.Completes xs out rest ↔ xs = out ++ rest ∧ r.length = out.length ∧
    (out = [] → rest ≠ []) := by
  constructor
  · intro h
    by_cases h1 : r.length = -1
    · have hroom : r.room = none := by rw [room, hc, if_neg Bool.false_ne_true, if_pos h1]
      refine absurd h (not_completes (run_toClose hs hroom xs) ?_)
      show r.state ≠ .complete
      rw [hs]
      simp
    · have hroom : r.room = some r.length := by
        rw [room, hc, if_neg Bool.false_ne_true, if_neg h1, hread, Int.sub_zero]
      by_cases h0 : r.length = 0
      · rw [h0] at hroom
        have hne : xs ≠ [] := by
          rintro rfl
          refine not_completes (Reader.run_nil r) ?_ h
          rw [hs]
          simp
        obtain ⟨r', hr', -⟩ := h
        rw [run_empty hs hc hroom hne] at hr'
        cases hr'
        exact ⟨rfl, h0, fun _ => hne⟩
      · obtain ⟨data, ys, rfl, hne, hlen⟩ := h.body hs hroom h0
        obtain ⟨r', hr', -⟩ := h
        rw [run_sized hs hc hread hlen.symm hne] at hr'
        cases hr'
        exact ⟨rfl, hlen.symm, fun h => absurd h hne⟩
  · rintro ⟨rfl, hlen, hrest⟩
    by_cases hne : out = []
    · subst hne
      have hroom : r.room = some 0 := by simp [room, hc, hread, hlen]
      exact ⟨_, run_empty hs hc hroom (hrest rfl), rfl⟩
    · exact ⟨_, run_sized hs hc hread hlen hne rest, rfl⟩

/-! ## Heads -/

/-- What a response makes of a head. -/
def readHead (r : Response) (h : Head) : Except Wobbly Response :=
  (r.processStatusLine h.status.text).map fun r =>
    ((h.fields.lines.map Line.text).foldl processHeaderLine r).processHeaderLine []

/-- Heads of interim responses, and the last. -/
inductive Heads : Response → List UInt8 → Response → Prop
  | last {r r' : Response} {h : Head} : r.readHead h = .ok r' →
      r'.status ≠ CONTINUE → Heads r h.wire r'
  | interim {r r₁ r' : Response} {h : Head} {w : List UInt8} :
    r.readHead h = .ok r₁ → r₁.status = CONTINUE → Heads r₁ w r' → Heads r (h.wire ++ w) r'

theorem headers_step (r : Response) (hs : r.state = .headers) (l : List UInt8) :
    r.readLine l = .ok (r.processHeaderLine l) ∧
    (l ≠ [] → (r.processHeaderLine l).state = .headers) := by
  refine ⟨by rw [readLine, hs], fun hl => ?_⟩
  simp only [processHeaderLine, if_neg hl, flushHeader]
  split
  · exact hs
  · split <;> exact hs

theorem statusLine_step (hs : r.state = .statusLine) (l : List UInt8) :
    r.readLine l = r.processStatusLine l := by
  rw [readLine, hs]

theorem processStatusLine_ok {l : List UInt8} (h : r.processStatusLine l = .ok r') :
    r'.state = .headers ∧ r'.bytesRead = r.bytesRead ∧ r'.method = r.method := by
  simp only [processStatusLine] at h
  split at h
  · cases h
  · split at h
    · cases h
    · cases h
      exact ⟨rfl, rfl, rfl⟩

theorem run_head (hs : r.state = .statusLine) (hb : r.lineBuf = []) {h : Head}
    (hr : r.readHead h = .ok r')
    (ys : List UInt8) : byByte.run r (h.wire ++ ys) = byByte.run r' ys ∧ r'.lineBuf = [] := by
  obtain ⟨r₁, hstatus, rfl⟩ := ok_of_map hr
  have hread : r.readLine h.status.text = .ok r₁ := by rw [statusLine_step hs, hstatus]
  have hb₁ := readLine_lineBuf hb hread
  have hs₁ := (processStatusLine_ok hstatus).1
  obtain ⟨r₂, hr₂, hs₂, hb₂, rfl⟩ :=
    run_lines rfl headers_step hs₁ hb₁ h.fields.filled (h.fields.blank.wire ++ ys)
  have hblank := (headers_step _ hs₂ h.fields.blank.text).1
  rw [h.fields.blank_nil] at hblank
  refine ⟨?_, readLine_lineBuf hb₂ hblank⟩
  rw [Head.wire, Block.wire, List.append_assoc, List.append_assoc,
    run_line_ok (by rw [hs]; rfl) hb hread, hr₂]
  exact run_line_ok (by rw [hs₂]; rfl) hb₂ (by rw [h.fields.blank_nil]; exact hblank) ys

/-- What no header line changes. -/
structure SameReply (r r' : Response) : Prop where
  state : r'.state = r.state
  status : r'.status = r.status
  method : r'.method = r.method
  bytesRead : r'.bytesRead = r.bytesRead

theorem flushHeader_same (r : Response) : SameReply r r.flushHeader := by
  unfold flushHeader
  split <;> exact ⟨rfl, rfl, rfl, rfl⟩

theorem processHeaderLine_same (r : Response) {l : List UInt8} (hl : l ≠ []) :
    SameReply r (r.processHeaderLine l) := by
  obtain ⟨h1, h2, h3, h4⟩ := flushHeader_same r
  simp only [processHeaderLine, if_neg hl]
  split
  · exact ⟨rfl, rfl, rfl, rfl⟩
  · exact ⟨h1, h2, h3, h4⟩

theorem headerLines_same (r : Response) {ls : List (List UInt8)} (hls : ∀ l ∈ ls, l ≠ []) :
    SameReply r (ls.foldl processHeaderLine r) := by
  induction ls generalizing r with
  | nil => exact ⟨rfl, rfl, rfl, rfl⟩
  | cons l ls ih =>
    obtain ⟨h1, h2, h3, h4⟩ := processHeaderLine_same r (hls l List.mem_cons_self)
    obtain ⟨h5, h6, h7, h8⟩ := ih (r.processHeaderLine l) (List.forall_mem_of_forall_mem_cons hls)
    exact ⟨h5.trans h1, h6.trans h2, h7.trans h3, h8.trans h4⟩

/-- What is left where a head is over. -/
theorem readHead_state {h : Head} (hr : r.readHead h = .ok r') :
    (r'.status = CONTINUE → r'.state = .statusLine) ∧
      (r'.status ≠ CONTINUE → r'.state = if r'.chunked then .chunkLen else .body) ∧
      r'.bytesRead = r.bytesRead := by
  obtain ⟨r₁, hstatus, rfl⟩ := ok_of_map hr
  obtain ⟨hs₁, hread₁, -⟩ := processStatusLine_ok hstatus
  have hsame := headerLines_same r₁ h.fields.texts_filled
  have hflush := flushHeader_same ((h.fields.lines.map Line.text).foldl processHeaderLine r₁)
  have hread := (hflush.bytesRead.trans hsame.bytesRead).trans hread₁
  simp only [processHeaderLine, if_pos]
  split
  · rename_i hc
    exact ⟨fun _ => rfl, fun hn => absurd hc hn, hread⟩
  · rename_i hc
    exact ⟨fun hn => absurd hn hc, fun _ => rfl, hread⟩

theorem Heads.run {w : List UInt8} (h : Heads r w r') (hs : r.state = .statusLine)
    (hb : r.lineBuf = []) (ys : List UInt8) :
    byByte.run r (w ++ ys) = byByte.run r' ys ∧ r'.lineBuf = [] ∧ r'.bytesRead = r.bytesRead ∧
      r'.state = if r'.chunked then .chunkLen else .body := by
  induction h with
  | last hr hstatus =>
    obtain ⟨hrun, hb'⟩ := run_head hs hb hr ys
    obtain ⟨-, hstate, hread⟩ := readHead_state hr
    exact ⟨hrun, hb', hread, hstate hstatus⟩
  | @interim r r₁ r' h w hr hstatus _ ih =>
    obtain ⟨hrun, hb₁⟩ := run_head hs hb hr (w ++ ys)
    obtain ⟨hstate, -, hread⟩ := readHead_state hr
    obtain ⟨hrest, hb', hread', hstate'⟩ := ih (hstate hstatus) hb₁
    exact ⟨by rw [List.append_assoc, hrun, hrest], hb', hread'.trans hread, hstate'⟩

/-- A response that got past its heads has read them. -/
theorem heads_of_run {s : Response} (hs : r.state = .statusLine) (hb : r.lineBuf = [])
    (h : byByte.run r xs = .ok ⟨s, out, rest⟩) (hend : s.state ≠ .statusLine ∧ s.state ≠ .headers) :
    ∃ (w ys : List UInt8) (r' : Response), Heads r w r' ∧ xs = w ++ ys ∧
      byByte.run r' ys = .ok ⟨s, out, rest⟩ := by
  induction hn : xs.length using Nat.strong_induction_on generalizing r xs with
  | h n ih =>
    rcases exists_line xs with hw | ⟨l, ys, rfl⟩
    · rw [run_open (by rw [hs]; rfl) hw] at h
      cases h
      exact absurd hs hend.1
    · rw [run_line (by rw [hs]; rfl) hb] at h
      obtain ⟨r₁, hstatus, h₁⟩ := ok_of_bind h
      have hread := wobbly_ok hstatus
      have hb₁ := readLine_lineBuf hb hread
      rw [statusLine_step hs] at hread
      have hs₁ := (processStatusLine_ok hread).1
      rcases exists_block ys with ⟨ls, w, hls, hw, rfl⟩ | ⟨b, zs, rfl⟩
      · obtain ⟨r₂, hr₂, hs₂, -, -⟩ := run_lines rfl headers_step hs₁ hb₁ hls w
        rw [hr₂, run_open (by rw [hs₂]; rfl) hw] at h₁
        cases h₁
        exact absurd hs₂ hend.2
      · have hhead : r.readHead ⟨l, b⟩ =
          .ok (((b.lines.map Line.text).foldl processHeaderLine r₁).processHeaderLine []) := by
          rw [readHead, hread]
          rfl
        obtain ⟨hrun, hb₂⟩ := run_head hs hb hhead zs
        obtain ⟨hinterim, -, -⟩ := readHead_state hhead
        have hsplit : l.wire ++ (b.wire ++ zs) = Head.wire ⟨l, b⟩ ++ zs := by
          rw [Head.wire, List.append_assoc]
        generalize
            ((b.lines.map Line.text).foldl processHeaderLine r₁).processHeaderLine [] = r₂ at *
        have h₂ : byByte.run r₂ zs = .ok ⟨s, out, rest⟩ := by
          rw [← hrun, ← hsplit, run_line_ok (by rw [hs]; rfl) hb
            (by rw [statusLine_step hs]; exact hread)]
          exact h₁
        by_cases hc : r₂.status = CONTINUE
        · have hlt : zs.length < n := by
            rw [← hn, Line.wire]
            simp only [List.length_append, List.length_cons]
            omega
          obtain ⟨w, ys, r', hw, rfl, hrest⟩ := ih _ hlt (hinterim hc) hb₂ h₂ rfl
          exact ⟨_, ys, r', .interim hhead hc hw, by rw [hsplit, List.append_assoc], hrest⟩
        · exact ⟨_, zs, r₂, .last hhead hc, hsplit, h₂⟩

/-! ## Replies -/

/-- Behind the heads: what they announced stays. -/
structure Announced (r s : Response) : Prop where
  past : s.state ≠ .statusLine ∧ s.state ≠ .headers
  chunked : s.chunked = r.chunked
  length : s.length = r.length
  status : s.status = r.status
  headers : s.headers = r.headers

theorem settled_announced {s : Response} (h : Announced r s) : Announced r s.settled := by
  obtain ⟨hp, h1, h2, h3, h4⟩ := h
  unfold settled
  split
  · refine ⟨?_, h1, h2, h3, h4⟩
    show (if s.chunked then ResponseState.chunkEnd else .complete) ≠ .statusLine ∧ _
    split <;> simp
  · exact ⟨hp, h1, h2, h3, h4⟩

theorem taken_announced {s : Response} (h : Announced r s) (n : Nat) : Announced r (s.taken n) :=
  settled_announced ⟨h.past, h.chunked, h.length, h.status, h.headers⟩

theorem processLine_announced {s s' : Response} (h : Announced r s) (hl : s.processLine = .ok s') :
    Announced r s' := by
  obtain ⟨⟨h5, h6⟩, h1, h2, h3, h4⟩ := h
  obtain ⟨s₁, hs₁, rfl⟩ := ok_of_map hl
  cases hs : s.state with
  | statusLine => exact absurd hs h5
  | headers => exact absurd hs h6
  | trailers =>
    simp only [hs, processTrailerLine, Except.ok.injEq] at hs₁
    subst hs₁
    split <;> exact ⟨by simp [finish, hs], h1, h2, h3, h4⟩
  | chunkLen =>
    simp only [hs, processChunkLenLine, Except.ok.injEq] at hs₁
    subst hs₁
    split <;> exact ⟨by simp, h1, h2, h3, h4⟩
  | chunkEnd =>
    simp only [hs, Except.ok.injEq] at hs₁
    subst hs₁
    exact ⟨by simp, h1, h2, h3, h4⟩
  | body =>
    simp only [hs, Except.ok.injEq] at hs₁
    subst hs₁
    exact ⟨⟨h5, h6⟩, h1, h2, h3, h4⟩
  | complete =>
    simp only [hs, Except.ok.injEq] at hs₁
    subst hs₁
    exact ⟨⟨h5, h6⟩, h1, h2, h3, h4⟩

theorem next_announced {s s' : Response} {b : UInt8} {o : List UInt8} (h : Announced r s)
    (hn : s.next b = .go s' o ∨ s.next b = .stop s') : Announced r s' := by
  have hset := settled_announced h
  unfold next byteNext at hn
  split at hn
  · rcases hn with hn | hn
    · cases hn
    · cases hn
      exact hset
  · split at hn
    · rcases hn with hn | hn
      · cases hn
        exact taken_announced hset 1
      · cases hn
    · split at hn
      · rcases hn with hn | hn <;> cases hn
      · rcases hn with hn | hn
        · cases hn
          exact taken_announced hset 1
        · cases hn
  · split at hn
    · split at hn
      · rename_i hl
        rcases hn with hn | hn
        · cases hn
          exact processLine_announced hset hl
        · cases hn
      · rcases hn with hn | hn <;> cases hn
    · split at hn
      · rcases hn with hn | hn
        · cases hn
          exact hset
        · cases hn
      · rcases hn with hn | hn
        · cases hn
          exact ⟨hset.past, hset.chunked, hset.length, hset.status, hset.headers⟩
        · cases hn

theorem run_announced {s : Response} (hs : r.state ≠ .statusLine ∧ r.state ≠ .headers)
    (h : byByte.run r xs = .ok ⟨s, out, rest⟩) : Announced r s :=
  Reader.run_inv (M := byByte) (I := fun s _ => Announced r s) (o := [])
    (fun _ _ _ _ _ hI hn => next_announced hI (.inl hn)) (fun _ _ _ _ hI hn =>
      next_announced (o := []) hI (.inr hn))
    ⟨hs, rfl, rfl, rfl, rfl⟩ h

theorem room_none : r.room = none ↔ r.chunked = false ∧ r.length = -1 := by
  unfold room
  cases r.chunked <;> simp

/-- A body, with what is behind it: a response without a body is over with the next byte only. -/
def Framed (r : Response) (wire out rest : List UInt8) : Prop :=
  if r.chunked then ∃ b : ChunkedBody, wire = b.wire ∧ out = b.data
  else wire = out ∧ r.length = out.length ∧ (out = [] → rest ≠ [])

theorem new_heads {method w : List UInt8} (h : Heads (new method) w r) (ys : List UInt8) :
    byByte.run (new method) (w ++ ys) = byByte.run r ys ∧ r.lineBuf = [] ∧ r.bytesRead = 0 ∧
      r.state = if r.chunked then .chunkLen else .body :=
  h.run rfl rfl ys

theorem framed_iff (hb : r.lineBuf = []) (hread : r.bytesRead = 0)
    (hs : r.state = if r.chunked then .chunkLen else .body) :
    r.Completes xs out rest ↔ ∃ wire, xs = wire ++ rest ∧ r.Framed wire out rest := by
  unfold Framed
  cases hc : r.chunked with
  | true =>
    rw [hc, if_pos rfl] at hs
    simp only [if_true]
    constructor
    · intro h
      obtain ⟨b, rfl, rfl⟩ := h.chunks hs hc hb
      exact ⟨b.wire, rfl, b, rfl, rfl⟩
    · rintro ⟨-, rfl, b, rfl, rfl⟩
      exact ⟨_, run_chunks hs hc hb b rest, rfl⟩
  | false =>
    rw [hc, if_neg Bool.false_ne_true] at hs
    simp only [Bool.false_eq_true, if_false]
    rw [sizedBody_iff hs hc hread]
    constructor
    · rintro ⟨rfl, hlen, hrest⟩
      exact ⟨out, rfl, rfl, hlen, hrest⟩
    · rintro ⟨wire, rfl, rfl, hlen, hrest⟩
      exact ⟨rfl, hlen, hrest⟩

/-- **The strings a response is complete with**: heads, all but the last of
them interim, and a body as they frame it. -/
theorem completes_iff (method : List UInt8) :
    (new method).Completes xs out rest ↔
      ∃ (w wire : List UInt8) (r : Response), Heads (new method) w r ∧ xs = w ++ wire ++ rest ∧
      r.Framed wire out rest := by
  constructor
  · rintro ⟨s, hrun, hs⟩
    obtain ⟨w, ys, r, hw, rfl, hrest⟩ := heads_of_run rfl rfl hrun (by rw [hs]; simp)
    obtain ⟨-, hb, hread, hstate⟩ := new_heads hw []
    obtain ⟨wire, rfl, hf⟩ := (framed_iff hb hread hstate).mp ⟨s, hrest, hs⟩
    exact ⟨w, wire, r, hw, by rw [List.append_assoc], hf⟩
  · rintro ⟨w, wire, r, hw, rfl, hf⟩
    obtain ⟨hrun, hb, hread, hstate⟩ := new_heads hw (wire ++ rest)
    rw [List.append_assoc, Completes.congr hrun]
    exact (framed_iff hb hread hstate).mpr ⟨wire, rfl, hf⟩

/-- The connection closes behind these bytes, and that completes the response. -/
def Closes (r : Response) (xs out : List UInt8) : Prop :=
  ∃ r', byByte.run r xs = .ok ⟨r', out, []⟩ ∧ r'.state ≠ .complete ∧
  r'.notifyconnectionclosed = .ok r'.finish

theorem notifyconnectionclosed_ok (hs : r.state ≠ .complete) :
    r.notifyconnectionclosed = .ok r.finish ↔ r.state = .body ∧ r.room = none := by
  unfold notifyconnectionclosed
  rw [if_neg hs]
  rw [room_none]
  split <;> simp_all

/-- **And those it is complete with when the connection closes**: no length,
and all that came is body. -/
theorem closes_iff (method : List UInt8) :
    (new method).Closes xs out ↔
      ∃ (w : List UInt8) (r : Response), Heads (new method) w r ∧ r.room = none ∧
      xs = w ++ out := by
  constructor
  · rintro ⟨s, hrun, hs, hclose⟩
    obtain ⟨hbody, hroom⟩ := (notifyconnectionclosed_ok hs).mp hclose
    obtain ⟨w, ys, r, hw, rfl, hrest⟩ := heads_of_run rfl rfl hrun (by rw [hbody]; simp)
    obtain ⟨-, -, -, hstate⟩ := new_heads hw []
    have hpast : r.state ≠ .statusLine ∧ r.state ≠ .headers := by
      rw [hstate]
      split <;> simp
    obtain ⟨-, hc, hlen, -, -⟩ := run_announced hpast hrest
    rw [room_none, hc, hlen, ← room_none] at hroom
    rw [(room_none.mp hroom).1, if_neg Bool.false_ne_true] at hstate
    rw [run_toClose hstate hroom] at hrest
    cases hrest
    exact ⟨w, r, hw, hroom, rfl⟩
  · rintro ⟨w, r, hw, hroom, rfl⟩
    obtain ⟨hrun, -, -, hstate⟩ := new_heads hw out
    rw [(room_none.mp hroom).1, if_neg Bool.false_ne_true] at hstate
    refine ⟨r.advanced out.length, by rw [hrun, run_toClose hstate hroom], ?_, ?_⟩
    · show r.state ≠ .complete
      rw [hstate]
      simp
    · refine (notifyconnectionclosed_ok ?_).mpr ⟨hstate, ?_⟩
      · show r.state ≠ .complete
        rw [hstate]
        simp
      · rw [room_advanced, hroom]
        rfl

/-- A close before the last byte of a complete reply is an exception. -/
theorem cut_close {ys : List UInt8} (h : r.Completes (xs ++ ys) out []) (hne : ys ≠ []) :
    ∃ s out', byByte.run r xs = .ok ⟨s, out', []⟩ ∧ s.state ≠ .complete ∧
      s.notifyconnectionclosed = .error .closedUnexpectedly := by
  obtain ⟨r', hrun, hc⟩ := h
  obtain ⟨s, out₁, out₂, hs, hrest, -⟩ := Reader.run_prefix hrun
  have hopen : s.state ≠ .complete := by
    intro hdone
    rw [Reader.run_of_stopped (M := byByte) (next_complete hdone)] at hrest
    cases hrest
    exact hne rfl
  refine ⟨s, out₁, hs, hopen, ?_⟩
  have hsized : ¬ (s.state = .body ∧ s.chunked = false ∧ s.length = -1) := by
    rintro ⟨hbody, hroom⟩
    rw [run_toClose hbody (room_none.mpr hroom)] at hrest
    cases hrest
    exact hopen hc
  rw [notifyconnectionclosed, if_neg hopen, if_neg hsized]

end Response
end MonitorAgent.L1.Http
