import MonitorAgent.L1Http.Response

/-!
# Responses byte by byte

What a response makes of the next byte (`next`), whatever piece it comes in, as
the reader `byByte`. A body has room for a number of bytes, or for as many as come;
one that has no room left is over, but a response whose body is empty learns that
with the next byte only.

* `pump_eq`: the loops of `pump` read a piece as the reader does.
* `pump_rest`: and leave nothing of it before the response is complete.
-/
namespace MonitorAgent.L1.Http

open Text

namespace Response

variable (r : Response)

/-- The bytes that the body, or the chunk, still takes. -/
def room : Option Int :=
  if r.chunked then some r.chunkLeft
  else if r.length = -1 then none
  else some (r.length - r.bytesRead)

/-- A body without room is over. -/
def settled : Response :=
  if r.state = .body ∧ r.room = some 0 then
  { r with state := if r.chunked then .chunkEnd else .complete } else r

def advanced (n : Nat) : Response :=
  { r with bytesRead := r.bytesRead + n, chunkLeft := if r.chunked then
    r.chunkLeft - n else r.chunkLeft }

/-- `n` more bytes of the body. -/
def taken (n : Nat) : Response := (r.advanced n).settled

def byteNext (r : Response) (b : UInt8) : Next Response UInt8 Halt :=
  match r.state with
  | .complete => .stop r
  | .body =>
    match r.room with
    | none => .go (r.taken 1) [b]
    | some n => if n < 0 then .fail (.backwards n) else .go (r.taken 1) [b]
  | _ =>
    if b = 10 then
      match r.processLine with
      | .ok r' => .go r' []
      | .error w => .fail (.wobbly w)
    else if b = 13 then .go r []
    else .go { r with lineBuf := r.lineBuf ++ [b] } []

def next (b : UInt8) : Next Response UInt8 Halt := r.settled.byteNext b

variable {r}

theorem settled_of_ne_body (h : r.state ≠ .body) : r.settled = r := if_neg fun h' => h h'.1

theorem settled_of_room (h : r.room ≠ some 0) : r.settled = r := if_neg fun h' => h h'.2

theorem settled_settled (r : Response) : r.settled.settled = r.settled := by
  by_cases h : r.state = .body ∧ r.room = some 0
  · refine settled_of_ne_body ?_
    rw [settled, if_pos h]
    show (if r.chunked then ResponseState.chunkEnd else .complete) ≠ .body
    split <;> simp
  · have hs : r.settled = r := if_neg h
    rw [hs, hs]

theorem next_settled (r : Response) (b : UInt8) : r.settled.next b = r.next b := by
  rw [next, next, settled_settled]

theorem next_complete (h : r.state = .complete) (b : UInt8) : r.next b = .stop r := by
  rw [next, settled_of_ne_body (by rw [h]; simp), byteNext, h]

theorem byteNext_stop {r r' : Response} {b : UInt8} (h : r.byteNext b = .stop r') :
    r'.state = .complete := by
  unfold byteNext at h
  split at h
  · rename_i hs
    cases h
    exact hs
  · split at h
    · cases h
    · split at h <;> cases h
  · split at h
    · split at h <;> cases h
    · split at h <;> cases h

theorem next_stop {r r' : Response} {b : UInt8} (h : r.next b = .stop r') : r'.state = .complete :=
  byteNext_stop h

/-- The response as a reader of bytes. -/
def byByte : Reader Response UInt8 UInt8 Halt where
  next := next
  stopped _ _ _ h b := next_complete (next_stop h) b

/-! ## Lines -/

theorem isLineState_iff {s : ResponseState} : isLineState s = true ↔ s ≠ .body ∧ s ≠ .complete := by
  cases s <;> simp [isLineState]

theorem next_line (h : isLineState r.state = true) (b : UInt8) :
    r.next b = if b = 10 then
        match r.processLine with
        | .ok r' => .go r' []
        | .error w => .fail (.wobbly w)
      else if b = 13 then .go r []
      else .go { r with lineBuf := r.lineBuf ++ [b] } [] := by
  obtain ⟨hb, hc⟩ := isLineState_iff.mp h
  rw [next, settled_of_ne_body hb, byteNext]
  cases hs : r.state <;> simp_all

/-- The inner loop reads as far as the line goes. -/
theorem accumulate_run (h : isLineState r.state = true) (data : List UInt8) :
    byByte.run r data = (wobbly (r.accumulate data)).bind fun p => byByte.run p.1 p.2 := by
  induction data generalizing r with
  | nil => rfl
  | cons c data ih =>
    have hn : byByte.next r c = _ := next_line h c
    unfold accumulate
    by_cases h10 : c = 10
    · rw [if_pos h10] at hn ⊢
      cases hl : r.processLine with
      | ok r' =>
        rw [hl] at hn
        rw [Reader.run_go hn, Reader.map_after_nil]
        rfl
      | error w =>
        rw [hl] at hn
        rw [Reader.run_fail hn]
        rfl
    · rw [if_neg h10] at hn ⊢
      by_cases h13 : c = 13
      · rw [if_pos h13] at hn ⊢
        rw [Reader.run_go hn, Reader.map_after_nil, ih h]
      · rw [if_neg h13] at hn ⊢
        rw [Reader.run_go hn, Reader.map_after_nil]
        exact ih h

theorem accumulate_lt {r r' : Response} {data data' : List UInt8}
    (h : r.accumulate data = .ok (r', data'))
    (hne : data ≠ []) : data'.length < data.length := by
  induction data generalizing r with
  | nil => exact absurd rfl hne
  | cons c data ih =>
    have hrec : ∀ r : Response, r.accumulate data = .ok (r', data') →
    data'.length < (c :: data).length := by
      intro r h
      cases data with
      | nil =>
        cases h
        simp
      | cons d data =>
        have := ih h (List.cons_ne_nil _ _)
        simp only [List.length_cons] at this ⊢
        omega
    unfold accumulate at h
    split at h
    · cases hl : r.processLine with
      | error w => rw [hl] at h; cases h
      | ok r₁ =>
        rw [hl] at h
        cases h
        simp
    · split at h
      · exact hrec _ h
      · exact hrec _ h

/-! ## Body -/

theorem next_body (h : r.state = .body) (hroom : ∀ n ∈ r.room, 0 < n) (b : UInt8) :
    r.next b = .go (r.taken 1) [b] := by
  have h0 : r.room ≠ some 0 := by
    intro h0
    exact absurd (hroom 0 h0) (by simp)
  rw [next, settled_of_room h0, byteNext, h]
  cases hr : r.room with
  | none => rfl
  | some n =>
    have := hroom n hr
    show (if n < 0 then _ else _) = _
    rw [if_neg (by omega)]

theorem next_backwards {n : Int} (h : r.state = .body) (hroom : r.room = some n)
    (hn : n < 0) (b : UInt8) :
    r.next b = .fail (.backwards n) := by
  have h0 : r.room ≠ some 0 := by
    rw [hroom]
    simp only [ne_eq, Option.some.injEq]
    omega
  rw [next, settled_of_room h0, byteNext, h, hroom]
  show (if n < 0 then _ else _) = _
  rw [if_pos hn]

theorem room_advanced (n : Nat) : (r.advanced n).room = r.room.map (· - (n : Int)) := by
  cases hc : r.chunked with
  | true => simp [room, advanced, hc]
  | false =>
    by_cases hl : r.length = -1
    · simp [room, advanced, hc, hl]
    · simp only [room, advanced, hc, hl, if_false, Bool.false_eq_true,
        Option.map_some, Option.some.injEq]
      omega

theorem advanced_advanced (n m : Nat) : (r.advanced n).advanced m = r.advanced (n + m) := by
  cases hc : r.chunked <;> simp [advanced, hc, Int.add_assoc, Int.sub_sub]

theorem taken_lt {n : Nat} (hroom : ∀ m ∈ r.room, (n : Int) < m) : r.taken n = r.advanced n := by
  refine settled_of_room ?_
  rw [room_advanced]
  intro h
  obtain ⟨m, hm, h0⟩ := Option.map_eq_some_iff.mp h
  have := hroom m hm
  omega

/-- Bytes that fit are body, and given out. -/
theorem run_body {data : List UInt8} (h : r.state = .body) (hne : data ≠ [])
    (hroom : ∀ n ∈ r.room, (data.length : Int) ≤ n) :
    byByte.run r data = .ok ⟨r.taken data.length, data, []⟩ := by
  induction data generalizing r with
  | nil => exact absurd rfl hne
  | cons b data ih =>
    have hpos : ∀ n ∈ r.room, 0 < n := by
      intro n hn
      have := hroom n hn
      simp only [List.length_cons] at this
      omega
    have hn : byByte.next r b = .go (r.taken 1) [b] := next_body h hpos b
    rw [Reader.run_go hn]
    cases data with
    | nil => rfl
    | cons c data =>
      have hlt : r.taken 1 = r.advanced 1 := by
        refine taken_lt fun n hn => ?_
        have := hroom n hn
        simp only [List.length_cons] at this
        omega
      have hrest : ∀ n ∈ (r.advanced 1).room, ((c :: data).length : Int) ≤ n := by
        rw [room_advanced]
        intro n hn
        obtain ⟨m, hm, rfl⟩ := Option.map_eq_some_iff.mp hn
        have := hroom m hm
        simp only [List.length_cons] at this ⊢
        omega
      have hs : (r.advanced 1).state = .body := h
      rw [hlt, ih hs (List.cons_ne_nil _ _) hrest, taken, advanced_advanced, ← taken]
      simp only [Except.map, Read.after, List.length_cons, List.singleton_append, Nat.add_comm 1]

/-- What the callback is given is what there is room for. -/
theorem processData_eq {data : List UInt8} (h : r.state = .body) :
    r.processData data =
      let n := r.room.elim (data.length : Int) fun m => min data.length m
      if n < 0 then .error (.backwards n) else .ok (r.taken n.toNat, n.toNat) := by
  unfold processData processDataChunked processDataNonChunked
  cases hc : r.chunked with
  | true =>
    simp only [room, hc, if_true, Option.elim_some]
    split
    · rfl
    · rename_i hn
      simp only [taken, settled, room, advanced, hc, h, if_true, true_and, Option.some.injEq,
        Int.toNat_of_nonneg (not_lt.mp hn)]
      split <;> simp_all
  | false =>
    by_cases hl : r.length = -1
    · simp only [room, hc, hl, if_true, Bool.false_eq_true, if_false, Option.elim_none]
      split
      · rfl
      · rename_i hn
        simp [taken, settled, room, advanced, hc, hl]
    · simp only [room, hc, hl, Bool.false_eq_true, if_false, Option.elim_some]
      split
      · rfl
      · rename_i hn
        have he : r.bytesRead + min (data.length : Int) (r.length - r.bytesRead) = r.length ↔
            r.length - (r.bytesRead + min (data.length : Int) (r.length - r.bytesRead)) = 0 := by
            omega
        simp only [taken, settled, room, advanced, hc, h, hl, Bool.false_eq_true,
          if_false, true_and, ne_eq,
          not_false_eq_true, Option.some.injEq, Int.toNat_of_nonneg (not_lt.mp hn), he]
        split <;> simp_all [finish]

/-! ## The loops -/

/-- A pass that uses no byte leaves the body. -/
theorem taken_zero_state (h : r.state = .body) (hroom : r.room = some 0) :
    (r.taken 0).state ≠ .body := by
  have h0 : (r.advanced 0).state = .body ∧ (r.advanced 0).room = some 0 := by
    rw [room_advanced, hroom]
    exact ⟨h, rfl⟩
  rw [taken, settled, if_pos h0]
  show (if r.chunked then ResponseState.chunkEnd else .complete) ≠ .body
  split <;> simp

theorem advanced_zero (r : Response) : r.advanced 0 = r := by
  cases hc : r.chunked <;> simp [advanced]

/-- The passes that are left, counting two for a byte. -/
def passes (r : Response) (data : List UInt8) : Nat :=
  2 * data.length + if r.state = .body then 1 else 0

/-- What a body without room has left is for the next state. -/
theorem run_taken_zero {data : List UInt8} (hne : data ≠ []) :
    byByte.run (r.taken 0) data = byByte.run r data := by
  cases data with
  | nil => exact absurd rfl hne
  | cons b data =>
    have hn : byByte.next (r.taken 0) b = byByte.next r b := by
      show (r.advanced 0).settled.next b = r.next b
      rw [advanced_zero, next_settled]
    rw [Reader.run, Reader.run, hn]

/-- The bytes there is room for, then the others. -/
theorem run_body_append {data : List UInt8} {n : Nat} (h : r.state = .body) (hpos : 0 < n)
    (hle : n ≤ data.length)
    (hroom : ∀ m ∈ r.room, (n : Int) ≤ m) :
    byByte.run r data = (byByte.run (r.taken n) (data.drop n)).map (·.after (data.take n)) := by
  have hlen : (data.take n).length = n := List.length_take_of_le hle
  have hne : data.take n ≠ [] := List.ne_nil_of_length_pos (by omega)
  have htake := run_body h hne (by rwa [hlen])
  rw [hlen] at htake
  conv_lhs => rw [← List.take_append_drop n data]
  exact Reader.run_append htake _

/-- A pass over the body. -/
theorem pass_body {fuel : Nat} {data : List UInt8}
    (ih : ∀ {r : Response} {data : List UInt8}, passes r data ≤ fuel →
      pumpLoop fuel r data = byByte.run r data)
    (h : passes r data ≤ fuel + 1) (hbody : r.state = .body) (hne : data ≠ []) :
    ((r.processData data).bind fun p => (pumpLoop fuel p.1 (data.drop p.2)).map
      (·.after (data.take p.2))) =
      byByte.run r data := by
  have hlen : 0 < data.length := List.length_pos_of_ne_nil hne
  unfold passes at h
  rw [if_pos hbody] at h
  rw [processData_eq hbody]
  generalize hn : (r.room.elim (data.length : Int) fun m => min data.length m) = n
  rcases lt_trichotomy n 0 with hneg | rfl | hpos
  · obtain ⟨m, hm, rfl⟩ : ∃ m, r.room = some m ∧ m = n := by
      cases hr : r.room with
      | none => simp only [hr, Option.elim_none] at hn; omega
      | some m => simp only [hr, Option.elim_some] at hn; exact ⟨m, rfl, by omega⟩
    cases data with
    | nil => exact absurd rfl hne
    | cons b data =>
      rw [Reader.run_fail (M := byByte) (next_backwards hbody hm hneg b), if_pos hneg]
      rfl
  · have hm : r.room = some 0 := by
      cases hr : r.room with
      | none => simp only [hr, Option.elim_none] at hn; omega
      | some m => simp only [hr, Option.elim_some] at hn; rw [show m = 0 by omega]
    have hstate := taken_zero_state hbody hm
    rw [if_neg (by simp), ← run_taken_zero hne]
    show (pumpLoop fuel (r.taken 0) data).map (·.after []) = _
    rw [Reader.map_after_nil]
    refine ih ?_
    unfold passes
    rw [if_neg hstate]
    omega
  · obtain ⟨k, rfl⟩ := Int.eq_ofNat_of_zero_le hpos.le
    have hle : k ≤ data.length ∧ ∀ m ∈ r.room, (k : Int) ≤ m := by
      cases hr : r.room with
      | none => simp only [hr, Option.elim_none] at hn; exact ⟨by omega, fun m hm => nomatch hm⟩
      | some m =>
        simp only [hr, Option.elim_some] at hn
        refine ⟨by omega, fun m' hm => ?_⟩
        cases hm
        omega
    have hloop : pumpLoop fuel (r.taken k) (data.drop k) =
      byByte.run (r.taken k) (data.drop k) := by
      refine ih ?_
      unfold passes
      rw [List.length_drop]
      split <;> omega
    rw [if_neg (by omega), run_body_append hbody (by omega) hle.1 hle.2, ← hloop]
    rfl

/-- Enough passes read what the reader reads. -/
theorem pumpLoop_eq {fuel : Nat} {data : List UInt8} (h : passes r data ≤ fuel) :
    pumpLoop fuel r data = byByte.run r data := by
  induction fuel generalizing r data with
  | zero =>
    have hd : data = [] := by
      rw [← List.length_eq_zero_iff]
      unfold passes at h
      omega
    subst hd
    rfl
  | succ fuel ih =>
    unfold pumpLoop
    by_cases hend : data = [] ∨ r.state = .complete
    · rw [if_pos hend]
      rcases hend with rfl | hc
      · rfl
      · exact (Reader.run_of_stopped (M := byByte) (next_complete hc) data).symm
    · obtain ⟨hne, hc⟩ := not_or.mp hend
      rw [if_neg hend]
      by_cases hline : isLineState r.state = true
      · rw [if_pos hline, accumulate_run hline]
        cases ha : r.accumulate data with
        | error w => rfl
        | ok p =>
          have hlt := accumulate_lt ha hne
          show pumpLoop fuel p.1 p.2 = byByte.run p.1 p.2
          refine ih ?_
          unfold passes at h ⊢
          split <;> omega
      · have hbody : r.state = .body := by
          by_contra hb
          exact hline (isLineState_iff.mpr ⟨hb, hc⟩)
        rw [if_neg hline]
        exact pass_body ih h hbody hne

/-- **A piece is read as the reader reads it.** -/
theorem pump_eq (r : Response) (data : List UInt8) : r.pump data = byByte.run r data := by
  refine pumpLoop_eq ?_
  unfold passes
  split <;> omega

/-- Bytes are left only behind a complete response. -/
theorem pump_rest {r r' : Response} {data out rest : List UInt8}
    (h : r.pump data = .ok ⟨r', out, rest⟩)
    (hr : rest ≠ []) : r'.state = .complete := by
  rw [pump_eq] at h
  cases rest with
  | nil => exact absurd rfl hr
  | cons b rest => exact next_stop (Reader.run_stopped h hr b)

end Response
end MonitorAgent.L1.Http
