import Mathlib.Data.List.DropRight
import MonitorAgent.L3Wall.VideoStream

/-!
# One decode takes one picture

The packets of a picture have one timestamp, and the picture ends where a packet
with another one is there (`pictureEnd?`). `decode_vid_frame` looks for the end
with a `last_ts` that starts as 0, so a picture stamped 0 is not seen to begin:
what follows it is taken for its continuation.

* `scan_picture`, `scan_noPicture`, `scan_endless`: where the first loop stops.
* `decodeScanned_spec`: what the codec gets and what is removed.
* `decodes_iff`: a decode ends and takes one picture, exactly if the first
  timestamp is not 0 or the only one, and `cnt` gets to where the loop stops.
* `zeroTs_notFound`: a picture stamped 0 and a packet of the next one; none is found.
-/
namespace MonitorAgent.L3

open ForLoop

def JbEntry.ts? : JbEntry → Option UInt32
  | .normal _ _ ts => some ts
  | .missing => none

/-- The timestamp of the first normal entry. -/
def firstTs? (jb : List JbEntry) : Option UInt32 := jb.findSome? JbEntry.ts?

/-- The index of the first normal entry with another timestamp than the first
one has. -/
def pictureEnd? (jb : List JbEntry) : Option Nat :=
  (firstTs? jb).bind fun t => jb.findIdx? fun e => e.ts?.any (· ≠ t)

def pictureTs (jb : List JbEntry) : UInt32 := (firstTs? jb).getD 0

section Decode

variable {ρ β κ : Type} (ext : Pjmedia ρ β κ)

/-- It ends, and with enough fuel it is this what it returns. -/
def Decodes (s : VidStream ρ β κ) (d : Decoded ρ β κ) : Prop :=
  ∃ n, ∀ fuel, n ≤ fuel → decodeVidFrame ext fuel s = some d

/-- The packets of exactly one picture are taken, or none. -/
structure OnePicture (s : VidStream ρ β κ) (d : Decoded ρ β κ) : Prop where
  status : d.status = .success ↔ (pictureEnd? (ext.entries s.jb)).isSome
  taken : ∀ c ∈ pictureEnd? (ext.entries s.jb),
    (∀ i ∈ d.written, i < s.rx.cnt.toNat) ∧
      d.given = some ((((ext.entries s.jb).take c).rtake (min c s.rx.cnt.toNat)).map fun e =>
        rxFrame (pictureTs (ext.entries s.jb)) (some e)) ∧
      ext.entries d.stream.jb = (ext.entries s.jb).drop c
  kept : pictureEnd? (ext.entries s.jb) = none → ext.entries d.stream.jb = ext.entries s.jb

end Decode

/-- 0 is not taken for the timestamp of a picture that ends, and the loop ends
before `cnt` is back at 0. -/
structure Scannable (jb : List JbEntry) : Prop where
  stamped : firstTs? jb = some 0 → pictureEnd? jb = none
  indexed : jb.length < 4294967296 ∨ ∃ c ∈ pictureEnd? jb, c < 4294967296

/-! ## Where a picture ends -/

/-- A packet of the picture, or a missing one. -/
def SameTs (t : UInt32) (e : JbEntry) : Prop := ∀ ts ∈ e.ts?, ts = t

theorem sameTs_of_not_other {t : UInt32} {e : JbEntry} (h : ¬ e.ts?.any (· ≠ t) = true) :
    SameTs t e := by
  intro ts hts
  rw [Option.mem_def.mp hts] at h
  simpa using h

theorem sameTs_of_noPicture {jb : List JbEntry} (h : pictureEnd? jb = none) :
    ∀ e ∈ jb, SameTs (pictureTs jb) e := by
  intro e he
  rw [pictureEnd?] at h
  rw [pictureTs]
  cases hf : firstTs? jb with
  | none =>
    intro ts hts
    have hnone := List.findSome?_eq_none_iff.mp hf e he
    rw [Option.mem_def.mp hts] at hnone
    cases hnone
  | some t =>
    rw [hf, Option.bind_some, List.findIdx?_eq_none_iff] at h
    exact sameTs_of_not_other (by rw [Option.getD_some, h e he]; decide)

/-- The picture begins before `c`, and ends there. -/
structure EndsAt (jb : List JbEntry) (t : UInt32) (c : Nat) : Prop where
  within : ∀ i < c, ∃ e, jb[i]? = some e ∧ SameTs t e
  begins : ∃ i < c, ∃ e ∈ jb[i]?, e.ts? = some t
  next : ∃ payload seq ts, jb[c]? = some (.normal payload seq ts) ∧ ts ≠ t

theorem EndsAt.lt_length {jb : List JbEntry} {t : UInt32} {c : Nat} (h : EndsAt jb t c) :
    c < jb.length := by
  obtain ⟨_, _, _, hc, -⟩ := h.next
  exact (List.getElem?_eq_some_iff.mp hc).1

theorem endsAt_of_pictureEnd {jb : List JbEntry} {c : Nat} (h : pictureEnd? jb = some c) :
    firstTs? jb = some (pictureTs jb) ∧ EndsAt jb (pictureTs jb) c := by
  obtain ⟨t, hfirst, hfind⟩ := Option.bind_eq_some_iff.mp h
  have ht : pictureTs jb = t := by rw [pictureTs, hfirst, Option.getD_some]
  rw [ht]
  obtain ⟨hlt, hother, hbefore⟩ := List.findIdx?_eq_some_iff_getElem.mp hfind
  have hnext : ∃ payload seq ts, jb[c] = .normal payload seq ts ∧ ts ≠ t := by
    generalize jb[c] = e at hother
    cases e with
    | normal payload seq ts => exact ⟨payload, seq, ts, rfl, by simpa [JbEntry.ts?] using hother⟩
    | missing => cases hother
  obtain ⟨payload, seq, ts, he, hne⟩ := hnext
  refine ⟨hfirst, ?_, ?_, payload, seq, ts, ?_, hne⟩
  · intro i hi
    exact ⟨jb[i], List.getElem?_eq_getElem _, sameTs_of_not_other (hbefore i hi)⟩
  · -- the first normal entry is not the one at `c`, nor behind it
    obtain ⟨pre, e, post, hjb, hts, hpre⟩ := List.findSome?_eq_some_iff.mp hfirst
    have hget : jb[pre.length]? = some e := by simp [hjb]
    refine ⟨pre.length, ?_, e, hget, hts⟩
    by_contra hge
    rcases Nat.lt_or_eq_of_le (Nat.not_lt.mp hge) with hgt | heq
    · have hmem : jb[c] ∈ pre := by
        simp only [hjb, List.getElem_append_left hgt]
        exact List.getElem_mem _
      have hnone := hpre _ hmem
      rw [he] at hnone
      cases hnone
    · have hat : jb[c]? = some e := heq ▸ hget
      rw [List.getElem?_eq_getElem hlt, he] at hat
      cases hat
      exact hne (Option.some.inj hts)
  · rw [List.getElem?_eq_getElem hlt, he]

/-! ## The first loop -/

/-- So far only the timestamp `t` was seen, or none. -/
def Scanned (jb : List JbEntry) (t : UInt32) (s : Scan) : Prop :=
  s.lastTs = t ∨ (s.lastTs = 0 ∧ ∀ i < s.cnt, ∀ e ∈ jb[i]?, e.ts? = none)

theorem scanned_init (jb : List JbEntry) (t : UInt32) : Scanned jb t .init :=
  .inr ⟨rfl, fun _ hi => absurd hi (Nat.not_lt_zero _)⟩

/-- An entry of the picture does not end the loop. -/
theorem scanStep_sameTs {jb : List JbEntry} {t : UInt32} {s : Scan} {e : JbEntry}
    (hs : Scanned jb t s) (he : jb[s.cnt]? = some e) (ht : SameTs t e) :
    ∃ s', scanStep s (some e) = (s', none) ∧ s'.cnt = s.cnt ∧
      (s'.lastTs = t ∨ (s'.lastTs = 0 ∧ ∀ i < s.cnt + 1, ∀ e ∈ jb[i]?, e.ts? = none)) := by
  cases e with
  | missing =>
    refine ⟨s, rfl, rfl, hs.imp_right fun ⟨h0, hnone⟩ => ⟨h0, fun i hi e hmem => ?_⟩⟩
    rcases Nat.lt_succ_iff_lt_or_eq.mp hi with hlt | rfl
    · exact hnone i hlt e hmem
    · rw [he] at hmem
      cases hmem
      rfl
  | normal payload seq ts =>
    obtain rfl : ts = t := ht ts rfl
    by_cases h0 : s.lastTs = 0
    · exact ⟨_, scanStep_first h0, rfl, .inl rfl⟩
    · have hlast : s.lastTs = ts := hs.resolve_right fun h => h0 h.1
      exact ⟨_, scanStep_same h0 hlast.symm, rfl, .inl hlast⟩

theorem scan_sameTs {jb : List JbEntry} {t : UInt32} {s : Scan} {e : JbEntry}
    (hs : Scanned jb t s) (he : jb[s.cnt]? = some e) (ht : SameTs t e) :
    ∃ s', s'.cnt = (s.cnt + 1) % 4294967296 ∧ Scanned jb t s' ∧
      ∀ fuel, scan jb (fuel + 1) s = scan jb fuel s' := by
  obtain ⟨s', hstep, hcnt, hseen⟩ := scanStep_sameTs hs he ht
  refine ⟨{ s' with cnt := (s'.cnt + 1) % 4294967296 }, by rw [hcnt], ?_, fun fuel => ?_⟩
  · refine hseen.imp_right fun ⟨h0, hnone⟩ => ⟨h0, fun i hi => hnone i ?_⟩
    have hle := Nat.mod_le (s'.cnt + 1) 4294967296
    simp only [] at hi
    omega
  · rw [← he] at hstep
    exact scan_more hstep fuel

/-- The loop goes on to `n`. -/
theorem scan_to {jb : List JbEntry} {t : UInt32} {n : Nat} (hn : n < 4294967296)
    (hsame : ∀ i < n, ∃ e, jb[i]? = some e ∧ SameTs t e) (k : Nat) {s : Scan} (hk : s.cnt + k = n)
    (hs : Scanned jb t s) :
    ∃ s', s'.cnt = n ∧ Scanned jb t s' ∧ ∀ fuel, scan jb (fuel + k) s = scan jb fuel s' := by
  induction k generalizing s with
  | zero => exact ⟨s, hk, hs, fun _ => rfl⟩
  | succ k ih =>
    obtain ⟨e, he, ht⟩ := hsame s.cnt (by omega)
    obtain ⟨s₁, hcnt, hs₁, hscan⟩ := scan_sameTs hs he ht
    rw [Nat.mod_eq_of_lt (by omega)] at hcnt
    obtain ⟨s', hn', hs', hrest⟩ := ih (by omega) hs₁
    exact ⟨s', hn', hs', fun fuel => (hscan (fuel + k)).trans (hrest fuel)⟩

/-- With as many entries as `cnt` has values the loop does not end. -/
theorem scan_endless {jb : List JbEntry} {t : UInt32}
    (hsame : ∀ i < 4294967296, ∃ e, jb[i]? = some e ∧ SameTs t e) (fuel : Nat) {s : Scan}
    (hcnt : s.cnt < 4294967296) (hs : Scanned jb t s) : scan jb fuel s = none := by
  induction fuel generalizing s with
  | zero => rfl
  | succ fuel ih =>
    obtain ⟨e, he, ht⟩ := hsame s.cnt hcnt
    obtain ⟨s', hcnt', hs', hscan⟩ := scan_sameTs hs he ht
    rw [hscan]
    exact ih (by omega) hs'

/-- The loop stops where the picture ends, unless its timestamp is 0. -/
theorem scan_picture {jb : List JbEntry} {t : UInt32} {c : Nat} (h : EndsAt jb t c) (ht : t ≠ 0)
    (hc : c < 4294967296) :
    ∃ s, s.cnt = c ∧ s.lastTs = t ∧ ∀ fuel, c < fuel → scan jb fuel .init = some (s, true) := by
  obtain ⟨s, hcnt, hs, hscan⟩ := scan_to hc h.within c (Nat.zero_add c) (scanned_init jb t)
  have hlast : s.lastTs = t := by
    refine hs.resolve_right fun ⟨_, hnone⟩ => ?_
    obtain ⟨i, hi, e, he, hts⟩ := h.begins
    rw [hnone i (by omega) e he] at hts
    cases hts
  obtain ⟨payload, seq, ts, hat, hne⟩ := h.next
  refine ⟨s, hcnt, hlast, fun fuel hf => ?_⟩
  obtain ⟨n, rfl⟩ : ∃ n, fuel = n + 1 + c := ⟨fuel - c - 1, by omega⟩
  have hstep : scanStep s jb[s.cnt]? = (s, some true) := by
    rw [hcnt, hat]
    exact scanStep_next (hlast ▸ ht) (hlast ▸ hne)
  rw [hscan, scan_stop hstep]

/-- Without another timestamp it stops behind the last entry. -/
theorem scan_noPicture {jb : List JbEntry} {t : UInt32} (h : ∀ e ∈ jb, SameTs t e)
    (hlen : jb.length < 4294967296) :
    ∃ s, ∀ fuel, jb.length < fuel → scan jb fuel .init = some (s, false) := by
  have hsame : ∀ i < jb.length, ∃ e, jb[i]? = some e ∧ SameTs t e := fun i hi =>
    ⟨jb[i], List.getElem?_eq_getElem hi, h _ (List.getElem_mem hi)⟩
  obtain ⟨s, hcnt, hs, hscan⟩ := scan_to hlen hsame jb.length (Nat.zero_add _) (scanned_init jb t)
  refine ⟨s, fun fuel hf => ?_⟩
  obtain ⟨n, rfl⟩ : ∃ n, fuel = n + 1 + jb.length := ⟨fuel - jb.length - 1, by omega⟩
  rw [hscan, scan, hcnt, List.getElem?_eq_none (Nat.le_refl _)]
  rfl

/-! ## A picture stamped 0 -/

/-- `last_ts` is still 0 and `cnt` not behind `c`, or it is the timestamp there. -/
def PastZero (t : UInt32) (c : Nat) (s : Scan) : Prop := (s.lastTs = 0 ∧ s.cnt ≤ c) ∨ s.lastTs = t

/-- An entry is passed over, or it ends the loop and is not the one at `c`: there
`last_ts` is only set. -/
theorem scanStep_pastZero {jb : List JbEntry} {c : Nat} (h : EndsAt jb 0 c)
    {ts : UInt32} (hts0 : ts ≠ 0)
    (hts : ∀ e ∈ jb[c]?, e.ts? = some ts) {s : Scan} (hs : PastZero ts c s) {e : JbEntry}
    (he : jb[s.cnt]? = some e) :
    (∃ s', scanStep s (some e) = (s', none) ∧
        PastZero ts c { s' with cnt := (s'.cnt + 1) % 4294967296 }) ∨
      (scanStep s (some e) = (s, some true) ∧ s.cnt ≠ c) := by
  have hle := Nat.mod_le (s.cnt + 1) 4294967296
  cases e with
  | missing =>
    have hne : s.cnt ≠ c := by
      rintro rfl
      cases hts _ he
    refine .inl ⟨s, rfl, hs.imp_left fun ⟨h0, hcnt⟩ => ⟨h0, ?_⟩⟩
    show (s.cnt + 1) % 4294967296 ≤ c
    omega
  | normal payload seq ts' =>
    by_cases h0 : s.lastTs = 0
    · -- the timestamp is 0, or the one at `c`
      refine .inl ⟨_, scanStep_first h0, ?_⟩
      have hcnt : s.cnt ≤ c := (hs.resolve_right fun e => hts0 (e.symm.trans h0)).2
      rcases Nat.lt_or_eq_of_le hcnt with hlt | rfl
      · obtain ⟨e', he', hsame⟩ := h.within s.cnt hlt
        cases he.symm.trans he'
        refine .inl ⟨hsame ts' rfl, ?_⟩
        show (s.cnt + 1) % 4294967296 ≤ c
        omega
      · exact .inr (Option.some.inj (hts _ he))
    · have hlast : s.lastTs = ts := hs.resolve_left fun e => h0 e.1
      by_cases hne : ts' = s.lastTs
      · exact .inl ⟨_, scanStep_same h0 hne, .inr hlast⟩
      · refine .inr ⟨scanStep_next h0 hne, ?_⟩
        rintro rfl
        exact hne ((Option.some.inj (hts _ he)).trans hlast.symm)

/-- If an end is found, it is not where a picture stamped 0 ends. -/
theorem scan_zeroTs {jb : List JbEntry} {c : Nat} (h : EndsAt jb 0 c) {ts : UInt32} (hts0 : ts ≠ 0)
    (hts : ∀ e ∈ jb[c]?, e.ts? = some ts) {fuel : Nat} {s s' : Scan} (hs : PastZero ts c s)
    (hscan : scan jb fuel s = some (s', true)) : s'.cnt ≠ c ∧ s'.cnt < jb.length := by
  induction fuel generalizing s with
  | zero => cases hscan
  | succ fuel ih =>
    cases he : jb[s.cnt]? with
    | none =>
      have hstep : scanStep s jb[s.cnt]? = (s, some false) := by rw [he]; rfl
      rw [scan_stop hstep] at hscan
      cases hscan
    | some e =>
      rcases scanStep_pastZero h hts0 hts hs he with ⟨s₁, hstep, hs₁⟩ | ⟨hstep, hne⟩
      · rw [scan_more (he ▸ hstep)] at hscan
        exact ih hs₁ hscan
      · rw [scan_stop (he ▸ hstep)] at hscan
        cases hscan
        exact ⟨hne, (List.getElem?_eq_some_iff.mp he).1⟩

/-! ## The second loop and the codec -/

/-- The array after `k` passes. -/
def filled (rx : RxFrames) (f : Nat → MediaFrame) : Nat → RxFrames
  | 0 => rx
  | k + 1 => (filled rx f k).set k (f k)

theorem filled_cnt (rx : RxFrames) (f : Nat → MediaFrame) (k : Nat) :
    (filled rx f k).cnt = rx.cnt := by
  induction k with
  | zero => rfl
  | succ k ih => exact ih

theorem filled_take (rx : RxFrames) (f : Nat → MediaFrame) {k : Nat} (hk : k ≤ rx.cnt.toNat) :
    (filled rx f k).frames.take k = (List.range k).map f := by
  induction k with
  | zero => rfl
  | succ k ih =>
    have hlt : k < (filled rx f k).frames.length := by
      rw [(filled rx f k).size, filled_cnt]
      omega
    have hset : (filled rx f (k + 1)).frames = (filled rx f k).frames.set k (f k) := rfl
    rw [hset, List.take_add_one, List.take_set_of_le (Nat.le_refl k), ih (by omega),
      List.getElem?_set_self hlt, List.range_succ, List.map_append]
    rfl

theorem fill_spec (jb : List JbEntry) (lastTs : UInt32) (rx : RxFrames) {cnt : Nat}
    (h : cnt ≤ rx.cnt.toNat) {fuel : Nat} (hf : cnt < fuel) :
    forLoop 4294967296 cnt (fillFrame jb lastTs) fuel 0 ⟨rx, []⟩ =
      some ⟨filled rx (fun i => rxFrame lastTs jb[i]?) cnt, List.range cnt⟩ := by
  have hcnt : cnt < 4294967296 := Nat.lt_of_le_of_lt h rx.cnt.toNat_lt
  have hpass (i : Nat) (_ : i < cnt) :
      fillFrame jb lastTs i ⟨filled rx (fun i => rxFrame lastTs jb[i]?) i, List.range i⟩ =
        some ⟨filled rx (fun i => rxFrame lastTs jb[i]?) (i + 1), List.range (i + 1)⟩ := by
    rw [fillFrame, List.range_succ]
    rfl
  have hf' : cnt - 0 < fuel := by omega
  exact forLoop_steps (fun k =>
    (⟨filled rx (fun i => rxFrame lastTs jb[i]?) k, List.range k⟩ : Filling))
    hcnt hpass (Nat.zero_le cnt) hf'

/-- Peeks at the first entries. -/
theorem map_range_getElem? {α : Type} {γ : Type} (f : Option α → γ) {xs : List α} {n : Nat}
    (h : n ≤ xs.length) : (List.range n).map (fun i => f xs[i]?) = (xs.take n).map fun x =>
    f (some x) := by
  apply List.ext_getElem
  · simp [h]
  · intro i h₁ h₂
    have hi : i < xs.length := by
      rw [List.length_map, List.length_range] at h₁
      omega
    simp [List.getElem?_eq_getElem hi]

section Decode

variable {ρ β κ : Type} (ext : Pjmedia ρ β κ)

/-- What becomes of the jitter buffer and what the codec gets, once the end of the
picture is known. -/
structure TakesUpTo (s : VidStream ρ β κ) (lastTs : UInt32) (cnt : Nat) (d : Decoded ρ β κ) :
    Prop where
  status : d.status = .success
  written : ∀ i ∈ d.written, i < s.rx.cnt.toNat
  given : d.given =
    some ((((ext.entries s.jb).take cnt).rtake (min cnt s.rx.cnt.toNat)).map fun e =>
    rxFrame lastTs (some e))
  jb : ext.entries d.stream.jb = (ext.entries s.jb).drop cnt

theorem decodePicture_spec (s : VidStream ρ β κ) (lastTs : UInt32) {cnt : Nat}
    (h : cnt ≤ s.rx.cnt.toNat) :
    ∃ d, (∀ fuel, cnt < fuel → decodePicture ext fuel s lastTs cnt = some d) ∧ d.status = .success ∧
      (∀ i ∈ d.written, i < s.rx.cnt.toNat) ∧
      d.given = some ((List.range cnt).map fun i => rxFrame lastTs (ext.entries s.jb)[i]?) ∧
      ext.entries d.stream.jb = (ext.entries s.jb).drop cnt := by
  refine ⟨_, fun fuel hf => by rw [decodePicture, fill_spec _ _ _ h hf, Option.map_some], rfl,
    ?_, ?_,
    ext.entries_removeFrame _ _⟩
  · intro i hi
    exact Nat.lt_of_lt_of_le (List.mem_range.mp hi) h
  · rw [filled_take _ _ h]

/-- Dropping first what does not fit leaves the last entries of the picture. -/
theorem decodeScanned_spec (s : VidStream ρ β κ) (lastTs : UInt32) {cnt : Nat}
    (hcnt : cnt ≤ (ext.entries s.jb).length) :
    ∃ d, (∀ fuel, cnt < fuel → decodeScanned ext fuel s lastTs cnt = some d) ∧
      TakesUpTo ext s lastTs cnt d := by
  have hlen : ((ext.entries s.jb).take cnt).length = cnt := List.length_take_of_le hcnt
  by_cases hbig : s.rx.cnt.toNat < cnt
  · obtain ⟨d, hd, hstatus, hwritten, hgiven, hjb⟩ := decodePicture_spec ext
      { s with jb := ext.jbufRemoveFrame s.jb (cnt - s.rx.cnt.toNat) } lastTs
      (Nat.le_refl s.rx.cnt.toNat)
    simp only [ext.entries_removeFrame] at hgiven hjb
    refine ⟨d, fun fuel hf => ?_, hstatus, hwritten, ?_, ?_⟩
    · rw [decodeScanned, if_pos hbig]
      exact hd fuel (by omega)
    · have hfits : s.rx.cnt.toNat ≤ ((ext.entries s.jb).drop (cnt - s.rx.cnt.toNat)).length := by
        rw [List.length_drop]
        omega
      have hlast : ((ext.entries s.jb).drop (cnt - s.rx.cnt.toNat)).take s.rx.cnt.toNat =
          ((ext.entries s.jb).take cnt).drop (cnt - s.rx.cnt.toNat) := by
        rw [List.drop_take, Nat.sub_sub_self (Nat.le_of_lt hbig)]
      rw [hgiven, map_range_getElem? _ hfits, hlast, List.rtake, hlen,
        Nat.min_eq_right (Nat.le_of_lt hbig)]
    · rw [hjb, List.drop_drop, Nat.sub_add_cancel (Nat.le_of_lt hbig)]
  · obtain ⟨d, hd, hstatus, hwritten, hgiven, hjb⟩ :=
      decodePicture_spec ext s lastTs (Nat.not_lt.mp hbig)
    refine ⟨d, fun fuel hf => ?_, hstatus, hwritten, ?_, hjb⟩
    · rw [decodeScanned, if_neg hbig]
      exact hd fuel hf
    · rw [hgiven, map_range_getElem? _ hcnt, List.rtake, hlen, Nat.min_eq_left (Nat.not_lt.mp hbig),
        Nat.sub_self, List.drop_zero]

theorem learn_jb (scanned : Scan) (s : VidStream ρ β κ) : (learn scanned s).jb = s.jb := by
  rw [learn]
  split <;> rfl

/-- A scan that found an end, then the decode. -/
theorem decodeVidFrame_found {s : VidStream ρ β κ} {fuel : Nat} {scanned : Scan}
    (hscan : scan (ext.entries s.jb) fuel .init = some (scanned, true)) :
    decodeVidFrame ext fuel s = (decodeScanned ext fuel s scanned.lastTs scanned.cnt).map fun d =>
      { d with stream := learn scanned d.stream } := by
  rw [decodeVidFrame, hscan]
  rfl

theorem decodeVidFrame_notFound {s : VidStream ρ β κ} {fuel : Nat} {scanned : Scan}
    (hscan : scan (ext.entries s.jb) fuel .init = some (scanned, false)) :
    decodeVidFrame ext fuel s = some ⟨learn scanned s, .enotfound, [], none⟩ := by
  rw [decodeVidFrame, hscan]
  rfl

theorem decodeVidFrame_endless {s : VidStream ρ β κ} {fuel : Nat}
    (hscan : scan (ext.entries s.jb) fuel .init = none) : decodeVidFrame ext fuel s = none := by
  rw [decodeVidFrame, hscan]
  rfl

/-! ## One picture -/

theorem decodes_picture {s : VidStream ρ β κ} {c : Nat}
    (h : pictureEnd? (ext.entries s.jb) = some c) (hts : pictureTs (ext.entries s.jb) ≠ 0)
    (hc : c < 4294967296) : ∃ d, Decodes ext s d ∧ OnePicture ext s d := by
  obtain ⟨-, hends⟩ := endsAt_of_pictureEnd h
  obtain ⟨scanned, hcnt, hlast, hscan⟩ := scan_picture hends hts hc
  obtain ⟨d, hd, htakes⟩ := decodeScanned_spec ext s (pictureTs (ext.entries s.jb))
    (Nat.le_of_lt hends.lt_length)
  refine ⟨{ d with stream := learn scanned d.stream }, ⟨c + 1, fun fuel hf => ?_⟩, ?_, ?_, ?_⟩
  · rw [decodeVidFrame_found ext (hscan fuel hf), hlast, hcnt, hd fuel hf, Option.map_some]
  · exact iff_of_true htakes.status (by rw [h]; rfl)
  · intro c' hc'
    obtain rfl : c = c' := Option.some.inj (h.symm.trans hc')
    exact ⟨htakes.written, htakes.given,
      (congrArg ext.entries (learn_jb scanned d.stream)).trans htakes.jb⟩
  · intro hnone
    rw [h] at hnone
    cases hnone

theorem decodes_noPicture {s : VidStream ρ β κ} (h : pictureEnd? (ext.entries s.jb) = none)
    (hlen : (ext.entries s.jb).length < 4294967296) : ∃ d,
    Decodes ext s d ∧ OnePicture ext s d := by
  obtain ⟨scanned, hscan⟩ := scan_noPicture (sameTs_of_noPicture h) hlen
  refine ⟨_, ⟨(ext.entries s.jb).length + 1, fun fuel hf =>
    decodeVidFrame_notFound ext (hscan fuel hf)⟩, ?_, ?_, ?_⟩
  · exact iff_of_false (fun e => nomatch e) (by rw [h]; exact fun e => nomatch e)
  · intro c hc
    rw [h] at hc
    cases hc
  · intro _
    exact congrArg ext.entries (learn_jb scanned s)

/-- `cnt` does not get to the end of the scan. -/
theorem not_decodes_of_endless {s : VidStream ρ β κ} (hlen : 4294967296 ≤ (ext.entries s.jb).length)
    (hend : ∀ c ∈ pictureEnd? (ext.entries s.jb), 4294967296 ≤ c) (d : Decoded ρ β κ) :
    ¬ Decodes ext s d := by
  have hsame : ∀ i < 4294967296, ∃ e, (ext.entries s.jb)[i]? = some e ∧
      SameTs (pictureTs (ext.entries s.jb)) e := by
    intro i hi
    cases h : pictureEnd? (ext.entries s.jb) with
    | none =>
      have hlt : i < (ext.entries s.jb).length := by omega
      exact ⟨_, List.getElem?_eq_getElem hlt, sameTs_of_noPicture h _ (List.getElem_mem hlt)⟩
    | some c => exact (endsAt_of_pictureEnd h).2.within i (by have := hend c h; omega)
  rintro ⟨n, hn⟩
  have hnone := decodeVidFrame_endless ext (scan_endless hsame n (by decide) (scanned_init _ _))
  rw [hn n (Nat.le_refl n)] at hnone
  cases hnone

/-- Whatever is returned, it is not the picture stamped 0 that was taken. -/
theorem not_onePicture_of_zeroTs {s : VidStream ρ β κ} {c : Nat}
    (hfirst : firstTs? (ext.entries s.jb) = some 0) (h : pictureEnd? (ext.entries s.jb) = some c)
    {d : Decoded ρ β κ} (hd : Decodes ext s d) : ¬ OnePicture ext s d := by
  intro hone
  obtain ⟨n, hn⟩ := hd
  obtain ⟨-, hends⟩ := endsAt_of_pictureEnd h
  have hts : pictureTs (ext.entries s.jb) = 0 := by rw [pictureTs, hfirst, Option.getD_some]
  rw [hts] at hends
  obtain ⟨payload, seq, ts, hat, hts0⟩ := hends.next
  have hat' : ∀ e ∈ (ext.entries s.jb)[c]?, e.ts? = some ts := by
    intro e he
    rw [hat] at he
    cases he
    rfl
  have hret := hn n (Nat.le_refl n)
  cases hscan : scan (ext.entries s.jb) n .init with
  | none =>
    rw [decodeVidFrame_endless ext hscan] at hret
    cases hret
  | some r =>
    obtain ⟨scanned, got⟩ := r
    cases got with
    | false =>
      rw [decodeVidFrame_notFound ext hscan] at hret
      cases hret
      exact absurd (hone.status.mpr (by rw [h]; rfl)) (fun e => nomatch e)
    | true =>
      obtain ⟨hne, hlt⟩ := scan_zeroTs hends hts0 hat' (.inl ⟨rfl, Nat.zero_le c⟩) hscan
      obtain ⟨d', hd', htakes⟩ := decodeScanned_spec ext s scanned.lastTs (Nat.le_of_lt hlt)
      have hfuel : scanned.cnt < n := by
        have hcnt := scan_cnt_lt hscan
        rwa [Scan.init, Nat.zero_add] at hcnt
      rw [decodeVidFrame_found ext hscan, hd' n hfuel] at hret
      cases hret
      -- another number of entries was removed
      have hjb : ext.entries d'.stream.jb = (ext.entries s.jb).drop c :=
        (congrArg ext.entries (learn_jb scanned d'.stream)).symm.trans (hone.taken c h).2.2
      have hlen := congrArg List.length (htakes.jb.symm.trans hjb)
      rw [List.length_drop, List.length_drop] at hlen
      have hc := hends.lt_length
      omega

/-- **A decode takes one picture.** It ends, succeeds exactly if the picture ends
in the buffer, and takes its packets and no others, for just these contents of the
buffer. -/
theorem decodes_iff (s : VidStream ρ β κ) :
    (∃ d, Decodes ext s d ∧ OnePicture ext s d) ↔ Scannable (ext.entries s.jb) := by
  constructor
  · rintro ⟨d, hd, hone⟩
    constructor
    · intro hfirst
      by_contra hend
      obtain ⟨c, hc⟩ := Option.ne_none_iff_exists'.mp hend
      exact not_onePicture_of_zeroTs ext hfirst hc hd hone
    · by_contra hfar
      obtain ⟨hlen, hend⟩ := not_or.mp hfar
      refine not_decodes_of_endless ext (Nat.not_lt.mp hlen) (fun c hc => ?_) d hd
      exact Nat.not_lt.mp fun hlt => hend ⟨c, hc, hlt⟩
  · rintro ⟨hstamped, hindexed⟩
    cases h : pictureEnd? (ext.entries s.jb) with
    | none =>
      refine decodes_noPicture ext h (hindexed.resolve_right fun ⟨c, hc, _⟩ => ?_)
      rw [h] at hc
      cases hc
    | some c =>
      obtain ⟨hfirst, hends⟩ := endsAt_of_pictureEnd h
      refine decodes_picture ext h (fun h0 => ?_) ?_
      · rw [h0] at hfirst
        rw [hstamped hfirst] at h
        cases h
      · rcases hindexed with hlen | ⟨c', hc', hlt⟩
        · exact Nat.lt_trans hends.lt_length hlen
        · rw [h] at hc'
          cases hc'
          exact hlt

end Decode

/-! ## A picture stamped 0 is not found -/

/-- The picture ends at 1, and none is found. -/
theorem zeroTs_notFound :
    let jb : List JbEntry := [.normal [1] 7 0, .normal [2] 8 5]
    pictureEnd? jb = some 1 ∧
      (decodeVidFrame listPjmedia 3 (preparedStream jb)).map (·.status) = some .enotfound ∧
      ¬ ∃ d, Decodes listPjmedia (preparedStream jb) d ∧
        OnePicture listPjmedia (preparedStream jb) d := by
  refine ⟨by decide, by decide, ?_⟩
  rintro ⟨d, hd, hone⟩
  exact not_onePicture_of_zeroTs listPjmedia (c := 1) (by decide) (by decide) hd hone

/-- The same with another timestamp. -/
example : (decodeVidFrame listPjmedia 3 (preparedStream [.normal [1] 7 4, .normal [2] 8 5])).map
    (fun d => (d.status, d.stream.jb)) = some (.success, [.normal [2] 8 5]) := by decide
end MonitorAgent.L3
