import Mathlib.Data.List.Basic

/-!
# Tokens of a C string

`strtok_s` over memory: it skips delimiters, stops at the next one or at a NUL,
writes a NUL over a delimiter and goes on behind it. It does not know where the
string was meant to end, so memory is the list of the bytes that can be read, and
`none` says that it would have read on.

* `tokens`, `finished`: the tokens of a string, and those that a delimiter ends;
  `Lexed` is the string with both.
* `strtokS_token`, `strtokS_end`, `strtokS_past`: what a call does, by what is in
  front of it.
-/
namespace MonitorAgent.Strtok

variable (delims : List UInt8)

def isDelim (b : UInt8) : Bool := decide (b ∈ delims)

def inToken (b : UInt8) : Bool := decide (b ∉ delims ∧ b ≠ 0)

/-- The memory, the context pointer, and the token unless it is `NULL`. -/
structure Call where
  mem : List UInt8
  next : Nat
  token : Option Nat

/-- `strtok_s` with the pointer at `next`. -/
def strtokS (mem : List UInt8) (next : Nat) : Option Call :=
  let s := next + ((mem.drop next).takeWhile (isDelim delims)).length
  let e := s + ((mem.drop s).takeWhile (inToken delims)).length
  mem[e]?.map fun b =>
    if b = 0 then ⟨mem, e, if s = e then none else some s⟩ else ⟨mem.set e 0, e + 1, some s⟩

/-- The C string at a pointer, a NUL being behind it. -/
def cstr (mem : List UInt8) (s : Nat) : List UInt8 := (mem.drop s).takeWhile (· ≠ 0)

/-! ## Tokens -/

def tokens (str : List UInt8) : List (List UInt8) := (str.splitOnP (isDelim delims)).filter (· ≠ [])

/-- The tokens that a delimiter ends. -/
def finished (str : List UInt8) : List (List UInt8) :=
  (str.splitOnP (isDelim delims)).dropLast.filter (· ≠ [])

/-- A string, its finished tokens, and what is behind the last delimiter. -/
inductive Lexed : List UInt8 → List (List UInt8) → List UInt8 → Prop
  | rest {ds o : List UInt8} (hds : ∀ b ∈ ds, b ∈ delims) (ho : ∀ b ∈ o, b ∉ delims) :
      Lexed (ds ++ o) [] o
  | token {ds t str o : List UInt8} {d : UInt8} {ts : List (List UInt8)}
      (hds : ∀ b ∈ ds, b ∈ delims)
      (ht : ∀ b ∈ t, b ∉ delims) (hne : t ≠ []) (hd : d ∈ delims) (h : Lexed str ts o) :
      Lexed (ds ++ (t ++ d :: str)) (t :: ts) o

variable {delims}

theorem Lexed.cons_delim {b : UInt8} {str o : List UInt8} {ts : List (List UInt8)} (hb : b ∈ delims)
    (h : Lexed delims str ts o) : Lexed delims (b :: str) ts o := by
  cases h with
  | rest hds ho => exact .rest (List.forall_mem_cons.mpr ⟨hb, hds⟩) ho
  | token hds ht hne hd h => exact .token (List.forall_mem_cons.mpr ⟨hb, hds⟩) ht hne hd h

/-- The byte begins the token in front, or is one of its own. -/
theorem Lexed.cons_token {b : UInt8} {str o : List UInt8} {ts : List (List UInt8)} (hb : b ∉ delims)
    (h : Lexed delims str ts o) : ∃ ts' o', Lexed delims (b :: str) ts' o' := by
  have hnil : ∀ c ∈ ([] : List UInt8), c ∈ delims := fun _ hc => nomatch hc
  have hone : ∀ c ∈ [b], c ∉ delims := fun c hc => by rwa [List.mem_singleton.mp hc]
  cases h with
  | @rest ds o hds ho =>
    cases ds with
    | nil => exact ⟨_, _, .rest hnil (List.forall_mem_cons.mpr ⟨hb, ho⟩)⟩
    | cons d ds =>
      obtain ⟨hd, hds⟩ := List.forall_mem_cons.mp hds
      exact ⟨_, _, .token hnil hone (List.cons_ne_nil _ _) hd (.rest hds ho)⟩
  | @token ds t str o d ts hds ht hne hd h =>
    cases ds with
    | nil => exact ⟨_, _, .token hnil (List.forall_mem_cons.mpr ⟨hb, ht⟩)
        (List.cons_ne_nil _ _) hd h⟩
    | cons d' ds =>
      obtain ⟨hd', hds⟩ := List.forall_mem_cons.mp hds
      exact ⟨_, _, .token hnil hone (List.cons_ne_nil _ _) hd' (.token hds ht hne hd h)⟩

theorem exists_lexed (delims str : List UInt8) : ∃ ts o, Lexed delims str ts o := by
  induction str with
  | nil =>
    have hnone : Lexed delims ([] ++ []) [] [] :=
    .rest (fun _ hb => nomatch hb) (fun _ hb => nomatch hb)
    exact ⟨[], [], hnone⟩
  | cons b str ih =>
    obtain ⟨ts, o, h⟩ := ih
    by_cases hb : b ∈ delims
    · exact ⟨ts, o, h.cons_delim hb⟩
    · exact h.cons_token hb

/-! ## What the tokens are -/

theorem isDelim_iff {b : UInt8} : isDelim delims b = true ↔ b ∈ delims := decide_eq_true_iff

theorem not_isDelim {b : UInt8} (h : b ∉ delims) : isDelim delims b = false := decide_eq_false h

theorem tokens_append_cons {d : UInt8} (hd : d ∈ delims) (xs ys : List UInt8) :
    tokens delims (xs ++ d :: ys) = tokens delims xs ++ tokens delims ys := by
  rw [tokens, List.splitOnP_append_cons _ _ (isDelim_iff.mpr hd), List.filter_append]
  rfl

theorem finished_append_cons {d : UInt8} (hd : d ∈ delims) (xs ys : List UInt8) :
    finished delims (xs ++ d :: ys) = tokens delims xs ++ finished delims ys := by
  rw [finished, List.splitOnP_append_cons _ _ (isDelim_iff.mpr hd),
    List.dropLast_append_of_ne_nil (List.splitOnP_ne_nil _ _), List.filter_append]
  rfl

/-- Without a delimiter there is one token, and nothing ends it. -/
theorem tokens_noDelim {t : List UInt8} (h : ∀ b ∈ t, b ∉ delims) :
    tokens delims t = (if t = [] then [] else [t]) ∧ finished delims t = [] := by
  have hsplit : t.splitOnP (isDelim delims) = [t] :=
    List.splitOnP_eq_singleton fun b hb => not_isDelim (h b hb)
  rw [tokens, finished, hsplit]
  refine ⟨?_, rfl⟩
  by_cases ht : t = [] <;> simp [ht]

theorem tokens_delims_append {ds : List UInt8} (h : ∀ b ∈ ds, b ∈ delims) (ys : List UInt8) :
    tokens delims (ds ++ ys) = tokens delims ys ∧
    finished delims (ds ++ ys) = finished delims ys := by
  induction ds with
  | nil => exact ⟨rfl, rfl⟩
  | cons d ds ih =>
    obtain ⟨hd, hds⟩ := List.forall_mem_cons.mp h
    have htokens := tokens_append_cons hd [] (ds ++ ys)
    have hfinished := finished_append_cons hd [] (ds ++ ys)
    exact ⟨htokens.trans (ih hds).1, hfinished.trans (ih hds).2⟩

theorem tokens_token {t : List UInt8} {d : UInt8} (ht : ∀ b ∈ t, b ∉ delims) (hne : t ≠ [])
    (hd : d ∈ delims) (ys : List UInt8) :
    tokens delims (t ++ d :: ys) = t :: tokens delims ys ∧
      finished delims (t ++ d :: ys) = t :: finished delims ys := by
  rw [tokens_append_cons hd, finished_append_cons hd, (tokens_noDelim ht).1, if_neg hne]
  exact ⟨rfl, rfl⟩

/-- More bytes behind a string leave its finished tokens, and go on from what is
behind its last delimiter. -/
theorem Lexed.tokens_append {str o : List UInt8} {ts : List (List UInt8)}
    (h : Lexed delims str ts o)
    (xs : List UInt8) : tokens delims (str ++ xs) = ts ++ tokens delims (o ++ xs) := by
  induction h with
  | rest hds ho => rw [List.append_assoc, (tokens_delims_append hds _).1, List.nil_append]
  | @token ds t str o d ts hds ht hne hd h ih =>
    have happ : ds ++ (t ++ d :: str) ++ xs = ds ++ (t ++ d :: (str ++ xs)) := by simp
    rw [happ, (tokens_delims_append hds _).1, (tokens_token ht hne hd _).1, ih, List.cons_append]

theorem Lexed.finished_eq {str o : List UInt8} {ts : List (List UInt8)}
    (h : Lexed delims str ts o) :
    finished delims str = ts := by
  induction h with
  | rest hds ho => rw [(tokens_delims_append hds _).2, (tokens_noDelim ho).2]
  | token hds ht hne hd h ih =>
      rw [(tokens_delims_append hds _).2, (tokens_token ht hne hd _).2, ih]

theorem Lexed.open_noDelim {str o : List UInt8} {ts : List (List UInt8)}
    (h : Lexed delims str ts o) :
    ∀ b ∈ o, b ∉ delims ∧ b ∈ str := by
  induction h with
  | rest hds ho => exact fun b hb => ⟨ho b hb, List.mem_append_right _ hb⟩
  | token hds ht hne hd h ih =>
    intro b hb
    obtain ⟨hnot, hmem⟩ := ih b hb
    exact ⟨hnot, by simp [hmem]⟩

theorem Lexed.tokens_eq {str o : List UInt8} {ts : List (List UInt8)} (h : Lexed delims str ts o) :
    tokens delims str = ts ++ if o = [] then [] else [o] := by
  have happ := h.tokens_append []
  rw [List.append_nil, List.append_nil] at happ
  rw [happ, (tokens_noDelim fun b hb => (h.open_noDelim b hb).1).1]

/-- The token at the end of a string, with more bytes behind it. -/
theorem tokens_grow {t : List UInt8} (ht : ∀ b ∈ t, b ∉ delims) (hne : t ≠ []) (xs : List UInt8) :
    ∃ ys more, tokens delims (t ++ xs) = (t ++ ys) :: more ∧ ∀ b ∈ ys, b ∉ delims ∧ b ∈ xs := by
  induction xs generalizing t with
  | nil =>
    refine ⟨[], [], ?_, fun _ hb => nomatch hb⟩
    rw [List.append_nil, (tokens_noDelim ht).1, if_neg hne]
  | cons x xs ih =>
    by_cases hx : x ∈ delims
    · refine ⟨[], tokens delims xs, ?_, fun _ hb => nomatch hb⟩
      rw [(tokens_token ht hne hx xs).1, List.append_nil]
    · have ht' : ∀ b ∈ t ++ [x], b ∉ delims := fun b hb => by
        rcases List.mem_append.mp hb with hb | hb
        · exact ht b hb
        · rwa [List.mem_singleton.mp hb]
      obtain ⟨ys, more, htokens, hys⟩ := ih ht' (List.append_ne_nil_of_left_ne_nil hne _)
      refine ⟨x :: ys, more, by simpa using htokens, fun b hb => ?_⟩
      rcases List.mem_cons.mp hb with rfl | hb
      · exact ⟨hx, List.mem_cons_self⟩
      · exact ⟨(hys b hb).1, List.mem_cons_of_mem _ (hys b hb).2⟩

/-! ## A call -/

theorem takeWhile_run {p : UInt8 → Bool} {xs ys : List UInt8} (hxs : ∀ b ∈ xs, p b = true)
    (hys : ∀ b ∈ ys.head?, p b = false) : (xs ++ ys).takeWhile p = xs := by
  rw [List.takeWhile_append_of_pos hxs]
  cases ys with
  | nil => rw [List.takeWhile_nil, List.append_nil]
  | cons b ys => rw [List.takeWhile_cons_of_neg (by rw [hys b rfl]; decide), List.append_nil]

theorem drop_of_drop {mem xs ys : List UInt8} {n : Nat} (h : mem.drop n = xs ++ ys) :
    mem.drop (n + xs.length) = ys := by
  rw [← List.drop_drop, h, List.drop_left]

/-- Delimiters, then bytes of a token if there are any, then what stops the scan. -/
structure Ahead (delims mem : List UInt8) (next : Nat) (ds t ys : List UInt8) : Prop where
  ahead : mem.drop next = ds ++ (t ++ ys)
  skipped : ∀ b ∈ ds, b ∈ delims
  token : ∀ b ∈ t, b ∉ delims ∧ b ≠ 0
  stop : ∀ b ∈ ys.head?, b = 0 ∨ (b ∈ delims ∧ t ≠ [])

section Call

variable {mem ds t ys rest : List UInt8} {d : UInt8} {next : Nat}

theorem token_noNul (ht : ∀ b ∈ t, b ∉ delims) (h0 : 0 ∉ t) : ∀ b ∈ t, b ∉ delims ∧ b ≠ 0 :=
  fun b hb => ⟨ht b hb, fun e => h0 (e ▸ hb)⟩

theorem Ahead.nul (hmem : mem.drop next = ds ++ (t ++ 0 :: rest)) (hds : ∀ b ∈ ds, b ∈ delims)
    (ht : ∀ b ∈ t, b ∉ delims) (h0 : 0 ∉ t) : Ahead delims mem next ds t (0 :: rest) :=
  ⟨hmem, hds, token_noNul ht h0, fun _ hb => .inl (Option.some.inj hb).symm⟩

theorem Ahead.delim (hmem : mem.drop next = ds ++ (t ++ d :: rest)) (hds : ∀ b ∈ ds, b ∈ delims)
    (ht : ∀ b ∈ t, b ∉ delims) (h0 : 0 ∉ t) (hne : t ≠ []) (hd : d ∈ delims) :
    Ahead delims mem next ds t (d :: rest) :=
  ⟨hmem, hds, token_noNul ht h0, fun _ hb => .inr ⟨Option.some.inj hb ▸ hd, hne⟩⟩

theorem Ahead.nothing (hmem : mem.drop next = ds ++ t) (hds : ∀ b ∈ ds, b ∈ delims)
    (ht : ∀ b ∈ t, b ∉ delims) (h0 : 0 ∉ t) : Ahead delims mem next ds t [] := by
  have hmem' : mem.drop next = ds ++ (t ++ []) := by rw [hmem, List.append_nil]
  exact ⟨hmem', hds, token_noNul ht h0, fun _ hb => by cases hb⟩

/-- Where the token begins, and where it ends. -/
theorem Ahead.scanned (hd0 : (0 : UInt8) ∉ delims) (h : Ahead delims mem next ds t ys) :
    (mem.drop next).takeWhile (isDelim delims) = ds ∧
      (mem.drop (next + ds.length)).takeWhile (inToken delims) = t ∧
      mem[next + ds.length + t.length]? = ys.head? := by
  have hdrop : mem.drop (next + ds.length) = t ++ ys := drop_of_drop h.ahead
  refine ⟨?_, ?_, ?_⟩
  · rw [h.ahead]
    refine takeWhile_run (fun b hb => isDelim_iff.mpr (h.skipped b hb)) fun b hb => not_isDelim ?_
    cases ht : t with
    | nil =>
      rw [ht, List.nil_append] at hb
      rcases h.stop b hb with rfl | ⟨-, hne⟩
      · exact hd0
      · exact absurd ht hne
    | cons c t' =>
      rw [ht] at hb
      obtain rfl : c = b := Option.some.inj hb
      exact (h.token c (ht ▸ List.mem_cons_self)).1
  · rw [hdrop]
    refine takeWhile_run (fun b hb => decide_eq_true (h.token b hb)) fun b hb => decide_eq_false ?_
    rintro ⟨hnot, hne⟩
    rcases h.stop b hb with h0 | ⟨hd, -⟩
    · exact hne h0
    · exact hnot hd
  · rw [← List.head?_drop, drop_of_drop hdrop]

/-- A token that is stopped by a NUL, or the NUL itself: nothing is written. -/
theorem strtokS_nul (hd0 : (0 : UInt8) ∉ delims)
    (h : Ahead delims mem next ds t (0 :: rest)) :
    ∃ r, strtokS delims mem next = some r ∧ r.mem.drop r.next = 0 :: rest ∧
      (t = [] → r.token = none) ∧ (t ≠ [] → ∃ s ∈ r.token, cstr r.mem s = t) := by
  obtain ⟨hds, ht, hstop⟩ := h.scanned hd0
  have hdrop : mem.drop (next + ds.length) = t ++ 0 :: rest := drop_of_drop h.ahead
  refine ⟨_, by rw [strtokS, hds, ht, hstop]; rfl, drop_of_drop hdrop,
    fun hnil => ?_, fun hne => ?_⟩
  · rw [hnil]
    exact if_pos rfl
  · refine ⟨next + ds.length, if_neg ?_, ?_⟩
    · have hpos := List.length_pos_iff.mpr hne
      omega
    · show (mem.drop (next + ds.length)).takeWhile (· ≠ 0) = t
      rw [hdrop]
      exact takeWhile_run (fun b hb => decide_eq_true (h.token b hb).2) fun b hb => by cases hb; rfl

/-- A token that is stopped by a delimiter: a NUL is written over it. -/
theorem strtokS_delim (hd0 : (0 : UInt8) ∉ delims)
    (h : Ahead delims mem next ds t (d :: rest)) (hd : d ∈ delims) :
    ∃ r, strtokS delims mem next = some r ∧ r.mem.drop r.next = rest ∧
      ∃ s ∈ r.token, cstr r.mem s = t := by
  obtain ⟨hds, ht, hstop⟩ := h.scanned hd0
  have hne0 : d ≠ 0 := fun e => hd0 (e ▸ hd)
  have hdrop : mem.drop (next + ds.length) = t ++ d :: rest := drop_of_drop h.ahead
  have hcall : strtokS delims mem next =
      some ⟨mem.set (next + ds.length + t.length) 0, next + ds.length + t.length + 1,
        some (next + ds.length)⟩ := by
    rw [strtokS, hds, ht, hstop]
    exact congrArg some (if_neg hne0)
  refine ⟨_, hcall, ?_, next + ds.length, rfl, ?_⟩
  · have hend : mem.drop (next + ds.length + t.length) = [d] ++ rest := drop_of_drop hdrop
    show (mem.set _ 0).drop (next + ds.length + t.length + 1) = rest
    rw [List.drop_set_of_lt (Nat.lt_succ_self _)]
    exact drop_of_drop hend
  · show ((mem.set _ 0).drop (next + ds.length)).takeWhile (· ≠ 0) = t
    have hset : (mem.set (next + ds.length + t.length) 0).drop (next + ds.length) =
    t ++ 0 :: rest := by
      rw [List.drop_set, if_neg (by omega), hdrop, Nat.add_sub_cancel_left]
      simp
    rw [hset]
    exact takeWhile_run (fun b hb => decide_eq_true (h.token b hb).2) fun b hb => by cases hb; rfl

/-- Nothing stops the scan. -/
theorem strtokS_past (hd0 : (0 : UInt8) ∉ delims) (h : Ahead delims mem next ds t []) :
    strtokS delims mem next = none := by
  obtain ⟨hds, ht, hstop⟩ := h.scanned hd0
  rw [strtokS, hds, ht, hstop]
  rfl

end Call

end MonitorAgent.Strtok
