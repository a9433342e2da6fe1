import MonitorAgent.L4Session.ProxySession

/-!
# Linking rooms while a proxy goes online

`AvsProxy::LinkRoom` on the main-pipe thread tests `status_` and then, under
`waits_rooms_lock_`, queues the room (Monitor/Monitor/AvsProxy.cpp:184-211);
`OnRxNAT` on the scene worker sets ONLINE and then, under the same lock,
links what is queued and clears the queue (71-88). The test is not under the
lock: a room that was found not online may be queued after the drain, and
nothing looks at the queue again.

Each thread is at a program counter between the two parts of its call; the
parts are those of `World.linkRoom` and `World.onRxNAT` (`atomic_linkRoom`,
`atomic_onRxNAT`).

* `no_link_lost_iff`: no request is lost exactly when no room is queued after
  ONLINE was set, except before the drain that is still to come.
* `link_lost`: a run that loses a room.
-/
namespace MonitorAgent.L5.GoOnline

open MonitorAgent.L3 MonitorAgent.L4 LTS

/-- The main-pipe thread, between calls or past the status test. -/
inductive MainPc
  | idle
  | push (room : RoomRef)
  | add (room : RoomRef)
deriving DecidableEq

/-- The scene worker, between calls or past `status_ = ONLINE`. -/
inductive WorkerPc
  | idle
  | drain
deriving DecidableEq

structure St where
  w : World
  main : MainPc
  worker : WorkerPc
  requested : List RoomRef

inductive Act
  | login
  | linkRoom (room : RoomRef)
  | main
  | onRxLogin
  | onRxNAT
  | worker
deriving DecidableEq

variable (p : ProxyRef)

def mainStep (s : St) : Option St :=
  match s.main with
  | .idle => none
  | .push r => some { s with w := s.w.pushWaits p r, main := .idle }
  | .add r => some { s with w := (s.w.linkOnline p r).1, main := .idle }

def step (s : St) : Act → Option St
  | .login => if s.main = .idle then some { s with w := (s.w.login p).1 } else none
  | .linkRoom r =>
    if s.main = .idle then
      some { s with
        main := if (s.w.proxies p).status = .online then .add r else .push r, requested :=
          s.requested ++ [r] }
    else none
  | .main => mainStep p s
  | .onRxLogin => if s.worker = .idle then some { s with w := (s.w.onRxLogin p).1 } else none
  | .onRxNAT =>
    if s.worker = .idle then
      if (s.w.proxies p).status ≠ .nating then some s
      else some { s with w := s.w.setStatus p .online, worker := .drain }
    else none
  | .worker =>
    match s.worker with
    | .idle => none
    | .drain => some { s with w := s.w.drainWaits p, worker := .idle }

def Init (s : St) : Prop := Fresh p s.w ∧ s.main = .idle ∧ s.worker = .idle ∧ s.requested = []

/-- The runs of the two threads on one proxy. -/
def sys : LTS St Act := .ofFn (Init p) (step p)

/-- A call that is not interrupted is the call of the source. -/
theorem atomic_linkRoom (s : St) (r : RoomRef) (h : s.main = .idle) :
    (exec (step p) s [.linkRoom r, .main]).map (·.w) = some (s.w.linkRoom p r).1 := by
  unfold World.linkRoom
  by_cases ho : (s.w.proxies p).status = .online <;> simp [exec, step, h, ho, mainStep]

theorem atomic_onRxNAT (s : St) (h : s.worker = .idle) (hn : (s.w.proxies p).status = .nating) :
    (exec (step p) s [.onRxNAT, .worker]).map (·.w) = some (s.w.onRxNAT p).1 := by
  simp [exec, step, h, hn, World.onRxNAT]

/-! ## Requests in flight -/

/-- ONLINE and no call under way: nothing waits, and every room asked for is
linked. -/
def Settled (s : St) : Prop :=
  (s.w.proxies p).status = .online → s.main = .idle → s.worker = .idle →
    (s.w.proxies p).waitsRooms = [] ∧ ∀ r ∈ s.requested,
    ((s.w.proxies p).rooms.find? (s.w.rooms r).id).isSome

def MainPc.pushing : MainPc → Bool
  | .push _ => true
  | _ => false

/-- A room is queued while the proxy is not online, or before the drain. -/
def QueuedInTime (s : St) (l : Act) : Prop :=
  l = .main → s.main.pushing = true → (s.w.proxies p).status ≠ .online ∨ s.worker = .drain

/-- Where a requested id may be. -/
def Held (s : St) (id : Int) : Prop :=
  (view p s.w).linked id = true ∨ id ∈ (view p s.w).waits ∨
    ∃ r, (s.main = .push r ∨ s.main = .add r) ∧ (s.w.rooms r).id = id

structure Inv (s : St) : Prop where
  succeed : SendsSucceed s.w
  held : ∀ r ∈ s.requested, Held p s (s.w.rooms r).id
  drained : (view p s.w).status = .online → s.worker = .idle → (view p s.w).waits = []
  adding : ∀ r, s.main = .add r → (view p s.w).status = .online
  draining : s.worker = .drain → (view p s.w).status = .online

variable {p}

theorem Inv.settled {s : St} (h : Inv p s) : Settled p s := by
  intro ho hm hw
  have hd := h.drained ho hw
  refine ⟨by simpa [view] using hd, fun r hr => ?_⟩
  rcases h.held r hr with hl | hl | ⟨r', hl, -⟩
  · exact hl
  · rw [hd] at hl; cases hl
  · rw [hm] at hl; rcases hl with hl | hl <;> cases hl

/-- A call of the handshake changes the status alone, and not to ONLINE. -/
theorem Inv.handshake {s : St} {w' : World} (h : Inv p s) (he : SameEnv s.w w')
    (status : ProxyStatus) (hv : view p w' = { view p s.w with status := status })
    (ho : status = .online ↔ (view p s.w).status = .online) : Inv p { s with w := w' } where
  succeed := he.succeed h.succeed
  held r hr := by
    have hh := h.held r hr
    simp only [Held, hv, he.roomId] at hh ⊢
    exact hh
  drained := by
    dsimp only
    rw [hv]
    exact fun hon => h.drained (ho.mp hon)
  adding r hr := by
    dsimp only
    rw [hv]
    exact ho.mpr (h.adding r hr)
  draining hr := by
    dsimp only
    rw [hv]
    exact ho.mpr (h.draining hr)

theorem Inv.linkRoom {s : St} (h : Inv p s) (r : RoomRef) (hm : s.main = .idle) :
    Inv p { s with
      main := if (s.w.proxies p).status = .online then .add r else .push r, requested :=
        s.requested ++ [r] } where
  succeed := h.succeed
  held r' hr' := by
    rcases List.mem_append.mp hr' with hr' | hr'
    · rcases h.held r' hr' with hl | hl | ⟨r'', hl, -⟩
      · exact .inl hl
      · exact .inr (.inl hl)
      · rw [hm] at hl; rcases hl with hl | hl <;> cases hl
    · cases List.mem_singleton.mp hr'
      refine .inr (.inr ⟨r, ?_, rfl⟩)
      dsimp only
      split <;> simp
  drained := h.drained
  adding r' hr' := by
    dsimp only at hr'
    split at hr'
    · rename_i ho; exact ho
    · cases hr'
  draining := h.draining

theorem Inv.pushWaits {s : St} (h : Inv p s) (r : RoomRef) (hm : s.main = .push r)
    (hc : (s.w.proxies p).status ≠ .online ∨ s.worker = .drain) :
    Inv p { s with w := s.w.pushWaits p r, main := .idle } where
  succeed := h.succeed
  held r' hr' := by
    rcases h.held r' hr' with hl | hl | ⟨r'', hl, hid⟩
    · exact .inl (by rw [view_pushWaits]; exact hl)
    · exact .inr (.inl (by rw [view_pushWaits]; exact List.mem_append_left _ hl))
    · rw [hm] at hl
      rcases hl with hl | hl
      · cases hl
        have hmem : (s.w.rooms r').id ∈ (view p s.w).waits ++ [(s.w.rooms r).id] := by simp [hid]
        exact .inr (.inl (by rw [view_pushWaits]; exact hmem))
      · cases hl
  drained ho hw := by
    rcases hc with hc | hc
    · rw [view_pushWaits] at ho; exact absurd ho hc
    · rw [hc] at hw; cases hw
  adding r' hr' := by cases hr'
  draining hw := by rw [view_pushWaits]; exact h.draining hw

theorem Inv.linkOnline {s : St} (h : Inv p s) (r : RoomRef) (hm : s.main = .add r) :
    Inv p { s with w := (s.w.linkOnline p r).1, main := .idle } := by
  obtain ⟨he, hv⟩ := linkOnline_refines (p := p) h.succeed r
  have hlinked : ∀ id, (view p s.w).linked id = true ∨ id = (s.w.rooms r).id →
      (view p (s.w.linkOnline p r).1).linked id = true := fun id hid => by
    rw [hv, Session.link_linked]; exact hid
  refine ⟨he.succeed h.succeed, fun r' hr' => ?_, ?_, (fun r' hr' => nomatch hr'), fun hw => ?_⟩
  · simp only [Held, he.roomId]
    rcases h.held r' hr' with hl | hl | ⟨r'', hl, hid⟩
    · exact .inl (hlinked _ (.inl hl))
    · exact .inr (.inl (by rw [hv, Session.link_waits]; exact hl))
    · rw [hm] at hl
      rcases hl with hl | hl
      · cases hl
      · cases hl; exact .inl (hlinked _ (.inr hid.symm))
  · dsimp only
    rw [hv, Session.link_status, Session.link_waits]
    exact h.drained
  · dsimp only
    rw [hv, Session.link_status]
    exact h.draining hw

theorem Inv.setOnline {s : St} (h : Inv p s) :
    Inv p { s with w := s.w.setStatus p .online, worker := .drain } where
  succeed := h.succeed
  held r hr := by
    have hh := h.held r hr
    simp only [Held, view_setStatus, (SameEnv.setStatus s.w p .online).roomId] at hh ⊢
    exact hh
  drained _ hw := by cases hw
  adding r hr := by dsimp only; rw [view_setStatus]
  draining hr := by dsimp only; rw [view_setStatus]

theorem Inv.drainWaits {s : St} (h : Inv p s) (hw : s.worker = .drain) :
    Inv p { s with w := s.w.drainWaits p, worker := .idle } := by
  have ho := h.draining hw
  obtain ⟨he, hv⟩ := drainWaits_refines (p := p) h.succeed ho
  have hst : (view p (s.w.drainWaits p)).status = .online := by
    rw [hv]; exact ((Session.foldl_link _ _).2.1).trans ho
  refine ⟨he.succeed h.succeed, fun r hr => ?_, fun _ _ => by rw [hv]; rfl, fun _ _ => hst,
    (fun hr => nomatch hr)⟩
  simp only [Held, he.roomId, hv, Session.drain, Session.foldl_link_linked]
  rcases h.held r hr with hl | hl | hl
  · exact .inl (.inl hl)
  · exact .inl (.inr hl)
  · exact .inr (.inr hl)

theorem inv_step (s : St) (l : Act) (s' : St) (h : Inv p s) (hc : QueuedInTime p s l)
    (hs : step p s l = some s') : Inv p s' := by
  cases l with
  | login =>
    simp only [step] at hs
    split at hs
    · cases hs
      obtain ⟨he, hv⟩ := login_refines (p := p) h.succeed
      refine h.handshake he _ (hv.trans (Session.step_login _)) ?_
      split <;> simp_all
    · cases hs
  | linkRoom r =>
    simp only [step] at hs
    split at hs
    · rename_i hm; cases hs; exact h.linkRoom r hm
    · cases hs
  | main =>
    simp only [step, mainStep] at hs
    split at hs
    · cases hs
    · rename_i r hm; cases hs; exact h.pushWaits r hm (hc rfl (by rw [hm]; rfl))
    · rename_i r hm; cases hs; exact h.linkOnline r hm
  | onRxLogin =>
    simp only [step] at hs
    split at hs
    · cases hs
      obtain ⟨he, hv⟩ := onRxLogin_refines (p := p) h.succeed
      refine h.handshake he _ (hv.trans (Session.step_onRxLogin _)) ?_
      split <;> simp_all
    · cases hs
  | onRxNAT =>
    simp only [step] at hs
    split at hs
    · split at hs
      · cases hs; exact h
      · cases hs; exact h.setOnline
    · cases hs
  | worker =>
    simp only [step] at hs
    split at hs
    · cases hs
    · rename_i hw; cases hs; exact h.drainWaits hw

theorem inv_init (s : St) (h0 : Init p s) : Inv p s := by
  obtain ⟨hf, hm, hw, hr⟩ := h0
  have hst : (view p s.w).status = .uninit := hf.status
  refine ⟨hf.succeed, fun r h => ?_, fun ho => ?_, fun r h => ?_, fun h => ?_⟩
  · rw [hr] at h; cases h
  · rw [hst] at ho; cases ho
  · rw [hm] at h; cases h
  · rw [hw] at h; cases h

theorem queued_guarded : (sys p).Guarded (QueuedInTime p) (Inv p) (Settled p) where
  init := inv_init
  step := inv_step
  safe _ h := h.settled
  sharp s l s' h hc hs := by
    simp only [QueuedInTime, Classical.not_imp, not_or, not_not] at hc
    obtain ⟨rfl, hpush, ho, hw⟩ := hc
    obtain ⟨r, hm⟩ : ∃ r, s.main = .push r := by
      cases hm : s.main with
      | push r => exact ⟨r, rfl⟩
      | idle => rw [hm] at hpush; cases hpush
      | add r => rw [hm] at hpush; cases hpush
    have hs' : step p s .main = some s' := hs
    simp only [step, mainStep, hm, Option.some.injEq] at hs'
    subst hs'
    have hwi : s.worker = .idle := by
      cases hk : s.worker with
      | idle => rfl
      | drain => exact absurd hk hw
    intro hset
    have hnil := (hset (by simpa [World.pushWaits, World.modifyProxy] using ho) rfl hwi).1
    simp [World.pushWaits, World.modifyProxy] at hnil

/-- **No request is lost**, in every state of a run, exactly when no room is
queued after ONLINE was set with no drain to come. -/
theorem no_link_lost_iff {s₀ s : St} {ms : List (Move St Act)} (h0 : Init p s₀)
    (hr : (sys p).Run s₀ ms s) :
    (∀ x ∈ visited s₀ ms, Settled p x) ↔ ∀ m ∈ ms, QueuedInTime p m.src m.lbl :=
  queued_guarded.safe_along_iff h0 hr

/-! ## Two runs -/

def start : St := ⟨.launched, .idle, .idle, []⟩

theorem init_start : Init 0 start := ⟨fresh_launched 0, rfl, rfl, rfl⟩

instance (s : St) (l : Act) : Decidable (QueuedInTime p s l) :=
  inferInstanceAs (Decidable (_ → _ → _ ∨ _))

/-- Queued before the answers, drained with them. -/
def queuedEarly : List Act :=
  [.login, .linkRoom 5, .main, .onRxLogin, .onRxNAT, .linkRoom 6, .worker, .main]

theorem no_link_lost_iff_queuedEarly :
    (∀ m ∈ moves (step 0) start queuedEarly, QueuedInTime 0 m.src m.lbl) ∧
      ∀ x ∈ visited start (moves (step 0) start queuedEarly), Settled 0 x := by
  have hq : ∀ m ∈ moves (step 0) start queuedEarly, QueuedInTime 0 m.src m.lbl := by decide +kernel
  exact ⟨hq, (no_link_lost_iff init_start (run_of_exec queuedEarly (by decide +kernel))).mpr hq⟩

/-- The test before ONLINE, the push after the drain. -/
def queuedLate : List Act := [.login, .onRxLogin, .linkRoom 5, .onRxNAT, .worker, .main]

/-- Room 5 stays in the queue of a proxy that is online. -/
theorem link_lost : ∃ s, (sys 0).Reachable s ∧ ¬ Settled 0 s := by
  obtain ⟨s, hr, hp⟩ := exists_reachable_of_exec (Init 0) (step 0) queuedLate
    (fun s => (s.w.proxies 0).status == .online && s.main == .idle && s.worker == .idle &&
      (s.w.proxies 0).waitsRooms == [5]) init_start (by decide +kernel)
  simp only [Bool.and_eq_true, beq_iff_eq] at hp
  obtain ⟨⟨⟨ho, hm⟩, hw⟩, hq⟩ := hp
  refine ⟨s, hr, fun hset => ?_⟩
  have hnil := (hset ho hm hw).1
  rw [hq] at hnil
  cases hnil

end MonitorAgent.L5.GoOnline
