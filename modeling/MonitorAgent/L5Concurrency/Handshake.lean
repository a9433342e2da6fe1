import MonitorAgent.L4Session.ProxySession

/-!
# The login handshake

`AvsProxy::Login` on the main-pipe thread sends the login request and then
stores LOGINING (Monitor/Monitor/AvsProxy.cpp:24-46). `OnRxLogin` on the
scene worker sends three NAT packets and then stores NATING (48-69);
`OnRxNAT` stores ONLINE. An answer handled in any other state is dropped, and
nothing asks again. The answers reach the worker through one FIFO, in the
order they arrived; the server answers what was sent, once each.

The NAT half is safe whatever the order: the worker that sends the packets is
the one that would handle their answers. The login half is not: the answer may
be handled before LOGINING is stored.

* `handshake_iff`: no answer is lost exactly when the login answer is taken
  only after `Login` has stored LOGINING.
* `login_answer_lost`: a run that drops it.
-/
namespace MonitorAgent.L5.Handshake

open MonitorAgent.L3 MonitorAgent.L4 LTS

/-- The main-pipe thread: before `Login`, past its send, past its last line. -/
inductive MainPc
  | before
  | sent
  | done
deriving DecidableEq

/-- The scene worker: between scenes, or in `OnRxLogin` with so many NAT
packets still to send. -/
inductive WorkerPc
  | idle
  | rxLogin (toSend : Nat)
deriving DecidableEq

inductive Answer
  | login
  | nat
deriving DecidableEq

/-- `answers` are the scenes queued; the counts are of the NAT packets sent
and answered; `handledLogin` and `handledNat` say that such an answer has been
handled, whether it was dropped or not. -/
structure St where
  w : World
  main : MainPc
  worker : WorkerPc
  answers : List Answer
  loginAnswered : Bool
  natSent : Nat
  natAnswered : Nat
  handledLogin : Bool
  handledNat : Bool

inductive Act
  | main
  | answerLogin
  | answerNat
  | take
  | worker
deriving DecidableEq

variable (p : ProxyRef)

/-- mirrors Monitor/Monitor/AvsProxy.cpp:24-46 -/
def mainStep (s : St) : Option St :=
  match s.main with
  | .before =>
    if (s.w.proxies p).status ≠ .uninit then some { s with main := .done }
    else match s.w.sendLogin p with
      | (w, .success) => some { s with w := w, main := .sent }
      | (w, _) => some { s with w := w, main := .done }
  | .sent => some { s with w := s.w.setStatus p .logining, main := .done }
  | .done => none

/-- The next scene of the worker.
mirrors Monitor/Monitor/Scene/AvsProxyScene/src/ResLoginScene.cpp:9-16 and
Monitor/Monitor/Scene/AvsProxyScene/src/NATScene.cpp:10-17 -/
def takeStep (s : St) : Option St :=
  match s.worker, s.answers with
  | .idle, .login :: rest =>
    if (s.w.proxies p).status ≠ .logining then some { s with answers := rest, handledLogin := true }
    else some { s with answers := rest, worker := .rxLogin 3 }
  | .idle, .nat :: rest =>
    some { s with w := (s.w.onRxNAT p).1, answers := rest, handledNat := true }
  | _, _ => none

/-- mirrors Monitor/Monitor/AvsProxy.cpp:56-66 -/
def workerStep (s : St) : Option St :=
  match s.worker with
  | .idle => none
  | .rxLogin 0 =>
    some { s with w := s.w.setStatus p .nating, worker := .idle, handledLogin := true }
  | .rxLogin (n + 1) =>
    match s.w.sendPacket (s.w.natPacket p) with
    | (w, .success) => some { s with w := w, worker := .rxLogin n, natSent := s.natSent + 1 }
    | (w, _) => some { s with w := w, worker := .idle, handledLogin := true }

def step (s : St) : Act → Option St
  | .main => mainStep p s
  | .answerLogin =>
    if s.main ≠ .before ∧ s.loginAnswered = false then
      some { s with answers := s.answers ++ [.login], loginAnswered := true }
    else none
  | .answerNat =>
    if s.natAnswered < s.natSent then
      some { s with answers := s.answers ++ [.nat], natAnswered := s.natAnswered + 1 }
    else none
  | .take => takeStep p s
  | .worker => workerStep p s

/-- A new proxy, and nothing sent or answered. -/
def Init (s : St) : Prop := ∃ w, Fresh p w ∧ s = ⟨w, .before, .idle, [], false, 0, 0, false, false⟩

/-- The runs of the two threads and the server on one proxy. -/
def sys : LTS St Act := .ofFn (Init p) (step p)

/-! ## Uninterrupted calls -/

theorem atomic_login (s : St) (hs : SendsSucceed s.w) (hm : s.main = .before)
    (hu : (s.w.proxies p).status = .uninit) :
    (exec (step p) s [.main, .main]).map (·.w) = some (s.w.login p).1 := by
  simp [exec, step, mainStep, hm, hu, World.login, World.sendLogin, World.sendPacket, hs _]

theorem atomic_onRxLogin (s : St) (rest : List Answer) (hs : SendsSucceed s.w)
    (hw : s.worker = .idle) (ha : s.answers = .login :: rest)
    (hl : (s.w.proxies p).status = .logining) :
    (exec (step p) s [.take, .worker, .worker, .worker, .worker]).map (·.w) =
      some (s.w.onRxLogin p).1 := by
  simp [exec, step, takeStep, workerStep, hw, ha, hl, World.onRxLogin, World.sendNats,
    World.sendPacket, hs _]

/-! ## Answers in their state -/

/-- A handled answer has moved the proxy on. -/
def Moved (s : St) : Prop :=
  (s.handledLogin = true → (s.w.proxies p).status = .nating ∨ (s.w.proxies p).status = .online) ∧
    (s.handledNat = true → (s.w.proxies p).status = .online)

/-- The login answer is taken after `Login` is through. -/
def TakenInTime (s : St) (l : Act) : Prop :=
  l = .take → s.worker = .idle → s.answers.head? = some .login → s.main = .done

/-- The login answer came and left the queue. -/
def LoginTaken (s : St) : Prop := s.loginAnswered = true ∧ .login ∉ s.answers

/-- What holds in each status. -/
def Phase (s : St) : ProxyStatus → Prop
  | .uninit => s.main ≠ .done ∧ s.worker = .idle ∧ s.natSent = 0 ∧ s.handledLogin = false ∧
      s.handledNat = false
  | .logining => s.main = .done ∧ s.handledLogin = false ∧ s.handledNat = false ∧
      (s.worker = .idle ∧ s.natSent = 0 ∨ s.worker ≠ .idle ∧ LoginTaken s)
  | .nating => s.main = .done ∧ s.worker = .idle ∧ s.handledNat = false ∧ LoginTaken s
  | .online => s.main = .done ∧ s.worker = .idle ∧ LoginTaken s

structure Inv (s : St) : Prop where
  succeed : SendsSucceed s.w
  phase : Phase s (s.w.proxies p).status
  natAnswered : s.natAnswered ≤ s.natSent
  natQueued : .nat ∈ s.answers → 0 < s.natAnswered
  loginQueued : .login ∈ s.answers → s.loginAnswered = true
  loginOnce : s.answers.count .login ≤ 1

variable {p}

theorem Inv.moved {s : St} (h : Inv p s) : Moved p s := by
  have hp := h.phase
  cases hst : (s.w.proxies p).status <;> rw [hst] at hp <;>
    simp only [Phase] at hp <;> simp_all [Moved]

/-- Before `Login` is through the proxy is not initialised. -/
theorem Inv.uninit {s : St} (h : Inv p s) (hm : s.main ≠ .done) :
    (s.w.proxies p).status = .uninit := by
  have hp := h.phase
  cases hst : (s.w.proxies p).status with
  | uninit => rfl
  | logining => rw [hst] at hp; exact absurd hp.1 hm
  | nating => rw [hst] at hp; exact absurd hp.1 hm
  | online => rw [hst] at hp; exact absurd hp.1 hm

/-- `OnRxLogin` runs in LOGINING. -/
theorem Inv.logining {s : St} (h : Inv p s) (hw : s.worker ≠ .idle) :
    (s.w.proxies p).status = .logining ∧ s.handledNat = false ∧
    s.handledLogin = false ∧ s.main = .done ∧
      LoginTaken s := by
  have hp := h.phase
  cases hst : (s.w.proxies p).status with
  | uninit => rw [hst] at hp; exact absurd hp.2.1 hw
  | logining =>
    rw [hst] at hp
    obtain ⟨hm, hl, hn, ⟨hi, -⟩ | ⟨-, ht⟩⟩ := hp
    · exact absurd hi hw
    · exact ⟨rfl, hn, hl, hm, ht⟩
  | nating => rw [hst] at hp; exact absurd hp.2.1 hw
  | online => rw [hst] at hp; exact absurd hp.2.1 hw

/-- Once `Login` is through, the proxy waits in LOGINING for a queued login
answer. -/
theorem Inv.login_queued {s : St} (h : Inv p s) (hm : s.main = .done) (hq : .login ∈ s.answers) :
    (s.w.proxies p).status = .logining ∧ s.handledLogin = false ∧ s.handledNat = false := by
  have hp := h.phase
  cases hst : (s.w.proxies p).status with
  | uninit => rw [hst] at hp; exact absurd hm hp.1
  | logining => rw [hst] at hp; exact ⟨rfl, hp.2.1, hp.2.2.1⟩
  | nating => rw [hst] at hp; exact absurd hq hp.2.2.2.2
  | online => rw [hst] at hp; exact absurd hq hp.2.2.2

/-- A NAT answer in the queue of an idle worker finds the proxy in NATING or
ONLINE: the worker has sent its packet and stored the state since. -/
theorem Inv.nat_queued {s : St} (h : Inv p s) (hq : .nat ∈ s.answers) (hw : s.worker = .idle) :
    ((s.w.proxies p).status = .nating ∨ (s.w.proxies p).status = .online) ∧
    s.main = .done ∧ LoginTaken s := by
  have hsent : s.natSent ≠ 0 := by
    have h1 := h.natQueued hq
    have h2 := h.natAnswered
    omega
  have hp := h.phase
  cases hst : (s.w.proxies p).status with
  | uninit => rw [hst] at hp; exact absurd hp.2.2.1 hsent
  | logining =>
    rw [hst] at hp
    obtain ⟨-, -, -, ⟨-, hz⟩ | ⟨hn, -⟩⟩ := hp
    · exact absurd hz hsent
    · exact absurd hw hn
  | nating => rw [hst] at hp; exact ⟨.inl rfl, hp.1, hp.2.2.2⟩
  | online => rw [hst] at hp; exact ⟨.inr rfl, hp.1, hp.2.2⟩

theorem inv_init (s : St) (h0 : Init p s) : Inv p s := by
  obtain ⟨w, hf, rfl⟩ := h0
  refine ⟨hf.succeed, ?_, le_refl _, ?_, ?_, by simp⟩
  · rw [hf.status]; simp [Phase]
  · simp
  · simp

theorem sendPacket_ok {w : World} (hs : SendsSucceed w) (packet : Packet) :
    ∃ w', w.sendPacket packet = (w', .success) ∧ w'.proxies = w.proxies ∧ SendsSucceed w' := by
  obtain ⟨h1, he, -⟩ := sendPacket_succeed (p := packet.proxy) hs packet
  exact ⟨_, Prod.ext rfl h1, World.sendPacket_proxies w packet, he.succeed hs⟩

theorem setStatus_status (w : World) (p : ProxyRef) (status : ProxyStatus) :
    ((w.setStatus p status).proxies p).status = status := by
  simp [World.setStatus, World.modifyProxy]

theorem Inv.main {s s' : St} (h : Inv p s) (hs : mainStep p s = some s') : Inv p s' := by
  have hp := h.phase
  unfold mainStep at hs
  split at hs
  · rename_i hm
    have hu := h.uninit (by rw [hm]; decide)
    rw [hu] at hp
    obtain ⟨w, heq, hpr, hok⟩ := sendPacket_ok h.succeed (s.w.loginPacket p)
    rw [if_neg (by rw [hu]; decide), World.sendLogin, heq] at hs
    cases hs
    refine ⟨hok, ?_, h.natAnswered, h.natQueued, h.loginQueued, h.loginOnce⟩
    dsimp only
    rw [hpr, hu]
    exact ⟨MainPc.noConfusion, hp.2⟩
  · rename_i hm
    have hu := h.uninit (by rw [hm]; decide)
    rw [hu] at hp
    cases hs
    refine ⟨h.succeed, ?_, h.natAnswered, h.natQueued, h.loginQueued, h.loginOnce⟩
    dsimp only
    rw [setStatus_status]
    exact ⟨rfl, hp.2.2.2.1, hp.2.2.2.2, .inl ⟨hp.2.1, hp.2.2.1⟩⟩
  · cases hs

theorem Inv.answerLogin {s : St} (h : Inv p s) (hn : s.loginAnswered = false) :
    Inv p { s with answers := s.answers ++ [.login], loginAnswered := true } := by
  have hnone : .login ∉ s.answers := fun hq => by rw [h.loginQueued hq] at hn; cases hn
  have htaken : ¬ LoginTaken s := fun ht => by rw [ht.1] at hn; cases hn
  refine ⟨h.succeed, ?_, h.natAnswered, fun hq => h.natQueued (by simpa using hq), fun _ => rfl, ?_⟩
  · have hp := h.phase
    dsimp only
    cases hst : (s.w.proxies p).status with
    | uninit => rw [hst] at hp; exact hp
    | logining =>
      rw [hst] at hp
      obtain ⟨hm, hl, hnat, hi | ⟨-, ht⟩⟩ := hp
      · exact ⟨hm, hl, hnat, .inl hi⟩
      · exact absurd ht htaken
    | nating => rw [hst] at hp; exact absurd hp.2.2.2 htaken
    | online => rw [hst] at hp; exact absurd hp.2.2 htaken
  · simp [List.count_append, List.count_eq_zero.mpr hnone]

theorem Inv.answerNat {s : St} (h : Inv p s) (hn : s.natAnswered < s.natSent) :
    Inv p { s with answers := s.answers ++ [.nat], natAnswered := s.natAnswered + 1 } := by
  have htaken : LoginTaken s →
    LoginTaken { s with answers := s.answers ++ [.nat], natAnswered := s.natAnswered + 1 } :=
    fun ht => ⟨ht.1, by simpa using ht.2⟩
  refine ⟨h.succeed, ?_, hn,
    fun _ => Nat.succ_pos _, fun hq => h.loginQueued (by simpa using hq), ?_⟩
  · have hp := h.phase
    dsimp only
    cases hst : (s.w.proxies p).status with
    | uninit => rw [hst] at hp; exact hp
    | logining =>
      rw [hst] at hp; exact ⟨hp.1, hp.2.1, hp.2.2.1,
        hp.2.2.2.imp id fun ⟨hw, ht⟩ => ⟨hw, htaken ht⟩⟩
    | nating => rw [hst] at hp; exact ⟨hp.1, hp.2.1, hp.2.2.1, htaken hp.2.2.2⟩
    | online => rw [hst] at hp; exact ⟨hp.1, hp.2.1, htaken hp.2.2⟩
  · simpa [List.count_append] using h.loginOnce

/-- The login answer starts `OnRxLogin`, if `Login` is through. -/
theorem Inv.takeLogin {s s' : St} {rest : List Answer} (h : Inv p s) (hm : s.main = .done)
    (hw : s.worker = .idle) (ha : s.answers = .login :: rest) (hs : takeStep p s = some s') :
    Inv p s' := by
  have hq : .login ∈ s.answers := by rw [ha]; exact List.mem_cons_self
  obtain ⟨hst, hl, hn⟩ := h.login_queued hm hq
  have honce := h.loginOnce
  rw [ha, List.count_cons_self] at honce
  have hrest : .login ∉ rest := List.count_eq_zero.mp (by omega)
  simp only [takeStep, hw, ha, hst, ne_eq, not_true_eq_false, if_false, Option.some.injEq] at hs
  subst hs
  refine ⟨h.succeed, ?_, h.natAnswered,
    fun hq => h.natQueued ?_, fun hq => absurd hq hrest, by dsimp only; omega⟩
  · dsimp only
    rw [hst]
    exact ⟨hm, hl, hn, .inr ⟨WorkerPc.noConfusion, h.loginQueued hq, hrest⟩⟩
  · rw [ha]; exact List.mem_cons_of_mem _ hq

/-- The NAT answer brings the proxy ONLINE, if it is not. -/
theorem Inv.takeNat {s s' : St} {rest : List Answer} (h : Inv p s)
    (hw : s.worker = .idle) (ha : s.answers = .nat :: rest) (hs : takeStep p s = some s') :
    Inv p s' := by
  obtain ⟨hst, hm, ht⟩ := h.nat_queued (by rw [ha]; exact List.mem_cons_self) hw
  obtain ⟨he, hv⟩ := onRxNAT_refines (p := p) h.succeed
  have hon : ((s.w.onRxNAT p).1.proxies p).status = .online := by
    have hvs := (congrArg Session.status hv).trans (Session.step_onRxNAT_status _)
    rcases hst with hst | hst <;> simpa [view, hst] using hvs
  have hmem : ∀ a ∈ rest, a ∈ s.answers := fun a hq => by rw [ha]; exact List.mem_cons_of_mem _ hq
  simp only [takeStep, hw, ha, Option.some.injEq] at hs
  subst hs
  refine ⟨he.succeed h.succeed, ?_, h.natAnswered, fun hq => h.natQueued (hmem _ hq),
    fun hq => h.loginQueued (hmem _ hq), ?_⟩
  · dsimp only
    rw [hon]
    exact ⟨hm, rfl, ht.1, fun hq => ht.2 (hmem _ hq)⟩
  · have honce := h.loginOnce
    rwa [ha, List.count_cons_of_ne (by decide)] at honce

theorem Inv.worker {s s' : St} (h : Inv p s) (hs : workerStep p s = some s') : Inv p s' := by
  unfold workerStep at hs
  split at hs
  · cases hs
  · rename_i hw
    obtain ⟨-, hn, -, hm, ht⟩ := h.logining (by rw [hw]; exact WorkerPc.noConfusion)
    cases hs
    refine ⟨h.succeed, ?_, h.natAnswered, h.natQueued, h.loginQueued, h.loginOnce⟩
    dsimp only
    rw [setStatus_status]
    exact ⟨hm, rfl, hn, ht⟩
  · rename_i n hw
    obtain ⟨hst, hn, hl, hm, ht⟩ := h.logining (by rw [hw]; exact WorkerPc.noConfusion)
    obtain ⟨w, heq, hpr, hok⟩ := sendPacket_ok h.succeed (s.w.natPacket p)
    rw [heq] at hs
    cases hs
    refine ⟨hok, ?_, Nat.le_succ_of_le h.natAnswered, h.natQueued, h.loginQueued, h.loginOnce⟩
    dsimp only
    rw [hpr, hst]
    exact ⟨hm, hl, hn, .inr ⟨WorkerPc.noConfusion, ht⟩⟩

theorem inv_step (s : St) (l : Act) (s' : St) (h : Inv p s) (hc : TakenInTime s l)
    (hs : step p s l = some s') : Inv p s' := by
  cases l with
  | main => exact h.main hs
  | answerLogin =>
    simp only [step] at hs
    split at hs
    · rename_i hg; cases hs; exact h.answerLogin hg.2
    · cases hs
  | answerNat =>
    simp only [step] at hs
    split at hs
    · rename_i hg; cases hs; exact h.answerNat hg
    · cases hs
  | take =>
    have hs' : takeStep p s = some s' := hs
    simp only [step, takeStep] at hs
    split at hs
    · rename_i rest hw ha
      exact h.takeLogin (hc rfl hw (by rw [ha]; rfl)) hw ha hs'
    · rename_i rest hw ha
      exact h.takeNat hw ha hs'
    · cases hs
  | worker => exact h.worker hs

theorem taken_guarded : (sys p).Guarded TakenInTime (Inv p) (Moved p) where
  init := inv_init
  step := inv_step
  safe _ h := h.moved
  sharp s l s' h hc hs := by
    simp only [TakenInTime, Classical.not_imp] at hc
    obtain ⟨rfl, hw, hq, hm⟩ := hc
    have hu := h.uninit hm
    obtain ⟨rest, ha⟩ : ∃ rest, s.answers = .login :: rest := List.head?_eq_some_iff.mp hq
    have hs' : takeStep p s = some s' := hs
    simp only [takeStep, hw, ha, hu, ne_eq, reduceCtorEq, not_false_eq_true, if_true,
      Option.some.injEq] at hs'
    subst hs'
    intro hmoved
    have := hmoved.1 rfl
    simp [hu] at this

/-- **No answer is lost**, in every state of a run, exactly when the login
answer is taken only after `Login` has stored LOGINING. -/
theorem handshake_iff {s₀ s : St} {ms : List (Move St Act)} (h0 : Init p s₀)
    (hr : (sys p).Run s₀ ms s) :
    (∀ x ∈ visited s₀ ms, Moved p x) ↔ ∀ m ∈ ms, TakenInTime m.src m.lbl :=
  taken_guarded.safe_along_iff h0 hr

/-! ## Two runs -/

def start : St := ⟨.launched, .before, .idle, [], false, 0, 0, false, false⟩

theorem init_start : Init 0 start := ⟨.launched, fresh_launched 0, rfl⟩

instance (s : St) (l : Act) : Decidable (TakenInTime s l) :=
  inferInstanceAs (Decidable (_ → _ → _ → _))

/-- The first NAT answer comes before NATING is stored, and waits its turn. -/
def earlyNat : List Act :=
  [.main, .answerLogin, .main, .take, .worker, .answerNat, .worker, .worker, .worker, .take]

theorem handshake_iff_earlyNat :
    (∀ m ∈ moves (step 0) start earlyNat, TakenInTime m.src m.lbl) ∧
      ∀ x ∈ visited start (moves (step 0) start earlyNat), Moved 0 x := by
  have ht : ∀ m ∈ moves (step 0) start earlyNat, TakenInTime m.src m.lbl := by decide +kernel
  exact ⟨ht, (handshake_iff init_start (run_of_exec earlyNat (by decide +kernel))).mpr ht⟩

/-- The login answer is taken between the send and the store. -/
def earlyLogin : List Act := [.main, .answerLogin, .take, .main]

/-- The proxy stays in LOGINING and no answer is to come. -/
theorem login_answer_lost :
    ∃ s, (sys 0).Reachable s ∧ s.main = .done ∧ s.answers = [] ∧ ¬ Moved 0 s := by
  obtain ⟨s, hr, hp⟩ := exists_reachable_of_exec (Init 0) (step 0) earlyLogin
    (fun s => s.main == .done && s.answers == [] && s.handledLogin &&
      (s.w.proxies 0).status == .logining)
    init_start (by decide +kernel)
  simp only [Bool.and_eq_true, beq_iff_eq] at hp
  obtain ⟨⟨⟨hm, ha⟩, hl⟩, hst⟩ := hp
  refine ⟨s, hr, hm, ha, fun hmoved => ?_⟩
  have := hmoved.1 hl
  simp [hst] at this

end MonitorAgent.L5.Handshake
