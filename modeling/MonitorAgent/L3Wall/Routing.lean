import MonitorAgent.L3Wall.Bijection

/-!
# The SSRC tables

`g_av_index_map[m]` says which screen an RTP packet of medium `m` goes to.
It should map an SSRC to a screen exactly when the user on that screen has
that SSRC (`Routed`); `ConnectScreen`, `DisconnectScreen` and `ModMedia` keep
it so by inserting and erasing under the SSRCs of one user, which are fields
that change. The runs considered are those where no two live users share an
SSRC of a medium (`Distinct`).

Connecting, disconnecting, creating and deleting keep each entry right
(`RoutingAt.step`). `ModMedia` on a user who is on a screen inserts the new SSRC
and leaves the old one in the table (Monitor/Monitor/TitleRoom.cpp:35-52), so:

* `routed_iff`: the tables are right throughout a run exactly when no user
  changes a non-zero SSRC while on a screen.
* `routedAt_guarded`: the same for one SSRC of one medium.
* `stale_route`: a run after which a packet goes to an idle screen.
-/
namespace MonitorAgent.L3

open LTS

/-- The screen shows a user who has the SSRC. -/
def Shown (w : World) (m : Medium) (ssrc : Nat) (s : ScreenRef) : Prop :=
  ∃ u, (w.screens s).user = some u ∧ (w.users u).ssrc m = ssrc

/-- The tables map an SSRC to the screen that shows the user who has it. -/
def Routed (w : World) : Prop :=
  ∀ m ssrc idx, (w.avIndexMap m).find? ssrc = some idx ↔ 0 < ssrc ∧ ∃ s : ScreenRef,
  s.val = idx ∧ Shown w m ssrc s

/-- No two live users have the same non-zero SSRC of a medium. -/
def Distinct (w : World) : Prop :=
  ∀ m u u', (w.users u).alive = true → (w.users u').alive = true → 0 < (w.users u).ssrc m →
    (w.users u).ssrc m = (w.users u').ssrc m → u = u'

/-- A packet goes to a screen only if the user there has its SSRC. -/
theorem Routed.mediaScreen {w : World} (h : Routed w) {m : Medium} {ssrc : Nat} {s : ScreenRef}
    (hs : w.mediaScreen m ssrc = some s) : Shown w m ssrc s := by
  unfold World.mediaScreen at hs
  split at hs
  · cases hs
  · rename_i idx hf
    obtain ⟨-, s', rfl, hsh⟩ := (h m ssrc idx).mp hf
    rw [dif_pos s'.isLt] at hs
    cases hs
    exact hsh

structure Routing (w : World) : Prop where
  bij : Bij w
  distinct : Distinct w
  routed : Routed w

theorem Routing.screen_u8 {w : World} (h : Bij w) (s : ScreenRef) :
    u8 (w.screens s).index = s.val := by
  have hs : s.val < 15 := s.isLt
  rw [h.index, u8, Nat.mod_eq_of_lt (by omega)]

/-! ## One SSRC at a time -/

section At

variable (m : Medium) (ssrc : Nat)

/-- The table has the right screen for this SSRC, if any. -/
def RoutedAt (w : World) : Prop :=
  ∀ idx, (w.avIndexMap m).find? ssrc = some idx ↔ 0 < ssrc ∧ ∃ s : ScreenRef,
  s.val = idx ∧ Shown w m ssrc s

/-- No two live users have this SSRC. -/
def DistinctAt (w : World) : Prop :=
  0 < ssrc → ∀ u u', (w.users u).alive = true → (w.users u').alive = true →
    (w.users u).ssrc m = ssrc → (w.users u').ssrc m = ssrc → u = u'

structure RoutingAt (w : World) : Prop where
  bij : Bij w
  distinct : DistinctAt m ssrc w
  routed : RoutedAt m ssrc w

end At

theorem distinct_iff (w : World) : Distinct w ↔ ∀ m ssrc, DistinctAt m ssrc w := by
  constructor
  · rintro h m ssrc h0 u u' ha ha' rfl he
    exact h m u u' ha ha' h0 he.symm
  · intro h m u u' ha ha' h0 he
    exact h m _ h0 u u' ha ha' rfl he.symm

theorem routing_iff (w : World) : Routing w ↔ ∀ m ssrc, RoutingAt m ssrc w := by
  constructor
  · intro h m ssrc
    exact ⟨h.bij, (distinct_iff w).mp h.distinct m ssrc, h.routed m ssrc⟩
  · intro h
    exact ⟨(h .audio 0).bij, (distinct_iff w).mpr fun m ssrc => (h m ssrc).distinct,
      fun m ssrc => (h m ssrc).routed⟩

variable {m : Medium} {ssrc : Nat}

/-- Two screens show users with one SSRC only if they are one screen. -/
theorem RoutingAt.shown_unique {w : World} (h : RoutingAt m ssrc w) {s s' : ScreenRef}
    (h0 : 0 < ssrc) (hs : Shown w m ssrc s) (hs' : Shown w m ssrc s') : s = s' := by
  obtain ⟨u, hu, he⟩ := hs
  obtain ⟨u', hu', he'⟩ := hs'
  have ha := h.bij.shows s u hu
  have ha' := h.bij.shows s' u' hu'
  obtain rfl := h.distinct h0 u u' ha ha' he he'
  exact Option.some.inj (((h.bij.paired s u ha).mp hu).symm.trans ((h.bij.paired s' u ha).mp hu'))

/-! ## Steps of the wall -/

/-- Whoever has the SSRC had it before: still distinct. -/
theorem DistinctAt.mono {w w' : World} (h : DistinctAt m ssrc w)
    (hu : ∀ u, (w'.users u).alive = true → 0 < (w'.users u).ssrc m →
      (w.users u).alive = true ∧
      (w'.users u).ssrc m = (w.users u).ssrc m) : DistinctAt m ssrc w' := by
  intro h0 u u' ha ha' he he'
  obtain ⟨hb, e⟩ := hu u ha (by omega)
  obtain ⟨hb', e'⟩ := hu u' ha' (by omega)
  exact h h0 u u' hb hb' (e.symm.trans he) (e'.symm.trans he')

theorem RoutingAt.connect {w : World} (h : RoutingAt m ssrc w) (s : ScreenRef) (u : UserRef)
    (hs : (w.screens s).user = none) (hu : (w.users u).screen = none)
    (ha : (w.users u).alive = true) :
    RoutingAt m ssrc (w.connectUser s (some u)).1 := by
  have hssrc : ∀ u', ((w.connectUser s (some u)).1.users u').ssrc m = (w.users u').ssrc m :=
    fun u' => by
    rw [World.connectUser_users]; split <;> simp_all [User.ssrc]
  -- the screen was idle, the others show what they showed
  have hshown : ∀ s', Shown (w.connectUser s (some u)).1 m ssrc s' ↔
      Shown w m ssrc s' ∨ (s' = s ∧ (w.users u).ssrc m = ssrc) := fun s' => by
    simp only [Shown, hssrc, World.connectUser_screens]
    by_cases hs' : s' = s
    · subst hs'; simp [hs]
    · simp [hs']
  refine ⟨h.bij.step (.connect w s u hs hu ha), h.distinct.mono fun u' ha' _ => ⟨?_, hssrc u'⟩, ?_⟩
  · rwa [(SameIdentity.connect w s u).alive] at ha'
  intro idx
  rw [World.connectUser_find?, Routing.screen_u8 h.bij]
  simp only [hshown]
  by_cases hc : 0 < (w.users u).ssrc m ∧ ssrc = (w.users u).ssrc m
  · obtain ⟨h0, rfl⟩ := hc
    -- nobody on a screen had this SSRC: `u` has it, and is on none
    have hnone : ∀ s', ¬ Shown w m ((w.users u).ssrc m) s' := by
      intro s' ⟨u', hu', he⟩
      have ha' := h.bij.shows s' u' hu'
      obtain rfl := h.distinct h0 u u' ha ha' rfl he
      rw [(h.bij.paired s' u ha).mp hu'] at hu
      cases hu
    have hfind : (w.avIndexMap m).find? ((w.users u).ssrc m) = none := by
      cases hf : (w.avIndexMap m).find? ((w.users u).ssrc m) with
      | none => rfl
      | some j =>
        obtain ⟨-, s', -, hsh⟩ := (h.routed j).mp hf
        exact absurd hsh (hnone s')
    rw [if_pos ⟨h0, rfl⟩, hfind]
    simp [h0, hnone]
  · rw [if_neg hc, h.routed idx]
    refine and_congr_right fun h0 => exists_congr fun s' => and_congr_right fun _ => ?_
    refine ⟨.inl, fun hsh => hsh.resolve_right ?_⟩
    rintro ⟨-, rfl⟩
    exact hc ⟨h0, rfl⟩

theorem RoutingAt.disconnect {w : World} (h : RoutingAt m ssrc w) (s : ScreenRef) (u : UserRef)
    (hs : (w.screens s).user = some u) : RoutingAt m ssrc (w.disconnectUser s).1 := by
  have hssrc : ∀ u', ((w.disconnectUser s).1.users u').ssrc m = (w.users u').ssrc m := fun u' => by
    rw [World.disconnectUser_users w s u' hs]; split <;> simp_all [User.ssrc]
  have hshown : ∀ s', Shown (w.disconnectUser s).1 m ssrc s' ↔ Shown w m ssrc s' ∧ s' ≠ s :=
    fun s' => by
    simp only [Shown, hssrc, World.disconnectUser_screens w s s' hs]
    by_cases hs' : s' = s
    · simp [hs']
    · simp [hs']
  refine ⟨h.bij.step (.disconnect w s u hs), h.distinct.mono fun u' ha' _ => ⟨?_, hssrc u'⟩, ?_⟩
  · rwa [(SameIdentity.disconnect w s u hs).alive] at ha'
  intro idx
  have hold := h.routed idx
  rw [World.disconnectUser_find? w s m ssrc hs]
  simp only [hshown]
  by_cases hx : ssrc = (w.users u).ssrc m
  · rw [if_pos hx]
    refine iff_of_false (fun e => nomatch e) ?_
    intro ⟨h0, s', _, hsh, hne⟩
    exact hne (h.shown_unique h0 hsh ⟨u, hs, hx.symm⟩)
  · rw [if_neg hx, hold]
    refine and_congr_right fun h0 => exists_congr fun s' => and_congr_right fun _ => ?_
    refine ⟨fun hsh => ⟨hsh, ?_⟩, And.left⟩
    rintro rfl
    obtain ⟨u', hu', he⟩ := hsh
    rw [hs] at hu'
    cases hu'
    exact hx he.symm

/-- The tables and what the screens show are the same. -/
theorem RoutingAt.congr {w w' : World} (h : RoutingAt m ssrc w) (hb : Bij w')
    (hd : DistinctAt m ssrc w') (hs : w'.screens = w.screens) (hm : w'.avIndexMap = w.avIndexMap)
    (hu : ∀ u, (w.users u).alive = true → (w'.users u).ssrc m = (w.users u).ssrc m) :
    RoutingAt m ssrc w' := by
  refine ⟨hb, hd, fun idx => ?_⟩
  rw [hm, h.routed idx]
  refine and_congr_right fun h0 => exists_congr fun s' => and_congr_right fun _ =>
    exists_congr fun u => ?_
  rw [hs]
  refine and_congr_right fun hsu => ?_
  rw [hu u (h.bij.shows s' u hsu)]

theorem RoutingAt.step {w w' : World} (h : RoutingAt m ssrc w) (hst : WallStep w w') :
    RoutingAt m ssrc w' := by
  have hb := h.bij.step hst
  cases hst with
  | connect s u hs hu ha => exact h.connect s u hs hu ha
  | disconnect s u hs => exact h.disconnect s u hs
  | create r userId micId _ =>
    refine h.congr hb (h.distinct.mono fun u ha h0 => ?_) rfl rfl fun u ha => ?_
    · rw [World.newUser_users] at *
      split at h0
      · cases m <;> exact absurd h0 (Nat.lt_irrefl 0)
      · rename_i hne
        rw [if_neg hne] at ha ⊢
        exact ⟨ha, rfl⟩
    · rw [World.newUser_users, if_neg (Nat.ne_of_lt (h.bij.fresh u ha))]
  | delete r userId u hf hu =>
    have hssrc : ∀ u', ((w.dropUser r userId u).users u').ssrc m = (w.users u').ssrc m :=
      fun u' => by
      rw [World.dropUser_users]; split <;> simp_all [User.ssrc]
    refine h.congr hb (h.distinct.mono fun u' ha _ => ⟨?_, hssrc u'⟩) rfl rfl fun u' _ => hssrc u'
    rw [World.dropUser_users] at ha
    split at ha
    · cases ha
    · exact ha
  | micId u n =>
    have hssrc : ∀ u', ((w.modifyUser u fun x => { x with micId := n }).users u').ssrc m =
        (w.users u').ssrc m := fun u' => by
      rw [World.modifyUser_users]; split <;> simp_all [User.ssrc]
    refine h.congr hb (h.distinct.mono fun u' ha _ => ⟨?_, hssrc u'⟩) rfl rfl fun u' _ => hssrc u'
    rw [World.modifyUser_users] at ha
    split at ha
    · rename_i he; rw [he]; exact ha
    · exact ha
  | other w' e =>
    refine h.congr hb (h.distinct.mono fun u ha _ => ?_) e.screens e.avIndexMap
      fun u _ => by rw [e.users]
    rw [e.users] at *
    exact ⟨ha, rfl⟩

theorem RoutingAt.steps {w w' : World} (h : RoutingAt m ssrc w) (hst : WallSteps w w') :
    RoutingAt m ssrc w' := by
  induction hst with
  | refl => exact h
  | tail _ hs ih => exact ih.step hs

theorem Routing.steps {w w' : World} (h : Routing w) (hst : WallSteps w w') : Routing w' :=
  (routing_iff w').mpr fun m ssrc => ((routing_iff w).mp h m ssrc).steps hst

/-! ## `ModMedia` -/

/-- A `ModMedia` on a user who is on a screen leaves every non-zero SSRC as
it is. -/
def KeepsSsrcs (w : World) : WallOp → Prop
  | .modUser u a v => (w.users u).screen ≠ none →
      ((w.users u).audioSsrc = 0 ∨ a = (w.users u).audioSsrc) ∧
      ((w.users u).videoSsrc = 0 ∨ v = (w.users u).videoSsrc)
  | _ => True

theorem keepsSsrcs_iff (w : World) (u : UserRef) (a v : Nat) :
    KeepsSsrcs w (.modUser u a v) ↔ ((w.users u).screen ≠ none →
      ∀ m, (w.users u).ssrc m = 0 ∨ Medium.pick a v m = (w.users u).ssrc m) := by
  refine imp_congr_right fun _ => ⟨fun h m => ?_, fun h => ⟨h .audio, h .video⟩⟩
  cases m
  · exact h.1
  · exact h.2

theorem modMedia_ssrc (w : World) (u : UserRef) (a v : Nat) (u' : UserRef) (m : Medium) :
    ((w.modMedia u a v).users u').ssrc m = if u' = u then m.pick a v else (w.users u').ssrc m := by
  rw [World.modMedia_users]
  split <;> rfl

/-- With the new SSRC distinct, whoever is shown with it is `u`. -/
theorem Bij.holder_modMedia {w : World} (h : Bij w) {u u' : UserRef} {a v : Nat} {s : ScreenRef}
    (hd : DistinctAt m (m.pick a v) (w.modMedia u a v)) (ha : (w.users u).alive = true)
    (h0 : 0 < m.pick a v)
    (hs : (w.screens s).user = some u') (he : ((w.modMedia u a v).users u').ssrc m = m.pick a v) :
    u' = u := by
  have halive := (SameIdentity.modMedia w u a v).alive
  have hu : ((w.modMedia u a v).users u).ssrc m = m.pick a v := by rw [modMedia_ssrc, if_pos rfl]
  apply hd h0 u' u
  · rw [halive]; exact h.shows s u' hs
  · rw [halive]; exact ha
  · exact he
  · exact hu

theorem RoutingAt.modMedia {w : World} (h : RoutingAt m ssrc w) (u : UserRef) (a v : Nat)
    (ha : (w.users u).alive = true) (hd : DistinctAt m ssrc (w.modMedia u a v))
    (hk : (w.users u).screen ≠ none → 0 < ssrc → (w.users u).ssrc m = ssrc → m.pick a v = ssrc) :
    RoutingAt m ssrc (w.modMedia u a v) := by
  refine ⟨h.bij.modMedia u a v, hd, fun idx => ?_⟩
  have hshown : ∀ s', Shown (w.modMedia u a v) m ssrc s' ↔
      ∃ u', (w.screens s').user = some u' ∧
        (if u' = u then m.pick a v else (w.users u').ssrc m) = ssrc :=
    fun s' => by simp only [Shown, modMedia_ssrc, World.modMedia_screens]
  have hfind := World.modMedia_find? w u a v m ssrc
  simp only [hshown]
  by_cases hc : (w.users u).screen ≠ none ∧ 0 < m.pick a v ∧ ssrc = m.pick a v
  · obtain ⟨hsc, h0, rfl⟩ := hc
    obtain ⟨s, hs⟩ := Option.ne_none_iff_exists'.mp hsc
    have hsu := (h.bij.paired s u ha).mpr hs
    -- whoever has the new SSRC afterwards is `u`
    have honly : ∀ s' u', (w.screens s').user = some u' →
        (if u' = u then m.pick a v else (w.users u').ssrc m) = m.pick a v → s' = s := by
      intro s' u' hu' he
      obtain rfl := h.bij.holder_modMedia hd ha h0 hu' (by rw [modMedia_ssrc, he])
      exact Option.some.inj (((h.bij.paired s' u' ha).mp hu').symm.trans hs)
    have hget : ((w.avIndexMap m).find? (m.pick a v)).getD (u8 (w.users u).screenIdx) = s.val := by
      cases hf : (w.avIndexMap m).find? (m.pick a v) with
      | none => rw [Option.getD_none, h.bij.idx s u ha hs, Routing.screen_u8 h.bij]
      | some j =>
        obtain ⟨-, s', rfl, u', hu', he⟩ := (h.routed j).mp hf
        rw [Option.getD_some, honly s' u' hu' (by rw [he, ite_self])]
    rw [hfind, if_pos ⟨hsc, h0, rfl⟩, hget]
    constructor
    · rintro ⟨⟩
      exact ⟨h0, s, rfl, u, hsu, if_pos rfl⟩
    · rintro ⟨-, s', rfl, u', hu', he⟩
      rw [honly s' u' hu' he]
  · rw [hfind, if_neg hc, h.routed idx]
    refine and_congr_right fun h0 => exists_congr fun s' => and_congr_right fun _ =>
      exists_congr fun u' => and_congr_right fun hu' => ?_
    by_cases hu : u' = u
    · subst hu
      have hsc : (w.users u').screen ≠ none := by
        rw [(h.bij.paired s' u' ha).mp hu']
        exact fun e => nomatch e
      rw [if_pos rfl]
      exact ⟨hk hsc h0, fun he => absurd ⟨hsc, he ▸ h0, he.symm⟩ hc⟩
    · rw [if_neg hu]

theorem Routing.modMedia {w : World} (h : Routing w) (u : UserRef) (a v : Nat)
    (ha : (w.users u).alive = true) (hd : Distinct (w.modMedia u a v))
    (hk : (w.users u).screen ≠ none → ∀ m, (w.users u).ssrc m = 0 ∨
      Medium.pick a v m = (w.users u).ssrc m) :
    Routing (w.modMedia u a v) := by
  refine (routing_iff _).mpr fun m ssrc => ?_
  refine ((routing_iff w).mp h m ssrc).modMedia u a v ha ((distinct_iff _).mp hd m ssrc) ?_
  rintro hsc h0 rfl
  exact (hk hsc m).resolve_left (by omega)

/-- A changed SSRC stays in the table under its old value. -/
theorem not_routedAt_modMedia {w : World} (u : UserRef) (a v : Nat)
    (h : RoutingAt m ((w.users u).ssrc m) w) (ha : (w.users u).alive = true)
    (hsc : (w.users u).screen ≠ none) (h0 : (w.users u).ssrc m ≠ 0)
    (hne : m.pick a v ≠ (w.users u).ssrc m) :
    ¬ RoutedAt m ((w.users u).ssrc m) (w.modMedia u a v) := by
  intro hr
  obtain ⟨s, hs⟩ := Option.ne_none_iff_exists'.mp hsc
  have hsu := (h.bij.paired s u ha).mpr hs
  have hold : (w.avIndexMap m).find? ((w.users u).ssrc m) = some s.val :=
    (h.routed _).mpr ⟨Nat.pos_of_ne_zero h0, s, rfl, u, hsu, rfl⟩
  have hnew : ((w.modMedia u a v).avIndexMap m).find? ((w.users u).ssrc m) = some s.val := by
    rw [World.modMedia_find?, if_neg fun hc => hne hc.2.2.symm, hold]
  obtain ⟨-, s', hs', u', hu', he⟩ := (hr _).mp hnew
  obtain rfl := Fin.ext hs'
  rw [World.modMedia_screens, hsu] at hu'
  cases hu'
  rw [modMedia_ssrc, if_pos rfl] at he
  exact hne he

theorem not_routed_modMedia {w : World} (h : Routing w) (u : UserRef) (a v : Nat)
    (ha : (w.users u).alive = true) (hsc : (w.users u).screen ≠ none) (m : Medium)
    (h0 : (w.users u).ssrc m ≠ 0) (hne : m.pick a v ≠ (w.users u).ssrc m) :
    ¬ Routed (w.modMedia u a v) := fun hr =>
  not_routedAt_modMedia u a v ((routing_iff w).mp h m _) ha hsc h0 hne (hr m _)

theorem Distinct.launched {w : World} (h : w.Launched) : Distinct w := by
  intro m u u' ha
  rw [h.users u] at ha
  cases ha

theorem RoutedAt.launched {w : World} (h : w.Launched) : RoutedAt m ssrc w := by
  intro idx
  rw [h.avIndexMap]
  refine iff_of_false (fun e => nomatch e) ?_
  intro ⟨_, s, _, u, hu, _⟩
  rw [(h.screens s).1] at hu
  cases hu

/-- A `ModMedia` on a user who has this SSRC on a screen leaves it. -/
def KeepsAt (m : Medium) (ssrc : Nat) (w : World) : WallOp → Prop
  | .modUser u a v =>
    (w.users u).screen ≠ none → 0 < ssrc → (w.users u).ssrc m = ssrc → m.pick a v = ssrc
  | _ => True

theorem routedAt_guarded (m : Medium) (ssrc : Nat) :
    (wallSys.within (DistinctAt m ssrc)).Guarded (KeepsAt m ssrc) (RoutingAt m ssrc)
    (RoutedAt m ssrc) where
  init w h0 := ⟨.launched h0.1, h0.2, .launched h0.1⟩
  step w op w' h hk hst := by
    rcases wallStep_cases h.bij hst.1 with hs | ⟨u, a, v, rfl, ha, rfl⟩
    · exact h.steps hs
    · exact h.modMedia u a v ha hst.2 hk
  safe w h := h.routed
  sharp w op w' h hk hst := by
    cases op
    case modUser u a v =>
      simp only [KeepsAt, Classical.not_imp] at hk
      obtain ⟨hsc, h0, rfl, hne⟩ := hk
      obtain ⟨ha, rfl⟩ := wallStep_modUser hst.1
      exact not_routedAt_modMedia u a v h ha hsc (by omega) hne
    all_goals exact absurd trivial hk

theorem routing_guarded : (wallSys.within Distinct).Guarded KeepsSsrcs Routing Routed where
  init w h0 := ⟨.launched h0.1, h0.2, fun _ _ => RoutedAt.launched h0.1⟩
  step w op w' h hk hst := by
    rcases wallStep_cases h.bij hst.1 with hs | ⟨u, a, v, rfl, ha, rfl⟩
    · exact h.steps hs
    · exact h.modMedia u a v ha hst.2 ((keepsSsrcs_iff w u a v).mp hk)
  safe w h := h.routed
  sharp w op w' h hk hst := by
    cases op
    case modUser u a v =>
      rw [keepsSsrcs_iff, Classical.not_imp, not_forall] at hk
      obtain ⟨hsc, m, hm⟩ := hk
      rw [not_or] at hm
      obtain ⟨ha, rfl⟩ := wallStep_modUser hst.1
      exact not_routed_modMedia h u a v ha hsc m hm.1 hm.2
    all_goals exact absurd trivial hk

/-- **Routing.** In a run where no two live users ever share an SSRC, the
tables are right in every state exactly when every `ModMedia` on a user who is
on a screen keeps that user's non-zero SSRCs. -/
theorem routed_iff {w₀ w : World} {ms : List (Move World WallOp)} (h0 : w₀.Launched)
    (hr : (wallSys.within Distinct).Run w₀ ms w) :
    (∀ x ∈ visited w₀ ms, Routed x) ↔ ∀ m ∈ ms, KeepsSsrcs m.src m.lbl :=
  routing_guarded.safe_along_iff ⟨h0, .launched h0⟩ hr

/-! ## Runs with one user -/

/-- With one user object ever created there is nobody to share with. -/
theorem distinct_of_single {w : World} (h : Bij w) (hn : w.nextUser ≤ 1) : Distinct w := by
  intro m u u' ha ha' _ _
  have hu := Nat.lt_of_lt_of_le (h.fresh u ha) hn
  have hu' := Nat.lt_of_lt_of_le (h.fresh u' ha') hn
  rw [Nat.lt_one_iff.mp hu, Nat.lt_one_iff.mp hu']

theorem run_single (ops : List WallOp) (h : (exec World.wallStep .launched ops).isSome)
    (hn : ∀ x ∈ visited World.launched (moves World.wallStep .launched ops), x.nextUser ≤ 1) :
    (wallSys.within Distinct).Run .launched (moves World.wallStep .launched ops)
      ((exec World.wallStep .launched ops).get h) := by
  have hr : wallSys.Run _ _ _ := run_of_exec ops h
  exact hr.within fun x hx =>
    distinct_of_single (bij_inductive.visited hr (.launched World.launched_launched) x hx) (hn x hx)

instance (w : World) (op : WallOp) : Decidable (KeepsSsrcs w op) := by
  cases op <;> unfold KeepsSsrcs <;> infer_instance

/-- A user gets SSRCs before going on a screen and keeps them there. -/
def keepSsrc : List WallOp :=
  [.addUser 0 7 1, .modUser 0 5 6, .linkScreenUser 3 0, .modUser 0 5 6, .cleanScreens]

theorem routed_iff_keepSsrc :
    (∀ m ∈ moves World.wallStep .launched keepSsrc, KeepsSsrcs m.src m.lbl) ∧
      ∀ x ∈ visited World.launched (moves World.wallStep .launched keepSsrc), Routed x := by
  have hr := run_single keepSsrc (by decide +kernel) (by decide +kernel)
  have hk : ∀ m ∈ moves World.wallStep .launched keepSsrc, KeepsSsrcs m.src m.lbl := by
    decide +kernel
  exact ⟨hk, (routed_iff World.launched_launched hr).mpr hk⟩

/-- The audio SSRC changes from 5 to 6 on the screen, then the user leaves. -/
def changeSsrc : List WallOp :=
  [.addUser 0 7 1, .modUser 0 5 0, .linkScreenUser 3 0, .modUser 0 6 0, .delUser 0 7]

/-- A packet with SSRC 5 goes to screen 3, which is idle. -/
theorem stale_route :
    ∃ w, (wallSys.within Distinct).Reachable w ∧ w.mediaScreen .audio 5 = some 3 ∧
      (w.screens 3).user = none ∧ ¬ Routed w := by
  have hex : (exec World.wallStep .launched changeSsrc).isSome := by decide +kernel
  have hp : (exec World.wallStep .launched changeSsrc).map (fun w =>
    (w.mediaScreen .audio 5, (w.screens 3).user)) =
      some (some 3, none) := by decide +kernel
  obtain ⟨w, hw⟩ := Option.isSome_iff_exists.mp hex
  have hr := run_single changeSsrc hex (by decide +kernel)
  simp only [hw, Option.map_some, Option.some.injEq, Prod.mk.injEq, Option.get_some] at hp hr
  refine ⟨w, ⟨_, _, ⟨World.launched_launched, .launched World.launched_launched⟩, hr⟩, hp.1, hp.2,
    fun hrt => ?_⟩
  obtain ⟨u, hu, -⟩ := hrt.mediaScreen hp.1
  rw [hp.2] at hu
  cases hu

end MonitorAgent.L3
