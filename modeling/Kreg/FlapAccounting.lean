import Kreg.Seconds

namespace Kreg
open Float64
set_option autoImplicit true

variable {F : Type} [Float64 F]

def DampingInfo.Capped (d : DampingInfo F) (now : Time) (dampening : Option DampeningConfig) :
    Prop :=
  ∃ u ∈ d.suppressedSince, ∃ dc ∈ dampening, (maxSuppressOf dc).ns ≤ (now.sub u).ns

/-- One penalty on top of what is left of the score on record, and one flap on top of what is
left of the count. -/
structure Accrues (now : Time) (dampening : Option DampeningConfig) (prev d : DampingInfo F) :
    Prop where
  score : d.score = add (prev.carried now dampening) (ofInt flapPenalty)
  count : d.flapCount24h =
    decayFlapCount F prev.flapCount24h (now.sub prev.lastObservedAt) + 1

/-- What is left of both and nothing more; the score may have been set to zero by the cap. -/
structure Decays (now : Time) (dampening : Option DampeningConfig) (prev d : DampingInfo F) :
    Prop where
  score : d.score = prev.carried now dampening ∨
    prev.Capped now dampening ∧ d.score = ofInt 0
  count : d.flapCount24h = decayFlapCount F prev.flapCount24h (now.sub prev.lastObservedAt)

structure DampingInfo.Blank (d : DampingInfo F) : Prop where
  score : d.score = ofInt 0
  count : d.flapCount24h = 0

theorem Suppresses.score_cases {s : Suppression F} (h : Suppresses now score since dampening s) :
    s.score = score ∨
      (∃ u ∈ since, ∃ dc ∈ dampening, (maxSuppressOf dc).ns ≤ (now.sub u).ns) ∧
        s.score = ofInt 0 := by
  cases h with
  | capped _ hc => exact .inr ⟨⟨_, rfl, _, rfl, hc⟩, rfl⟩
  | off | reused | kept | entered | calm => exact .inl rfl

theorem observe_count (now : Time) (prev : DampingInfo F) (dampening : Option DampeningConfig) :
    (observe now prev dampening).flapCount24h =
      if prev.withdrawnAt.isSome then
        decayFlapCount F prev.flapCount24h (now.sub prev.lastObservedAt) + 1
      else decayFlapCount F prev.flapCount24h (now.sub prev.lastObservedAt) :=
  rfl

theorem observe_accrues {prev : DampingInfo F} (hw : prev.withdrawnAt.isSome = true)
    (hcap : ¬ prev.Capped now dampening) :
    Accrues now dampening prev (observe now prev dampening) := by
  obtain ⟨s, hs, _, _, hscore, _⟩ := observe_suppresses now prev dampening
  rw [DampingInfo.charged, if_pos hw] at hs
  constructor
  · rw [hscore]
    exact hs.score_cases.resolve_right fun h => hcap h.1
  · rw [observe_count, if_pos hw]

theorem observe_decays {prev : DampingInfo F} (hw : prev.withdrawnAt = none) :
    Decays now dampening prev (observe now prev dampening) := by
  have hnot : ¬ prev.withdrawnAt.isSome = true := by
    rw [hw]
    exact Bool.false_ne_true
  obtain ⟨s, hs, _, _, hscore, _⟩ := observe_suppresses now prev dampening
  rw [DampingInfo.charged, if_neg hnot] at hs
  constructor
  · rw [hscore]
    exact hs.score_cases
  · rw [observe_count, if_neg hnot]

theorem hold_decays (now withdrawnAt : Time) (prev : DampingInfo F) (grace : Duration)
    (dampening : Option DampeningConfig) :
    Decays now dampening prev (hold now withdrawnAt prev grace dampening) := by
  obtain ⟨s, hs, _, hscore, _⟩ := hold_suppresses now withdrawnAt prev grace dampening
  constructor
  · rw [hscore]
    exact hs.score_cases
  · rfl

theorem newCandidateDamping_blank (now : Time) (delay : Duration) :
    (newCandidateDamping now delay : DampingInfo F).Blank := by
  rw [newCandidateDamping]
  split <;> exact ⟨rfl, rfl⟩

theorem int32_add_one_ne (n : Int32) : n + 1 ≠ n := by
  intro h
  have h' : n + 1 = n + 0 := h.trans (Int32.add_zero n).symm
  exact absurd (Int32.add_right_inj n |>.1 h') (by decide)

theorem metaTimeOrNil_storable {o : Option Time} (h : ∀ t ∈ o, t.Storable) :
    metaTimeOrNil o = o := by
  cases o with
  | none => rfl
  | some t =>
    rw [metaTimeOrNil, Option.bind_some, metaTime, (h t rfl).isZero_eq]
    rfl

theorem DampingInfo.kept_withdrawnAt {d p : DampingInfo F} (h : d.kept = some p)
    (hw : ∀ t ∈ d.withdrawnAt, t.Storable) :
    p.withdrawnAt = d.withdrawnAt.map Time.truncate := by
  rw [DampingInfo.eq_restored_of_kept h]
  exact congrArg (Option.map Time.truncate) (metaTimeOrNil_storable hw)

namespace Run

def InRIB (r : Run F) (p : String) (n : Nat) : Prop :=
  p ∈ (r.tick n).rib.routes.map RIBRoute.pfx

omit [Float64 F] in
instance (r : Run F) (p : String) (n : Nat) : Decidable (r.InRIB p n) :=
  inferInstanceAs (Decidable (_ ∈ _))

/-- Emitted at an earlier tick, and not as `Pending`. What was before the run the records tell
that it starts from. -/
def Known (r : Run F) (k : String) (n : Nat) : Prop :=
  (∃ q ∈ r.memory k 0, q.state ≠ .pending) ∨
    ∃ m < n, ∃ c ∈ r.emitted m, c.name = k ∧ ∃ d, c.damping = some d ∧ d.state ≠ .pending

/-- The prefix is back in the RIB after a tick without it, and the backend is known. -/
def Reappears (r : Run F) (p k : String) (n : Nat) : Prop :=
  ∃ m, n = m + 1 ∧ r.InRIB p n ∧ ¬ r.InRIB p m ∧ r.Known k n

def Charged (r : Run F) (k : String) (n : Nat) : Prop :=
  ∃ prev d, r.memory k n = some prev ∧ r.verdict k n = some d ∧ d.state ≠ .pending ∧
    Accrues (r.now n) r.cfg.dampening prev d

/-- The tick charges the key nothing: what it emits for it has only decayed, or is blank because
there is no record yet or the route is still settling. -/
def Uncharged (r : Run F) (k : String) (n : Nat) : Prop :=
  ∀ d, r.verdict k n = some d →
    match r.memory k n with
    | none => d.Blank
    | some prev => d.state = .pending ∧ d.Blank ∨ Decays (r.now n) r.cfg.dampening prev d

/-- A tick that accounts for the flaps of the key: it accepts the prefix whenever it sees it, and
the record it finds is neither past its grace while the prefix is out nor at its cap when the
prefix is back. -/
structure Accounts (r : Run F) (p k : String) (n : Nat) : Prop where
  accepted : r.InRIB p n → r.here k n = true
  graced : r.here k n = false → ∀ q ∈ r.memory k n, q.state ≠ .pending →
    ¬ q.Lapsed (r.now n) (durationOrZero r.cfg.withdrawalGrace)
  uncapped : r.here k n = true → ∀ q ∈ r.memory k n, q.withdrawnAt.isSome = true →
    ¬ q.Capped (r.now n) r.cfg.dampening

theorem Accounts.of_here {r : Run F} (hh : r.here k n = true)
    (h : ∀ q ∈ r.memory k n, q.withdrawnAt.isSome = true → ¬ q.Capped (r.now n) r.cfg.dampening) :
    r.Accounts p k n where
  accepted _ := hh
  graced hgone := nomatch hh.symm.trans hgone
  uncapped _ := h

theorem Accounts.of_out {r : Run F} (hout : ¬ r.InRIB p n) (hh : r.here k n = false)
    (h : ∀ q ∈ r.memory k n, q.state ≠ .pending →
      ¬ q.Lapsed (r.now n) (durationOrZero r.cfg.withdrawalGrace)) : r.Accounts p k n where
  accepted hin := absurd hin hout
  graced _ := h
  uncapped hhere := nomatch hh.symm.trans hhere

/-- The clock never reads Go's zero time. -/
def Clocked (r : Run F) : Prop :=
  ∀ n, (r.now n).Storable

omit [Float64 F] in
theorem inRIB_of_here {r : Run F} (hp : IPv4Prefix p)
    (h : r.here (backendObjectName p clusterID) n = true) : r.InRIB p n := by
  obtain ⟨c, hc, _, hk⟩ := r.here_eq_true_iff.1 h
  have hv := (r.tick n).rib.settle_ipv4 (r.tick n).settled c hc
  rw [InRIB, ← settle_pfx (r.tick n).settled, ← (backendObjectName_inj hv hp hk).1]
  exact List.mem_map_of_mem hc

theorem Charged.not_uncharged {r : Run F} (h : r.Charged k n) : ¬ r.Uncharged k n := by
  intro hu
  obtain ⟨prev, d, hm, hv, hs, ha⟩ := h
  have hd := hu d hv
  rw [hm] at hd
  rcases hd with ⟨hp, _⟩ | hd
  · exact hs hp
  · exact int32_add_one_ne _ (ha.count.symm.trans hd.count)

theorem uncharged_of {r : Run F}
    (h : ∀ prev, r.memory k n = some prev → r.here k n = true → prev.withdrawnAt = none) :
    r.Uncharged k n := by
  intro d hv
  have ht := r.transition hv
  generalize hb : r.here k n = b at ht
  cases hm : r.memory k n with
  | none =>
    rw [hm] at ht
    cases ht with
    | fresh => exact newCandidateDamping_blank _ _
  | some prev =>
    rw [hm] at ht
    cases ht with
    | settling _ _ => exact .inl ⟨rfl, rfl, rfl⟩
    | observed _ => exact .inr (observe_decays (h prev hm hb))
    | held _ _ => exact .inr (hold_decays _ _ _ _ _)

section Withdrawn

variable {r : Run F} {k : String} (hclock : r.Clocked)
  (hstart : ∀ k s, r.start.lookup k = some s → s.status.stability.Stamped)
include hclock hstart

theorem memory_withdrawnAt : ∀ n, ∀ q ∈ r.memory k n, ∀ t ∈ q.withdrawnAt, t.Storable := by
  intro n
  induction n with
  | zero =>
    intro q hq t ht
    obtain ⟨p, hp, rfl⟩ := Option.map_eq_some_iff.1 hq
    have hstamped := Records.prior_stamped hstart (Visit.prior_of_lookup hp)
    exact (hstamped.withdrawn t ht).storable
  | succ n ih =>
    intro q hq
    obtain ⟨d, hv, hk⟩ := Run.memory_succ_eq_some hq
    have hd : ∀ t ∈ d.withdrawnAt, t.Storable := by
      have ht := r.transition hv
      generalize r.memory k n = prev at ht ih
      generalize r.here k n = b at ht
      cases ht with
      | fresh =>
        rw [newCandidateDamping_withdrawnAt]
        exact forall_mem_none
      | settling | observed => exact forall_mem_none
      | @held p =>
        intro t ht
        cases ht
        cases hw : p.withdrawnAt with
        | none => exact hclock n
        | some u => exact ih p rfl u hw
    rw [DampingInfo.kept_withdrawnAt hk hd]
    intro t ht
    obtain ⟨u, hu, rfl⟩ := Option.map_eq_some_iff.1 ht
    exact (hd u hu).truncate

theorem withdrawn_iff (hm : r.memory k (n + 1) = some q) :
    q.withdrawnAt.isSome = true ↔ r.here k n = false := by
  obtain ⟨d, hv, hk⟩ := Run.memory_succ_eq_some hm
  have ht := r.transition hv
  cases hh : r.here k n with
  | true =>
    rw [hh] at ht
    have hnone := ht.withdrawnAt_present
    rw [DampingInfo.kept_withdrawnAt hk (by rw [hnone]; exact forall_mem_none), hnone]
    exact iff_of_false Bool.false_ne_true Bool.noConfusion
  | false =>
    rw [hh] at ht
    have hstored := memory_withdrawnAt (k := k) hclock hstart n
    generalize r.memory k n = prev at ht hstored
    cases ht with
    | @held p =>
      have hw : ∀ t ∈ some (p.withdrawnAt.getD (r.now n)), t.Storable := by
        intro t ht
        cases ht
        cases hp : p.withdrawnAt with
        | none => exact hclock n
        | some u => exact hstored p rfl u hp
      rw [DampingInfo.kept_withdrawnAt hk hw]
      exact iff_of_true rfl rfl

end Withdrawn

section Known

variable {r : Run F} {k : String} (hclock : r.Clocked) {dc : DampeningConfig}
  (hc : r.cfg.dampening = some dc) (he : dc.enabled = true)
include hclock hc he

theorem memory_of_verdict (hv : r.verdict k n = some d) (hs : d.state ≠ .pending) :
    ∃ q, r.memory k (n + 1) = some q ∧ q.state ≠ .pending := by
  refine ⟨d.restored, ?_, hs⟩
  rw [r.memory_succ (needsPriorState_of_enabled hc he), hv]
  apply DampingInfo.kept_eq_restored
  rw [(r.transition hv).lastObservedAt_eq]
  exact (hclock n).isZero_eq

theorem Known.memory (hsteps : ∀ m < n, r.Accounts p k m) (h : r.Known k n) :
    ∃ q, r.memory k n = some q ∧ q.state ≠ .pending := by
  induction n with
  | zero =>
    rcases h with h | ⟨m, hm, _⟩
    · exact h
    · exact absurd hm (Nat.not_lt_zero m)
  | succ n ih =>
    have hbefore : r.Known k n ∨ ∃ d, r.verdict k n = some d ∧ d.state ≠ .pending := by
      rcases h with h | ⟨m, hm, c, hc, hk, d, hd, hs⟩
      · exact .inl (.inl h)
      · rcases Nat.lt_succ_iff_lt_or_eq.1 hm with hlt | rfl
        · exact .inl (.inr ⟨m, hlt, c, hc, hk, d, hd, hs⟩)
        · exact .inr ⟨d, hk ▸ verdict_of_emitted hc hd, hs⟩
    rcases hbefore with hknown | ⟨d, hv, hs⟩
    · obtain ⟨q, hq, hs⟩ := ih (fun m hm => hsteps m (Nat.lt_succ_of_lt hm)) hknown
      cases hh : r.here k n with
      | true =>
        have ht : Transition (r.now n) r.cfg (some q) true (observe (r.now n) q r.cfg.dampening) :=
          .observed fun hp => absurd hp hs
        have hv := ht.verdict_eq
        rw [← hq, ← hh] at hv
        exact memory_of_verdict hclock hc he hv (observe_not_pending _ _ _)
      | false =>
        have hg := (hsteps n n.lt_succ_self).graced hh q hq hs
        rw [DampingInfo.Lapsed, not_or, not_le] at hg
        have hv := (Transition.held hs hg.2).verdict_eq
        rw [← hq, ← hh] at hv
        exact memory_of_verdict hclock hc he hv (hold_not_pending _ _ _ _ _)
    · exact memory_of_verdict hclock hc he hv hs

end Known

theorem emitted_of_gone {r : Run F} (hv : r.verdict k m = some d) (hgone : r.here k m = false) :
    ∃ c ∈ r.emitted m, c.name = k ∧ ∃ d, c.damping = some d ∧ d.state ≠ .pending := by
  obtain ⟨c, hc, hk, _, hd⟩ := Run.emitted_of_verdict hv
  have ht := r.transition hv
  rw [hgone] at ht
  generalize r.memory k m = prev at ht
  cases ht with
  | held => exact ⟨c, hc, hk, _, hd, hold_not_pending _ _ _ _ _⟩

section Accounting

variable {r : Run F} (hclock : r.Clocked)
  (hstart : ∀ k s, r.start.lookup k = some s → s.status.stability.Stamped)
  (hp : IPv4Prefix p) {clusterID : String}
include hclock hstart hp

/-- A record of a withdrawal is of a tick without the prefix, which emitted the backend
nevertheless. -/
theorem reappears_of_withdrawn (hsteps : ∀ m ≤ n, r.Accounts p (backendObjectName p clusterID) m)
    (hfirst : n = 0 → r.memory (backendObjectName p clusterID) 0 = none)
    (hhere : r.here (backendObjectName p clusterID) n = true)
    (hm : r.memory (backendObjectName p clusterID) n = some q)
    (hw : q.withdrawnAt.isSome = true) : r.Reappears p (backendObjectName p clusterID) n := by
  cases n with
  | zero =>
    rw [hfirst rfl] at hm
    cases hm
  | succ m =>
    have hgone := (withdrawn_iff hclock hstart hm).1 hw
    have hout : ¬ r.InRIB p m := by
      intro hin
      rw [(hsteps m m.le_succ).accepted hin] at hgone
      cases hgone
    obtain ⟨d, hv, _⟩ := Run.memory_succ_eq_some hm
    obtain ⟨c, hc, hk, hd⟩ := emitted_of_gone hv hgone
    exact ⟨m, rfl, inRIB_of_here hp hhere, hout, .inr ⟨m, m.lt_succ_self, c, hc, hk, hd⟩⟩

theorem charged_of_reappears {dc : DampeningConfig} (hc : r.cfg.dampening = some dc)
    (he : dc.enabled = true) (hsteps : ∀ m ≤ n, r.Accounts p (backendObjectName p clusterID) m)
    (h : r.Reappears p (backendObjectName p clusterID) n) :
    r.Charged (backendObjectName p clusterID) n := by
  obtain ⟨m, rfl, hin, hout, hknown⟩ := h
  have hstep := hsteps (m + 1) (le_refl _)
  have hhere := hstep.accepted hin
  have hgone : r.here (backendObjectName p clusterID) m = false := by
    rw [← Bool.not_eq_true]
    exact fun h => hout (inRIB_of_here hp h)
  obtain ⟨q, hm, hs⟩ := hknown.memory hclock hc he fun t ht => hsteps t ht.le
  have hw := (withdrawn_iff hclock hstart hm).2 hgone
  refine ⟨q, observe (r.now (m + 1)) q r.cfg.dampening, hm, ?_, observe_not_pending _ _ _, ?_⟩
  · rw [Run.verdict, hm, hhere]
    exact (Transition.observed fun hp => (hs hp).elim).verdict_eq
  · exact observe_accrues hw (hstep.uncapped hhere q hm hw)

end Accounting

/-- Flaps are accounted for exactly, in every run whose ticks all do so: a backend is charged one
flap at each tick that has its prefix back in the RIB, and at no other. -/
theorem flap_accounting (r : Run F) (hclock : r.Clocked)
    (hstart : ∀ k s, r.start.lookup k = some s → s.status.stability.Stamped)
    {dc : DampeningConfig} (hc : r.cfg.dampening = some dc) (he : dc.enabled = true)
    (hp : IPv4Prefix p) (clusterID : String) (n : Nat)
    (hsteps : ∀ m ≤ n, r.Accounts p (backendObjectName p clusterID) m)
    (hfirst : n = 0 → r.memory (backendObjectName p clusterID) 0 = none) :
    (r.Charged (backendObjectName p clusterID) n ↔
        r.Reappears p (backendObjectName p clusterID) n) ∧
      (¬ r.Reappears p (backendObjectName p clusterID) n →
        r.Uncharged (backendObjectName p clusterID) n) := by
  have hnot : ¬ r.Reappears p (backendObjectName p clusterID) n →
      r.Uncharged (backendObjectName p clusterID) n := by
    intro hre
    apply uncharged_of
    intro q hm hhere
    rw [← Option.not_isSome_iff_eq_none]
    exact fun hw => hre (reappears_of_withdrawn hclock hstart hp hsteps hfirst hhere hm hw)
  refine ⟨⟨?_, charged_of_reappears hclock hstart hp hc he hsteps⟩, hnot⟩
  intro hcharged
  by_contra hre
  exact hcharged.not_uncharged (hnot hre)

end Run

/-- In, out, in, out and in again, a half-life apart; the second time out may be a refusal. -/
def returningRun (grace : Option Duration) (second : Sighting) : Run Rat :=
  sampleRun Rat ⟨grace, none, some ⟨true, some (.seconds 5), some 1000, some 10, none⟩⟩ 5 fun n =>
    if n = 1 then .gone else if n = 3 then second else .accepted

theorem returningRun_accounts : ∀ n ≤ 4,
    (returningRun (some (.seconds 30)) .gone).Accounts "10.0.0.0/24" "10-0-0-0-24-edge" n := by
  have hm₁ : (returningRun (some (.seconds 30)) .gone).memory "10-0-0-0-24-edge" 1 =
      some ⟨.active, "", 0, 0, clock 0, none, none, none⟩ := by decide +kernel
  have hm₂ : (returningRun (some (.seconds 30)) .gone).memory "10-0-0-0-24-edge" 2 =
      some ⟨.holdDown, "withdrawn 0s ago, grace 30s", 0, 0, clock 5, some (clock 5), none,
        none⟩ := by decide +kernel
  have hm₃ : (returningRun (some (.seconds 30)) .gone).memory "10-0-0-0-24-edge" 3 =
      some ⟨.dampened, "flap-dampened: score 1000 (>= suppressThreshold 1000)", 1000, 1, clock 10,
        none, some (clock 10), none⟩ := by decide +kernel
  have hm₄ : (returningRun (some (.seconds 30)) .gone).memory "10-0-0-0-24-edge" 4 =
      some ⟨.dampened, "flap-dampened: score 500 (reuse below 10)", 500, 1, clock 15,
        some (clock 15), some (clock 10), none⟩ := by decide +kernel
  intro n hn
  obtain rfl | rfl | rfl | rfl | rfl : n = 0 ∨ n = 1 ∨ n = 2 ∨ n = 3 ∨ n = 4 := by omega
  · apply Run.Accounts.of_here (by decide +kernel)
    rw [Run.memory_zero rfl]
    exact forall_mem_none
  · apply Run.Accounts.of_out (by decide +kernel) (by decide +kernel)
    intro q hq _
    cases hm₁.symm.trans hq
    rintro (h | h)
    · cases h
    · exact absurd h (by decide)
  · apply Run.Accounts.of_here (by decide +kernel)
    rintro q hq _ ⟨u, hu, _⟩
    cases hm₂.symm.trans hq
    cases hu
  · apply Run.Accounts.of_out (by decide +kernel) (by decide +kernel)
    intro q hq _
    cases hm₃.symm.trans hq
    rintro (h | h)
    · cases h
    · exact absurd h (by decide)
  · apply Run.Accounts.of_here (by decide +kernel)
    rintro q hq _ ⟨u, hu, dc, hdc, hcap⟩
    cases hm₄.symm.trans hq
    cases hu
    cases hdc
    exact absurd hcap (by decide)

theorem Run.flap_accounting_returning :
    (returningRun (some (.seconds 30)) .gone).Charged
      (backendObjectName "10.0.0.0/24" "edge") 4 := by
  have hname : backendObjectName "10.0.0.0/24" "edge" = "10-0-0-0-24-edge" := by decide +kernel
  have hemitted : sampleEmission ⟨.active, "", 0, 0, clock 0, none, none, none⟩ ∈
      (returningRun (some (.seconds 30)) .gone).emitted 0 := by decide +kernel
  have hclock : (returningRun (some (.seconds 30)) .gone).Clocked := fun n =>
    (clock_whole _).storable
  refine ((Run.flap_accounting _ hclock (fun k s h => ?_) rfl rfl (by decide) "edge" 4
    (hname ▸ returningRun_accounts) (fun h => absurd h (by decide))).1).2 ?_
  · rw [returningRun, sampleRun, AList.lookup_empty] at h
    cases h
  · exact ⟨3, rfl, by decide +kernel, by decide +kernel, .inr ⟨0, by decide, _, hemitted, rfl, _,
      rfl, by decide⟩⟩

/-- Without a grace the record is gone before the route is back: emitted `Active`, out of the RIB,
then back in, and not charged. And a refusal is charged although the prefix never left the RIB. -/
theorem Run.flap_uncounted_without_grace :
    (sampleEmission ⟨.active, "", 0, 0, clock 0, none, none, none⟩ ∈
          (returningRun none .gone).emitted 0 ∧
        ¬ (returningRun none .gone).InRIB "10.0.0.0/24" 1 ∧
        (returningRun none .gone).InRIB "10.0.0.0/24" 2 ∧
        ¬ (returningRun none .gone).Charged (backendObjectName "10.0.0.0/24" "edge") 2) ∧
      (returningRun (some (.seconds 30)) .refused).InRIB "10.0.0.0/24" 3 ∧
        (returningRun (some (.seconds 30)) .refused).InRIB "10.0.0.0/24" 4 ∧
        (returningRun (some (.seconds 30)) .refused).Charged
          (backendObjectName "10.0.0.0/24" "edge") 4 := by
  refine ⟨⟨by decide +kernel, by decide +kernel, by decide +kernel, ?_⟩, by decide +kernel,
    by decide +kernel, ?_⟩
  · rintro ⟨prev, d, hm, _⟩
    have hnone : (returningRun none .gone).memory (backendObjectName "10.0.0.0/24" "edge") 2 =
        none := by decide +kernel
    exact nomatch hm.symm.trans hnone
  · have hm : (returningRun (some (.seconds 30)) .refused).memory
        (backendObjectName "10.0.0.0/24" "edge") 4 = some ⟨.dampened,
          "flap-dampened: score 500 (reuse below 10)", 500, 1, clock 15, some (clock 15),
          some (clock 10), none⟩ := by decide +kernel
    have hv : (returningRun (some (.seconds 30)) .refused).verdict
        (backendObjectName "10.0.0.0/24" "edge") 4 = some ⟨.dampened,
          "flap-dampened: score 1250 (reuse below 10)", 1250, 2, clock 20, none,
          some (clock 10), none⟩ := by decide +kernel
    exact ⟨_, _, hm, hv, by decide, by decide +kernel, by decide +kernel⟩

end Kreg
