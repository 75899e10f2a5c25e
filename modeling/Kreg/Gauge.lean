import Kreg.ExactReal
import Kreg.FlapAccounting
import Kreg.SecondLook

namespace Kreg
open Float64 HalfLife
set_option autoImplicit true

section Orderly

variable {F : Type} [Float64 F]

/-- A record as a tick finds it: stored in whole seconds, and not after the tick. -/
structure DampingInfo.Filed (p : DampingInfo F) (now : Time) : Prop where
  whole : p.lastObservedAt.Whole
  observed : p.lastObservedAt.ns ≤ now.ns
  suppressed : ∀ t ∈ p.suppressedSince, t.Whole ∧ t.ns ≤ now.ns

theorem Transition.since_le {d : DampingInfo F} (h : Transition now cfg prev here d)
    (hn : now.Storable) (hp : ∀ p ∈ prev, p.Filed now) :
    ∀ t ∈ d.suppressedSince, t.Storable ∧ t.ns ≤ now.ns := by
  have hmem : ∀ {p : DampingInfo F}, p.Filed now → ∀ {t}, t = now ∨ t ∈ p.suppressedSince →
      t.Storable ∧ t.ns ≤ now.ns := by
    intro p hp t ht
    rcases ht with rfl | ht
    · exact ⟨hn, le_refl _⟩
    · exact ⟨(hp.suppressed t ht).1.storable, (hp.suppressed t ht).2⟩
  intro t ht
  cases h with
  | fresh =>
    rw [(newCandidateDamping_unscored _ _).2] at ht
    cases ht
  | settling => cases ht
  | observed =>
    exact hmem (hp _ rfl) ((suppressionState_suppresses _ _ _ _).since_mem t ht)
  | held =>
    exact hmem (hp _ rfl) ((suppressionState_suppresses _ _ _ _).since_mem t ht)

theorem DampingInfo.restored_filed {d : DampingInfo F} (hl : d.lastObservedAt.Storable)
    (hs : ∀ t ∈ d.suppressedSince, t.Storable ∧ t.ns ≤ d.lastObservedAt.ns)
    (hle : d.lastObservedAt.ns ≤ now.ns) : d.restored.Filed now where
  whole := hl.whole_truncate
  observed := (Time.truncate_le _).trans hle
  suppressed t ht := by
    have ht' : t ∈ (metaTimeOrNil d.suppressedSince).map Time.truncate := ht
    rw [metaTimeOrNil_storable fun t ht => (hs t ht).1] at ht'
    obtain ⟨u, hu, rfl⟩ := Option.map_eq_some_iff.1 ht'
    exact ⟨(hs u hu).1.whole_truncate, (Time.truncate_le u).trans ((hs u hu).2.trans hle)⟩

/-- The times of a record that a decay or a cap is counted from are not after `now`. -/
structure StabilityStatus.Past (s : StabilityStatus) (now : Time) : Prop where
  observed : ∀ t ∈ s.lastObservedAt, t.ns ≤ now.ns
  suppressed : ∀ t ∈ s.suppressedSince, t.ns ≤ now.ns

/-- Ticks that never go back, from records that the server stored before the first of them. -/
structure Run.Orderly (r : Run F) : Prop where
  stamped : ∀ k s, r.start.lookup k = some s → s.status.stability.Stamped
  past : ∀ k s, r.start.lookup k = some s → s.status.stability.Past (r.now 0)
  clocked : r.Clocked
  ordered : ∀ n, (r.now n).ns ≤ (r.now (n + 1)).ns

namespace Run.Orderly

variable {r : Run F} {k : String}

omit [Float64 F] in
theorem now_le (hr : r.Orderly) (h : m ≤ n) : (r.now m).ns ≤ (r.now n).ns := by
  induction h with
  | refl => exact le_refl _
  | step _ ih => exact ih.trans (hr.ordered _)

theorem memory_filed (hr : r.Orderly) : ∀ n, ∀ p ∈ r.memory k n, p.Filed (r.now n) := by
  intro n
  induction n with
  | zero =>
    intro p hp
    obtain ⟨q, hq, rfl⟩ := Option.map_eq_some_iff.1 hp
    obtain ⟨s, hs, _, hq⟩ := (mem_prior_iff _ k q).1 (Visit.prior_of_lookup hq)
    obtain ⟨t, ht, rfl⟩ := Option.map_eq_some_iff.1 hq
    have hstamped := hr.stamped k s hs
    have hpast := hr.past k s hs
    exact ⟨hstamped.observed t ht, hpast.observed t ht,
      fun u hu => ⟨hstamped.suppressed u hu, hpast.suppressed u hu⟩⟩
  | succ n ih =>
    intro p hp
    obtain ⟨d, hv, hk⟩ := Run.memory_succ_eq_some hp
    have ht := r.transition hv
    have hlast := ht.lastObservedAt_eq
    have hsince := ht.since_le (hr.clocked n) ih
    rw [← hlast] at hsince
    rw [DampingInfo.kept_eq_restored (hlast ▸ (hr.clocked n).isZero_eq)] at hk
    cases hk
    apply DampingInfo.restored_filed (hlast ▸ hr.clocked n) hsince
    rw [hlast]
    exact hr.ordered n

theorem since_le (hr : r.Orderly) (hv : r.verdict k n = some d) :
    ∀ t ∈ d.suppressedSince, t.Storable ∧ t.ns ≤ (r.now n).ns :=
  (r.transition hv).since_le (hr.clocked n) (hr.memory_filed n)

theorem memory_succ (hr : r.Orderly) (hn : needsPriorState r.cfg = true) (k : String) (n : Nat) :
    r.memory k (n + 1) = (r.verdict k n).map DampingInfo.restored := by
  rw [Run.memory_succ r hn]
  cases hv : r.verdict k n with
  | none => rfl
  | some d =>
    apply DampingInfo.kept_eq_restored
    rw [(r.transition hv).lastObservedAt_eq]
    exact (hr.clocked n).isZero_eq

theorem memory_succ_last (hr : r.Orderly) (h : r.memory k (n + 1) = some p) :
    p.lastObservedAt = (r.now n).truncate := by
  obtain ⟨d, hv, hk⟩ := Run.memory_succ_eq_some h
  have hlast := (r.transition hv).lastObservedAt_eq
  rw [DampingInfo.kept_eq_restored (hlast ▸ (hr.clocked n).isZero_eq)] at hk
  cases hk
  exact congrArg Time.truncate hlast

end Run.Orderly

def Run.EmitsIn (r : Run F) (k : String) (n : Nat) (state : BackendState) : Prop :=
  ∃ c ∈ r.emitted n, c.name = k ∧ ∃ d, c.damping = some d ∧ d.state = state

theorem Run.emitsIn_iff {r : Run F} :
    r.EmitsIn k n state ↔ ∃ d, r.verdict k n = some d ∧ d.state = state := by
  constructor
  · rintro ⟨c, hc, rfl, d, hd, hs⟩
    exact ⟨d, Run.verdict_of_emitted hc hd, hs⟩
  · rintro ⟨d, hv, hs⟩
    obtain ⟨c, hc, hk, _, hd⟩ := Run.emitted_of_verdict hv
    exact ⟨c, hc, hk, d, hd, hs⟩

end Orderly

/-- All that decides what exact arithmetic makes of a present backend from tick to tick: since
when it is suppressed, and its penalty, as they are stored. -/
structure Gauge where
  since : Option Time
  penalty : Int32

noncomputable def Gauge.score (g : Gauge) (dc : DampeningConfig) (last now : Time) : ℝ :=
  g.penalty.toInt * fading (halfLifeOf (some dc)) (now.sub last)

noncomputable def Gauge.step (dc : DampeningConfig) (last now : Time) (g : Gauge) : Gauge :=
  let score := g.score dc last now
  match g.since with
  | some u =>
    if (maxSuppressOf dc).ns ≤ (now.sub u).ns then ⟨none, 0⟩
    else if score < (reuseThresholdOf dc).toInt then ⟨none, clampToInt32 score⟩
    else ⟨some u, clampToInt32 score⟩
  | none =>
    if (suppressThresholdOf dc).toInt ≤ score then ⟨some now.truncate, clampToInt32 score⟩
    else ⟨none, clampToInt32 score⟩

section Step

variable {g : Gauge} {dc : DampeningConfig} {last now : Time}

theorem Gauge.step_capped (hu : g.since = some u) (h : (maxSuppressOf dc).ns ≤ (now.sub u).ns) :
    g.step dc last now = ⟨none, 0⟩ := by
  simp only [Gauge.step, hu, if_pos h]

theorem Gauge.step_reused (hu : g.since = some u) (hc : (now.sub u).ns < (maxSuppressOf dc).ns)
    (h : g.score dc last now < (reuseThresholdOf dc).toInt) :
    g.step dc last now = ⟨none, clampToInt32 (g.score dc last now)⟩ := by
  simp only [Gauge.step, hu, if_neg (not_le.2 hc), if_pos h]

theorem Gauge.step_kept (hu : g.since = some u) (hc : (now.sub u).ns < (maxSuppressOf dc).ns)
    (h : (reuseThresholdOf dc).toInt ≤ g.score dc last now) :
    g.step dc last now = ⟨some u, clampToInt32 (g.score dc last now)⟩ := by
  simp only [Gauge.step, hu, if_neg (not_le.2 hc), if_neg (not_lt.2 h)]

theorem Gauge.step_entered (hu : g.since = none)
    (h : (suppressThresholdOf dc).toInt ≤ g.score dc last now) :
    g.step dc last now = ⟨some now.truncate, clampToInt32 (g.score dc last now)⟩ := by
  simp only [Gauge.step, hu, if_pos h]

theorem Gauge.step_calm (hu : g.since = none)
    (h : g.score dc last now < (suppressThresholdOf dc).toInt) :
    g.step dc last now = ⟨none, clampToInt32 (g.score dc last now)⟩ := by
  simp only [Gauge.step, hu, if_neg (not_le.2 h)]

theorem Gauge.clampToInt32_score (g : Gauge) (dc : DampeningConfig) (last now : Time) :
    (clampToInt32 (g.score dc last now)).toInt = nearest (g.score dc last now) :=
  clampToInt32_fading _ _ _

theorem Gauge.score_le_max (g : Gauge) (dc : DampeningConfig) (last now : Time) :
    g.score dc last now ≤ max (g.penalty.toInt : ℝ) 0 :=
  mul_le_max _ (fading_pos _ _).le (fading_le_one _ _)

theorem Gauge.score_of_le (g : Gauge) (dc : DampeningConfig) {last now : Time}
    (h : now.ns ≤ last.ns) : g.score dc last now = g.penalty.toInt := by
  have hnonpos : (now.sub last).ns ≤ 0 := by
    simp only [Time.sub, Duration.saturate, minDuration, maxDuration]
    omega
  rw [Gauge.score, fading_of_nonpos hnonpos, mul_one]

theorem Gauge.clampToInt32_of_le (g : Gauge) (dc : DampeningConfig) {last now : Time}
    (h : now.ns ≤ last.ns) : clampToInt32 (g.score dc last now) = g.penalty := by
  apply Int32.toInt_inj.1
  rw [Gauge.clampToInt32_score, g.score_of_le dc h, nearest_intCast]

end Step

def Gauge.state (g : Gauge) : BackendState :=
  if g.since.isSome then .dampened else .active

structure DampingInfo.Shows (d : DampingInfo ℝ) (g : Gauge) : Prop where
  state : d.state = g.state
  withdrawn : d.withdrawnAt = none
  since : d.suppressedSince.map Time.truncate = g.since
  penalty : clampToInt32 d.score = g.penalty

structure DampingInfo.Carries (p : DampingInfo ℝ) (g : Gauge) : Prop where
  state : p.state ≠ .pending
  withdrawn : p.withdrawnAt = none
  since : p.suppressedSince = g.since
  penalty : p.score = g.penalty.toInt

theorem Gauge.state_ne_pending (g : Gauge) : g.state ≠ .pending := by
  intro h
  rw [Gauge.state] at h
  split at h
  · cases h
  · cases h

theorem DampingInfo.Shows.restored {d : DampingInfo ℝ} (h : d.Shows g)
    (hs : ∀ t ∈ d.suppressedSince, t.Storable) : d.restored.Carries g where
  state := h.state ▸ g.state_ne_pending
  withdrawn := by
    rw [DampingInfo.restored, h.withdrawn]
    rfl
  since := by
    rw [← h.since]
    exact congrArg (Option.map Time.truncate) (metaTimeOrNil_storable hs)
  penalty := congrArg (fun n : Int32 => (n.toInt : ℝ)) h.penalty

theorem DampingInfo.Carries.charged {p : DampingInfo ℝ} (h : p.Carries g) (now : Time)
    (dc : DampeningConfig) : p.charged now (some dc) = g.score dc p.lastObservedAt now := by
  rw [DampingInfo.charged, h.withdrawn, DampingInfo.carried, decayScore_real, h.penalty]
  rfl

theorem DampingInfo.Carries.observe {p : DampingInfo ℝ} (h : p.Carries g) {dc : DampeningConfig}
    (he : dc.enabled = true) (hu : ∀ u ∈ g.since, u.Whole) (now : Time) :
    (observe now p (some dc)).Shows (g.step dc p.lastObservedAt now) := by
  obtain ⟨s, hs, hstate, _, hscore, hsince⟩ := observe_suppresses now p (some dc)
  rw [h.charged, h.since] at hs
  have hshow : s.state = (g.step dc p.lastObservedAt now).state ∧
      s.suppressedSince.map Time.truncate = (g.step dc p.lastObservedAt now).since ∧
      clampToInt32 s.score = (g.step dc p.lastObservedAt now).penalty := by
    cases hg : g.since with
    | none =>
      rw [hg] at hs
      cases hs with
      | off _ hoff => exact nomatch he.symm.trans (hoff dc rfl)
      | entered _ hl =>
        rw [Gauge.step_entered hg ((le_real_iff _ _).1 hl)]
        exact ⟨rfl, rfl, rfl⟩
      | calm _ hl =>
        rw [← Bool.not_eq_true, le_real_iff] at hl
        rw [Gauge.step_calm hg (not_le.1 hl)]
        exact ⟨rfl, rfl, rfl⟩
    | some u =>
      rw [hg] at hs
      cases hs with
      | off _ hoff => exact nomatch he.symm.trans (hoff dc rfl)
      | capped _ hc =>
        rw [Gauge.step_capped hg hc]
        exact ⟨rfl, rfl, clampToInt32_toInt 0⟩
      | reused _ hc hl =>
        rw [Gauge.step_reused hg hc ((lt_real_iff _ _).1 hl)]
        exact ⟨rfl, rfl, rfl⟩
      | kept _ hc hl =>
        rw [← Bool.not_eq_true, lt_real_iff] at hl
        rw [Gauge.step_kept hg hc (not_lt.1 hl)]
        exact ⟨rfl, congrArg some (hu u hg).truncate_eq, rfl⟩
  exact ⟨hstate.trans hshow.1, rfl, (congrArg (Option.map Time.truncate) hsince).trans hshow.2.1,
    (congrArg clampToInt32 hscore).trans hshow.2.2⟩

def Run.Reads (r : Run ℝ) (k : String) (n : Nat) (g : Gauge) : Prop :=
  ∃ d, r.verdict k n = some d ∧ d.Shows g

namespace Run

variable {r : Run ℝ} {k : String} {dc : DampeningConfig}

theorem Reads.emitsIn_iff (h : r.Reads k n g) : r.EmitsIn k n state ↔ g.state = state := by
  obtain ⟨d, hv, hd⟩ := h
  rw [Run.emitsIn_iff, hv, ← hd.state]
  constructor
  · rintro ⟨_, h, hs⟩
    cases h
    exact hs
  · exact fun hs => ⟨d, rfl, hs⟩

theorem Reads.since_le (hr : r.Orderly) (h : r.Reads k n g) :
    ∀ u ∈ g.since, u.Whole ∧ u.ns ≤ (r.now n).truncate.ns := by
  obtain ⟨d, hv, hd⟩ := h
  intro u hu
  rw [← hd.since] at hu
  obtain ⟨t, ht, rfl⟩ := Option.map_eq_some_iff.1 hu
  obtain ⟨hs, hle⟩ := hr.since_le hv t ht
  exact ⟨hs.whole_truncate, Time.truncate_mono hle⟩

theorem verdict_of_carries (hh : r.here k n = true) (hm : r.memory k n = some p)
    (hp : p.Carries g) : r.verdict k n = some (observe (r.now n) p r.cfg.dampening) := by
  rw [Run.verdict, hm, hh]
  exact (Transition.observed fun hs => (hp.state hs).elim).verdict_eq

theorem reads_of_memory (hr : r.Orderly) (hc : r.cfg.dampening = some dc)
    (he : dc.enabled = true) (hh : r.here k n = true) (hm : r.memory k n = some p)
    (hp : p.Carries g) : r.Reads k n (g.step dc p.lastObservedAt (r.now n)) := by
  have hwhole : ∀ u ∈ g.since, u.Whole := by
    rw [← hp.since]
    exact fun u hu => ((hr.memory_filed n p hm).suppressed u hu).1
  exact ⟨_, verdict_of_carries hh hm hp, hc ▸ hp.observe he hwhole _⟩

theorem Reads.memory (hr : r.Orderly) (hc : r.cfg.dampening = some dc) (he : dc.enabled = true)
    (h : r.Reads k n g) : ∃ p, r.memory k (n + 1) = some p ∧ p.Carries g ∧
      p.lastObservedAt = (r.now n).truncate := by
  obtain ⟨d, hv, hd⟩ := h
  have hm := hr.memory_succ (needsPriorState_of_enabled hc he) k n
  rw [hv] at hm
  exact ⟨d.restored, hm, hd.restored fun t ht => (hr.since_le hv t ht).1, hr.memory_succ_last hm⟩

/-- The simulation step: the record of a present backend moves as its gauge does. -/
theorem Reads.succ (hr : r.Orderly) (hc : r.cfg.dampening = some dc) (he : dc.enabled = true)
    (h : r.Reads k n g) (hh : r.here k (n + 1) = true) :
    r.Reads k (n + 1) (g.step dc (r.now n).truncate (r.now (n + 1))) := by
  obtain ⟨p, hm, hp, hlast⟩ := h.memory hr hc he
  rw [← hlast]
  exact reads_of_memory hr hc he hh hm hp

theorem EmitsIn.observed (h : r.EmitsIn k n .dampened) (hh : r.here k n = true) :
    ∃ p, r.verdict k n = some (observe (r.now n) p r.cfg.dampening) ∧
      (observe (r.now n) p r.cfg.dampening).state = .dampened := by
  obtain ⟨d, hv, hs⟩ := Run.emitsIn_iff.1 h
  have ht := r.transition hv
  rw [hh] at ht
  generalize r.memory k n = prev at ht
  cases ht with
  | fresh =>
    rw [newCandidateDamping] at hs
    split at hs
    · cases hs
    · cases hs
  | settling => cases hs
  | observed => exact ⟨_, hv, hs⟩

theorem EmitsIn.reads (h : r.EmitsIn k n .dampened) (hh : r.here k n = true) :
    ∃ g, r.Reads k n g ∧ g.since.isSome = true := by
  obtain ⟨p, hv, hs⟩ := h.observed hh
  obtain ⟨s, hsup, hstate, _, _, hsince⟩ := observe_suppresses (r.now n) p r.cfg.dampening
  rcases hsup.state with ⟨ha, _⟩ | ⟨_, u, hu⟩
  · exact nomatch hs.symm.trans (hstate.trans ha)
  · have hsome : (observe (r.now n) p r.cfg.dampening).suppressedSince = some u := hsince.trans hu
    exact ⟨⟨some u.truncate, _⟩, ⟨_, hv, hs, rfl, congrArg (Option.map Time.truncate) hsome, rfl⟩,
      rfl⟩

end Run

section Sample

def edgeRecord (count : Int32) (g : Gauge) : Record :=
  ⟨[(managedByLabel, managedByValue)],
    { (buildOne (sampleCandidate : BackendCandidate Rat) []).status with
      state := g.state
      stability := ⟨count, g.penalty, some ⟨second⟩, none, g.since, none⟩ }⟩

def edgeRecords (count : Int32) (g : Gauge) : Records :=
  (∅ : Records).insert "10-0-0-0-24-edge" (edgeRecord count g)

theorem lookup_edgeRecords (h : (edgeRecords count g).lookup k = some s) :
    k = "10-0-0-0-24-edge" ∧ s = edgeRecord count g := by
  by_cases hk : k = "10-0-0-0-24-edge"
  · rw [edgeRecords, hk, AList.lookup_insert] at h
    exact ⟨hk, (Option.some.inj h).symm⟩
  · rw [edgeRecords, AList.lookup_insert_ne hk, AList.lookup_empty] at h
    cases h

theorem edgeRecords_wellFormed (count : Int32) (g : Gauge) : (edgeRecords count g).WellFormed where
  managed k s h := by
    obtain ⟨_, rfl⟩ := lookup_edgeRecords h
    change (List.lookup managedByLabel [(managedByLabel, managedByValue)] ==
      some managedByValue) = true
    decide
  named k s h _ := by
    obtain ⟨rfl, rfl⟩ := lookup_edgeRecords h
    change backendObjectName "10.0.0.0/24" "edge" = _
    decide +kernel
  ipv4 k s h _ := by
    obtain ⟨_, rfl⟩ := lookup_edgeRecords h
    change IPv4Prefix "10.0.0.0/24"
    decide +kernel

/-- The sample backend is there at every tick, and has a record from before the first. -/
def edgeRun (cfg : BGPStabilityConfigSpec) (count : Int32) (g : Gauge)
    (now : Nat → Time) : Run ℝ where
  cfg := cfg
  start := edgeRecords count g
  wellFormed := edgeRecords_wellFormed count g
  tick n := { sampleTick 0 .accepted with now := now n }

variable {cfg : BGPStabilityConfigSpec} {count : Int32} {g : Gauge} {now : Nat → Time}

theorem edgeRun_here (n : Nat) : (edgeRun cfg count g now).here "10-0-0-0-24-edge" n = true := by
  rw [Run.here_eq_true_iff]
  refine ⟨sampleCandidate, List.mem_singleton.2 rfl, rfl, ?_⟩
  change backendObjectName "10.0.0.0/24" "edge" = _
  decide +kernel

theorem edgeRun_orderly (hs : ∀ u ∈ g.since, u = ⟨second⟩) (h₀ : second ≤ (now 0).ns)
    (hle : ∀ n, (now n).ns ≤ (now (n + 1)).ns) : (edgeRun cfg count g now).Orderly where
  stamped k s h := by
    obtain ⟨_, rfl⟩ := lookup_edgeRecords h
    have hwhole : (⟨second⟩ : Time).Whole := by decide
    exact ⟨fun t ht => Option.some.inj ht ▸ hwhole, forall_mem_none, fun t ht => hs t ht ▸ hwhole,
      forall_mem_none⟩
  past k s h := by
    obtain ⟨_, rfl⟩ := lookup_edgeRecords h
    exact ⟨fun t ht => Option.some.inj ht ▸ h₀, fun t ht => hs t ht ▸ h₀⟩
  clocked n := by
    have hn : second ≤ (now n).ns := by
      induction n with
      | zero => exact h₀
      | succ n ih => exact ih.trans (hle n)
    change (now n).truncate.isZero = false
    rw [Time.isZero, beq_eq_false_iff_ne]
    simp only [Time.truncate, second] at hn ⊢
    omega
  ordered n := hle n

theorem edgeRun_memory (hn : needsPriorState cfg = true) (count : Int32) (g : Gauge)
    (now : Nat → Time) :
    ∃ p, (edgeRun cfg count g now).memory "10-0-0-0-24-edge" 0 = some p ∧ p.Carries g ∧
      p.flapCount24h = count ∧ p.lastObservedAt = ⟨second⟩ := by
  have hprior : ∃ p : PriorState ℝ,
      (edgeRecords count g).prior "10-0-0-0-24-edge" = some p ∧
        p.damping.Carries g ∧ p.damping.flapCount24h = count ∧
        p.damping.lastObservedAt = ⟨second⟩ := by
    rw [Records.prior, edgeRecords, AList.lookup_insert]
    refine ⟨_, rfl, ⟨?_, rfl, rfl, rfl⟩, rfl, rfl⟩
    change (priorDampingState (edgeRecord count g).status).1 ≠ .pending
    rw [priorDampingState, edgeRecord, Gauge.state]
    cases g.since.isSome with
    | false =>
      intro h
      cases h
    | true =>
      intro h
      cases h
  obtain ⟨p, hp, hc, hcount, hlast⟩ := hprior
  refine ⟨p.damping, ?_, hc, hcount, hlast⟩
  rw [Run.memory, Tick.prior, Visit.lookup_prior]
  change Option.map _ (if needsPriorState cfg = true then
    (edgeRecords count g).prior "10-0-0-0-24-edge" else none) = _
  rw [if_pos hn, hp]
  rfl

def dampeningOnly (dc : DampeningConfig) : BGPStabilityConfigSpec :=
  ⟨none, none, some dc⟩

theorem edgeRun_reads (he : dc.enabled = true)
    (hr : (edgeRun (dampeningOnly dc) count g now).Orderly) :
    (edgeRun (dampeningOnly dc) count g now).Reads "10-0-0-0-24-edge" 0
      (g.step dc ⟨second⟩ (now 0)) := by
  have hn : needsPriorState (dampeningOnly dc) = true := needsPriorState_of_enabled rfl he
  obtain ⟨p, hm, hp, _, hlast⟩ := edgeRun_memory hn count g now
  rw [← hlast]
  exact Run.reads_of_memory hr rfl he (edgeRun_here 0) hm hp

theorem edgeRun_reads_succ (he : dc.enabled = true)
    (hr : (edgeRun (dampeningOnly dc) count g now).Orderly)
    (h : (edgeRun (dampeningOnly dc) count g now).Reads "10-0-0-0-24-edge" n g') :
    (edgeRun (dampeningOnly dc) count g now).Reads "10-0-0-0-24-edge" (n + 1)
      (g'.step dc (now n).truncate (now (n + 1))) :=
  h.succ hr rfl he (edgeRun_here (n + 1))

theorem edgeRun_paced (hs : ∀ u ∈ g.since, u = ⟨second⟩) (period : Nat) :
    (edgeRun cfg count g fun n => clock (n * period)).Orderly := by
  apply edgeRun_orderly hs
  · simp only [clock, second]
    omega
  · intro n
    have hle : n * period ≤ (n + 1) * period := Nat.mul_le_mul_right _ (Nat.le_succ n)
    simp only [clock, second]
    omega

theorem clock_sub (n : Nat) {period : Nat} (h : period * second ≤ maxDuration) :
    ((clock ((n + 1) * period)).sub (clock (n * period)).truncate).ns = period * second := by
  have hdiff : (((n + 1) * period : Nat) + 1) * second - ((n * period : Nat) + 1) * second =
      period * second := by
    push_cast
    ring
  have hpos : 0 ≤ (period : Int) * second := mul_nonneg (Int.natCast_nonneg _) (by decide)
  rw [(clock_whole _).truncate_eq]
  change (Duration.saturate ((((n + 1) * period : Nat) + 1) * second -
    ((n * period : Nat) + 1) * second)).ns = _
  rw [hdiff]
  simp only [Duration.saturate, minDuration, maxDuration] at h ⊢
  omega

end Sample

end Kreg
