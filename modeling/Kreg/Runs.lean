import Kreg.WellFormed

namespace Kreg
open Float64 ApiServer
set_option autoImplicit true

/-- One tick: the RIB it settles, and all the rest it depends on but the records. `stamp` is the
clock of the writes. -/
structure Tick (F : Type) where
  now : Time
  rib : RIB
  bindings : List ClusterBinding
  cm : Option CommunityMapSpec
  candidates : List (BackendCandidate F)
  settled : settle rib.routes bindings cm = .ok candidates
  policies : List BGPBackendPolicy
  stamp : Time
  visit : Visit F

section Ticks

variable {F : Type}

theorem Tick.distinct (t : Tick F) : (t.candidates.map BackendCandidate.name).Nodup :=
  t.rib.settle_names_nodup t.settled

theorem Tick.undamped (t : Tick F) : ∀ c ∈ t.candidates, c.damping = none :=
  settle_undamped t.settled

variable [Float64 F]

def Tick.prior (t : Tick F) (cfg : BGPStabilityConfigSpec) (s : Records) : GoMap (PriorState F) :=
  t.visit.prior cfg s

def Tick.emitted (t : Tick F) (cfg : BGPStabilityConfigSpec) (s : Records) :
    List (BackendCandidate F) :=
  evaluate t.now t.candidates (t.prior cfg s) cfg

/-- Evaluate, write the result back and prune the rest. -/
def Tick.sweep (t : Tick F) (cfg : BGPStabilityConfigSpec) (s : Records) : Records :=
  swept t.stamp (t.emitted cfg s) t.policies s

def Tick.reads (t : Tick F) (cfg : BGPStabilityConfigSpec) (s : Records) : SourceReads where
  routes := .ok t.rib.routes
  peerConfigs := .ok [t.bindings]
  communityMap := presence t.cm
  stabilityConfig := presence (some cfg)
  backends := .ok s.listManaged

theorem Tick.sourceSnapshot_eq (t : Tick F) (cfg : BGPStabilityConfigSpec) (s : Records) :
    sourceSnapshot t.now (t.reads cfg s) t.visit.order = .ok (t.emitted cfg s) := by
  rw [Tick.reads, sourceSnapshot_ok, List.flatten_cons, List.flatten_nil, List.append_nil,
    t.settled]
  rfl

/-- A tick is one `Reconcile` of the AdvertisedBackend controller in which every call succeeds. -/
theorem Tick.sweep_returns (t : Tick F) (cfg : BGPStabilityConfigSpec) (s : Records) :
    Returns (reconcileBackends t.stamp (sourceSnapshot t.now (t.reads cfg s) t.visit.order)
      t.policies) s () (t.sweep cfg s) := by
  rw [t.sourceSnapshot_eq]
  exact reconcileBackends_returns _ _ _ _

theorem Tick.wellKeyed (t : Tick F) (cfg : BGPStabilityConfigSpec) {s : Records}
    (h : s.WellFormed) : WellKeyed (t.prior cfg s) :=
  t.visit.wellKeyed cfg h

theorem Tick.emitted_ipv4 (t : Tick F) (cfg : BGPStabilityConfigSpec) {s : Records}
    (h : s.WellFormed) : ∀ c ∈ t.emitted cfg s, IPv4Prefix c.pfx := by
  have hv := t.rib.settle_ipv4 t.settled
  intro c hc
  cases mem_evaluate hc with
  | passed hm _ => exact hv c hm
  | @evaluated c _ hm _ _ => exact hv c hm
  | synthesized hl _ _ => exact h.prior_ipv4 (Visit.prior_of_lookup hl)

theorem Tick.sweep_wellFormed (t : Tick F) (cfg : BGPStabilityConfigSpec) {s : Records}
    (h : s.WellFormed) : (t.sweep cfg s).WellFormed :=
  h.swept (t.emitted_ipv4 cfg h) _ _

def Tick.emission (t : Tick F) (cfg : BGPStabilityConfigSpec) (s : Records) (k : String) :
    Option (BackendCandidate F) :=
  Kreg.emission t.now t.candidates (t.prior cfg s) cfg k

theorem Tick.filter_emitted (t : Tick F) (cfg : BGPStabilityConfigSpec) {s : Records}
    (h : s.WellFormed) (k : String) :
    (t.emitted cfg s).filter (fun c => c.name == k) =
      t.candidates.filter (fun c => c.rejected && c.name == k) ++
        (t.emission cfg s k).toList :=
  filter_evaluate t.now t.distinct (t.wellKeyed cfg h) cfg k

theorem Tick.filter_emitted_of_accepted (t : Tick F) (cfg : BGPStabilityConfigSpec) {s : Records}
    (h : s.WellFormed) (hk : ∀ c ∈ t.candidates, c.name = k → c.rejected = false) :
    (t.emitted cfg s).filter (fun c => c.name == k) = (t.emission cfg s k).toList := by
  have hrej : t.candidates.filter (fun c => c.rejected && c.name == k) = [] := by
    rw [List.filter_eq_nil_iff]
    intro c hc hp
    rw [Bool.and_eq_true, beq_iff_eq] at hp
    rw [hk c hc hp.2] at hp
    cases hp.1
  rw [t.filter_emitted cfg h, hrej, List.nil_append]

theorem Tick.lookup_sweep (t : Tick F) (cfg : BGPStabilityConfigSpec) {s : Records}
    (h : s.WellFormed) (hk : ∀ c ∈ t.candidates, c.name = k → c.rejected = false) :
    (t.sweep cfg s).lookup k = (t.emission cfg s k).map fun c =>
      written t.stamp (buildOne c t.policies) (s.lookup k) := by
  have hf := t.filter_emitted_of_accepted cfg h hk
  cases he : t.emission cfg s k with
  | none =>
    rw [he] at hf
    exact lookup_swept_of_absent hf (h.managed k) _ _
  | some c =>
    rw [he] at hf
    exact lookup_swept_of_filter hf _ _ _

theorem Tick.prior_sweep (t : Tick F) (cfg : BGPStabilityConfigSpec) {s : Records}
    (h : s.WellFormed) (k : String) :
    (t.sweep cfg s).prior k = (t.emission cfg s k).bind BackendCandidate.memory := by
  have hmem : ∀ c ∈ t.emitted cfg s, c.rejected = true ∧ c.damping = none ∨
      c.rejected = false ∧ ∃ d, c.damping = some d ∧ d.Verdict := by
    intro c hc
    exact (mem_evaluate hc).memorable t.undamped fun k p hp => (t.wellKeyed cfg h k p hp).2
  rw [Tick.sweep, prior_swept_memory _ _ (fun _ r hr => h.managed k r hr) hmem,
    t.filter_emitted cfg h k]
  apply getLast?_memory
  exact fun c hc => t.undamped c (List.mem_filter.1 hc).1

end Ticks

/-- A run of ticks under a fixed config, from records that sweeps have left. -/
structure Run (F : Type) where
  cfg : BGPStabilityConfigSpec
  start : Records
  wellFormed : start.WellFormed
  tick : Nat → Tick F

section Runs

variable {F : Type} [Float64 F]

def Run.now (r : Run F) (n : Nat) : Time :=
  (r.tick n).now

def Run.store (r : Run F) : Nat → Records
  | 0 => r.start
  | n + 1 => (r.tick n).sweep r.cfg (r.store n)

def Run.emitted (r : Run F) (n : Nat) : List (BackendCandidate F) :=
  (r.tick n).emitted r.cfg (r.store n)

theorem Run.store_wellFormed (r : Run F) (n : Nat) : (r.store n).WellFormed := by
  induction n with
  | zero => exact r.wellFormed
  | succ n ih => exact (r.tick n).sweep_wellFormed r.cfg ih

/-- A candidate of the key is in tick `n` and not rejected there. -/
def Run.here (r : Run F) (k : String) (n : Nat) : Bool :=
  (present (r.tick n).candidates k).isSome

/-- The verdict tick `n` finds recorded for a key. -/
def Run.memory (r : Run F) (k : String) (n : Nat) : Option (DampingInfo F) :=
  (((r.tick n).prior r.cfg (r.store n)).lookup k).map PriorState.damping

def Run.verdict (r : Run F) (k : String) (n : Nat) : Option (DampingInfo F) :=
  Kreg.verdict (r.now n) r.cfg (r.memory k n) (r.here k n)

def Run.emission (r : Run F) (k : String) (n : Nat) : Option (BackendCandidate F) :=
  (r.tick n).emission r.cfg (r.store n) k

theorem Run.emission_damping (r : Run F) (k : String) (n : Nat) :
    (r.emission k n).bind BackendCandidate.damping = r.verdict k n :=
  Kreg.emission_damping _ _ _ _ _

theorem Run.emission_eq_some {r : Run F} (h : r.emission k n = some c) :
    c.name = k ∧ c.rejected = false ∧ ∃ d, c.damping = some d ∧ r.verdict k n = some d := by
  obtain ⟨hk, hr, d, hd⟩ := Kreg.emission_eq_some
    ((r.tick n).wellKeyed r.cfg (r.store_wellFormed n)) h
  refine ⟨hk, hr, d, hd, ?_⟩
  rw [← r.emission_damping, h]
  exact hd

theorem Run.emission_of_verdict {r : Run F} (h : r.verdict k n = some d) :
    ∃ c, r.emission k n = some c ∧ c.damping = some d := by
  rw [← r.emission_damping] at h
  exact Option.bind_eq_some_iff.1 h

/-- The simulation step: one key of the records moves as the key's own machine does. -/
theorem Run.memory_succ (r : Run F) (hn : needsPriorState r.cfg = true) (k : String) (n : Nat) :
    r.memory k (n + 1) = (r.verdict k n).bind DampingInfo.kept := by
  rw [Run.memory, Tick.prior, Visit.lookup_prior, if_pos hn, Run.store,
    (r.tick n).prior_sweep r.cfg (r.store_wellFormed n), ← r.emission_damping]
  change ((r.emission k n).bind _).map _ = _
  cases r.emission k n with
  | none => rfl
  | some c => exact memory_damping c

theorem Run.memory_of_unneeded (r : Run F) (hn : needsPriorState r.cfg = false) (k : String)
    (n : Nat) : r.memory k n = none := by
  rw [Run.memory, Tick.prior, Visit.lookup_prior, hn]
  rfl

theorem Run.mem_emitted {r : Run F} (hc : c ∈ r.emitted n) :
    c.rejected = true ∧ c ∈ (r.tick n).candidates ∨ r.emission c.name n = some c := by
  have hf := (r.tick n).filter_emitted r.cfg (r.store_wellFormed n) c.name
  have hm : c ∈ (r.emitted n).filter fun a => a.name == c.name :=
    List.mem_filter.2 ⟨hc, beq_self_eq_true _⟩
  rw [Run.emitted, hf] at hm
  rcases List.mem_append.1 hm with hm | hm
  · obtain ⟨hm, hr⟩ := List.mem_filter.1 hm
    exact .inl ⟨(Bool.and_eq_true_iff.1 hr).1, hm⟩
  · exact .inr (Option.mem_toList.1 hm)

theorem Run.verdict_of_emitted {r : Run F} (hc : c ∈ r.emitted n) (hd : c.damping = some d) :
    r.verdict c.name n = some d := by
  rcases Run.mem_emitted hc with ⟨_, hm⟩ | he
  · rw [(r.tick n).undamped c hm] at hd
    cases hd
  · obtain ⟨_, _, d', hd', hv⟩ := Run.emission_eq_some he
    rw [hv, ← hd', hd]

theorem Run.mem_emitted_of_emission {r : Run F} (h : r.emission k n = some c) :
    c ∈ r.emitted n := by
  have hf := (r.tick n).filter_emitted r.cfg (r.store_wellFormed n) k
  have hm : c ∈ (r.emitted n).filter fun a => a.name == k := by
    rw [Run.emitted, hf]
    exact List.mem_append_right _ (Option.mem_toList.2 h)
  exact (List.mem_filter.1 hm).1

theorem Run.emitted_of_verdict {r : Run F} (h : r.verdict k n = some d) :
    ∃ c ∈ r.emitted n, c.name = k ∧ c.rejected = false ∧ c.damping = some d := by
  obtain ⟨c, he, hd⟩ := Run.emission_of_verdict h
  obtain ⟨hk, hr, _⟩ := Run.emission_eq_some he
  exact ⟨c, Run.mem_emitted_of_emission he, hk, hr, hd⟩

theorem Run.filter_emitted_absent (r : Run F) (h : ∀ c ∈ (r.tick n).candidates, c.name ≠ k) :
    (r.emitted n).filter (fun c => c.name == k) = (r.emission k n).toList := by
  apply (r.tick n).filter_emitted_of_accepted r.cfg (r.store_wellFormed n)
  exact fun c hc hk => absurd hk (h c hc)

omit [Float64 F] in
theorem Run.here_eq_true_iff (r : Run F) :
    r.here k n = true ↔ ∃ c ∈ (r.tick n).candidates, c.rejected = false ∧ c.name = k :=
  present_isSome _ _

omit [Float64 F] in
theorem Run.here_eq_false (r : Run F) (h : ∀ c ∈ (r.tick n).candidates, c.name ≠ k) :
    r.here k n = false := by
  rw [← Bool.not_eq_true, r.here_eq_true_iff]
  rintro ⟨c, hc, _, hk⟩
  exact h c hc hk

theorem Run.transition {r : Run F} (h : r.verdict k n = some d) :
    Transition (r.now n) r.cfg (r.memory k n) (r.here k n) d :=
  verdict_transition h

theorem Run.memory_succ_eq_some {r : Run F} (h : r.memory k (n + 1) = some p) :
    ∃ d, r.verdict k n = some d ∧ d.kept = some p := by
  cases hn : needsPriorState r.cfg with
  | false =>
    rw [r.memory_of_unneeded hn] at h
    cases h
  | true =>
    rw [r.memory_succ hn] at h
    exact Option.bind_eq_some_iff.1 h

theorem Run.memory_zero {r : Run F} (h : r.start = ∅) (k : String) : r.memory k 0 = none := by
  have hprior : (r.start.prior k : Option (PriorState F)) = none := by
    rw [h, Records.prior, AList.lookup_empty]
    rfl
  rw [Run.memory, Tick.prior, Visit.lookup_prior, Run.store, hprior, ite_self]
  rfl

/-- Induction over the verdicts on one key in a run from no records: what holds of every new
record and is kept by every transition from what is stored of the last verdict holds of every
verdict. -/
theorem Run.verdict_induction {r : Run F} (h : r.start = ∅) {k : String}
    {P : Nat → DampingInfo F → Prop}
    (fresh : ∀ n, r.here k n = true →
      P n (newCandidateDamping (r.now n) (durationOrZero r.cfg.additionDelay)))
    (step : ∀ n d p d', r.verdict k n = some d → P n d → d.kept = some p →
      r.verdict k (n + 1) = some d' →
        Transition (r.now (n + 1)) r.cfg (some p) (r.here k (n + 1)) d' → P (n + 1) d') :
    ∀ n d, r.verdict k n = some d → P n d := by
  have hnew : ∀ n d, r.memory k n = none → r.verdict k n = some d → P n d := by
    intro n d hm hv
    have ht := r.transition hv
    rw [hm] at ht
    generalize hb : r.here k n = b at ht
    cases ht with
    | fresh => exact fresh n hb
  intro n
  induction n with
  | zero => exact fun d => hnew 0 d (r.memory_zero h k)
  | succ n ih =>
    intro d hv
    cases hm : r.memory k (n + 1) with
    | none => exact hnew (n + 1) d hm hv
    | some p =>
      obtain ⟨d₀, hv₀, hk⟩ := Run.memory_succ_eq_some hm
      exact step n d₀ p d hv₀ (ih d₀ hv₀) hk hv (hm ▸ r.transition hv)

end Runs

section Sample

inductive Sighting where
  | gone
  | accepted
  | refused
deriving DecidableEq

def sampleRoute : RIBRoute :=
  ⟨"10.0.0.0/24", "", "192.0.2.1", ⟨"", ""⟩, 0, .made [64512], .nil, false, ""⟩

def sampleBinding : ClusterBinding := ⟨"edge", ["10.0.0.0/16"], none, ⟨"eu", "a"⟩⟩

def Sighting.rib (v : Sighting) : RIB where
  routes := if v = .gone then [] else [sampleRoute]
  ipv4 := by cases v <;> decide
  distinct := by cases v <;> decide

/-- The route carries no community, so a map that rejects unmapped routes refuses it. -/
def Sighting.cm (v : Sighting) : Option CommunityMapSpec :=
  if v = .refused then some ⟨[], none, .reject⟩ else none

def sampleCandidate : BackendCandidate F where
  pfx := "10.0.0.0/24"
  clusterID := "edge"
  peer := "192.0.2.1"
  locality := ⟨"eu", "a"⟩
  med := 0
  asPath := .made [64512]
  largeCommunities := .nil
  weight := 100
  tier := ""
  drain := false
  serviceTag := none
  rejected := false
  reason := ""
  damping := none

def sampleEmission (d : DampingInfo F) : BackendCandidate F :=
  { (sampleCandidate : BackendCandidate F) with damping := some d }

def Sighting.candidates (v : Sighting) : List (BackendCandidate F) :=
  match v with
  | .gone => []
  | .accepted => [sampleCandidate]
  | .refused =>
    [{ sampleCandidate with
      rejected := true
      reason := "no CommunityMap rule matched large communities []" }]

/-- Whole seconds after Go's zero time. -/
def clock (n : Nat) : Time := ⟨(n + 1) * second⟩

def sampleTick (n : Nat) (v : Sighting) : Tick F where
  now := clock n
  rib := v.rib
  bindings := [sampleBinding]
  cm := v.cm
  candidates := v.candidates
  settled := by cases v <;> rfl
  policies := []
  stamp := clock n
  visit := .asListed F

/-- A tick every `period` seconds, from no records at all. -/
def sampleRun (F : Type) (cfg : BGPStabilityConfigSpec) (period : Nat) (seen : Nat → Sighting) :
    Run F where
  cfg := cfg
  start := ∅
  wellFormed := .empty
  tick n := sampleTick (n * period) (seen n)

end Sample

end Kreg
