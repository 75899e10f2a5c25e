import Kreg.QuietSystem
import Kreg.RecordView

namespace Kreg
open ApiServer
set_option autoImplicit true

variable {F : Type} [Float64 F]

section View

variable {policy : BGPBackendPolicy} {candidates : List (BackendCandidate F)}

structure Record.Tells (policy : BGPBackendPolicy) (c : BackendCandidate F) (x : Record) :
    Prop where
  bound : policy.qualifiedName ∈ x.status.boundPolicies ↔ selects policy.selector c = true
  named : selects policy.selector c = true → sliceResource policy c ∈ x.status.generatedResources

structure Records.Show (policy : BGPBackendPolicy) (candidates : List (BackendCandidate F))
    (s : Records) : Prop where
  told : ∀ c ∈ candidates, ∃ x, s.lookup c.name = some x ∧ x.Tells policy c
  owned : ∀ k x, s.lookup k = some x → x.managed = true → ∃ c ∈ candidates, c.name = k

theorem written_tells {policies : List BGPBackendPolicy} {c c' : BackendCandidate F}
    (hp : policy ∈ policies) (hn : (policies.map BGPBackendPolicy.qualifiedName).Nodup)
    (h : c'.Resembles c) (stamp : Time) (o : Option Record) :
    (written stamp (buildOne c' policies) o).Tells policy c := by
  have hbound : (written stamp (buildOne c' policies) o).status.boundPolicies =
      (buildOne c' policies).status.boundPolicies := by cases o <;> rfl
  have hnamed : (written stamp (buildOne c' policies) o).status.generatedResources =
      (buildOne c' policies).status.generatedResources := by cases o <;> rfl
  have hresource := congrArg (sliceResource policy) h.bare
  refine ⟨?_, ?_⟩
  · rw [hbound, qualifiedName_mem_boundPolicies hn hp, h.selects]
  · intro hs
    rw [hnamed, mem_generatedResources]
    exact ⟨policy, hp, (h.selects _).trans hs, hresource⟩

structure Sweeping.Over (policy : BGPBackendPolicy) (candidates : List (BackendCandidate F))
    (w : Sweeping F) : Prop where
  snapshot : ∀ out, w.snapshot = .ok out → List.Forall₂ BackendCandidate.Resembles out candidates
  listed : policy ∈ w.policies
  qualified : (w.policies.map BGPBackendPolicy.qualifiedName).Nodup

variable (hd : (candidates.map BackendCandidate.name).Nodup)
include hd

theorem Records.Show.applied {s : Records} (h : s.Show policy candidates)
    {c c' : BackendCandidate F} (hc : c ∈ candidates) (hr : c'.Resembles c)
    {policies : List BGPBackendPolicy} (hp : policy ∈ policies)
    (hn : (policies.map BGPBackendPolicy.qualifiedName).Nodup) (stamp : Time) :
    (applied stamp s (buildOne c' policies)).Show policy candidates where
  told d hmem := by
    rw [lookup_applied]
    split
    · next hname =>
      obtain rfl := List.inj_on_of_nodup_map hd hc hmem (hr.name.symm.trans hname)
      exact ⟨_, rfl, written_tells hp hn hr stamp _⟩
    · exact h.told d hmem
  owned k x hx hm := by
    rw [lookup_applied] at hx
    split at hx
    · next hname => exact ⟨c, hc, hr.name.symm.trans hname⟩
    · exact h.owned k x hx hm

theorem Sweeping.Over.stage {w : Sweeping F} (h : w.Over policy candidates)
    (hbase : w.base.Show policy candidates) (faults : List Bool) :
    (w.stage faults).Show policy candidates := by
  rw [Sweeping.stage]
  cases hout : w.snapshot with
  | error e => exact hbase
  | ok out =>
    have hresembles := h.snapshot out hout
    apply Ends.store (I := Records.Show policy candidates)
    apply reconcileBackends_inv (I := Records.Show policy candidates) out w.policies hbase
    · exact fun _ h => h
    · intro b hb s hs
      obtain ⟨c', hc', rfl⟩ := List.mem_map.1 hb
      obtain ⟨c, hc, hr⟩ := exists_right_of_forall₂ hresembles hc'
      exact hs.applied hd hc hr h.listed h.qualified w.stamp
    · intro b hb s hs hnone
      obtain ⟨c', hc', rfl⟩ := List.mem_map.1 hb
      obtain ⟨c, hc, hr⟩ := exists_right_of_forall₂ hresembles hc'
      obtain ⟨x, hx, _⟩ := hs.told c hc
      rw [← hr.name] at hx
      cases hnone.symm.trans hx
    · intro s hs b hb hstale
      obtain ⟨x, hx, hm⟩ := (mem_listManaged_names s b.name).1 (List.mem_map_of_mem hb)
      obtain ⟨c, hc, hname⟩ := hs.owned b.name x hx hm
      obtain ⟨c', hc', hr⟩ := exists_of_forall₂ hresembles hc
      exact absurd (List.mem_map.2 ⟨c', hc', hr.name.trans hname⟩) hstale

theorem Sweeping.Over.stage_returned {w : Sweeping F} (h : w.Over policy candidates)
    (hok : (reconcileBackends w.stamp w.snapshot w.policies ⟨w.base, faults⟩).1 = .ok ()) :
    (w.stage faults).Show policy candidates := by
  cases hout : w.snapshot with
  | error e =>
    rw [hout] at hok
    cases hok
  | ok out =>
    have hresembles := h.snapshot out hout
    have hswept : w.stage faults = swept w.stamp out w.policies w.base :=
      Attempt.leaves_eq_swept (a := ⟨w.stamp, w.snapshot, w.policies, faults⟩) hout hok
    rw [hswept]
    refine ⟨?_, ?_⟩
    · intro c hc
      rcases lookup_swept_cases w.stamp out w.policies w.base c.name with
        ⟨c', hc', hname, o, hlookup⟩ | ⟨hnone, _⟩
      · obtain ⟨d, hmem, hr⟩ := exists_right_of_forall₂ hresembles hc'
        obtain rfl := List.inj_on_of_nodup_map hd hmem hc (hr.name.symm.trans hname)
        exact ⟨_, hlookup, written_tells h.listed h.qualified hr _ _⟩
      · obtain ⟨c', hc', hr⟩ := exists_of_forall₂ hresembles hc
        exact absurd hr.name (hnone c' hc')
    · intro k x hx hm
      rcases lookup_swept_cases w.stamp out w.policies w.base k with
        ⟨c', hc', hname, _⟩ | ⟨_, hlookup⟩
      · obtain ⟨c, hc, hr⟩ := exists_right_of_forall₂ hresembles hc'
        exact ⟨c, hc, hr.name.symm.trans hname⟩
      · rw [hlookup, Option.filter_eq_some_iff] at hx
        rw [hm] at hx
        cases hx.2

end View

section Runs

variable [SecondsCast]

/-- At `c` a sweep returns that has made its reads after `m`. -/
structure SystemRun.Renews (r : SystemRun F) (m c : Nat) : Prop where
  begun : ∃ b < c, r.Refreshes .report m b ∧
    ∃ now stamp visit, r.event b = .beginSweep now stamp visit
  returns : ∃ faults w, r.event c = .sweep faults ∧ (r.state c).sweeping = some w ∧
    (reconcileBackends w.stamp w.snapshot w.policies ⟨w.base, faults⟩).1 = .ok ()

/-- Writes that come after `c` are those of a sweep that has begun after it. -/
def SystemRun.Closes (r : SystemRun F) (c n : Nat) : Prop :=
  ∀ i, c < i → i < n → ∀ faults, r.event i = .sweep faults →
    ∃ j, c < j ∧ j < i ∧ ∃ now stamp visit, r.event j = .beginSweep now stamp visit

structure SystemRun.Steady (r : SystemRun F) (key : NamespacedName) (policy : BGPBackendPolicy)
    (candidates : List (BackendCandidate F)) (m n : Nat) : Prop where
  quiet : r.Quiet key m n
  undamped : (r.state m).inputs.Undamped
  settled : (r.state m).inputs.settled = .ok candidates
  policyAt : (r.state m).cluster.policyAt key = some policy
  qualified : ∀ i, m ≤ i → i ≤ n →
    ((r.state i).policies.map BGPBackendPolicy.qualifiedName).Nodup

variable {r : SystemRun F} {policy : BGPBackendPolicy} {candidates : List (BackendCandidate F)}

theorem SystemRun.Steady.mono (h : r.Steady key policy candidates m n) (hn : n' ≤ n) :
    r.Steady key policy candidates m n' :=
  ⟨h.quiet.mono le_rfl hn, h.undamped, h.settled, h.policyAt,
    fun i hi hi' => h.qualified i hi (hi'.trans hn)⟩

omit [Float64 F] [SecondsCast] in
theorem System.mem_policies {s : System F} (h : s.cluster.policyAt key = some policy) :
    policy ∈ s.policies := by
  obtain ⟨stored, hp, rfl⟩ := Option.map_eq_some_iff.1 h
  exact List.mem_map.2 ⟨⟨key, stored⟩, AList.mem_lookup_iff.1 hp, rfl⟩

theorem SystemRun.Steady.begun_over (h : r.Steady key policy candidates m n)
    (hr : r.Refreshes .report m b) (hbn : b ≤ n) (now stamp : Time) (visit : Visit F)
    (base : Records) :
    Sweeping.Over policy candidates
      ⟨base, stamp, (r.state n).snapshot .report now visit, (r.state n).policies⟩ where
  snapshot out hout := by
    obtain ⟨candidates', hc', hresembles⟩ := h.quiet.snapshot h.undamped hr hbn hout
    cases h.settled.symm.trans hc'
    exact hresembles
  listed := by
    have hmn : m ≤ n := hr.lt.le.trans hbn
    exact System.mem_policies ((h.quiet.policyAt hmn).trans h.policyAt)
  qualified := h.qualified n (hr.lt.le.trans hbn) le_rfl

theorem SystemRun.Steady.sweeping_over (h : r.Steady key policy candidates m n)
    (hr : r.Refreshes .report m b) (hb : r.event b = .beginSweep now stamp visit) (hbn : b < n)
    (hw : (r.state n).sweeping = some w) : w.Over policy candidates := by
  induction n, hbn using Nat.le_induction generalizing w with
  | base =>
    rw [SystemRun.state, hb] at hw
    cases hw
    exact (h.mono b.le_succ).begun_over hr le_rfl ..
  | succ n hbn ih =>
    have hold := h.mono n.le_succ
    rw [SystemRun.state] at hw
    rcases (r.event n).step_sweeping r.namespaceName (r.state n) with
      hsame | ⟨now', stamp', visit', _, hnew⟩
    · exact ih hold (hsame.symm.trans hw)
    · cases hnew.symm.trans hw
      exact hold.begun_over hr (Nat.le_of_lt hbn) ..

/-- The records are right after `c`, and so are those a sweep begins with. -/
structure SystemRun.Showing (r : SystemRun F) (policy : BGPBackendPolicy)
    (candidates : List (BackendCandidate F)) (c n : Nat) : Prop where
  records : (r.state n).records.Show policy candidates
  base : ∀ w, (r.state n).sweeping = some w →
    (∃ j, c < j ∧ j < n ∧ ∃ now stamp visit, r.event j = .beginSweep now stamp visit) →
      w.base.Show policy candidates

theorem SystemRun.Showing.step (h : r.Showing policy candidates c n)
    (hd : (candidates.map BackendCandidate.name).Nodup)
    (hover : ∀ w, (r.state n).sweeping = some w → w.Over policy candidates)
    (hcloses : ∀ faults, r.event n = .sweep faults →
      ∃ j, c < j ∧ j < n ∧ ∃ now stamp visit, r.event j = .beginSweep now stamp visit) :
    r.Showing policy candidates c (n + 1) where
  records := by
    rw [SystemRun.state]
    rcases (r.event n).step_records r.namespaceName (r.state n) with
      hsame | ⟨w, faults, he, hw, hnew⟩
    · rw [hsame]
      exact h.records
    · rw [hnew]
      exact (hover w hw).stage hd (h.base w hw (hcloses faults he)) faults
  base w hw hbegun := by
    by_cases he : ∃ now stamp visit, r.event n = .beginSweep now stamp visit
    · obtain ⟨now, stamp, visit, he⟩ := he
      rw [SystemRun.state, he] at hw
      cases hw
      exact h.records
    · rw [SystemRun.state] at hw
      rcases (r.event n).step_sweeping r.namespaceName (r.state n) with
        hsame | ⟨now, stamp, visit, hbegin, _⟩
      · obtain ⟨j, hcj, hjn, hj⟩ := hbegun
        have hne : j ≠ n := fun heq => he (heq ▸ hj)
        have hlt : j < n := lt_of_le_of_ne (Nat.le_of_lt_succ hjn) hne
        exact h.base w (hsame.symm.trans hw) ⟨j, hcj, hlt, hj⟩
      · exact absurd ⟨now, stamp, visit, hbegin⟩ he

theorem SystemRun.Steady.showing (h : r.Steady key policy candidates m n)
    (hd : (candidates.map BackendCandidate.name).Nodup) (hrenews : r.Renews m c)
    (hcloses : r.Closes c n) (hcn : c < n) : r.Showing policy candidates c n := by
  obtain ⟨⟨b, hbc, hr, now, stamp, visit, hb⟩, faults, w, he, hw, hok⟩ := hrenews
  induction n, hcn using Nat.le_induction with
  | base =>
    have hover := (h.mono c.le_succ).sweeping_over hr hb hbc hw
    refine ⟨?_, ?_⟩
    · rw [SystemRun.state, he, SystemEvent.step]
      simp only [hw]
      exact hover.stage_returned hd hok
    · rintro _ _ ⟨j, hcj, hjc, _⟩
      exact absurd hjc (Nat.not_lt.2 hcj)
  | succ n hcn ih =>
    have hold := h.mono n.le_succ
    apply (ih hold fun i hi hi' => hcloses i hi (hi'.trans n.lt_succ_self)).step hd
    · exact fun w hw => hold.sweeping_over hr hb (hbc.trans hcn) hw
    · exact hcloses n hcn n.lt_succ_self

/-- What the view says and what is served agree, though two controllers make them: from when both
have gone through, each backend has a record that lists the policy just when the policy's slice for
it stands, and names the slice, and no other record is left. -/
theorem SystemRun.quiet_agrees (r : SystemRun F) (h : r.Steady key policy candidates m n)
    (hkeyed : Keyed (r.state m).table) (hname : key.name ≠ "") (hrec : r.Reconciles key m p)
    (hpn : p < n) (hrenews : r.Renews m q) (hcloses : r.Closes q n) (hqn : q < n) :
    (∀ k x, (r.state n).records.lookup k = some x → x.managed = true →
      ∃ c ∈ candidates, c.name = k) ∧
    ∀ c ∈ candidates, ∃ x, (r.state n).records.lookup c.name = some x ∧
      (policy.qualifiedName ∈ x.status.boundPolicies ↔
        ∃ o, renderEndpointSlice policy (serviceName policy) c = .ok o ∧
          (r.state n).cluster.objects.lookup o.key = some o.stored) ∧
      (policy.qualifiedName ∈ x.status.boundPolicies →
        ∀ o, renderEndpointSlice policy (serviceName policy) c = .ok o →
          o.resource ∈ x.status.generatedResources) := by
  obtain ⟨hd, hv4⟩ := SnapshotInputs.settled_distinct hkeyed h.settled
  obtain ⟨candidates', stored, out, hc', rfl, hrender, hplace⟩ :=
    h.quiet.served h.undamped hkeyed h.policyAt hname hrec hpn
  cases h.settled.symm.trans hc'
  have hshow := (h.showing (SnapshotInputs.settled_names hkeyed h.settled) hrenews hcloses
    hqn).records
  refine ⟨hshow.owned, ?_⟩
  intro c hc
  obtain ⟨x, hx, htells⟩ := hshow.told c hc
  refine ⟨x, hx, ?_, ?_⟩
  · rw [htells.bound]
    constructor
    · intro hs
      obtain ⟨o, ho, hr⟩ := exists_right_of_forall₂ (render_slices hrender)
        (List.mem_filter.2 ⟨hc, hs⟩)
      exact ⟨o, hr, hplace.rendered o (mem_objects_of_mem_endpointSlices ho)⟩
    · rintro ⟨o, hr, hlookup⟩
      obtain ⟨c', hmem, hs, o', hr', hkey, _⟩ :=
        (hplace.slices_iff hrender o.key o.stored).1 ⟨hlookup, renderEndpointSlice_labelled hr⟩
      obtain rfl := eq_of_slice_name hd hv4 hmem hc hr' hr (congrArg ObjectKey.name hkey)
      exact hs
  · intro hb o hr
    rw [renderEndpointSlice_resource hr]
    exact htells.named (htells.bound.1 hb)

end Runs

/-- Both controllers go through, and the sweep after that is cut short. -/
def tandemEvents : List (SystemEvent Rat) :=
  [.read .policy .rib none, .read .report .rib none, .read .policy .peerConfigs none,
    .read .report .peerConfigs none, .read .policy .communityMap none,
    .read .report .communityMap none, .read .policy .stabilityConfig none,
    .read .report .stabilityConfig none, .beginSweep (clock 0) (clock 0) (.asListed Rat),
    .reconcilePolicy webKey (clock 1) (.asListed Rat) [], .sweep [],
    .beginSweep (clock 2) (clock 2) (.asListed Rat), .sweep [false, true]]

def tandemRun : SystemRun Rat where
  namespaceName := "kreg-system"
  start := hubRun.start
  event n := tandemEvents.getD n (.publish .report)
  unread := hubRun.unread
  idle := hubRun.idle

theorem tandemRun_steady : tandemRun.Steady webKey webPolicy [sampleCandidate] 0 13 where
  quiet i _ hi h := by
    have hevents : ∀ e ∈ tandemEvents, ¬ e.Disturbs webKey := by
      simp only [tandemEvents, List.forall_mem_cons, SystemEvent.Disturbs, not_false_eq_true,
        List.not_mem_nil, false_implies, implies_true, and_self]
    have hevent : tandemRun.event i = tandemEvents.get ⟨i, hi⟩ := by
      change tandemEvents.getD i _ = _
      rw [List.getD_eq_getElem?_getD, List.getElem?_eq_getElem hi]
      rfl
    exact hevents _ (hevent ▸ List.get_mem tandemEvents ⟨i, hi⟩) h
  undamped := rfl
  settled := by decide +kernel
  policyAt := rfl
  qualified := by
    have h : ∀ i < 14, ((tandemRun.state i).policies.map BGPBackendPolicy.qualifiedName).Nodup := by
      decide +kernel
    exact fun i _ hi => h i (Nat.lt_succ_of_le hi)

theorem tandemRun_reconciles : tandemRun.Reconciles webKey 0 9 where
  reads what := by
    cases what with
    | rib => exact .inr ⟨0, Nat.zero_le _, by decide, none, rfl⟩
    | peerConfigs => exact .inr ⟨2, Nat.zero_le _, by decide, none, rfl⟩
    | communityMap => exact .inr ⟨4, Nat.zero_le _, by decide, none, rfl⟩
    | stabilityConfig => exact .inr ⟨6, Nat.zero_le _, by decide, none, rfl⟩
    | backends => exact .inl rfl
  returns := by
    refine ⟨clock 1, .asListed Rat, [], rfl, ?_⟩
    decide +kernel

theorem tandemRun_renews : tandemRun.Renews 0 10 where
  begun := by
    refine ⟨8, by decide, ?_, clock 0, clock 0, .asListed Rat, rfl⟩
    intro what
    cases what with
    | rib => exact .inr ⟨1, Nat.zero_le _, by decide, none, rfl⟩
    | peerConfigs => exact .inr ⟨3, Nat.zero_le _, by decide, none, rfl⟩
    | communityMap => exact .inr ⟨5, Nat.zero_le _, by decide, none, rfl⟩
    | stabilityConfig => exact .inr ⟨7, Nat.zero_le _, by decide, none, rfl⟩
    | backends => exact .inl rfl
  returns := by
    refine ⟨[], _, rfl, rfl, ?_⟩
    decide +kernel

theorem tandemRun_closes : tandemRun.Closes 10 13 := by
  intro i hi hi' faults he
  have hcases : i = 11 ∨ i = 12 := by omega
  rcases hcases with rfl | rfl
  · cases he
  · exact ⟨11, by decide, by decide, clock 2, clock 2, .asListed Rat, rfl⟩

theorem quiet_agrees_tandem : ∃ x,
    (tandemRun.state 13).records.lookup (sampleCandidate : BackendCandidate Rat).name = some x ∧
      (webPolicy.qualifiedName ∈ x.status.boundPolicies ↔
        ∃ o, renderEndpointSlice webPolicy (serviceName webPolicy)
            (sampleCandidate : BackendCandidate Rat) = .ok o ∧
          (tandemRun.state 13).cluster.objects.lookup o.key = some o.stored) := by
  have hkeyed : Keyed (tandemRun.state 0).table := ⟨by decide, by decide⟩
  have hname : webKey.name ≠ "" := by decide
  obtain ⟨_, hview⟩ := tandemRun.quiet_agrees tandemRun_steady hkeyed hname tandemRun_reconciles
    (by decide) tandemRun_renews tandemRun_closes (by decide)
  obtain ⟨x, hx, hbound, _⟩ := hview sampleCandidate (.head _)
  exact ⟨x, hx, hbound⟩

end Kreg
