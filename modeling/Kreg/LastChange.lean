import Kreg.Coherence
import Kreg.OrderFree
import Kreg.Shortcut

namespace Kreg
open Float64
set_option autoImplicit true

section Damping

variable {F : Type} [Float64 F]

theorem Suppresses.since_eq {s : Suppression F} (h : Suppresses now score since dampening s)
    (hs : since.isSome = true ↔ s.state = .dampened) : s.suppressedSince = since := by
  rcases h.state with ⟨ha, _, hn⟩ | ⟨hd, u, hu⟩
  · rw [hn]
    cases since with
    | none => rfl
    | some u => exact nomatch ha.symm.trans (hs.1 rfl)
  · cases h with
    | off | capped | reused | calm => cases hu
    | kept => rfl
    | entered => exact absurd (hs.2 hd) Bool.false_ne_true

/-- Two verdicts between which a record does not count as changed, provided their state is the
same. -/
structure DampingInfo.Steady (d d' : DampingInfo F) : Prop where
  withdrawn : d'.withdrawnAt = d.withdrawnAt
  suppressed : d'.suppressedSince = d.suppressedSince
  pending : d'.pendingSince = d.pendingSince
  reason : d.state = .pending → d'.reason = d.reason

theorem Transition.pending_eq {d : DampingInfo F} (h : Transition now cfg prev here d)
    (hs : d.state = .pending) :
    ∃ since, d = pendingDamping now since (durationOrZero cfg.additionDelay) := by
  cases h with
  | fresh =>
    rw [newCandidateDamping] at hs ⊢
    split
    · next hd =>
      rw [if_pos hd] at hs
      cases hs
    · exact ⟨now, rfl⟩
  | settling => exact ⟨_, rfl⟩
  | observed => exact absurd hs (observe_not_pending _ _ _)
  | held => exact absurd hs (hold_not_pending _ _ _ _ _)

theorem Transition.steady {d d' : DampingInfo F} (h : Transition now cfg prev here d)
    (h' : Transition now' cfg (some d.recorded) here d') (hs : d'.state = d.state) :
    d.Steady d' := by
  have hsh := h.shaped
  have hsince : d.recorded.suppressedSince.isSome = true ↔ d.state = .dampened := hsh.suppressed
  cases h' with
  | settling hp _ =>
    obtain ⟨since, rfl⟩ := h.pending_eq hp
    exact ⟨rfl, rfl, rfl, fun _ => rfl⟩
  | observed _ =>
    have hne : d.state ≠ .pending := hs ▸ observe_not_pending _ _ _
    obtain ⟨s, hsup, hst, _, _, hsus⟩ := observe_suppresses now' d.recorded cfg.dampening
    refine ⟨?_, ?_, ?_, fun hp => absurd hp hne⟩
    · have hw : d.withdrawnAt.isSome ≠ true := fun hw => nomatch hsh.withdrawn.1 hw
      rw [Option.not_isSome_iff_eq_none.1 hw]
      rfl
    · rw [hsus]
      apply hsup.since_eq
      rw [hsince, ← hs, hst]
    · have hp : d.pendingSince.isSome ≠ true := fun hp => hne (hsh.pending.1 hp)
      rw [Option.not_isSome_iff_eq_none.1 hp]
      rfl
  | held hne _ =>
    obtain ⟨w, hw⟩ := Option.isSome_iff_exists.1 (hsh.withdrawn.2 rfl)
    have hrec : d.recorded.withdrawnAt = some w := hw
    obtain ⟨s, hsup, hst, _, hsus⟩ := hold_suppresses now' (d.recorded.withdrawnAt.getD now')
      d.recorded (durationOrZero cfg.withdrawalGrace) cfg.dampening
    refine ⟨?_, ?_, ?_, fun hp => absurd hp hne⟩
    · rw [hw, hrec]
      rfl
    · rw [hsus]
      apply hsup.since_eq
      rw [hsince, ← hs, hst]
      cases hsup.state with
      | inl ha =>
        rw [ha.1, if_neg (nomatch ·)]
        exact ⟨nofun, nofun⟩
      | inr hd =>
        rw [hd.1, if_pos rfl]
    · have hp : d.pendingSince.isSome ≠ true := fun hp => hne (hsh.pending.1 hp)
      rw [Option.not_isSome_iff_eq_none.1 hp]
      rfl

theorem Transition.steady_fresh {d d' : DampingInfo F} (h : Transition now cfg none here d)
    (h' : Transition now' cfg none here d')
    (hd : (durationOrZero cfg.additionDelay).ns ≤ 0) : d.Steady d' := by
  cases h with
  | fresh =>
    cases h' with
    | fresh =>
      rw [newCandidateDamping, newCandidateDamping, if_pos hd, if_pos hd]
      exact ⟨rfl, rfl, rfl, fun _ => rfl⟩

end Damping

theorem GoSlice.stored_map (f : α → β) (s : GoSlice α) : (s.map f).stored = s.stored.map f := by
  cases s with
  | nil => rfl
  | made l => cases l <;> rfl

theorem GoSlice.stored_stored (s : GoSlice α) : s.stored.stored = s.stored := by
  cases s with
  | nil => rfl
  | made l => cases l <;> rfl

/-- Neither slice of the candidate is allocated but empty. -/
structure BackendCandidate.Plain (c : BackendCandidate F) : Prop where
  asPath : c.asPath.stored = c.asPath
  largeCommunities : c.largeCommunities.stored = c.largeCommunities

theorem recorded_recorded (c : BackendCandidate F) : c.recorded.recorded = c.recorded := by
  simp only [BackendCandidate.recorded, GoSlice.stored_stored]

theorem recorded_plain (c : BackendCandidate F) : c.recorded.Plain :=
  ⟨GoSlice.stored_stored _, GoSlice.stored_stored _⟩

section Statuses

variable {F : Type} [Float64 F]

/-- Two accepted candidates of one key: the same but for their verdicts, and for what storing
does to their slices. -/
structure SameBackend (c c' : BackendCandidate F) (d d' : DampingInfo F) : Prop where
  recorded : c'.recorded = c.recorded
  accepted : c.rejected = false
  accepted' : c'.rejected = false
  damping : c.damping = some d
  damping' : c'.damping = some d'

omit [Float64 F] in
theorem DampingInfo.Verdict.not_draining {d : DampingInfo F} (h : d.Verdict) :
    d.state ≠ .draining := by
  intro hs
  rw [DampingInfo.Verdict, hs] at h
  simp only [reduceCtorEq, false_and, or_self] at h

omit [Float64 F] in
theorem reported_state {c : BackendCandidate F} (hr : c.rejected = false)
    (hd : c.damping = some d) (hv : d.Verdict) :
    (stateAndReason c).1 =
      if d.state = .active then if c.drain then .draining else .active else d.state := by
  rw [stateAndReason_of_verdict hr hd hv]
  split
  · rfl
  · rfl

namespace SameBackend

variable {c c' : BackendCandidate F} {d d' : DampingInfo F}

omit [Float64 F] in
theorem fields (h : SameBackend c c' d d') :
    c'.pfx = c.pfx ∧ c'.clusterID = c.clusterID ∧ c'.peer = c.peer ∧ c'.locality = c.locality ∧
      c'.med = c.med ∧ c'.asPath.stored = c.asPath.stored ∧
      c'.largeCommunities.stored = c.largeCommunities.stored ∧ c'.weight = c.weight ∧
      c'.tier = c.tier ∧ c'.drain = c.drain ∧ c'.serviceTag = c.serviceTag := by
  have hrec := h.recorded
  simp only [BackendCandidate.recorded, BackendCandidate.mk.injEq, and_true] at hrec
  exact hrec

omit [Float64 F] in
theorem selects_eq (h : SameBackend c c' d d') (hs : d'.state = d.state) (sel : BackendSelector) :
    selects sel c' = selects sel c := by
  obtain ⟨hpfx, hid, _, _, _, _, _, _, _, _, htag⟩ := h.fields
  have hserv : c'.servable = c.servable := by
    simp only [BackendCandidate.servable, h.accepted, h.accepted', h.damping, h.damping', hs]
  rw [selects, selects, selectOne_congr hserv hpfx hid htag]

omit [Float64 F] in
theorem bindings_eq (h : SameBackend c c' d d') (hs : d'.state = d.state)
    (hp : policies.Perm policies') : c'.bindings policies' = c.bindings policies := by
  obtain ⟨hpfx, hid, _⟩ := h.fields
  have hres : ∀ p, sliceResource p c' = sliceResource p c := by
    intro p
    change _ ++ endpointSliceName _ c'.clusterID c'.pfx = _ ++ endpointSliceName _ _ _
    rw [hid, hpfx]
  rw [bindings_perm hp, Kreg.bindings_eq, Kreg.bindings_eq]
  simp only [h.selects_eq hs, hres]

theorem attributes_stored (h : SameBackend c c' d d') (policies policies' : List BGPBackendPolicy) :
    (buildOne c' policies').status.attributes.stored =
      (buildOne c policies).status.attributes.stored := by
  obtain ⟨_, _, _, _, hmed, hpath, hcomm, hw, ht, hdr, htag⟩ := h.fields
  simp only [buildOne, BackendAttributes.stored, asPathInt64, GoSlice.stored_map, hmed, hpath,
    hcomm, hw, ht, hdr, htag]

omit [Float64 F] in
theorem state_eq_iff (h : SameBackend c c' d d') (hv : d.Verdict) (hv' : d'.Verdict) :
    (stateAndReason c').1 = (stateAndReason c).1 ↔ d'.state = d.state := by
  obtain ⟨_, _, _, _, _, _, _, _, _, hdr, _⟩ := h.fields
  rw [reported_state h.accepted' h.damping' hv', reported_state h.accepted h.damping hv, hdr]
  generalize hx : (if c.drain then .draining else .active : BackendState) = x
  have hne : ∀ s, s ≠ .draining → s ≠ .active → x ≠ s := by
    intro s hs hs'
    rw [← hx]
    split
    · exact hs.symm
    · exact hs'.symm
  split
  · next ha' =>
    split
    · next ha => exact ⟨fun _ => ha'.trans ha.symm, fun _ => rfl⟩
    · next ha =>
      rw [ha']
      exact ⟨fun he => (hne _ hv.not_draining ha he).elim, fun he => absurd he.symm ha⟩
  · next ha' =>
    split
    · next ha =>
      rw [ha]
      exact ⟨fun he => (hne _ hv'.not_draining ha' he.symm).elim, fun he => absurd he ha'⟩
    · exact Iff.rfl

omit [Float64 F] in
theorem reason_eq (h : SameBackend c c' d d') (hv : d.Verdict) (hs : d'.state = d.state)
    (hst : d.Steady d') :
    (if reasonDrifts (stateAndReason c').1 then "" else (stateAndReason c').2) =
      if reasonDrifts (stateAndReason c).1 then "" else (stateAndReason c).2 := by
  obtain ⟨_, _, _, _, _, _, _, _, _, hdr, _⟩ := h.fields
  simp only [stateAndReason, h.accepted, h.accepted', h.damping, h.damping', hdr, hs,
    Bool.false_eq_true, ↓reduceIte]
  rcases hv with ⟨ha, _⟩ | hp | hh | hd
  · simp only [ha]
  · simp only [hp, hst.reason hp]
  · simp only [hh, reasonDrifts, ↓reduceIte]
  · simp only [hd, reasonDrifts, ↓reduceIte]

theorem semantic_eq (h : SameBackend c c' d d') (hv : d.Verdict) (hv' : d'.Verdict)
    (hs : d'.state = d.state) (hst : d.Steady d') (hp : policies.Perm policies') :
    (buildOne c' policies').status.stored.semantic =
      (buildOne c policies).status.stored.semantic := by
  obtain ⟨hpfx, hid, hpeer, hloc, _⟩ := h.fields
  have hattr := h.attributes_stored policies policies'
  have hstate := (h.state_eq_iff hv hv').2 hs
  have hreason := h.reason_eq hv hs hst
  have hb := h.bindings_eq hs hp
  simp only [buildOne] at hattr
  simp only [AdvertisedBackendStatus.semantic, AdvertisedBackendStatus.stored, buildOne, hattr,
    hpfx, hid, hpeer, hloc, hstate, hb, h.damping, h.damping', Option.map_some, Option.getD_some,
    StabilityStatus.stored, stabilityStatus, hst.withdrawn, hst.suppressed, hst.pending]
  rw [hstate] at hreason
  rw [hreason]

end SameBackend

theorem metaTimeOrNil_whole {o : Option Time} (h : ∀ t ∈ o, t.Whole) :
    (metaTimeOrNil o).map Time.truncate = metaTimeOrNil o := by
  rw [metaTimeOrNil_stored h]
  cases o with
  | none => rfl
  | some t =>
    rw [metaTimeOrNil, Option.bind_some, metaTime, (h t rfl).isZero_eq]
    rfl

theorem DampingInfo.Stamped.stored_eq {d : DampingInfo F} (h : d.Stamped) :
    (stabilityStatus d).stored = stabilityStatus d := by
  have hobs : (metaTime d.lastObservedAt).map Time.truncate = metaTime d.lastObservedAt :=
    metaTimeOrNil_whole (o := some d.lastObservedAt) fun t ht => Option.some.inj ht ▸ h.observed
  simp only [StabilityStatus.stored, stabilityStatus, hobs, metaTimeOrNil_whole h.withdrawn,
    metaTimeOrNil_whole h.suppressed, metaTimeOrNil_whole h.pending]

omit [Float64 F] in
theorem BackendCandidate.plain_iff (c : BackendCandidate F) :
    c.Plain ↔ (asPathInt64 c.asPath).stored = asPathInt64 c.asPath ∧
      c.largeCommunities.stored = c.largeCommunities := by
  have hpath : c.asPath.stored = c.asPath ↔
      (asPathInt64 c.asPath).stored = asPathInt64 c.asPath := by
    cases c.asPath with
    | nil => exact ⟨fun _ => rfl, fun _ => rfl⟩
    | made l =>
      cases l with
      | nil => exact ⟨nofun, nofun⟩
      | cons a l => exact ⟨fun _ => rfl, fun _ => rfl⟩
  rw [← hpath]
  exact ⟨fun h => ⟨h.asPath, h.largeCommunities⟩, fun h => ⟨h.1, h.2⟩⟩

theorem BackendCandidate.Plain.stored_eq {c : BackendCandidate F} (h : c.Plain)
    (hd : c.damping = some d) (hst : d.Stamped) (policies : List BGPBackendPolicy) :
    (buildOne c policies).status.stored = (buildOne c policies).status := by
  obtain ⟨hpath, hcomm⟩ := c.plain_iff.1 h
  simp only [AdvertisedBackendStatus.stored, buildOne, BackendAttributes.stored, hd, hpath, hcomm,
    Option.map_some, Option.map_none, Option.getD_some, hst.stored_eq]

/-- Nothing the server returns compares equal to a slice that is allocated but empty. -/
theorem plain_of_semantic_eq {c : BackendCandidate F} {status : AdvertisedBackendStatus}
    (h : status.stored.semantic = (buildOne c policies).status.semantic) : c.Plain := by
  have hattr : status.attributes.stored = (buildOne c policies).status.attributes :=
    congrArg AdvertisedBackendStatus.attributes h
  have hpath : status.attributes.asPath.stored = asPathInt64 c.asPath :=
    congrArg BackendAttributes.asPath hattr
  have hcomm : status.attributes.largeCommunities.stored = c.largeCommunities :=
    congrArg BackendAttributes.largeCommunities hattr
  rw [c.plain_iff, ← hpath, ← hcomm]
  exact ⟨GoSlice.stored_stored _, GoSlice.stored_stored _⟩

theorem written_semantic (stamp : Time) (b : AdvertisedBackend) (o : Option Record) :
    (written stamp b o).status.semantic = b.status.stored.semantic := by
  cases o <;> rfl

theorem written_state (stamp : Time) (b : AdvertisedBackend) (o : Option Record) :
    (written stamp b o).status.state = b.status.state := by
  cases o <;> rfl

/-- Comparing the next status with the stored one finds a change exactly if the state moved,
once no slice is in the way. -/
theorem SameBackend.statusChanged_iff {c c' : BackendCandidate F} (h : SameBackend c c' d d')
    (hv : d.Verdict) (hv' : d'.Verdict) (hst : d'.state = d.state → d.Steady d')
    (hd' : d'.Stamped) (hp : policies.Perm policies') (hplain : c'.Plain) (stamp : Time)
    (o : Option Record) :
    statusChanged (written stamp (buildOne c policies) o).status (buildOne c' policies').status =
        true ↔
      (buildOne c' policies').status.state ≠
        (written stamp (buildOne c policies) o).status.state := by
  rw [statusChanged, bne_iff_ne, written_semantic, written_state, ne_eq, ne_eq, not_iff_not]
  constructor
  · exact fun he => (congrArg AdvertisedBackendStatus.state he).symm
  · intro hstate
    have hs := (h.state_eq_iff hv hv').1 hstate
    rw [← hplain.stored_eq h.damping' hd' policies', h.semantic_eq hv hv' hs (hst hs) hp]

theorem statusChanged_of_not_plain {c : BackendCandidate F} (hplain : ¬ c.Plain) (stamp : Time)
    (b : AdvertisedBackend) (o : Option Record) (policies : List BGPBackendPolicy) :
    statusChanged (written stamp b o).status (buildOne c policies).status = true := by
  rw [statusChanged, bne_iff_ne, written_semantic]
  exact fun he => hplain (plain_of_semantic_eq he)

end Statuses

section Ticks

variable {F : Type} [Float64 F]

theorem Tick.transition_stamped (t : Tick F) {s : Records} (hs : s.RemembersSeconds F)
    (ht : Transition t.now cfg (((t.prior cfg s).lookup k).map PriorState.damping) here d)
    (hn : t.now.Whole) : d.Stamped := by
  apply ht.stamped hn
  intro p hp
  obtain ⟨q, hq, rfl⟩ := Option.map_eq_some_iff.1 hp
  exact hs k q (Visit.prior_of_lookup hq)

theorem Tick.sweep_remembersSeconds (t : Tick F) (cfg : BGPStabilityConfigSpec) {s : Records}
    (h : s.WellFormed) (hs : s.RemembersSeconds F) (hn : t.now.Whole) :
    (t.sweep cfg s).RemembersSeconds F := by
  intro k p hp
  rw [t.prior_sweep cfg h] at hp
  obtain ⟨c, hc, hm⟩ := Option.bind_eq_some_iff.1 hp
  obtain ⟨d, hd, ht, _⟩ := emission_cases hc
  have hst := t.transition_stamped hs ht hn
  rw [BackendCandidate.memory, hd, Option.bind_some, hst.kept_eq] at hm
  cases hm
  exact ⟨hst.observed, hst.withdrawn, hst.suppressed, hst.pending⟩

theorem Tick.lookup_next_prior (t t' : Tick F) (cfg : BGPStabilityConfigSpec) {s : Records}
    (h : s.WellFormed) (he : t.emission cfg s k = some c) (hd : c.damping = some d)
    (hst : d.Stamped) :
    (t'.prior cfg (t.sweep cfg s)).lookup k =
      if needsPriorState cfg then some ⟨c.recorded, d.recorded⟩ else none := by
  rw [Tick.prior, Visit.lookup_prior, t.prior_sweep cfg h, he, Option.bind_some,
    BackendCandidate.memory, hd, Option.bind_some, hst.kept_eq, Option.map_some]

theorem Tick.recorded_next {t t' : Tick F} {s : Records}
    (hsame : (present t'.candidates k).map BackendCandidate.recorded =
      (present t.candidates k).map BackendCandidate.recorded)
    (hmem : (t'.prior cfg (t.sweep cfg s)).lookup k =
      if needsPriorState cfg then some ⟨c.recorded, d⟩ else none)
    (he : t.emission cfg s k = some c) (he' : t'.emission cfg (t.sweep cfg s) k = some c') :
    c'.recorded = c.recorded ∧
      (c'.Plain ↔ ∀ a, present t'.candidates k = some a → a.Plain) := by
  obtain ⟨_, _, _, hform⟩ := emission_cases he
  obtain ⟨_, _, _, hform'⟩ := emission_cases he'
  rcases hform' with ⟨a', ha', rfl⟩ | ⟨hnone', p, hp, rfl⟩
  · rw [ha'] at hsame
    obtain ⟨a, ha, hrec⟩ := Option.map_eq_some_iff.1 hsame.symm
    rcases hform with ⟨b, hb, rfl⟩ | ⟨hnone, _⟩
    · rw [ha] at hb
      cases hb
      refine ⟨hrec.symm, ?_⟩
      rw [ha']
      constructor
      · exact fun h a ha => Option.some.inj ha ▸ ⟨h.asPath, h.largeCommunities⟩
      · exact fun h => ⟨(h a' rfl).asPath, (h a' rfl).largeCommunities⟩
    · rw [hnone] at ha
      cases ha
  · rw [hmem] at hp
    split at hp
    · cases hp
      refine ⟨recorded_recorded c, fun _ a ha => ?_, fun _ => ?_⟩
      · rw [hnone'] at ha
        cases ha
      · exact ⟨(recorded_plain c).asPath, (recorded_plain c).largeCommunities⟩
    · cases hp

theorem Tick.sameBackend {t t' : Tick F} {s : Records} (h : s.WellFormed)
    (hs : s.RemembersSeconds F) (hn : t.now.Whole) (hn' : t'.now.Whole)
    (hsame : (present t'.candidates k).map BackendCandidate.recorded =
      (present t.candidates k).map BackendCandidate.recorded)
    (he : t.emission cfg s k = some c) (he' : t'.emission cfg (t.sweep cfg s) k = some c') :
    ∃ d d', SameBackend c c' d d' ∧ d.Verdict ∧ d'.Verdict ∧ d'.Stamped ∧
      (d'.state = d.state → d.Steady d') ∧
      (c'.Plain ↔ ∀ a, present t'.candidates k = some a → a.Plain) := by
  have hs' := t.sweep_remembersSeconds cfg h hs hn
  have hr := (emission_eq_some (t.wellKeyed cfg h) he).2.1
  have hr' := (emission_eq_some (t'.wellKeyed cfg (t.sweep_wellFormed cfg h)) he').2.1
  obtain ⟨d, hd, ht, _⟩ := emission_cases he
  obtain ⟨d', hd', ht', _⟩ := emission_cases he'
  have hst := t.transition_stamped hs ht hn
  have hmem := t.lookup_next_prior t' cfg h he hd hst
  have hhere : (present t'.candidates k).isSome = (present t.candidates k).isSome := by
    rw [← Option.isSome_map (f := BackendCandidate.recorded), hsame, Option.isSome_map]
  have hrec := Tick.recorded_next hsame hmem he he'
  refine ⟨d, d', ⟨hrec.1, hr, hr', hd, hd'⟩, ht.owned, ht'.owned,
    t'.transition_stamped hs' ht' hn', ?_, hrec.2⟩
  rw [hmem, hhere] at ht'
  cases hnp : needsPriorState cfg with
  | true =>
    rw [hnp, if_pos rfl] at ht'
    exact ht.steady ht'
  | false =>
    rw [hnp] at ht'
    rw [Tick.prior, Visit.lookup_prior, hnp] at ht
    exact fun _ => ht.steady_fresh ht' (needsPriorState_eq_false hnp).2.1

theorem written_lastChange (stamp : Time) (b : AdvertisedBackend) (r : Record) :
    (written stamp b (some r)).status.lastChange =
      if statusChanged r.status b.status then some stamp.truncate
      else r.status.lastChange.map Time.truncate := by
  change (if _ then _ else _ : Option Time).map _ = _
  split
  · rfl
  · rfl

theorem written_lastChange_stored (stamp : Time) (b : AdvertisedBackend) (o : Option Record) :
    (written stamp b o).status.lastChange.map Time.truncate =
      (written stamp b o).status.lastChange := by
  cases o with
  | none => exact congrArg some (Time.truncate_truncate stamp)
  | some r =>
    rw [written_lastChange]
    split
    · exact congrArg some (Time.truncate_truncate stamp)
    · rw [Option.map_map]
      congr 1
      funext t
      exact t.truncate_truncate

end Ticks

/-- Successful sweeps from an empty store, at whole seconds that never go back, each under the
config of its time. -/
structure Sweeps (F : Type) where
  cfg : Nat → BGPStabilityConfigSpec
  tick : Nat → Tick F
  whole : ∀ n, (tick n).now.Whole
  ordered : ∀ n, (tick n).now.ns ≤ (tick (n + 1)).now.ns

section Sweeps

variable {F : Type} [Float64 F]

def Sweeps.store (r : Sweeps F) : Nat → Records
  | 0 => ∅
  | n + 1 => (r.tick n).sweep (r.cfg n) (r.store n)

theorem Sweeps.store_wellFormed (r : Sweeps F) (n : Nat) : (r.store n).WellFormed := by
  induction n with
  | zero => exact .empty
  | succ n ih => exact (r.tick n).sweep_wellFormed (r.cfg n) ih

theorem Sweeps.store_remembersSeconds (r : Sweeps F) (n : Nat) :
    (r.store n).RemembersSeconds F := by
  induction n with
  | zero =>
    intro k p hp
    rw [Sweeps.store, Records.prior, AList.lookup_empty] at hp
    cases hp
  | succ n ih =>
    exact (r.tick n).sweep_remembersSeconds _ (r.store_wellFormed n) ih (r.whole n)

/-- Between sweeps `n` and `n + 1` nothing about the key changes but the time. -/
structure Sweeps.Quiet (r : Sweeps F) (k : String) (n : Nat) : Prop where
  cfg : r.cfg (n + 1) = r.cfg n
  policies : (r.tick n).policies.Perm (r.tick (n + 1)).policies
  accepted : ∀ c ∈ (r.tick n).candidates, c.name = k → c.rejected = false
  accepted' : ∀ c ∈ (r.tick (n + 1)).candidates, c.name = k → c.rejected = false
  same : (present (r.tick (n + 1)).candidates k).map BackendCandidate.recorded =
    (present (r.tick n).candidates k).map BackendCandidate.recorded

/-- On a quiet sweep the date of a record's last change moves just when its state does, unless
the key's candidate has a slice that is allocated but empty: then it moves every time. -/
theorem lastChange_moves_with_state (r : Sweeps F) (hq : r.Quiet k n)
    (hb : (r.store (n + 1)).lookup k = some b)
    (he : ∃ c ∈ (r.tick (n + 1)).emitted (r.cfg (n + 1)) (r.store (n + 1)), c.name = k) :
    ∃ b', (r.store (n + 2)).lookup k = some b' ∧
      ((∀ a, present (r.tick (n + 1)).candidates k = some a → a.Plain) →
        b'.status.lastChange = if b'.status.state ≠ b.status.state
          then some (r.tick (n + 1)).stamp.truncate else b.status.lastChange) ∧
      ((∃ a, present (r.tick (n + 1)).candidates k = some a ∧ ¬ a.Plain) →
        b'.status.lastChange = some (r.tick (n + 1)).stamp.truncate) := by
  have hwf := r.store_wellFormed n
  have hwf' := r.store_wellFormed (n + 1)
  have hlookup := (r.tick n).lookup_sweep (r.cfg n) hwf hq.accepted
  have hlookup' := (r.tick (n + 1)).lookup_sweep (r.cfg (n + 1)) hwf' hq.accepted'
  -- the record is there, so the key was emitted, and it is emitted again
  obtain ⟨c, hc, rfl⟩ := Option.map_eq_some_iff.1 (hlookup.symm.trans hb)
  obtain ⟨c', hmem, hname⟩ := he
  have hc' : (r.tick (n + 1)).emission (r.cfg (n + 1)) (r.store (n + 1)) k = some c' := by
    have hf := List.mem_filter (p := fun c => c.name == k).2 ⟨hmem, beq_iff_eq.2 hname⟩
    rw [(r.tick (n + 1)).filter_emitted_of_accepted _ hwf' hq.accepted'] at hf
    exact Option.mem_toList.1 hf
  rw [hc', hb, Option.map_some] at hlookup'
  refine ⟨_, hlookup', ?_⟩
  rw [written_lastChange, written_lastChange_stored, written_state]
  rw [hq.cfg] at hc'
  obtain ⟨d, d', hsb, hv, hv', hst, hsteady, hplain⟩ := Tick.sameBackend hwf
    (r.store_remembersSeconds n) (r.whole n) (r.whole (n + 1)) hq.same hc hc'
  constructor
  · intro hp
    have hchanged := hsb.statusChanged_iff hv hv' hsteady hst hq.policies (hplain.2 hp)
      (r.tick n).stamp ((r.store n).lookup k)
    simp only [hchanged]
  · rintro ⟨a, ha, hna⟩
    rw [if_pos]
    exact statusChanged_of_not_plain (fun hp => hna (hplain.1 hp a ha)) _ _ _ _

end Sweeps

theorem clock_le (h : m ≤ n) : (clock m).ns ≤ (clock n).ns := by
  simp only [clock, second]
  omega

theorem whole_of_clock {t : Time} (h : t = clock n) : t.Whole :=
  h ▸ clock_whole n

theorem le_of_clock {t u : Time} (ht : t = clock (n * 5)) (hu : u = clock ((n + 1) * 5)) :
    t.ns ≤ u.ns := by
  rw [ht, hu]
  apply clock_le
  omega

def seenSweeps (cfg : BGPStabilityConfigSpec) (tick : Nat → Tick Rat)
    (hnow : ∀ n, (tick n).now = clock n) : Sweeps Rat where
  cfg _ := cfg
  tick n := tick (n * 5)
  whole n := whole_of_clock (hnow (n * 5))
  ordered n := le_of_clock (hnow (n * 5)) (hnow ((n + 1) * 5))

theorem seenSweeps_quiet {tick : Nat → Tick Rat} {hnow : ∀ n, (tick n).now = clock n}
    (hpolicies : ∀ n, (tick n).policies = []) (hcandidates : ∀ n, (tick n).candidates = [c])
    (hc : c.rejected = false) (k : String) (n : Nat) : (seenSweeps cfg tick hnow).Quiet k n where
  cfg := rfl
  policies := by
    simp only [seenSweeps, hpolicies]
    exact .refl _
  accepted a ha _ := by
    simp only [seenSweeps, hcandidates, List.mem_singleton] at ha
    exact ha ▸ hc
  accepted' a ha _ := by
    simp only [seenSweeps, hcandidates, List.mem_singleton] at ha
    exact ha ▸ hc
  same := by simp only [seenSweeps, hcandidates]

/-- The route is Pending in the first sweep and Active in the second. -/
def settlingSweeps : Sweeps Rat :=
  seenSweeps ⟨none, some (.seconds 5), none⟩ (fun n => sampleTick n .accepted) fun _ => rfl

theorem lastChange_moves_with_state_settling :
    ∃ b b', (settlingSweeps.store 1).lookup "10-0-0-0-24-edge" = some b ∧
      (settlingSweeps.store 2).lookup "10-0-0-0-24-edge" = some b' ∧
      b.status.state = .pending ∧ b'.status.state = .active ∧
      b'.status.lastChange = some (clock 5).truncate := by
  have hq : settlingSweeps.Quiet "10-0-0-0-24-edge" 0 :=
    seenSweeps_quiet (fun _ => rfl) (fun _ => rfl) rfl _ 0
  have hpending : ((settlingSweeps.store 1).lookup "10-0-0-0-24-edge").map (·.status.state) =
      some .pending := by
    decide +kernel
  have hactive : ((settlingSweeps.store 2).lookup "10-0-0-0-24-edge").map (·.status.state) =
      some .active := by
    decide +kernel
  have he : ∃ c ∈ (settlingSweeps.tick 1).emitted (settlingSweeps.cfg 1) (settlingSweeps.store 1),
      c.name = "10-0-0-0-24-edge" := by
    decide +kernel
  have hplain : ∀ a, present (settlingSweeps.tick 1).candidates "10-0-0-0-24-edge" = some a →
      a.Plain := by
    intro a ha
    cases ha
    exact ⟨rfl, rfl⟩
  obtain ⟨b, hb, hstate⟩ := Option.map_eq_some_iff.1 hpending
  obtain ⟨b', hb', heq, _⟩ := lastChange_moves_with_state settlingSweeps hq hb he
  have hstate' : b'.status.state = .active := by
    rw [hb'] at hactive
    exact Option.some.inj hactive
  have hmoved := heq hplain
  rw [hstate, hstate', if_pos (by decide)] at hmoved
  exact ⟨b, b', hb, hb', hstate, hstate', hmoved⟩

/-- The route carries the large communities attribute, with no community in it. -/
def emptiedTick (n : Nat) : Tick Rat where
  now := clock n
  rib :=
    { routes := [{ sampleRoute with largeCommunities := .made [] }]
      ipv4 := by decide
      distinct := by decide }
  bindings := [sampleBinding]
  cm := none
  candidates := [{ sampleCandidate with largeCommunities := .made [] }]
  settled := rfl
  policies := []
  stamp := clock n
  visit := .asListed Rat

def emptiedSweeps : Sweeps Rat :=
  seenSweeps emptyStabilityConfig emptiedTick fun _ => rfl

/-- Nothing changes, the backend stays `Active`, and yet its last change is dated anew. -/
theorem lastChange_moves_without_state :
    emptiedSweeps.Quiet "10-0-0-0-24-edge" 0 ∧
      ((emptiedSweeps.store 1).lookup "10-0-0-0-24-edge").map
          (fun b => (b.status.state, b.status.lastChange)) = some (.active, some (clock 0)) ∧
      ((emptiedSweeps.store 2).lookup "10-0-0-0-24-edge").map
          (fun b => (b.status.state, b.status.lastChange)) = some (.active, some (clock 5)) := by
  refine ⟨seenSweeps_quiet (fun _ => rfl) (fun _ => rfl) rfl _ 0, ?_, ?_⟩
  · decide +kernel
  · decide +kernel

end Kreg
