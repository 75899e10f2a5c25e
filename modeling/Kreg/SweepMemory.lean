import Kreg.Coherence
import Kreg.Counting
import Kreg.FlapAccounting
import Kreg.SecondLook
import Kreg.SweepRuns

namespace Kreg
set_option autoImplicit true

variable {F : Type} [Float64 F]

section Times

omit [Float64 F] in
structure DampingInfo.Timed (d : DampingInfo F) (P : Time → Prop) : Prop where
  observed : P d.lastObservedAt
  withdrawn : ∀ t ∈ d.withdrawnAt, P t
  suppressed : ∀ t ∈ d.suppressedSince, P t
  pending : ∀ t ∈ d.pendingSince, P t

variable {P Q : Time → Prop} {d : DampingInfo F}

omit [Float64 F] in
theorem DampingInfo.Timed.mono (h : d.Timed P) (hPQ : ∀ t, P t → Q t) : d.Timed Q where
  observed := hPQ _ h.observed
  withdrawn t ht := hPQ t (h.withdrawn t ht)
  suppressed t ht := hPQ t (h.suppressed t ht)
  pending t ht := hPQ t (h.pending t ht)

theorem newCandidateDamping_timed (hn : P now) (delay : Duration) :
    (newCandidateDamping now delay : DampingInfo F).Timed P := by
  rw [newCandidateDamping]
  split
  · exact ⟨hn, forall_mem_none, forall_mem_none, forall_mem_none⟩
  · refine ⟨hn, forall_mem_none, forall_mem_none, ?_⟩
    intro t ht
    cases ht
    exact hn

theorem DampingInfo.Timed.suppresses (h : d.Timed P) (hn : P now) {score : F} {s : Suppression F}
    (hs : Suppresses now score d.suppressedSince dampening s) : ∀ t ∈ s.suppressedSince, P t := by
  intro t ht
  rcases hs.since_mem t ht with rfl | ht
  · exact hn
  · exact h.suppressed t ht

theorem Transition.timed (h : Transition now cfg prev here d) (hn : P now)
    (hp : ∀ p ∈ prev, p.Timed P) : d.Timed P := by
  cases h with
  | fresh => exact newCandidateDamping_timed hn _
  | @settling p =>
    refine ⟨hn, forall_mem_none, forall_mem_none, ?_⟩
    intro t ht
    cases ht
    rw [DampingInfo.pendingFrom]
    cases hs : p.pendingSince with
    | none => exact (hp p rfl).observed
    | some u => exact (hp p rfl).pending u hs
  | @observed p =>
    exact ⟨hn, forall_mem_none, (hp p rfl).suppresses hn (suppressionState_suppresses _ _ _ _),
      forall_mem_none⟩
  | @held p =>
    refine ⟨hn, ?_, (hp p rfl).suppresses hn (suppressionState_suppresses _ _ _ _),
      forall_mem_none⟩
    intro t ht
    cases ht
    cases hw : p.withdrawnAt with
    | none => exact hn
    | some u => exact (hp p rfl).withdrawn u hw

theorem DampingInfo.restored_timed (h : d.Timed P) :
    d.restored.Timed fun t => ∃ u, P u ∧ t = u.truncate := by
  have hmap {o : Option Time} (ho : ∀ t ∈ o, P t) :
      ∀ t ∈ (metaTimeOrNil o).map Time.truncate, ∃ u, P u ∧ t = u.truncate := by
    intro t ht
    obtain ⟨u, hu, rfl⟩ := Option.map_eq_some_iff.1 ht
    obtain ⟨v, hv, hmeta⟩ := Option.bind_eq_some_iff.1 hu
    rw [metaTime] at hmeta
    split at hmeta
    · cases hmeta
    · cases hmeta
      exact ⟨u, ho u hv, rfl⟩
  exact ⟨⟨_, h.observed, rfl⟩, hmap h.withdrawn, hmap h.suppressed, hmap h.pending⟩

theorem DampingInfo.restored_shaped (h : d.Shaped now here) (ht : d.Timed Time.Storable) :
    d.restored.Shaped now.truncate here := by
  have hsome {o : Option Time} (ho : ∀ t ∈ o, t.Storable) :
      ((metaTimeOrNil o).map Time.truncate).isSome = o.isSome := by
    rw [metaTimeOrNil_storable ho, Option.isSome_map]
  refine ⟨h.state, ?_, ?_, ?_, h.held, congrArg Time.truncate h.observed⟩
  · exact (hsome ht.suppressed).symm ▸ h.suppressed
  · exact (hsome ht.pending).symm ▸ h.pending
  · exact (hsome ht.withdrawn).symm ▸ h.withdrawn

end Times

section Coherence

variable (r : SweepRun F)

def SweepRun.Clocked : Prop :=
  ∀ n, ((r.tick n).now).Storable

/-- A verdict of the sweep at `i`, as its record has it: it is about what that sweep saw, and its
times are those of sweeps up to it. -/
structure SweepRun.Fits (k : String) (i : Nat) (d : DampingInfo F) : Prop where
  shaped : d.Shaped (r.tick i).now.truncate (present (r.tick i).candidates k).isSome
  timed : d.Timed fun t => ∃ j ≤ i, t = (r.tick j).now.truncate

variable {r}

theorem SweepRun.fits_sweep (hclock : r.Clocked) {s : Records} (hs : s.WellFormed)
    (ih : ∀ p, s.prior k = some p → ∃ i < n, r.Fits k i p.damping)
    (hp : ((r.tick n).sweep (r.cfg n) s).prior k = some p) : r.Fits k n p.damping := by
  rw [(r.tick n).prior_sweep (r.cfg n) hs] at hp
  obtain ⟨c, hc, hmem⟩ := Option.bind_eq_some_iff.1 hp
  obtain ⟨d, hd, ht, _⟩ := emission_cases hc
  have htimed : d.Timed fun t => t = (r.tick n).now ∨ ∃ j < n, t = (r.tick j).now.truncate := by
    apply ht.timed (.inl rfl)
    intro q hq
    obtain ⟨p', hp', rfl⟩ := Option.map_eq_some_iff.1 hq
    obtain ⟨i, hi, hfits⟩ := ih p' (Visit.prior_of_lookup hp')
    apply hfits.timed.mono
    rintro t ⟨j, hj, rfl⟩
    exact .inr ⟨j, hj.trans_lt hi, rfl⟩
  have hstorable : d.Timed Time.Storable := by
    apply htimed.mono
    rintro t (rfl | ⟨j, _, rfl⟩)
    · exact hclock n
    · exact (hclock j).truncate
  rw [BackendCandidate.memory, hd, Option.bind_some,
    DampingInfo.kept_eq_restored hstorable.observed.isZero_eq] at hmem
  cases hmem
  refine ⟨DampingInfo.restored_shaped ht.shaped hstorable, ?_⟩
  apply (DampingInfo.restored_timed htimed).mono
  rintro t ⟨u, rfl | ⟨j, hj, rfl⟩, rfl⟩
  · exact ⟨n, le_rfl, rfl⟩
  · exact ⟨j, hj.le, Time.truncate_truncate _⟩

theorem SweepRun.fits (hclock : r.Clocked) (hstart : r.start = ∅)
    (hp : (r.store n).prior k = some p) : ∃ i < n, r.Fits k i p.damping := by
  induction n generalizing p with
  | zero =>
    rw [SweepRun.store, hstart] at hp
    cases hp
  | succ n ih =>
    have hs := r.store_wellFormed n
    rcases (r.store_cut hs).2 k with hold | hnew | ⟨hnone, _⟩
    · obtain ⟨i, hi, h⟩ := ih (hold.symm.trans hp)
      exact ⟨i, hi.trans n.lt_succ_self, h⟩
    · exact ⟨n, n.lt_succ_self, SweepRun.fits_sweep hclock hs (fun p => ih) (hnew.symm.trans hp)⟩
    · cases hnone.symm.trans hp

/-- Whatever calls fail in whatever sweeps, and however the configuration changes between them:
each record that remembers a verdict has one that an earlier sweep gave. It has the times of its
state and no others, all of them of sweeps that had been; and it is marked as withdrawn if and
only if that sweep did not see the backend accepted. -/
theorem SweepRun.memory_coherent (r : SweepRun F) (hclock : r.Clocked) (hstart : r.start = ∅)
    {p : PriorState F} (hp : (r.store n).prior k = some p) :
    ∃ i < n, p.damping.lastObservedAt = (r.tick i).now.truncate ∧
      (∀ t, p.damping.withdrawnAt = some t ∨ p.damping.suppressedSince = some t ∨
        p.damping.pendingSince = some t → ∃ j ≤ i, t = (r.tick j).now.truncate) ∧
      (p.damping.state = .active ∨ p.damping.state = .pending ∨ p.damping.state = .holdDown ∨
        p.damping.state = .dampened) ∧
      (p.damping.suppressedSince.isSome = true ↔ p.damping.state = .dampened) ∧
      (p.damping.pendingSince.isSome = true ↔ p.damping.state = .pending) ∧
      (p.damping.state = .holdDown → p.damping.withdrawnAt.isSome = true) ∧
      (p.damping.withdrawnAt.isSome = true ↔
        ∀ c ∈ (r.tick i).candidates, c.name = k → c.rejected = true) := by
  obtain ⟨i, hi, hshaped, htimed⟩ := r.fits hclock hstart hp
  refine ⟨i, hi, hshaped.observed, ?_, hshaped.state, hshaped.suppressed, hshaped.pending,
    fun h => hshaped.withdrawn.2 (hshaped.held h), ?_⟩
  · rintro t (ht | ht | ht)
    · exact htimed.withdrawn t ht
    · exact htimed.suppressed t ht
    · exact htimed.pending t ht
  · rw [hshaped.withdrawn, ← Bool.not_eq_true, present_isSome]
    constructor
    · intro h c hc hname
      by_contra hrej
      exact h ⟨c, hc, Bool.eq_false_of_not_eq_true hrej, hname⟩
    · rintro h ⟨c, hc, hacc, hname⟩
      cases hacc.symm.trans (h c hc hname)

end Coherence

/-- A flap under a dampening that is turned on late, and a sweep that fails over it. -/
def lateRun : SweepRun Rat where
  start := ∅
  wellFormed := .empty
  tick n := sampleTick (n * 5) (if n = 1 then .gone else .accepted)
  cfg n := ⟨some (.seconds 30), none, if n = 0 then none else
    some ⟨true, none, some 1000, none, none⟩⟩
  snapshotError _ := none
  faults n := if n = 3 then [false, false, true] else []

theorem memory_coherent_late : ∃ p : PriorState Rat,
    (lateRun.store 4).prior "10-0-0-0-24-edge" = some p ∧ p.damping.state = .dampened ∧
      p.damping.suppressedSince.isSome = true ∧
      ∃ i < 4, p.damping.lastObservedAt = (lateRun.tick i).now.truncate := by
  have hclock : lateRun.Clocked := fun n => (clock_whole (n * 5)).storable
  have hdampened : ((lateRun.store 4).prior "10-0-0-0-24-edge" : Option (PriorState Rat)).map
      (fun p => p.damping.state) = some .dampened := by
    decide +kernel
  obtain ⟨p, hp, hstate⟩ := Option.map_eq_some_iff.1 hdampened
  obtain ⟨i, hi, hseen, _, _, hsuppressed, _⟩ := lateRun.memory_coherent hclock rfl hp
  exact ⟨p, hp, hstate, hsuppressed.2 hstate, i, hi, hseen⟩

section Forgetting

/-- The two runs see the same candidates at the same times, under the same configuration. -/
structure SweepRun.Alike (r r' : SweepRun F) : Prop where
  now : ∀ n, (r.tick n).now = (r'.tick n).now
  candidates : ∀ n, (r.tick n).candidates = (r'.tick n).candidates
  cfg : ∀ n, r.cfg n = r'.cfg n

variable {r r' : SweepRun F}

theorem SweepRun.Alike.emission_eq (h : r.Alike r') (hk : (r.store n).prior k =
    ((r'.store n).prior k : Option (PriorState F)) ∨ needsPriorState (r.cfg n) = false) :
    (r.tick n).emission (r.cfg n) (r.store n) k =
      (r'.tick n).emission (r'.cfg n) (r'.store n) k := by
  have hlookup : ((r.tick n).prior (r.cfg n) (r.store n)).lookup k =
      ((r'.tick n).prior (r'.cfg n) (r'.store n)).lookup k := by
    rw [Tick.prior, Tick.prior, Visit.lookup_prior, Visit.lookup_prior, ← h.cfg]
    rcases hk with hk | hoff
    · rw [hk]
    · rw [hoff]
      rfl
  rw [Tick.emission, Tick.emission, h.now, h.candidates, h.cfg, emission_congr (h.cfg n ▸ hlookup)]

theorem SweepRun.Alike.prior_eq (h : r.Alike r') (hmn : m < n)
    (hoff : needsPriorState (r.cfg m) = false) (hr : ∀ i, m ≤ i → i < n → r.Returns i)
    (hr' : ∀ i, m ≤ i → i < n → r'.Returns i) (k : String) :
    (r.store n).prior k = ((r'.store n).prior k : Option (PriorState F)) := by
  have hstep {i : Nat} (hi : r.Returns i) (hi' : r'.Returns i)
      (hk : (r.store i).prior k = ((r'.store i).prior k : Option (PriorState F)) ∨
        needsPriorState (r.cfg i) = false) :
      (r.store (i + 1)).prior k = ((r'.store (i + 1)).prior k : Option (PriorState F)) := by
    rw [r.store_of_returns hi, r'.store_of_returns hi',
      (r.tick i).prior_sweep _ (r.store_wellFormed i),
      (r'.tick i).prior_sweep _ (r'.store_wellFormed i), h.emission_eq hk]
  induction n, hmn using Nat.le_induction with
  | base => exact hstep (hr m le_rfl m.lt_succ_self) (hr' m le_rfl m.lt_succ_self) (.inr hoff)
  | succ n hmn ih =>
    have hn : m ≤ n := Nat.le_of_succ_le hmn
    apply hstep (hr n hn n.lt_succ_self) (hr' n hn n.lt_succ_self)
    exact .inl (ih (fun i hi hin => hr i hi (Nat.lt_succ_of_lt hin))
      (fun i hi hin => hr' i hi (Nat.lt_succ_of_lt hin)))

/-- One whole sweep with no delay, grace or dampening configured, and nothing of what went before
counts any more: two runs that differ in their records, their failures, the times they stamp and
the order maps are visited in give the same verdicts from there on, as long as they return. -/
theorem SweepRun.Alike.forgets (h : r.Alike r') (hmn : m < n)
    (hoff : needsPriorState (r.cfg m) = false) (hr : ∀ i, m ≤ i → i < n → r.Returns i)
    (hr' : ∀ i, m ≤ i → i < n → r'.Returns i) :
    ((r.tick n).emitted (r.cfg n) (r.store n)).Perm
      ((r'.tick n).emitted (r'.cfg n) (r'.store n)) := by
  apply Counting.perm_of_filter BackendCandidate.name
  intro k
  rw [(r.tick n).filter_emitted _ (r.store_wellFormed n),
    (r'.tick n).filter_emitted _ (r'.store_wellFormed n), h.candidates,
    h.emission_eq (.inl (h.prior_eq hmn hoff hr hr' k))]

theorem SweepRun.returns_of_faultless (he : r.snapshotError n = none) (hf : r.faults n = []) :
    r.Returns n := by
  have hreturns := (r.tick n).sweep_returns (r.cfg n) (r.store n)
  rw [SweepRun.Returns, Attempt.Succeeds, Attempt.run, SweepRun.attempt, hf, SweepRun.snapshot, he]
  exact congrArg Prod.fst hreturns

end Forgetting

/-- A flap, and then a sweep with everything turned off. -/
def clearedRun (faults : Nat → List Bool) : SweepRun Rat where
  start := ∅
  wellFormed := .empty
  tick n := sampleTick (n * 5) (if n = 1 then .gone else .accepted)
  cfg n := if n = 3 then ⟨none, none, none⟩ else
    ⟨some (.seconds 30), none, some ⟨true, none, some 1000, none, none⟩⟩
  snapshotError _ := none
  faults := faults

/-- The one run has seen the flap; in the other no sweep before has got anywhere. -/
theorem forgets_cleared :
    (((clearedRun fun _ => []).tick 5).emitted ((clearedRun fun _ => []).cfg 5)
        ((clearedRun fun _ => []).store 5)).Perm
      (((clearedRun fun n => if n < 3 then [true] else []).tick 5).emitted
        ((clearedRun fun n => if n < 3 then [true] else []).cfg 5)
        ((clearedRun fun n => if n < 3 then [true] else []).store 5)) := by
  have halike : (clearedRun fun _ => []).Alike (clearedRun fun n => if n < 3 then [true] else []) :=
    ⟨fun _ => rfl, fun _ => rfl, fun _ => rfl⟩
  apply halike.forgets (show 3 < 5 by decide) rfl
  · exact fun i _ _ => SweepRun.returns_of_faultless rfl rfl
  · exact fun i hi _ => SweepRun.returns_of_faultless rfl (if_neg (Nat.not_lt.2 hi))

end Kreg
