import Kreg.SweepRuns
import Kreg.Trust

namespace Kreg
set_option autoImplicit true

variable {F : Type} [Float64 F]

section Extend

def SweepRun.extend (q : SweepRun F) (j : Nat) (t : Tick F) (cfg : BGPStabilityConfigSpec)
    (snapshotError : Option String) (faults : List Bool) : SweepRun F where
  start := q.start
  wellFormed := q.wellFormed
  tick := Function.update q.tick j t
  cfg := Function.update q.cfg j cfg
  snapshotError := Function.update q.snapshotError j snapshotError
  faults := Function.update q.faults j faults

variable (q : SweepRun F) (j : Nat) (t : Tick F) (cfg : BGPStabilityConfigSpec)
  (snapshotError : Option String) (faults : List Bool)

theorem SweepRun.extend_attempt_error (s : Records) (e : String) :
    (q.extend j t cfg (some e) faults).attempt j s =
      ⟨t.stamp, .error e, t.policies, faults⟩ := by
  simp only [SweepRun.attempt, SweepRun.snapshot, SweepRun.extend, Function.update_self]

theorem SweepRun.extend_attempt_ok (s : Records) :
    (q.extend j t cfg none faults).attempt j s =
      ⟨t.stamp, .ok (t.emitted cfg s), t.policies, faults⟩ := by
  simp only [SweepRun.attempt, SweepRun.snapshot, SweepRun.extend, Function.update_self,
    t.sourceSnapshot_eq]

theorem SweepRun.extend_attempt_of_ne (s : Records) (h : i ≠ j) :
    (q.extend j t cfg snapshotError faults).attempt i s = q.attempt i s := by
  simp only [SweepRun.attempt, SweepRun.snapshot, SweepRun.extend, Function.update_of_ne h]

theorem SweepRun.extend_store (h : i ≤ j) :
    (q.extend j t cfg snapshotError faults).store i = q.store i := by
  induction i with
  | zero => rfl
  | succ i ih =>
    rw [SweepRun.store, SweepRun.store, ih (Nat.le_of_succ_le h),
      q.extend_attempt_of_ne _ _ _ _ _ _ (Nat.ne_of_lt h)]

theorem SweepRun.extend_store_succ :
    (q.extend j t cfg snapshotError faults).store (j + 1) =
      ((q.extend j t cfg snapshotError faults).attempt j (q.store j)).leaves (q.store j) := by
  rw [SweepRun.store, q.extend_store _ _ _ _ _ le_rfl]

end Extend

section Ticks

def idleTick : Tick F where
  now := ⟨second⟩
  rib := ⟨[], List.forall_mem_nil _, List.nodup_nil⟩
  bindings := []
  cm := none
  candidates := []
  settled := rfl
  policies := []
  stamp := ⟨second⟩
  visit := .asListed F

omit [Float64 F] in
theorem settle_of_ok (ha : authorize routes bindings = .ok authorized)
    (hn : normalize authorized cm = .ok candidates) :
    settle routes bindings cm = .ok (candidates : List (BackendCandidate F)) := by
  simp only [settle, readOr, ha, hn]

theorem loadPrior_of_listPrior {items items' : List AdvertisedBackend}
    (h : listPrior spec backends = .ok items)
    (hb : needsPriorState spec = true → ∀ l, backends = .ok l → l = items') :
    loadPrior (F := F) spec items = loadPrior spec items' := by
  rw [loadPrior, loadPrior]
  rw [listPrior] at h
  split at h
  · next hon => rw [hb hon items (readOr_ok h)]
  · next hoff => rw [if_neg hoff, if_neg hoff]

def SourceReads.NeedsRecords (reads : SourceReads) : Prop :=
  ∃ what found, optionalRead what reads.stabilityConfig = .ok found ∧
    needsPriorState (found.getD emptyStabilityConfig) = true

structure TakenFrom (reads : SourceReads) (t : Tick F) (cfg : BGPStabilityConfigSpec) : Prop where
  routes : reads.routes = .ok t.rib.routes
  bindings : ∃ peerConfigs, reads.peerConfigs = .ok peerConfigs ∧
    t.bindings = peerConfigs.flatten
  cm : ∃ what, optionalRead what reads.communityMap = .ok t.cm
  cfg : ∃ what found, optionalRead what reads.stabilityConfig = .ok found ∧
    cfg = found.getD emptyStabilityConfig

/-- A snapshot that returns, over the records it was begun on, is a tick. -/
theorem exists_tick_of_snapshot {reads : SourceReads} (v : Visit F)
    {out : List (BackendCandidate F)} {s : Records}
    (h : sourceSnapshot now reads v.order = .ok out)
    (hrib : ∀ routes, reads.routes = .ok routes → ∃ rib : RIB, rib.routes = routes)
    (hbackends : reads.NeedsRecords → ∀ items, reads.backends = .ok items → items = s.listManaged)
    (stamp : Time) (policies : List BGPBackendPolicy) :
    ∃ (t : Tick F) (cfg : BGPStabilityConfigSpec), out = t.emitted cfg s ∧ t.now = now ∧
      t.stamp = stamp ∧ t.visit = v ∧ t.policies = policies ∧ TakenFrom reads t cfg := by
  obtain ⟨routes, peerConfigs, authorized, cm, candidates, found, items, hr, hp, ha, hcm, hn, hf,
    hl, rfl⟩ := sourceSnapshot_returned h
  obtain ⟨rib, rfl⟩ := hrib routes hr
  refine ⟨⟨now, rib, peerConfigs.flatten, cm, candidates, settle_of_ok ha hn, policies, stamp, v⟩,
    found.getD emptyStabilityConfig, ?_, rfl, rfl, rfl, rfl,
    ⟨hr, ⟨peerConfigs, hp, rfl⟩, ⟨_, hcm⟩, ⟨_, found, hf, rfl⟩⟩⟩
  rw [loadPrior_of_listPrior hl fun hon => hbackends ⟨_, found, hf, hon⟩]
  rfl

end Ticks

section Runs

variable [SecondsCast]

/-- A sweep that needs the records it starts from lists them after the sweep before it is over. -/
def SystemRun.Rereads (r : SystemRun F) : Prop :=
  ∀ n now stamp visit, r.event n = .beginSweep now stamp visit →
    ((r.state n).reads .report).NeedsRecords →
      ∃ m < n, (∃ fault, r.event m = .read .report .backends fault) ∧
        ∀ i, m < i → i < n → ∀ faults, r.event i ≠ .sweep faults

variable {r : SystemRun F}

def System.Listed (s : System F) : Prop :=
  ∀ items, (s.reads .report).backends = .ok items → items = s.records.listManaged

omit [Float64 F] [SecondsCast] in
theorem System.read_backends (s : System F) (what : SnapshotRead) (fault : Option String)
    (reads : SourceReads) :
    (s.read what fault reads).backends = reads.backends ∨
      (s.read what fault reads).backends = readOutcome fault s.records.listManaged := by
  cases what with
  | backends => exact .inr rfl
  | _ => exact .inl rfl

omit [Float64 F] [SecondsCast] in
theorem readOutcome_ok {found : α} (h : readOutcome fault found = .ok a) : a = found := by
  cases fault with
  | some e => cases h
  | none =>
    cases h
    rfl

theorem System.Listed.step {s : System F} (h : s.Listed) {e : SystemEvent F}
    (he : ∀ faults, e ≠ .sweep faults) (namespaceName : String) :
    (e.step namespaceName s).Listed := by
  intro items hitems
  have hrecords : (e.step namespaceName s).records = s.records := by
    rcases e.step_records namespaceName s with hsame | ⟨w, faults, hsweep, _⟩
    · exact hsame
    · exact absurd hsweep (he faults)
  rw [hrecords]
  rcases e.step_reads namespaceName s .report with hsame | ⟨what, fault, hread⟩
  · exact h items (hsame ▸ hitems)
  · rw [hread] at hitems
    rcases s.read_backends what fault (s.reads .report) with hold | hnew
    · exact h items (hold ▸ hitems)
    · exact readOutcome_ok (hnew ▸ hitems)

theorem SystemRun.listed (hread : r.event m = .read .report .backends fault) (hmn : m < n)
    (hnone : ∀ i, m < i → i < n → ∀ faults, r.event i ≠ .sweep faults) : (r.state n).Listed := by
  induction n, hmn using Nat.le_induction with
  | base =>
    intro items hitems
    rw [SystemRun.state, hread] at hitems ⊢
    simp only [SystemEvent.step, Function.update_self] at hitems
    exact readOutcome_ok hitems
  | succ n hmn ih =>
    rw [SystemRun.state]
    apply (ih fun i hi hin => hnone i hi (Nat.lt_succ_of_lt hin)).step
    exact hnone n hmn n.lt_succ_self

variable (r)

/-- What the tick is about was there at moments up to `c`, each part at its own. -/
structure SystemRun.Supplies (c : Nat) (t : Tick F) (cfg : BGPStabilityConfigSpec) : Prop where
  routes : ∃ a ≤ c, managerSnapshot (.ok (r.state a).table) = .ok t.rib.routes
  bindings : ∃ a ≤ c, t.bindings = (r.state a).allBindings
  cm : ∃ a ≤ c, t.cm = (r.state a).communityMap
  cfg : ∃ a ≤ c, cfg = (r.state a).stabilityConfig.getD emptyStabilityConfig
  policies : t.policies = (r.state c).policies

/-- The sweep at `i` is the one begun at moment `c`; or its snapshot failed. -/
def SystemRun.Begins (c : Nat) (q : SweepRun F) (i : Nat) : Prop :=
  ∃ now stamp visit, r.event c = .beginSweep now stamp visit ∧
    (q.snapshotError i = none → (q.tick i).now = now ∧ (q.tick i).stamp = stamp ∧
      (q.tick i).visit = visit ∧ r.Supplies c (q.tick i) (q.cfg i))

/-- The first `j` sweeps of the run `q` are sweeps of the process, in the order they were begun. -/
structure SystemRun.Serial (n : Nat) (q : SweepRun F) (j : Nat) (moment : Nat → Nat) : Prop where
  start : q.start = r.start.records
  before : ∀ i < j, moment i < n
  ordered : ∀ i i', i < i' → i' < j → moment i < moment i'
  begins : ∀ i < j, r.Begins (moment i) q i

def SystemRun.Serialised (n : Nat) (s : Records) : Prop :=
  ∃ q j moment, r.Serial n q j moment ∧ q.store j = s

variable {r}

theorem SystemRun.Serialised.mono (h : r.Serialised n s) (hnm : n ≤ m) : r.Serialised m s := by
  obtain ⟨q, j, moment, hq, hs⟩ := h
  exact ⟨q, j, moment, ⟨hq.start, fun i hi => (hq.before i hi).trans_le hnm, hq.ordered,
    hq.begins⟩, hs⟩

theorem SystemRun.Serial.extend {q : SweepRun F} (h : r.Serial c q j moment) {t : Tick F}
    (hb : r.Begins c (q.extend j t cfg snapshotError faults) j) :
    r.Serial (c + 1) (q.extend j t cfg snapshotError faults) (j + 1)
      (Function.update moment j c) := by
  have hold {i : Nat} (hi : i < j) : Function.update moment j c i = moment i :=
    Function.update_of_ne (Nat.ne_of_lt hi) _ _
  refine ⟨h.start, ?_, ?_, ?_⟩
  · intro i hi
    rcases Nat.lt_succ_iff_lt_or_eq.1 hi with hi | rfl
    · rw [hold hi]
      exact Nat.lt_succ_of_lt (h.before i hi)
    · rw [Function.update_self]
      exact c.lt_succ_self
  · intro i i' hii hi'
    rcases Nat.lt_succ_iff_lt_or_eq.1 hi' with hi' | rfl
    · rw [hold hi', hold (hii.trans hi')]
      exact h.ordered i i' hii hi'
    · rw [Function.update_self, hold hii]
      exact h.before i hii
  · intro i hi
    rcases Nat.lt_succ_iff_lt_or_eq.1 hi with hi | rfl
    · rw [hold hi]
      obtain ⟨now, stamp, visit, he, htick⟩ := h.begins i hi
      refine ⟨now, stamp, visit, he, ?_⟩
      simp only [SweepRun.extend, Function.update_of_ne (Nat.ne_of_lt hi)]
      exact htick
    · rw [Function.update_self]
      exact hb

/-- The sweep under way was begun at some moment, on records of a serial run, and any cut of it is
an attempt of such a run. -/
def SystemRun.Pending (r : SystemRun F) (n : Nat) (w : Sweeping F) : Prop :=
  ∀ faults, r.Serialised n (w.stage faults)

theorem SystemRun.Sees.supplies {reads : SourceReads} (h : r.Sees c reads) {t : Tick F}
    (ht : TakenFrom reads t cfg) (hp : t.policies = (r.state c).policies) : r.Supplies c t cfg where
  routes := h.routes _ ht.routes
  bindings := by
    obtain ⟨peerConfigs, hpeers, hbindings⟩ := ht.bindings
    obtain ⟨a, ha, hall⟩ := h.peerConfigs _ hpeers
    exact ⟨a, ha, hbindings.trans hall⟩
  cm := by
    obtain ⟨what, hcm⟩ := ht.cm
    exact h.communityMap what _ hcm
  cfg := by
    obtain ⟨what, found, hfound, rfl⟩ := ht.cfg
    obtain ⟨a, ha, rfl⟩ := h.stabilityConfig what _ hfound
    exact ⟨a, ha, rfl⟩
  policies := hp

theorem SystemRun.pending_begin (hkeyed : ∀ n, Keyed (r.state n).table)
    (hlisted : ((r.state c).reads .report).NeedsRecords → (r.state c).Listed)
    (he : r.event c = .beginSweep now stamp visit) (hs : r.Serialised c (r.state c).records) :
    r.Pending (c + 1) ⟨(r.state c).records, stamp, (r.state c).snapshot .report now visit,
      (r.state c).policies⟩ := by
  intro faults
  obtain ⟨q, j, moment, hq, hstore⟩ := hs
  cases hsnap : (r.state c).snapshot .report now visit with
  | error e =>
    refine ⟨q.extend j (q.tick j) (q.cfg j) (some e) faults, j + 1, _,
      hq.extend ⟨now, stamp, visit, he, ?_⟩, ?_⟩
    · simp only [SweepRun.extend, Function.update_self, reduceCtorEq, false_implies]
    · rw [q.extend_store_succ, q.extend_attempt_error, hstore]
      rfl
  | ok out =>
    have hsees := r.sees c .report
    have hrib : ∀ routes, ((r.state c).reads .report).routes = .ok routes →
        ∃ rib : RIB, rib.routes = routes := by
      intro routes hroutes
      obtain ⟨a, _, htable⟩ := hsees.routes routes hroutes
      exact (hkeyed a).rib htable
    obtain ⟨t, cfg, rfl, rfl, rfl, rfl, hpolicies, htaken⟩ :=
      exists_tick_of_snapshot visit hsnap hrib hlisted stamp (r.state c).policies
    refine ⟨q.extend j t cfg none faults, j + 1, _, hq.extend ⟨_, _, _, he, ?_⟩, ?_⟩
    · intro _
      simp only [SweepRun.extend, Function.update_self, true_and]
      exact hsees.supplies htaken hpolicies
    · rw [q.extend_store_succ, q.extend_attempt_ok, hstore, hpolicies]
      rfl

/-- What the process has in its records, and what any cut of its sweep would leave there. -/
structure SystemRun.Refines (r : SystemRun F) (n : Nat) (s : System F) : Prop where
  records : r.Serialised n s.records
  sweeping : ∀ w, s.sweeping = some w → r.Pending n w

theorem SystemRun.Refines.step (hkeyed : ∀ n, Keyed (r.state n).table) (hreads : r.Rereads)
    (h : r.Refines n (r.state n)) : r.Refines (n + 1) (r.state (n + 1)) := by
  refine ⟨?_, ?_⟩
  · rw [SystemRun.state]
    rcases (r.event n).step_records r.namespaceName (r.state n) with he | ⟨w, faults, _, hw, he⟩
    · rw [he]
      exact h.records.mono n.le_succ
    · rw [he]
      exact (h.sweeping w hw faults).mono n.le_succ
  · intro w hw
    rw [SystemRun.state] at hw
    rcases (r.event n).step_sweeping r.namespaceName (r.state n) with
      hsame | ⟨now, stamp, visit, he, hbegin⟩
    · rw [hsame] at hw
      exact fun faults => (h.sweeping w hw faults).mono n.le_succ
    · rw [hbegin] at hw
      cases hw
      apply SystemRun.pending_begin hkeyed _ he h.records
      intro hneeds
      obtain ⟨m, hmn, ⟨fault, hread⟩, hnone⟩ := hreads n now stamp visit he hneeds
      exact SystemRun.listed hread hmn hnone

/-- The controllers run side by side, and the configuration and the table change under them; still
the records are at every moment those of a run of sweeps one after the other. The sweeps come in
the order they were begun in, each of what there was to read at moments before it. -/
theorem SystemRun.records_serialised (r : SystemRun F) (hstart : r.start.records.WellFormed)
    (hkeyed : ∀ n, Keyed (r.state n).table) (hreads : r.Rereads) (n : Nat) :
    ∃ q j moment, r.Serial n q j moment ∧ q.store j = (r.state n).records := by
  suffices h : r.Refines n (r.state n) from h.records
  induction n with
  | zero =>
    refine ⟨?_, ?_⟩
    · let q : SweepRun F := ⟨r.start.records, hstart, fun _ => idleTick,
        fun _ => emptyStabilityConfig, fun _ => none, fun _ => []⟩
      refine ⟨q, 0, id, ⟨rfl, ?_, ?_, ?_⟩, rfl⟩
      · exact fun i hi => absurd hi i.not_lt_zero
      · exact fun i i' _ hi' => absurd hi' i'.not_lt_zero
      · exact fun i hi => absurd hi i.not_lt_zero
    · intro w hw
      cases r.idle.symm.trans hw
  | succ n ih => exact ih.step hkeyed hreads

end Runs

def widerTable : List Destination :=
  hubSystem.table ++ hubSystem.table.map fun d => { d with pfx := "10.0.1.0/24" }

/-- The writes of a sweep fail half-way; there is one more route when the next sweep is begun, and
its writes go through. -/
def cutRun : SystemRun Rat where
  namespaceName := "kreg-system"
  start := { hubSystem with stabilityConfig := some ⟨some (.seconds 30), none, none⟩ }
  event n :=
    match n with
    | 0 => .read .report .rib none
    | 1 => .read .report .peerConfigs none
    | 2 => .read .report .communityMap none
    | 3 => .read .report .stabilityConfig none
    | 4 => .read .report .backends none
    | 5 => .beginSweep (clock 0) (clock 0) (.asListed Rat)
    | 6 => .sweep [false, false, false, true]
    | 7 => .update widerTable
    | 8 => .read .report .backends none
    | 9 => .read .report .rib none
    | 10 => .beginSweep (clock 5) (clock 5) (.asListed Rat)
    | 11 => .sweep []
    | _ => .publish .report
  unread _ := ⟨_, rfl⟩
  idle := rfl

theorem cutRun_keyed (n : Nat) : Keyed (cutRun.state n).table := by
  have hkeyed : Keyed widerTable := ⟨by decide, by decide⟩
  induction n with
  | zero => exact ⟨by decide, by decide⟩
  | succ n ih =>
    rw [SystemRun.state]
    rcases SystemEvent.step_table (cutRun.event n) cutRun.namespaceName (cutRun.state n) with
      hsame | ⟨table, he⟩
    · exact hsame ▸ ih
    · have hwider : table = widerTable := by
        rcases n with _ | _ | _ | _ | _ | _ | _ | _ | _ | _ | _ | _ | n <;> cases he
        rfl
      rw [he, hwider]
      exact hkeyed

theorem cutRun_rereads : cutRun.Rereads := by
  intro n now stamp visit he _
  have hn : n = 5 ∨ n = 10 := by
    rcases n with _ | _ | _ | _ | _ | _ | _ | _ | _ | _ | _ | _ | n <;> cases he
    · exact .inl rfl
    · exact .inr rfl
  rcases hn with rfl | rfl
  · exact ⟨4, by decide, ⟨none, rfl⟩, fun i hi hi' => absurd hi' (Nat.not_lt.2 hi)⟩
  · refine ⟨8, by decide, ⟨none, rfl⟩, fun i hi hi' faults hsweep => ?_⟩
    obtain rfl : i = 9 := by omega
    cases hsweep

theorem records_serialised_cut : ∃ q j moment, cutRun.Serial 12 q j moment ∧
    q.store j = (cutRun.state 12).records ∧ "10-0-0-0-24-edge" ∈ q.store j ∧
      "10-0-1-0-24-edge" ∈ q.store j := by
  obtain ⟨q, j, moment, hq, hstore⟩ :=
    cutRun.records_serialised .empty cutRun_keyed cutRun_rereads 12
  refine ⟨q, j, moment, hq, hstore, ?_⟩
  rw [hstore]
  decide +kernel

end Kreg
