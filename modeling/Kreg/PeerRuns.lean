import Kreg.PeerStore

namespace Kreg
open ApiServer
set_option autoImplicit true

/-- One run of the reconciler: the object, what it observes on its way and which calls fail. -/
structure PeerReconcile where
  name : String
  observed : String → PeerSession
  tracker : Option (GoMap Int32)
  faults : List Bool

inductive PeerEvent where
  | put (name : String) (spec : BGPPeerConfigSpec)
  | delete (name : String)
  | secret (key : NamespacedName) (data : Option (GoMap String))
  | reconcile (q : PeerReconcile)

def PeerEvent.Changes (name : String) : PeerEvent → Prop
  | .put name' _ => name' = name
  | .delete name' => name' = name
  | _ => False

def PeerReconcile.applies (q : PeerReconcile) (namespaceName : String) (s : PeerCluster) :
    Option BGPPeerConfigSpec :=
  match (readPeerConfig namespaceName q.name ⟨s, q.faults⟩).1 with
  | .ok (some (spec, _)) => some spec
  | _ => none

theorem readPeerConfig_store (h : readPeerConfig ns name ⟨s, faults⟩ = (o, w)) : w.store = s := by
  have hread := (readPeerConfig_ends ns name s).mono (fun _ _ h => h.1) (fun _ _ h => h)
  have hstore := Ends.store (I := fun s' => s' = s) hread faults
  rw [h] at hstore
  exact hstore

theorem PeerReconcile.applies_eq_some_iff {q : PeerReconcile} :
    q.applies ns s = some spec ↔ ∃ passwords w,
      readPeerConfig ns q.name ⟨s, q.faults⟩ = (.ok (some (spec, passwords)), w) := by
  rw [PeerReconcile.applies]
  cases readPeerConfig ns q.name ⟨s, q.faults⟩ with
  | mk o w =>
    cases o with
    | error e => simp only [reduceCtorEq, Prod.mk.injEq, false_and, exists_false]
    | ok found =>
      cases found with
      | none =>
        simp only [reduceCtorEq, Prod.mk.injEq, Except.ok.injEq, false_and, exists_false]
      | some p =>
        simp only [Option.some.injEq, Prod.mk.injEq, Except.ok.injEq]
        constructor
        · intro h
          exact ⟨p.2, w, Prod.ext h rfl, rfl⟩
        · rintro ⟨passwords, _, hp, _⟩
          rw [hp]

theorem PeerReconcile.specOf_of_applies {q : PeerReconcile} (h : q.applies ns s = some spec) :
    s.specOf q.name = some spec := by
  obtain ⟨passwords, w, hread⟩ := PeerReconcile.applies_eq_some_iff.1 h
  exact ((readPeerConfig_ends ns q.name s).of_ok hread).2

def PeerEvent.applies (namespaceName : String) (s : PeerCluster) :
    PeerEvent → Option (String × BGPPeerConfigSpec)
  | .reconcile q => (q.applies namespaceName s).map (Prod.mk q.name)
  | _ => none

theorem PeerEvent.specOf_of_applies {e : PeerEvent} (h : e.applies ns s = some (name, spec)) :
    s.specOf name = some spec := by
  cases e with
  | reconcile q =>
    obtain ⟨spec', hspec, he⟩ := Option.map_eq_some_iff.1 h
    cases he
    exact q.specOf_of_applies hspec
  | put name' spec' => cases h
  | delete name' => cases h
  | secret key data => cases h

section
variable [SecondsCast]

def PeerReconcile.run (q : PeerReconcile) (namespaceName : String) (s : PeerCluster) :
    Except ApiError Unit × World PeerCluster :=
  reconcilePeerConfig namespaceName q.observed q.tracker q.name ⟨s, q.faults⟩

/-- Once it gets to the manager, no GoBGP call of `Reconfigure` fails. -/
def PeerReconcile.Configures (q : PeerReconcile) (namespaceName : String) (s : PeerCluster) :
    Prop :=
  ∀ spec passwords w,
    readPeerConfig namespaceName q.name ⟨s, q.faults⟩ = (.ok (some (spec, passwords)), w) →
      ∃ w', reconfigure spec passwords ⟨w.store.manager, w.faults⟩ = (.ok (), w')

def PeerEvent.step (namespaceName : String) (s : PeerCluster) : PeerEvent → PeerCluster
  | .put name spec =>
    let status := ((s.configs.lookup name).map StoredPeerConfig.status).getD []
    { s with configs := s.configs.insert name ⟨spec, status⟩ }
  | .delete name => { s with configs := s.configs.erase name }
  | .secret key none => { s with secrets := s.secrets.erase key }
  | .secret key (some data) => { s with secrets := s.secrets.insert key data }
  | .reconcile q => (q.run namespaceName s).2.store

def PeerEvent.Configures (namespaceName : String) (s : PeerCluster) : PeerEvent → Prop
  | .reconcile q => q.Configures namespaceName s
  | _ => True

theorem PeerReconcile.run_of_error {q : PeerReconcile}
    (h : readPeerConfig ns q.name ⟨s, q.faults⟩ = (.error e, w)) : q.run ns s = (.error e, w) :=
  bind_of_error h _

theorem PeerReconcile.run_of_gone {q : PeerReconcile}
    (h : readPeerConfig ns q.name ⟨s, q.faults⟩ = (.ok none, w)) : q.run ns s = (.ok (), w) :=
  bind_of_ok h _

theorem PeerReconcile.run_of_found {q : PeerReconcile}
    (h : readPeerConfig ns q.name ⟨s, q.faults⟩ = (.ok (some (spec, passwords)), w)) :
    q.run ns s = Api.bind (wrap "reconfigure" (onManager (reconfigure spec passwords)))
      (fun _ => reportPeers q.observed q.tracker q.name) w :=
  bind_of_ok h _

theorem PeerReconcile.applies_of_run {q : PeerReconcile} (h : (q.run ns s).1 = .ok ())
    (hs : s.specOf q.name = some spec) : q.applies ns s = some spec := by
  cases hread : readPeerConfig ns q.name ⟨s, q.faults⟩ with
  | mk o w =>
    cases o with
    | error e =>
      rw [run_of_error hread] at h
      cases h
    | ok found =>
      have hfound := ((readPeerConfig_ends ns q.name s).of_ok hread).2.symm.trans hs
      obtain ⟨p, rfl, rfl⟩ := Option.map_eq_some_iff.1 hfound
      exact PeerReconcile.applies_eq_some_iff.2 ⟨p.2, w, hread⟩

theorem PeerReconcile.run_manager_of_not_applies {q : PeerReconcile}
    (h : q.applies ns s = none) : (q.run ns s).2.store.manager = s.manager := by
  cases hread : readPeerConfig ns q.name ⟨s, q.faults⟩ with
  | mk o w =>
    have hstore := readPeerConfig_store hread
    cases o with
    | error e => rw [run_of_error hread, hstore]
    | ok found =>
      cases found with
      | none => rw [run_of_gone hread, hstore]
      | some p =>
        rw [PeerReconcile.applies_eq_some_iff.2 ⟨p.2, w, hread⟩] at h
        cases h

theorem PeerReconcile.mem_run_peers {q : PeerReconcile} (hc : q.Configures ns s)
    (h : q.applies ns s = some spec) {a : String} :
    a ∈ (q.run ns s).2.store.manager.peers ↔ a ∈ spec.hosts := by
  obtain ⟨passwords, w, hread⟩ := PeerReconcile.applies_eq_some_iff.1 h
  obtain ⟨w', hw'⟩ := hc _ _ _ hread
  have hpart : wrap "reconfigure" (onManager (reconfigure spec passwords)) w =
      (.ok (), ⟨{ w.store with manager := w'.store }, w'.faults⟩) := by
    rw [wrap, onManager, onPart, hw']
  have hreport := (reportPeers_ends q.observed q.tracker q.name
    { w.store with manager := w'.store }).mono (fun _ _ h => h.1) (fun _ _ h => h.1)
  have hstore := Ends.store (I := fun s' : PeerCluster => s'.manager = w'.store) hreport w'.faults
  rw [run_of_found hread, Api.bind, hpart]
  simp only [hstore]
  exact (reconfigure_ends spec passwords w.store.manager).of_ok hw' a

theorem PeerReconcile.specOf_run (q : PeerReconcile) (ns : String) (s : PeerCluster)
    (k : String) : (q.run ns s).2.store.specOf k = s.specOf k := by
  apply Ends.store (I := fun s' : PeerCluster => s'.specOf k = s.specOf k)
  apply Ends.bind
  apply (readPeerConfig_ends ns q.name s).mono
  · intro found s₁ hs₁
    rw [← hs₁.1]
    cases found with
    | none => exact .pure rfl
    | some p =>
      apply Ends.bind
      apply Ends.wrap
      apply Ends.onPart
      apply (reconfigure_ends p.1 p.2 s₁.manager).mono
      · intro _ m _
        apply (reportPeers_ends q.observed q.tracker q.name { s₁ with manager := m }).mono
        · exact fun _ _ h => h.2 k
        · exact fun _ _ h => h.2 k
      · exact fun _ _ _ => rfl
  · intro _ s₁ hs₁
    rw [hs₁]

theorem PeerEvent.specOf_step {e : PeerEvent} (h : ¬ e.Changes name) :
    (e.step ns s).specOf name = s.specOf name := by
  cases e with
  | put name' spec =>
    have hne : name ≠ name' := Ne.symm h
    simp only [PeerEvent.step, PeerCluster.specOf, AList.lookup_insert_ne hne]
  | delete name' =>
    have hne : name ≠ name' := Ne.symm h
    simp only [PeerEvent.step, PeerCluster.specOf, AList.lookup_erase_ne hne]
  | secret key data => cases data <;> rfl
  | reconcile q => exact q.specOf_run ns s name

theorem PeerEvent.mem_step_peers {e : PeerEvent} (hc : e.Configures ns s) {a : String} :
    a ∈ (e.step ns s).manager.peers ↔
      match e.applies ns s with
      | some (_, spec) => a ∈ spec.hosts
      | none => a ∈ s.manager.peers := by
  cases e with
  | put name spec => rfl
  | delete name => rfl
  | secret key data => cases data <;> rfl
  | reconcile q =>
    simp only [PeerEvent.applies]
    cases h : q.applies ns s with
    | none =>
      rw [Option.map_none]
      simp only [PeerEvent.step, q.run_manager_of_not_applies h]
    | some spec => exact q.mem_run_peers hc h

end

/-- Any interleaving of changes and reconciles, from a manager without sessions. -/
structure PeerRun where
  namespaceName : String
  start : PeerCluster
  fresh : start.manager = .new
  event : Nat → PeerEvent

namespace PeerRun

variable [SecondsCast]

def cluster (r : PeerRun) : Nat → PeerCluster
  | 0 => r.start
  | n + 1 => (r.event n).step r.namespaceName (r.cluster n)

def applies (r : PeerRun) (n : Nat) : Option (String × BGPPeerConfigSpec) :=
  (r.event n).applies r.namespaceName (r.cluster n)

/-- The last object that was handed to the manager before event `n`, with the spec it had. -/
def last (r : PeerRun) : Nat → Option (String × BGPPeerConfigSpec)
  | 0 => none
  | n + 1 => (r.applies n).or (r.last n)

/-- No two objects ever share a peer's host, and GoBGP never fails. -/
structure Regular (r : PeerRun) : Prop where
  distinct : ∀ n a b A B, a ≠ b → (r.cluster n).specOf a = some A →
    (r.cluster n).specOf b = some B → A.hosts.Disjoint B.hosts
  configures : ∀ n, (r.event n).Configures r.namespaceName (r.cluster n)

def Reconciles (r : PeerRun) (n : Nat) (name : String) : Prop :=
  ∃ q, r.event n = .reconcile q ∧ q.name = name ∧
    (q.run r.namespaceName (r.cluster n)).1 = .ok ()

/-- The object has been reconciled since its last change. -/
def UpToDate (r : PeerRun) (n : Nat) (name : String) : Prop :=
  ∃ m < n, r.Reconciles m name ∧ ∀ i, m < i → i < n → ¬ (r.event i).Changes name

/-- The live neighbors are the peers of all the objects there are. -/
def Joined (s : PeerCluster) : Prop :=
  ∀ a, a ∈ s.manager.peers ↔ ∃ name spec, s.specOf name = some spec ∧ a ∈ spec.hosts

/-- Only the object handed over last has peers, and it is still there if it has. -/
def LastAlone (r : PeerRun) (n : Nat) : Prop :=
  ∀ name spec, r.last n = some (name, spec) →
    (∀ other spec', other ≠ name → (r.cluster n).specOf other = some spec' → spec'.peers = []) ∧
    ((r.cluster n).specOf name = none → spec.peers = [])

/-- At every time the live neighbors are the peers of the object handed over last. -/
theorem mem_peers_iff {r : PeerRun} (hr : r.Regular) (n : Nat) (a : String) :
    a ∈ (r.cluster n).manager.peers ↔
      ∃ name spec, r.last n = some (name, spec) ∧ a ∈ spec.hosts := by
  induction n with
  | zero =>
    rw [cluster, r.fresh, last]
    simp only [Manager.new, AList.notMem_empty, reduceCtorEq, false_and, exists_false]
  | succ n ih =>
    rw [cluster, PeerEvent.mem_step_peers (hr.configures n), last]
    change (match r.applies n with
      | some (_, spec) => a ∈ spec.hosts
      | none => a ∈ (r.cluster n).manager.peers) ↔ _
    cases r.applies n with
    | none => exact ih
    | some p =>
      rw [Option.some_or]
      constructor
      · exact fun ha => ⟨p.1, p.2, rfl, ha⟩
      · rintro ⟨name, spec, he, ha⟩
        cases he
        exact ha

theorem exists_of_last {r : PeerRun} (h : r.last n = some p) :
    ∃ m < n, r.applies m = some p ∧ ∀ i, m < i → i < n → r.applies i = none := by
  induction n with
  | zero => cases h
  | succ n ih =>
    rw [last] at h
    cases hn : r.applies n with
    | some p' =>
      rw [hn] at h
      cases h
      refine ⟨n, Nat.lt_succ_self n, hn, fun i hni hi => ?_⟩
      exact absurd hni (Nat.not_lt.2 (Nat.le_of_lt_succ hi))
    | none =>
      rw [hn, Option.none_or] at h
      obtain ⟨m, hm, hp, hnone⟩ := ih h
      refine ⟨m, Nat.lt_succ_of_lt hm, hp, fun i hmi hi => ?_⟩
      obtain hlt | he := Nat.lt_succ_iff_lt_or_eq.1 hi
      · exact hnone i hmi hlt
      · rw [he, hn]

theorem last_ne_none {r : PeerRun} (hm : m < n) (h : r.applies m = some p) :
    r.last n ≠ none := by
  induction n with
  | zero => cases hm
  | succ n ih =>
    rw [last]
    obtain hlt | he := Nat.lt_succ_iff_lt_or_eq.1 hm
    · intro hor
      exact ih hlt (Option.or_eq_none_iff.1 hor).2
    · rw [← he, h, Option.some_or]
      exact Option.some_ne_none p

theorem specOf_eq {r : PeerRun} (hmn : m ≤ n)
    (h : ∀ i, m ≤ i → i < n → ¬ (r.event i).Changes name) :
    (r.cluster n).specOf name = (r.cluster m).specOf name := by
  induction n, hmn using Nat.le_induction with
  | base => rfl
  | succ n hmn ih =>
    rw [cluster, PeerEvent.specOf_step (h n hmn (Nat.lt_succ_self n))]
    exact ih fun i hmi hi => h i hmi (Nat.lt_succ_of_lt hi)

theorem UpToDate.applied {r : PeerRun} (h : r.UpToDate n name)
    (hs : (r.cluster n).specOf name = some spec) :
    ∃ m < n, r.applies m = some (name, spec) ∧
      ∀ i, m ≤ i → i ≤ n → (r.cluster i).specOf name = some spec := by
  obtain ⟨m, hm, ⟨q, hq, hname, hok⟩, hkept⟩ := h
  have hsame : ∀ i, m ≤ i → i ≤ n → (r.cluster i).specOf name = some spec := by
    intro i hmi hin
    rw [← hs]
    apply Eq.symm
    apply specOf_eq hin
    intro j hij hj
    obtain hlt | he := Nat.lt_or_eq_of_le (Nat.le_trans hmi hij)
    · exact hkept j hlt hj
    · rw [← he, hq]
      exact id
  refine ⟨m, hm, ?_, hsame⟩
  have hm' := hsame m (Nat.le_refl m) (Nat.le_of_lt hm)
  subst hname
  rw [applies, hq, PeerEvent.applies, q.applies_of_run hok hm', Option.map_some]

theorem specOf_at_last {r : PeerRun}
    (hup : ∀ name spec, (r.cluster n).specOf name = some spec → r.UpToDate n name)
    (hnone : ∀ i, m < i → i < n → r.applies i = none)
    (hmn : m < n) (hs : (r.cluster n).specOf name = some spec) :
    (r.cluster m).specOf name = some spec := by
  obtain ⟨k, hk, happ, hkept⟩ := (hup name spec hs).applied hs
  apply hkept m _ (Nat.le_of_lt hmn)
  apply Nat.le_of_not_lt
  intro hlt
  rw [hnone k hlt hk] at happ
  cases happ

theorem joined_of_last_eq_none {r : PeerRun} (hr : r.Regular)
    (hup : ∀ name spec, (r.cluster n).specOf name = some spec → r.UpToDate n name)
    (hl : r.last n = none) : Joined (r.cluster n) := by
  intro a
  rw [mem_peers_iff hr, hl]
  constructor
  · rintro ⟨_, _, h, _⟩
    cases h
  · rintro ⟨name, spec, hs, _⟩
    obtain ⟨m, hm, happ, _⟩ := (hup name spec hs).applied hs
    exact absurd hl (last_ne_none hm happ)

section Alone

variable {s : PeerCluster} {name : String} {spec : BGPPeerConfigSpec}
  (hlive : ∀ a, a ∈ s.manager.peers ↔ a ∈ spec.hosts)
include hlive
omit [SecondsCast]

theorem Joined.alone (hj : Joined s) (hdisjoint : ∀ other spec', other ≠ name →
      s.specOf other = some spec' → ∀ a ∈ spec'.hosts, a ∉ spec.hosts) :
    (∀ other spec', other ≠ name → s.specOf other = some spec' → spec'.peers = []) ∧
      (s.specOf name = none → spec.peers = []) := by
  constructor
  · intro other spec' hne hs
    apply BGPPeerConfigSpec.hosts_eq_nil_iff.1
    apply List.eq_nil_iff_forall_not_mem.2
    intro a ha
    exact hdisjoint other spec' hne hs a ha ((hlive a).1 ((hj a).2 ⟨other, spec', hs, ha⟩))
  · intro hgone
    apply BGPPeerConfigSpec.hosts_eq_nil_iff.1
    apply List.eq_nil_iff_forall_not_mem.2
    intro a ha
    obtain ⟨other, spec', hs, ha'⟩ := (hj a).1 ((hlive a).2 ha)
    apply hdisjoint other spec' _ hs a ha' ha
    rintro rfl
    rw [hgone] at hs
    cases hs

theorem joined_of_alone (hkept : ∀ spec', s.specOf name = some spec' → spec' = spec)
    (hothers : ∀ other spec', other ≠ name → s.specOf other = some spec' → spec'.peers = [])
    (hgone : s.specOf name = none → spec.peers = []) : Joined s := by
  intro a
  rw [hlive]
  constructor
  · intro ha
    cases hs : s.specOf name with
    | none =>
      rw [BGPPeerConfigSpec.hosts_eq_nil_iff.2 (hgone hs)] at ha
      cases ha
    | some spec' =>
      cases hkept spec' hs
      exact ⟨name, spec, hs, ha⟩
  · rintro ⟨other, spec', hs, ha⟩
    by_cases hne : other = name
    · subst hne
      cases hkept spec' hs
      exact ha
    · rw [BGPPeerConfigSpec.hosts_eq_nil_iff.2 (hothers other spec' hne hs)] at ha
      cases ha

end Alone

theorem joined_iff {r : PeerRun} (hr : r.Regular)
    (hup : ∀ name spec, (r.cluster n).specOf name = some spec → r.UpToDate n name) :
    Joined (r.cluster n) ↔ r.LastAlone n := by
  cases hl : r.last n with
  | none =>
    have halone : r.LastAlone n := by
      intro name spec hlast
      rw [hl] at hlast
      cases hlast
    exact iff_of_true (joined_of_last_eq_none hr hup hl) halone
  | some p =>
    obtain ⟨name, spec⟩ := p
    obtain ⟨m, hm, happ, hnone⟩ := exists_of_last hl
    have hspec := PeerEvent.specOf_of_applies happ
    -- every object had its spec already when the last one was handed over
    have hthen : ∀ other spec', (r.cluster n).specOf other = some spec' →
        (r.cluster m).specOf other = some spec' :=
      fun _ _ hs => specOf_at_last hup hnone hm hs
    have hlive : ∀ a, a ∈ (r.cluster n).manager.peers ↔ a ∈ spec.hosts := by
      intro a
      rw [mem_peers_iff hr, hl]
      simp only [Option.some.injEq, Prod.mk.injEq, and_assoc, exists_eq_left', exists_and_left]
    constructor
    · intro hj name' spec' hlast
      cases hl.symm.trans hlast
      apply hj.alone hlive
      intro other spec' hne hs a ha ha'
      exact hr.distinct m other name spec' spec hne (hthen other spec' hs) hspec ha ha'
    · intro halone
      obtain ⟨hothers, hgone⟩ := halone name spec hl
      apply joined_of_alone hlive _ hothers hgone
      intro spec' hs
      exact Option.some.inj ((hthen name spec' hs).symm.trans hspec)

theorem kept_iff {r : PeerRun} (hr : r.Regular) (h : r.applies n = some (name, spec)) :
    (∀ other spec', other ≠ name → (r.cluster n).specOf other = some spec' →
      ∀ a ∈ spec'.hosts, a ∈ (r.cluster n).manager.peers →
        a ∈ (r.cluster (n + 1)).manager.peers) ↔
    ∀ other spec', other ≠ name → (r.cluster n).specOf other = some spec' →
      ∀ a ∈ spec'.hosts, a ∉ (r.cluster n).manager.peers := by
  have hspec := PeerEvent.specOf_of_applies h
  have hafter : ∀ a, a ∈ (r.cluster (n + 1)).manager.peers ↔ a ∈ spec.hosts := by
    intro a
    rw [mem_peers_iff hr, last, h]
    simp only [Option.some_or, Option.some.injEq, Prod.mk.injEq, and_assoc, exists_eq_left',
      exists_and_left]
  constructor
  · intro hkept other spec' hne hs a ha hlive
    have ha' := (hafter a).1 (hkept other spec' hne hs a ha hlive)
    exact hr.distinct n other name spec' spec hne hs hspec ha ha'
  · intro hdown other spec' hne hs a ha hlive
    exact absurd hlive (hdown other spec' hne hs a ha)

/-- The sessions of one manager against several objects: they are the union of the objects' peers
only where one object has them all, and a reconcile ends every session of the other objects. -/
theorem sessions_joined_iff (r : PeerRun) (hr : r.Regular) (n : Nat) :
    ((∀ name spec, (r.cluster n).specOf name = some spec → r.UpToDate n name) →
      (Joined (r.cluster n) ↔ r.LastAlone n)) ∧
    ∀ name spec, r.applies n = some (name, spec) →
      ((∀ other spec', other ≠ name → (r.cluster n).specOf other = some spec' →
        ∀ a ∈ spec'.hosts, a ∈ (r.cluster n).manager.peers →
          a ∈ (r.cluster (n + 1)).manager.peers) ↔
      ∀ other spec', other ≠ name → (r.cluster n).specOf other = some spec' →
        ∀ a ∈ spec'.hosts, a ∉ (r.cluster n).manager.peers) :=
  ⟨joined_iff hr, fun _ _ => kept_iff hr⟩

end PeerRun

def sessionSpec (address : Option String) : BGPPeerConfigSpec where
  localASN := 64512
  routerID := "192.0.2.1"
  listenPort := none
  peers := address.toList.map fun a => ⟨"rr", a, 64512, none, none, none⟩

def sessionConfigs : List (String × Option String) → GoMap StoredPeerConfig
  | [] => ∅
  | (name, address) :: rest => (sessionConfigs rest).insert name ⟨sessionSpec address, []⟩

/-- These objects, reconciled in the given order with no call failing. -/
def sessionRun (objects : List (String × Option String)) (name : Nat → String) : PeerRun where
  namespaceName := "kreg-system"
  start := ⟨sessionConfigs objects, ∅, .new⟩
  fresh := rfl
  event n := .reconcile ⟨name n, fun _ => ⟨none, none, []⟩, none, []⟩

theorem lookup_sessionConfigs {objects : List (String × Option String)}
    (h : (sessionConfigs objects).lookup name = some config) :
    ∃ address, (name, address) ∈ objects ∧ config.spec = sessionSpec address := by
  induction objects with
  | nil =>
    rw [sessionConfigs, AList.lookup_empty] at h
    cases h
  | cons object rest ih =>
    by_cases he : name = object.1
    · subst he
      rw [sessionConfigs, AList.lookup_insert] at h
      cases h
      exact ⟨object.2, .head _, rfl⟩
    · rw [sessionConfigs, AList.lookup_insert_ne he] at h
      obtain ⟨address, hmem, hspec⟩ := ih h
      exact ⟨address, .tail _ hmem, hspec⟩

theorem readPeerConfig_session (h : s.specOf name = some (sessionSpec address)) (ns : String) :
    readPeerConfig ns name ⟨s, []⟩ = (.ok (some (sessionSpec address, ∅)), ⟨s, []⟩) := by
  obtain ⟨config, hconfig, hspec⟩ := Option.map_eq_some_iff.1 h
  have hresolve : Completes (resolvePasswords ns config.spec.peers) s ∅ s := by
    rw [hspec]
    cases address with
    | none => exact .pure ∅ s
    | some a => exact .bind (.pure none s) (.pure ∅ s)
  rw [← hspec]
  apply Completes.returns
  apply Completes.bind (.get (getPeerConfig_gets name) hconfig)
  exact .bind (.wrap hresolve "resolve peer auth") (.pure _ s)

section
variable [SecondsCast]

theorem specOf_sessionRun
    (h : ((sessionRun objects order).cluster n).specOf name = some spec) :
    ∃ address, (name, address) ∈ objects ∧ spec = sessionSpec address := by
  rw [PeerRun.specOf_eq (Nat.zero_le n) fun _ _ _ => id] at h
  obtain ⟨config, hconfig, hspec⟩ := Option.map_eq_some_iff.1 h
  obtain ⟨address, hmem, hconfig⟩ := lookup_sessionConfigs hconfig
  exact ⟨address, hmem, hspec.symm.trans hconfig⟩

theorem sessionRun_regular {objects : List (String × Option String)}
    (hd : ∀ p ∈ objects, ∀ q ∈ objects, p.1 ≠ q.1 →
      ∀ a ∈ (sessionSpec p.2).hosts, a ∉ (sessionSpec q.2).hosts) (order : Nat → String) :
    (sessionRun objects order).Regular where
  distinct n a b A B hne hA hB := by
    obtain ⟨x, hx, rfl⟩ := specOf_sessionRun hA
    obtain ⟨y, hy, rfl⟩ := specOf_sessionRun hB
    exact fun host ha hb => hd _ hx _ hy hne host ha hb
  configures n := by
    intro spec passwords w hread
    have hspec := ((readPeerConfig_ends _ _ _).of_ok hread).2
    obtain ⟨address, _, rfl⟩ := specOf_sessionRun hspec
    rw [readPeerConfig_session hspec] at hread
    cases hread
    have hn : (sessionSpec address).hosts.Nodup := by
      cases address with
      | none => exact .nil
      | some a => exact List.nodup_singleton _
    obtain ⟨m', hm'⟩ := reconfigure_completes hn ∅ ((sessionRun objects order).cluster n).manager
    exact ⟨_, hm'.returns⟩

end

/-- Two objects, and only the one reconciled last has a peer. -/
def spareRun : PeerRun :=
  sessionRun [("spare", none), ("east", "192.0.2.11")] fun n => if n = 0 then "spare" else "east"

theorem sessions_joined_spare :
    (∀ name spec, (spareRun.cluster 2).specOf name = some spec → spareRun.UpToDate 2 name) ∧
      (spareRun.cluster 2).specOf "spare" = some (sessionSpec none) ∧
      PeerRun.Joined (spareRun.cluster 2) ∧ "192.0.2.11" ∈ (spareRun.cluster 2).manager.peers := by
  have hr : spareRun.Regular := sessionRun_regular (by decide +kernel) _
  have hnames : ∀ n name spec, (spareRun.cluster n).specOf name = some spec →
      name = "spare" ∧ spec = sessionSpec none ∨ name = "east" := by
    intro n name spec hs
    obtain ⟨address, hmem, hspec⟩ := specOf_sessionRun hs
    rcases List.mem_pair.1 hmem with he | he
    · cases he
      exact .inl ⟨rfl, hspec⟩
    · cases he
      exact .inr rfl
  have hup : ∀ name spec, (spareRun.cluster 2).specOf name = some spec →
      spareRun.UpToDate 2 name := by
    intro name spec hs
    rcases hnames 2 name spec hs with ⟨rfl, _⟩ | rfl
    · refine ⟨0, Nat.zero_lt_two, ⟨_, rfl, rfl, by decide +kernel⟩, fun i _ _ => ?_⟩
      exact id
    · refine ⟨1, Nat.one_lt_two, ⟨_, rfl, rfl, by decide +kernel⟩, fun i _ _ => ?_⟩
      exact id
  refine ⟨hup, by decide +kernel, ?_, by decide +kernel⟩
  apply ((PeerRun.sessions_joined_iff spareRun hr 2).1 hup).2
  have hlast : spareRun.last 2 = some ("east", sessionSpec "192.0.2.11") := by
    decide +kernel
  intro name spec he
  cases hlast.symm.trans he
  constructor
  · intro other spec' hne hs
    rcases hnames 2 other spec' hs with ⟨_, rfl⟩ | rfl
    · rfl
    · exact absurd rfl hne
  · intro hgone
    have hthere : ((spareRun.cluster 2).specOf "east").isSome = true := by decide +kernel
    rw [hgone] at hthere
    cases hthere

/-- Two objects with a peer each, reconciled one after the other. -/
def pairRun : PeerRun :=
  sessionRun [("east", "192.0.2.11"), ("west", "192.0.2.12")] fun n =>
    if n = 0 then "east" else "west"

/-- Both objects have been reconciled, and the session of the first one is gone. -/
theorem sessions_of_pair_not_joined :
    pairRun.Regular ∧
      (∀ name spec, (pairRun.cluster 2).specOf name = some spec → pairRun.UpToDate 2 name) ∧
      ¬ PeerRun.Joined (pairRun.cluster 2) := by
  refine ⟨sessionRun_regular (by decide +kernel) _, ?_, ?_⟩
  · intro name spec hs
    obtain ⟨address, hmem, _⟩ := specOf_sessionRun hs
    cases hmem with
    | head =>
      refine ⟨0, Nat.zero_lt_two, ⟨_, rfl, rfl, by decide +kernel⟩, fun i _ _ => ?_⟩
      exact id
    | tail _ hmem =>
      cases List.mem_singleton.1 hmem
      refine ⟨1, Nat.one_lt_two, ⟨_, rfl, rfl, by decide +kernel⟩, fun i _ _ => ?_⟩
      exact id
  · intro hj
    have hspec : (pairRun.cluster 2).specOf "east" = some (sessionSpec "192.0.2.11") := by
      decide +kernel
    have hlive := (hj "192.0.2.11").2 ⟨"east", _, hspec, by decide +kernel⟩
    have hdead : "192.0.2.11" ∉ (pairRun.cluster 2).manager.peers := by decide +kernel
    exact hdead hlive

end Kreg
