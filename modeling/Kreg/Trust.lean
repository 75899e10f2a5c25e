import Kreg.System

namespace Kreg
open ApiServer
set_option autoImplicit true

variable {F : Type}

/-- The damper has evaluated the backend the record is about. -/
def AdvertisedBackendStatus.Observed (status : AdvertisedBackendStatus) : Prop :=
  status.stability.lastObservedAt.isSome = true

section Snapshot

theorem lookup_foldl_insertPrior [Float64 F] {items : List AdvertisedBackend}
    {m : GoMap (PriorState F)} (h : (items.foldl insertPrior m).lookup k = some p) :
    m.lookup k = some p ∨ ∃ b ∈ items, priorState b.status = some p := by
  induction items generalizing m with
  | nil => exact .inl h
  | cons b items ih =>
    rcases ih h with hb | ⟨b', hb', hp⟩
    · rw [insertPrior] at hb
      cases hs : priorState (F := F) b.status with
      | none =>
        rw [hs] at hb
        exact .inl hb
      | some q =>
        rw [hs] at hb
        by_cases hk : k = b.name
        · subst hk
          simp only [AList.lookup_insert, Option.some.injEq] at hb
          exact .inr ⟨b, .head _, hb ▸ hs⟩
        · simp only [AList.lookup_insert_ne hk] at hb
          exact .inl hb
    · exact .inr ⟨b', .tail _ hb', hp⟩

theorem Visit.lookup_order (v : Visit F) (m : GoMap (PriorState F)) (k : String) :
    (v.order m).lookup k = m.lookup k :=
  AList.perm_lookup (v.perm m)

/-- Where a candidate of a snapshot comes from that was not rejected: a route Authorize has
accepted, or the record of a backend evaluated before. -/
inductive Sourced (reads : SourceReads) (pfx clusterID : String) : Prop where
  | route (hr : reads.routes = .ok routes) (hp : reads.peerConfigs = .ok peerConfigs)
      (ha : authorize routes peerConfigs.flatten = .ok authorized) (hmem : a ∈ authorized)
      (hacc : a.rejected = false) (hpfx : a.pfx = pfx) (hid : a.clusterID = clusterID)
  | record (hb : reads.backends = .ok items) (hmem : b ∈ items) (ho : b.status.Observed)
      (hpfx : b.status.pfx = pfx) (hid : b.status.clusterID = clusterID)

variable [Float64 F]

theorem mem_snapshot (v : Visit F) {out : List (BackendCandidate F)}
    (h : sourceSnapshot now reads v.order = .ok out) (hc : c ∈ out) :
    c.rejected = true ∧ c.damping = none ∨
      c.rejected = false ∧ Sourced reads c.pfx c.clusterID := by
  obtain ⟨routes, peerConfigs, authorized, cm, candidates, found, items, hr, hp, ha, _, hn, _, hl,
    rfl⟩ := sourceSnapshot_returned h
  have hforall := normalize_ok_iff.1 hn
  cases mem_evaluate hc with
  | passed hmem hrej => exact .inl ⟨hrej, normalize_undamped hforall c hmem⟩
  | @evaluated c₀ d hmem hacc ht =>
    obtain ⟨a, ha', hnorm⟩ := exists_of_forall₂ hforall hmem
    have hfields := normalizeRoute_normalizes hnorm
    refine .inr ⟨hacc, .route hr hp ha ha' ?_ hfields.pfx.symm hfields.clusterID.symm⟩
    by_contra hrej
    rw [Bool.not_eq_false] at hrej
    rw [normalizeRoute, if_pos hrej] at hnorm
    cases hnorm
    cases hacc
  | @synthesized k p d hlookup hunseen ht =>
    rw [v.lookup_order, loadPrior] at hlookup
    split at hlookup
    · rcases lookup_foldl_insertPrior hlookup with hempty | ⟨b, hb, hprior⟩
      · rw [AList.lookup_empty] at hempty
        cases hempty
      · rw [priorState, Option.map_eq_some_iff] at hprior
        obtain ⟨t, hobs, rfl⟩ := hprior
        rcases listPrior_ok hl with hbackends | rfl
        · refine .inr ⟨rfl, .record hbackends hb ?_ rfl rfl⟩
          rw [AdvertisedBackendStatus.Observed, hobs]
          rfl
        · cases hb
    · rw [AList.lookup_empty] at hlookup
      cases hlookup

end Snapshot

section Run

variable [Float64 F] [SecondsCast]

/-- At moment `t` a controller holds the table it has read at moment `a` and the bindings it has
read at moment `b`. -/
structure SystemRun.Holds (r : SystemRun F) (t : Nat) (who : SnapshotReader) (a b : Nat)
    (routes : List RIBRoute) : Prop where
  earlier : a ≤ t ∧ b ≤ t
  held : ((r.state t).reads who).routes = .ok routes
  table : managerSnapshot (.ok (r.state a).table) = .ok routes
  bindings : ∃ peerConfigs, ((r.state t).reads who).peerConfigs = .ok peerConfigs ∧
    peerConfigs.flatten = (r.state b).allBindings

/-- At some moment up to `n` a controller held a table with a route for the prefix, and bindings
that admit this route for the cluster. -/
def SystemRun.Authorises (r : SystemRun F) (n : Nat) (pfx clusterID : String) : Prop :=
  ∃ t ≤ n, ∃ who a b routes i route binding, r.Holds t who a b routes ∧ routes[i]? = some route ∧
    Admitted (r.state b).allBindings routes i route binding ∧
    route.pfx = pfx ∧ binding.clusterID = clusterID

theorem SystemRun.Authorises.mono {r : SystemRun F} (h : r.Authorises n pfx clusterID)
    (hnm : n ≤ m) : r.Authorises m pfx clusterID := by
  obtain ⟨t, ht, h⟩ := h
  exact ⟨t, ht.trans hnm, h⟩

def SystemRun.Vouches (r : SystemRun F) (n : Nat) (records : Records) : Prop :=
  ∀ k x, records.lookup k = some x → x.status.Observed →
    r.Authorises n x.status.pfx x.status.clusterID

/-- What a controller has read was there at some moment. -/
structure SystemRun.Sees (r : SystemRun F) (n : Nat) (reads : SourceReads) : Prop where
  routes : ∀ routes, reads.routes = .ok routes →
    ∃ a ≤ n, managerSnapshot (.ok (r.state a).table) = .ok routes
  peerConfigs : ∀ peerConfigs, reads.peerConfigs = .ok peerConfigs →
    ∃ b ≤ n, peerConfigs.flatten = (r.state b).allBindings
  communityMap : ∀ what cm, optionalRead what reads.communityMap = .ok cm →
    ∃ a ≤ n, cm = (r.state a).communityMap
  stabilityConfig : ∀ what found, optionalRead what reads.stabilityConfig = .ok found →
    ∃ a ≤ n, found = (r.state a).stabilityConfig

structure SystemRun.Reads (r : SystemRun F) (n : Nat) (reads : SourceReads) : Prop
    extends r.Sees n reads where
  backends : ∀ items, reads.backends = .ok items → ∀ b ∈ items, b.status.Observed →
    r.Authorises n b.status.pfx b.status.clusterID

/-- What a snapshot may return: rejected routes, which no damper sees, and authorized backends. -/
def SystemRun.Clears (r : SystemRun F) (n : Nat)
    (snapshot : Except String (List (BackendCandidate F))) : Prop :=
  ∀ out, snapshot = .ok out → ∀ c ∈ out, c.rejected = true ∧ c.damping = none ∨
    c.rejected = false ∧ r.Authorises n c.pfx c.clusterID

structure SystemRun.Sweeps (r : SystemRun F) (n : Nat) (w : Sweeping F) : Prop where
  base : r.Vouches n w.base
  snapshot : r.Clears n w.snapshot

structure SystemRun.Sound (r : SystemRun F) (n : Nat) (s : System F) : Prop where
  reads : ∀ who, r.Reads n (s.reads who)
  records : r.Vouches n s.records
  sweeping : ∀ w, s.sweeping = some w → r.Sweeps n w

variable {r : SystemRun F}

theorem SystemRun.Vouches.mono (h : r.Vouches n records) (hnm : n ≤ m) : r.Vouches m records :=
  fun k x hx ho => (h k x hx ho).mono hnm

theorem SystemRun.Sees.mono (h : r.Sees n reads) (hnm : n ≤ m) : r.Sees m reads where
  routes routes hr := by
    obtain ⟨a, ha, h⟩ := h.routes routes hr
    exact ⟨a, ha.trans hnm, h⟩
  peerConfigs peerConfigs hp := by
    obtain ⟨b, hb, h⟩ := h.peerConfigs peerConfigs hp
    exact ⟨b, hb.trans hnm, h⟩
  communityMap what cm hcm := by
    obtain ⟨a, ha, h⟩ := h.communityMap what cm hcm
    exact ⟨a, ha.trans hnm, h⟩
  stabilityConfig what found hf := by
    obtain ⟨a, ha, h⟩ := h.stabilityConfig what found hf
    exact ⟨a, ha.trans hnm, h⟩

theorem SystemRun.Reads.mono (h : r.Reads n reads) (hnm : n ≤ m) : r.Reads m reads where
  toSees := h.toSees.mono hnm
  backends items hb b hmem ho := (h.backends items hb b hmem ho).mono hnm

theorem SystemRun.Clears.mono (h : r.Clears n snapshot) (hnm : n ≤ m) : r.Clears m snapshot :=
  fun out ho c hc => (h out ho c hc).imp id fun ⟨hr, ha⟩ => ⟨hr, ha.mono hnm⟩

theorem SystemRun.Sweeps.mono (h : r.Sweeps n w) (hnm : n ≤ m) : r.Sweeps m w where
  base := h.base.mono hnm
  snapshot := h.snapshot.mono hnm

theorem SystemRun.Sound.mono (h : r.Sound n s) (hnm : n ≤ m) : r.Sound m s where
  reads who := (h.reads who).mono hnm
  records := h.records.mono hnm
  sweeping w hw := (h.sweeping w hw).mono hnm

theorem SystemRun.Reads.authorises (h : r.Reads n ((r.state n).reads who))
    (hs : Sourced ((r.state n).reads who) pfx clusterID) : r.Authorises n pfx clusterID := by
  cases hs with
  | @route routes peerConfigs authorized x hr hp ha hmem hacc hpfx hid =>
    obtain ⟨a, ha', htable⟩ := h.routes routes hr
    obtain ⟨b, hb, hbindings⟩ := h.peerConfigs peerConfigs hp
    rw [authorize_eq (authorize_matchable ha)] at ha
    cases ha
    obtain ⟨i, hi, hx⟩ := List.mem_mapIdx.1 hmem
    rw [hbindings] at hx
    rw [← hx, authorizedAt_rejected] at hacc
    obtain ⟨binding, hadm⟩ := hacc
    have hholds : r.Holds n who a b routes := ⟨⟨ha', hb⟩, hr, htable, peerConfigs, hp, hbindings⟩
    refine ⟨n, le_rfl, who, a, b, routes, i, routes[i], binding, hholds,
      List.getElem?_eq_getElem hi, hadm, ?_, ?_⟩
    · rw [← hpfx, ← hx, authorizedAt_pfx]
    · rw [← hid, ← hx, hadm.clusterID]
  | @record items b hb hmem ho hpfx hid =>
    rw [← hpfx, ← hid]
    exact h.backends items hb b hmem ho

theorem SystemRun.Sound.snapshot (h : r.Sound n (r.state n)) (who : SnapshotReader)
    (now : Time) (v : Visit F) : r.Clears n ((r.state n).snapshot who now v) := by
  intro out ho c hc
  rcases mem_snapshot v ho hc with hrej | ⟨hacc, hs⟩
  · exact .inl hrej
  · exact .inr ⟨hacc, (h.reads who).authorises hs⟩

omit [Float64 F] [SecondsCast] in
theorem getOutcome_found {found found' : Option α}
    (h : optionalRead what (getOutcome fault found) = .ok found') : found' = found := by
  cases fault with
  | some e => cases h
  | none =>
    rw [getOutcome, optionalRead_presence] at h
    cases h
    rfl

theorem SystemRun.Sees.read (h : r.Sees n reads) (what : SnapshotRead) (fault : Option String) :
    r.Sees n ((r.state n).read what fault reads) := by
  cases what with
  | rib =>
    refine ⟨?_, h.peerConfigs, h.communityMap, h.stabilityConfig⟩
    intro routes hr
    cases fault with
    | some e => cases hr
    | none => exact ⟨n, le_rfl, hr⟩
  | peerConfigs =>
    refine ⟨h.routes, ?_, h.communityMap, h.stabilityConfig⟩
    intro peerConfigs hp
    cases fault with
    | some e => cases hp
    | none =>
      cases hp
      exact ⟨n, le_rfl, rfl⟩
  | communityMap =>
    exact ⟨h.routes, h.peerConfigs, fun what cm hcm => ⟨n, le_rfl, getOutcome_found hcm⟩,
      h.stabilityConfig⟩
  | stabilityConfig =>
    exact ⟨h.routes, h.peerConfigs, h.communityMap,
      fun what found hf => ⟨n, le_rfl, getOutcome_found hf⟩⟩
  | backends => exact ⟨h.routes, h.peerConfigs, h.communityMap, h.stabilityConfig⟩

theorem SystemRun.sees (r : SystemRun F) (n : Nat) (who : SnapshotReader) :
    r.Sees n ((r.state n).reads who) := by
  induction n with
  | zero =>
    obtain ⟨e, he⟩ := r.unread who
    rw [SystemRun.state, he]
    refine ⟨?_, ?_, ?_, ?_⟩
    · intro routes h
      cases h
    · intro peerConfigs h
      cases h
    · intro what cm h
      cases h
    · intro what found h
      cases h
  | succ n ih =>
    rw [SystemRun.state]
    rcases (r.event n).step_reads r.namespaceName (r.state n) who with h | ⟨what, fault, h⟩
    · rw [h]
      exact ih.mono n.le_succ
    · rw [h]
      exact (ih.read what fault).mono n.le_succ

theorem SystemRun.Sound.read (h : r.Sound n (r.state n)) (who : SnapshotReader)
    (what : SnapshotRead) (fault : Option String) :
    r.Reads n ((r.state n).read what fault ((r.state n).reads who)) := by
  refine ⟨(h.reads who).toSees.read what fault, ?_⟩
  cases what with
  | backends =>
    intro items hb b hmem ho
    cases fault with
    | some e => cases hb
    | none =>
      cases hb
      rw [Records.listManaged, List.mem_map] at hmem
      obtain ⟨e, he, rfl⟩ := hmem
      exact h.records e.1 e.2 (AList.mem_lookup_iff.2 (List.mem_filter.1 he).1) ho
  | _ => exact (h.reads who).backends

omit [Float64 F] [SecondsCast] in
theorem written_backend (stamp : Time) (b : AdvertisedBackend) (o : Option Record) :
    (written stamp b o).status.pfx = b.status.pfx ∧
      (written stamp b o).status.clusterID = b.status.clusterID ∧
      ((written stamp b o).status.Observed → b.status.Observed) := by
  have hobserved : (b.status.stability.stored.lastObservedAt.isSome = true) →
      b.status.stability.lastObservedAt.isSome = true := by
    rw [StabilityStatus.stored, Option.isSome_map]
    exact id
  cases o with
  | none => exact ⟨rfl, rfl, hobserved⟩
  | some x => exact ⟨rfl, rfl, hobserved⟩

theorem SystemRun.Vouches.applied (h : r.Vouches n s)
    (hb : b.status.Observed → r.Authorises n b.status.pfx b.status.clusterID) (stamp : Time) :
    r.Vouches n (applied stamp s b) := by
  intro k x hx ho
  rw [lookup_applied] at hx
  split at hx
  · cases hx
    obtain ⟨hpfx, hid, hobserved⟩ := written_backend stamp b (s.lookup k)
    rw [hpfx, hid]
    exact hb (hobserved ho)
  · exact h k x hx ho

theorem SystemRun.Vouches.bared (h : r.Vouches n s) (b : AdvertisedBackend) :
    r.Vouches n (bared s b) := by
  intro k x hx ho
  by_cases hk : k = b.name
  · subst hk
    rw [Kreg.bared, AList.lookup_insert] at hx
    cases hx
    cases ho
  · rw [Kreg.bared, AList.lookup_insert_ne hk] at hx
    exact h k x hx ho

theorem SystemRun.Sweeps.stage {w : Sweeping F} (h : r.Sweeps n w) (faults : List Bool) :
    r.Vouches n (w.stage faults) := by
  rw [Sweeping.stage]
  cases hout : w.snapshot with
  | error e => exact h.base
  | ok out =>
    apply Ends.store (I := r.Vouches n)
    apply reconcileBackends_inv (I := r.Vouches n) out w.policies h.base
    · exact fun _ h => h
    · intro b hb s hs
      obtain ⟨c, hc, rfl⟩ := List.mem_map.1 hb
      apply hs.applied
      intro hseen
      rcases h.snapshot out hout c hc with ⟨_, hnone⟩ | ⟨_, hauth⟩
      · rw [AdvertisedBackendStatus.Observed, buildOne, hnone] at hseen
        cases hseen
      · exact hauth
    · exact fun b _ s hs _ => hs.bared b
    · intro s hs b hb _ s' hs' k x hx ho
      exact hs' k x (lookup_of_erase hx) ho

theorem SystemRun.Sound.step (h : r.Sound n (r.state n)) : r.Sound (n + 1) (r.state (n + 1)) := by
  have hn := h.mono n.le_succ
  refine ⟨?_, ?_, ?_⟩
  · intro who
    rw [SystemRun.state]
    rcases (r.event n).step_reads r.namespaceName (r.state n) who with he | ⟨what, fault, he⟩
    · rw [he]
      exact hn.reads who
    · rw [he]
      exact (h.read who what fault).mono n.le_succ
  · rw [SystemRun.state]
    rcases (r.event n).step_records r.namespaceName (r.state n) with he | ⟨w, faults, _, hw, he⟩
    · rw [he]
      exact hn.records
    · rw [he]
      exact (hn.sweeping w hw).stage faults
  · intro w hw
    rw [SystemRun.state] at hw
    rcases (r.event n).step_sweeping r.namespaceName (r.state n) with
      he | ⟨now, stamp, visit, _, he⟩
    · rw [he] at hw
      exact hn.sweeping w hw
    · rw [he] at hw
      cases hw
      exact ⟨hn.records, (h.snapshot .report now visit).mono n.le_succ⟩

theorem SystemRun.sound (r : SystemRun F)
    (hstart : ∀ k x, r.start.records.lookup k = some x → ¬ x.status.Observed) (n : Nat) :
    r.Sound n (r.state n) := by
  induction n with
  | zero =>
    refine ⟨?_, fun k x hx ho => absurd ho (hstart k x hx), ?_⟩
    · intro who
      obtain ⟨e, he⟩ := r.unread who
      refine ⟨r.sees 0 who, ?_⟩
      rw [SystemRun.state, he]
      intro items h
      cases h
    · intro w hw
      cases r.idle.symm.trans hw
  | succ n ih => exact ih.step

def SystemRun.Backs (r : SystemRun F) (n : Nat) (k : ObjectKey) (x : StoredObject) : Prop :=
  ∃ policy, ∃ c : BackendCandidate F, ∃ o, c.servable = true ∧ r.Authorises n c.pfx c.clusterID ∧
    renderEndpointSlice policy (serviceName policy) c = .ok o ∧ o.key = k ∧ o.stored = x

theorem SystemRun.Backs.mono (h : r.Backs n k x) (hnm : n ≤ m) : r.Backs m k x := by
  obtain ⟨policy, c, o, hs, ha, ho⟩ := h
  exact ⟨policy, c, o, hs, ha.mono hnm, ho⟩

def SystemRun.Accounted (r : SystemRun F) (n : Nat) (s : Cluster) : Prop :=
  ∀ k x, k.kind = .endpointSlice → s.objects.lookup k = some x →
    r.start.cluster.objects.lookup k = some x ∨ r.Backs n k x

theorem SystemRun.Accounted.put {s : Cluster} (h : r.Accounted n s)
    (ho : o.kind = .endpointSlice → r.Backs n o.key o.stored) : r.Accounted n (s.put o) := by
  intro k x hk hx
  rw [Cluster.lookup_put] at hx
  split at hx
  · next he =>
    cases hx
    subst he
    exact .inr (ho hk)
  · exact h k x hk hx

theorem SystemRun.Accounted.remove {s : Cluster} (h : r.Accounted n s) (key : ObjectKey) :
    r.Accounted n (s.remove key) := by
  intro k x hk hx
  rw [Cluster.lookup_remove] at hx
  split at hx
  · cases hx
  · exact h k x hk hx

theorem SystemRun.Accounted.reconcile {s : Cluster} (h : r.Accounted n s) (key : NamespacedName)
    {snapshot : Except String (List (BackendCandidate F))} (hsnap : r.Clears n snapshot) :
    Ends (reconcilePolicy istioDriver snapshot key) s (fun _ => r.Accounted n)
      (fun _ => r.Accounted n) := by
  apply reconcilePolicy_ends
  · exact fun _ => h
  · exact fun _ => h
  · intro stored candidates output hp hok hrender
    have hl := render_labelled hrender
    obtain ⟨selected, hselect, hslices, _, _⟩ := render_ok_iff.1 hrender
    apply applyOutput_inv (I := fun _ => r.Accounted n) h
    · exact fun _ _ h => h
    · intro done o rest hobjects s' hs' _
      apply hs'.put
      intro hkind
      have hmem : o ∈ output.objects := hobjects ▸ List.mem_append_right _ (.head _)
      have hslice : o ∈ output.endpointSlices := (hl.other o hmem).resolve_right fun h => h hkind
      obtain ⟨c, hc, hrendered⟩ := exists_of_forall₂ (renderEndpointSlices_ok_iff.1 hslices) hslice
      obtain ⟨hcand, hservable⟩ := select_servable hselect c hc
      rcases hsnap candidates hok c hcand with ⟨hrej, _⟩ | ⟨_, hauth⟩
      · rw [BackendCandidate.servable, hrej] at hservable
        cases hservable
      · exact ⟨_, c, o, hservable, hauth, hrendered, rfl, rfl⟩
    · intro s' _ k _ _ s'' hs''
      exact hs''.remove k
    · intro s' hs' k x hk hx
      rw [Cluster.report_objects] at hx
      exact hs' k x hk hx

theorem SystemRun.Accounted.step (h : r.Accounted n (r.state n).cluster)
    (hsound : r.Sound n (r.state n)) : r.Accounted (n + 1) (r.state (n + 1)).cluster := by
  have hn : r.Accounted (n + 1) (r.state n).cluster := fun k x hk hx =>
    (h k x hk hx).imp id fun hb => hb.mono n.le_succ
  rw [SystemRun.state]
  rcases (r.event n).step_objects r.namespaceName (r.state n) with
    he | ⟨key, now, visit, faults, he⟩
  · intro k x hk hx
    rw [he] at hx
    exact hn k x hk hx
  · rw [he]
    have hsnap := (hsound.snapshot .policy now visit).mono n.le_succ
    exact (hn.reconcile key hsnap).store faults

theorem SystemRun.accounted (r : SystemRun F)
    (hstart : ∀ k x, r.start.records.lookup k = some x → ¬ x.status.Observed) (n : Nat) :
    r.Accounted n (r.state n).cluster := by
  induction n with
  | zero => exact fun k x _ hx => .inl hx
  | succ n ih => exact ih.step (r.sound hstart n)

end Run

/-- A process with one policy, one binding and one route, before its first read. -/
def hubSystem : System Rat where
  table := [⟨"10.0.0.0/24", [⟨"192.0.2.1", true, [.ok (.asPath [.as4 [64512]])]⟩]⟩]
  bindings := AList.singleton "hub" [sampleBinding]
  communityMap := none
  stabilityConfig := none
  peers := ⟨∅, ∅, .new⟩
  cluster := webCluster []
  records := ∅
  tracker := ∅
  reads _ := .failed "not read yet"
  sweeping := none

def hubRun : SystemRun Rat where
  namespaceName := "kreg-system"
  start := hubSystem
  event n :=
    match n with
    | 0 => .read .policy .rib none
    | 1 => .read .policy .peerConfigs none
    | 2 => .read .policy .communityMap none
    | 3 => .read .policy .stabilityConfig none
    | 4 => .read .policy .backends none
    | _ => .reconcilePolicy webKey (clock n) (.asListed Rat) []
  unread _ := ⟨_, rfl⟩
  idle := rfl

def hubSlice : Object where
  namespaceName := "gateways"
  name := "web-kreg-edge-10-0-0-0-24"
  labels := [(managedByLabel, "web"), (serviceNameLabel, "web-kreg")]
  content := .endpointSlice ⟨.ipv4, [webPort], [⟨["10.0.0.0"], true, true, some "a", some ["a"]⟩]⟩

theorem hubRun_slice :
    (hubRun.state 6).cluster.objects.lookup hubSlice.key = some hubSlice.stored := by
  decide +kernel

theorem hubRun_unobserved :
    ∀ k x, hubRun.start.records.lookup k = some x → ¬ x.status.Observed := by
  intro k x hx
  cases hx

end Kreg
