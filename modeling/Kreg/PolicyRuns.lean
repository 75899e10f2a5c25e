import Kreg.Convergence

namespace Kreg
open ApiServer
set_option autoImplicit true

def OwnedBy (owner : NamespacedName) (k : ObjectKey) (x : StoredObject) : Prop :=
  k.namespaceName = owner.namespaceName ∧ x.labels.lookup managedByLabel = some owner.name

def Cluster.HasPolicy (s : Cluster) (key : NamespacedName) : Prop :=
  (s.policies.lookup key).isSome = true

/-- What a reconcile of one policy may do to the cluster, wherever it stops: everything it writes
bears the policy's own label, and what bears another policy's is left alone. -/
structure Touches (key : NamespacedName) (s s' : Cluster) : Prop where
  written : ∀ k x, s'.objects.lookup k = some x →
    s.objects.lookup k = some x ∨ OwnedBy key k x ∧ s.HasPolicy key
  kept : ∀ k x owner, s.objects.lookup k = some x → OwnedBy owner k x → owner.name ≠ "" →
    owner ≠ key ∨ ¬ s.HasPolicy key → s'.objects.lookup k = some x
  policies : ∀ k, s'.HasPolicy k ↔ s.HasPolicy k

theorem Touches.refl (key : NamespacedName) (s : Cluster) : Touches key s s :=
  ⟨fun _ _ => .inl, fun _ _ _ h _ _ _ => h, fun _ => .rfl⟩

theorem OwnedBy.unique (h : OwnedBy owner k x) (h' : OwnedBy owner' k x) : owner = owner' := by
  cases owner
  cases owner'
  simp only [NamespacedName.mk.injEq]
  exact ⟨h.1.symm.trans h'.1, Option.some.inj (h.2.symm.trans h'.2)⟩

section Steps

variable {out : Output} {stored : StoredPolicy} {key : NamespacedName} {s s' : Cluster}

theorem Touches.put (h : Touches key s s') (hp : s.HasPolicy key)
    (hown : o.labels.lookup managedByLabel = some key.name)
    (hns : o.namespaceName = key.namespaceName) (hadm : s'.Admits key.name o) :
    Touches key s (s'.put o) := by
  refine ⟨?_, ?_, h.policies⟩
  · intro k x hx
    rw [Cluster.lookup_put] at hx
    split at hx
    · next he =>
      cases hx
      subst he
      exact .inr ⟨⟨hns, hown⟩, hp⟩
    · exact h.written k x hx
  · intro k x owner hx howner hname hother
    have hkept := h.kept k x owner hx howner hname hother
    rw [Cluster.lookup_put, if_neg]
    · exact hkept
    · intro he
      subst he
      apply hadm x hkept
      have hlabel : x.owner = owner.name := by
        rw [StoredObject.owner, howner.2]
        rfl
      refine ⟨hlabel ▸ hname, fun heq => ?_⟩
      have hsame : owner = key := by
        cases owner
        cases key
        simp only [NamespacedName.mk.injEq]
        exact ⟨howner.1.symm.trans hns, hlabel.symm.trans heq⟩
      exact hother.elim (fun hne => hne hsame) (fun hno => hno hp)

theorem Touches.remove (h : Touches key s s'') (h' : Touches key s s') (hp : s.HasPolicy key)
    (hk : k ∈ s'.listSlices (stored.named key) svc) : Touches key s (s''.remove k) := by
  obtain ⟨y, hy, hlab⟩ := mem_listSlices.1 hk
  obtain ⟨_, hns, hname, _⟩ := labelledSlice_iff.1 hlab
  refine ⟨?_, ?_, h.policies⟩
  · intro k' x hx
    rw [Cluster.lookup_remove] at hx
    split at hx
    · cases hx
    · exact h.written k' x hx
  · intro k' x owner hx howner hne hother
    rw [Cluster.lookup_remove, if_neg]
    · exact h.kept k' x owner hx howner hne hother
    · intro he
      subst he
      cases hy.symm.trans (h'.kept k x owner hx howner hne hother)
      have hsame : owner = key := howner.unique ⟨hns, hname⟩
      exact hother.elim (fun hne => hne hsame) (fun hno => hno hp)

theorem Touches.report (h : Touches key s s') (status : BGPBackendPolicyStatus) :
    Touches key s (s'.report key status) := by
  refine ⟨?_, ?_, ?_⟩
  · rw [Cluster.report_objects]
    exact h.written
  · rw [Cluster.report_objects]
    exact h.kept
  · intro k
    rw [← h.policies k, Cluster.HasPolicy, Cluster.HasPolicy, Cluster.lookup_report]
    split
    · rw [Option.isSome_map]
    · rfl

theorem applyOutput_touches (hl : out.Labelled (stored.named key)) (hp : s.HasPolicy key) :
    Ends (applyOutput key stored out) s (fun _ => Touches key s) (fun _ => Touches key s) := by
  apply applyOutput_inv (I := fun _ => Touches key s) (.refl key s)
  · exact fun _ _ h => h
  · intro done o rest ho s' hs' hadm
    have hmem : o ∈ out.objects := ho ▸ List.mem_append_right _ (.head _)
    exact hs'.put hp (hl.owned o hmem) (hl.located o hmem) hadm.admits
  · intro s' hs' k hk _ s'' hs''
    exact hs''.remove hs' hp hk
  · intro s' hs'
    exact hs'.report _

theorem reconcilePolicy_touches {F : Type}
    (snapshot : Except String (List (BackendCandidate F))) (key : NamespacedName) (s : Cluster) :
    Ends (reconcilePolicy istioDriver snapshot key) s (fun _ => Touches key s)
      (fun _ => Touches key s) := by
  apply reconcilePolicy_ends
  · exact fun _ => .refl key s
  · exact fun _ => .refl key s
  · intro stored candidates output hp _ hrender
    exact applyOutput_touches (render_labelled hrender) (Option.isSome_of_eq_some hp)

end Steps

inductive PolicyEvent (F : Type) where
  | put (key : NamespacedName) (policy : BGPBackendPolicy)
  | delete (key : NamespacedName)
  | reconcile (key : NamespacedName) (snapshot : Except String (List (BackendCandidate F)))
      (faults : List Bool)

variable {F : Type}

/-- The policy is stored with the status it has. -/
def Cluster.setPolicy (s : Cluster) (key : NamespacedName) (policy : BGPBackendPolicy) : Cluster :=
  let status := ((s.policies.lookup key).map StoredPolicy.status).getD ⟨0, 0, []⟩
  { s with policies := s.policies.insert key ⟨policy, status⟩ }

/-- Deleting a policy deletes nothing else: no object refers to it as its owner. -/
def PolicyEvent.step (s : Cluster) : PolicyEvent F → Cluster
  | .put key policy => s.setPolicy key policy
  | .delete key => { s with policies := s.policies.erase key }
  | .reconcile key snapshot faults =>
    (reconcilePolicy istioDriver snapshot key ⟨s, faults⟩).2.store

def PolicyEvent.Changes (key : NamespacedName) : PolicyEvent F → Prop
  | .put key' _ => key' = key
  | .delete key' => key' = key
  | .reconcile _ _ _ => False

theorem Cluster.hasPolicy_setPolicy {s : Cluster} :
    (s.setPolicy key policy).HasPolicy k ↔ k = key ∨ s.HasPolicy k := by
  rw [Cluster.HasPolicy, Cluster.HasPolicy, Cluster.setPolicy]
  by_cases hk : k = key
  · subst hk
    simp only [AList.lookup_insert, Option.isSome_some, true_or]
  · simp only [AList.lookup_insert_ne hk, hk, false_or]

theorem PolicyEvent.hasPolicy_delete {s : Cluster} :
    ((PolicyEvent.delete key : PolicyEvent F).step s).HasPolicy k ↔ k ≠ key ∧ s.HasPolicy k := by
  rw [Cluster.HasPolicy, Cluster.HasPolicy, PolicyEvent.step]
  by_cases hk : k = key
  · subst hk
    simp only [AList.lookup_erase, Option.isSome_none, Bool.false_eq_true, ne_eq,
      not_true_eq_false, false_and]
  · simp only [AList.lookup_erase_ne hk, ne_eq, hk, not_false_eq_true, true_and]

theorem PolicyEvent.touches (s : Cluster) (key : NamespacedName)
    (snapshot : Except String (List (BackendCandidate F))) (faults : List Bool) :
    Touches key s ((PolicyEvent.reconcile key snapshot faults).step s) :=
  (reconcilePolicy_touches snapshot key s).store faults

/-- Any sequence of events, from any cluster. The server takes no object without a name. -/
structure PolicyRun (F : Type) where
  start : Cluster
  event : Nat → PolicyEvent F
  start_named : ∀ key, start.HasPolicy key → key.name ≠ ""
  put_named : ∀ n key policy, event n = .put key policy → key.name ≠ ""

namespace PolicyRun

def cluster (r : PolicyRun F) : Nat → Cluster
  | 0 => r.start
  | n + 1 => (r.event n).step (r.cluster n)

/-- The object has been made in the course of the run: it is there, and was not always. -/
def Made (r : PolicyRun F) (n : Nat) (k : ObjectKey) : Prop :=
  ((r.cluster n).objects.lookup k).isSome = true ∧
    ∃ m ≤ n, (r.cluster m).objects.lookup k = none

def NoOrphans (r : PolicyRun F) (n : Nat) : Prop :=
  ∀ k x, r.Made n k → (r.cluster n).objects.lookup k = some x →
    ∃ owner, OwnedBy owner k x ∧ (r.cluster n).HasPolicy owner

/-- The last event of every policy has been followed by a reconcile that returned. -/
def Settled (r : PolicyRun F) (n : Nat) : Prop :=
  ∀ key, (∃ m < n, (r.event m).Changes key) →
    ∃ m < n, (∃ snapshot faults w, r.event m = .reconcile key snapshot faults ∧
      reconcilePolicy istioDriver snapshot key ⟨r.cluster m, faults⟩ = (.ok (), w)) ∧
      ∀ i, m < i → i < n → ¬ (r.event i).Changes key

structure DeletedAt (r : PolicyRun F) (n : Nat) (key : NamespacedName) (m : Nat) : Prop where
  before : m < n
  deleted : r.event m = .delete key
  since : ∀ i policy, m < i → i < n → r.event i ≠ .put key policy

def CleanDeletions (r : PolicyRun F) (n : Nat) : Prop :=
  ∀ m key, r.DeletedAt n key m → ∀ k x, r.Made m k → (r.cluster m).objects.lookup k = some x →
    ¬ OwnedBy key k x

theorem cluster_succ (r : PolicyRun F) (n : Nat) :
    r.cluster (n + 1) = (r.event n).step (r.cluster n) :=
  rfl

theorem name_ne_empty (r : PolicyRun F) (h : (r.cluster n).HasPolicy key) : key.name ≠ "" := by
  induction n with
  | zero => exact r.start_named key h
  | succ n ih =>
    rw [cluster_succ] at h
    cases he : r.event n with
    | put key' policy =>
      rw [he] at h
      rcases Cluster.hasPolicy_setPolicy.1 h with rfl | h
      · exact r.put_named n key policy he
      · exact ih h
    | delete key' =>
      rw [he] at h
      exact ih (PolicyEvent.hasPolicy_delete.1 h).2
    | reconcile key' snapshot faults =>
      rw [he] at h
      exact ih (((PolicyEvent.touches _ _ _ _).policies key).1 h)

theorem Made.pred {r : PolicyRun F} (h : r.Made (n + 1) k)
    (hx : (r.cluster n).objects.lookup k = some x) : r.Made n k := by
  obtain ⟨hsome, m, hm, hnone⟩ := h
  refine ⟨Option.isSome_of_eq_some hx, m, ?_, hnone⟩
  rcases Nat.lt_or_eq_of_le hm with hlt | rfl
  · exact Nat.lt_succ_iff.1 hlt
  · rw [hnone] at hsome
    cases hsome

theorem DeletedAt.succ {r : PolicyRun F} (h : r.DeletedAt n key m)
    (hput : ∀ policy, r.event n ≠ .put key policy) : r.DeletedAt (n + 1) key m := by
  refine ⟨Nat.lt_succ_of_lt h.before, h.deleted, ?_⟩
  intro i policy hi hin
  rcases Nat.lt_or_eq_of_le (Nat.lt_succ_iff.1 hin) with hlt | rfl
  · exact h.since i policy hi hlt
  · exact hput policy

/-- Where an object made in the run comes from: its policy exists, or it lay there when its
policy was deleted for good. -/
structure Traced (r : PolicyRun F) (n : Nat) (k : ObjectKey) (x : StoredObject)
    (owner : NamespacedName) : Prop where
  owned : OwnedBy owner k x
  name : owner.name ≠ ""
  source : (r.cluster n).HasPolicy owner ∨
    ∃ m, r.DeletedAt n owner m ∧ r.Made m k ∧ (r.cluster m).objects.lookup k = some x

theorem Traced.succ {r : PolicyRun F} (h : r.Traced n k x owner) (hmade : r.Made n k)
    (hx : (r.cluster n).objects.lookup k = some x) : r.Traced (n + 1) k x owner := by
  refine ⟨h.owned, h.name, ?_⟩
  rw [cluster_succ]
  cases he : r.event n with
  | put key policy =>
    by_cases hk : owner = key
    · exact .inl (Cluster.hasPolicy_setPolicy.2 (.inl hk))
    · rcases h.source with hp | ⟨m, hm, hsource⟩
      · exact .inl (Cluster.hasPolicy_setPolicy.2 (.inr hp))
      · refine .inr ⟨m, hm.succ fun policy' heq => ?_, hsource⟩
        cases he.symm.trans heq
        exact hk rfl
  | delete key =>
    by_cases hk : owner = key
    · subst hk
      exact .inr ⟨n, ⟨Nat.lt_succ_self n, he, fun i _ hi hin => by omega⟩, hmade, hx⟩
    · rcases h.source with hp | ⟨m, hm, hsource⟩
      · exact .inl (PolicyEvent.hasPolicy_delete.2 ⟨hk, hp⟩)
      · refine .inr ⟨m, hm.succ fun policy' heq => ?_, hsource⟩
        cases he.symm.trans heq
  | reconcile key snapshot faults =>
    rcases h.source with hp | ⟨m, hm, hsource⟩
    · exact .inl (((PolicyEvent.touches _ _ _ _).policies owner).2 hp)
    · refine .inr ⟨m, hm.succ fun policy' heq => ?_, hsource⟩
      cases he.symm.trans heq

/-- Only a reconcile makes objects, and what it makes is its policy's. -/
theorem exists_traced (r : PolicyRun F) (hmade : r.Made n k)
    (hx : (r.cluster n).objects.lookup k = some x) : ∃ owner, r.Traced n k x owner := by
  induction n with
  | zero =>
    obtain ⟨_, m, hm, hnone⟩ := hmade
    rw [Nat.le_zero.1 hm, hx] at hnone
    cases hnone
  | succ n ih =>
    have hold : (r.cluster n).objects.lookup k = some x → ∃ owner, r.Traced (n + 1) k x owner := by
      intro hx'
      obtain ⟨owner, h⟩ := ih (hmade.pred hx') hx'
      exact ⟨owner, h.succ (hmade.pred hx') hx'⟩
    rw [cluster_succ] at hx
    cases he : r.event n with
    | put key policy =>
      rw [he] at hx
      exact hold hx
    | delete key =>
      rw [he] at hx
      exact hold hx
    | reconcile key snapshot faults =>
      rw [he] at hx
      have ht := PolicyEvent.touches (r.cluster n) key snapshot faults
      rcases ht.written k x hx with hx' | ⟨howned, hp⟩
      · exact hold hx'
      · refine ⟨key, howned, r.name_ne_empty hp, .inl ?_⟩
        rw [cluster_succ, he]
        exact (ht.policies key).2 hp

theorem DeletedAt.kept {r : PolicyRun F} (h : r.DeletedAt n key m) (hname : key.name ≠ "")
    (howned : OwnedBy key k x) (hx : (r.cluster m).objects.lookup k = some x) :
    (r.cluster n).objects.lookup k = some x ∧ ¬ (r.cluster n).HasPolicy key := by
  obtain ⟨d, rfl⟩ := Nat.exists_eq_add_of_lt h.before
  induction d with
  | zero =>
    rw [Nat.add_zero, cluster_succ, h.deleted]
    exact ⟨hx, fun hp => (PolicyEvent.hasPolicy_delete.1 hp).1 rfl⟩
  | succ d ih =>
    have hprev : r.DeletedAt (m + d + 1) key m :=
      ⟨by omega, h.deleted, fun i policy hi hin => h.since i policy hi (by omega)⟩
    obtain ⟨hx', hp'⟩ := ih hprev
    rw [show m + (d + 1) + 1 = m + d + 1 + 1 from rfl, cluster_succ]
    cases he : r.event (m + d + 1) with
    | put key' policy =>
      refine ⟨hx', fun hp => ?_⟩
      rcases Cluster.hasPolicy_setPolicy.1 hp with rfl | hp
      · exact h.since (m + d + 1) policy (by omega) (by omega) he
      · exact hp' hp
    | delete key' => exact ⟨hx', fun hp => hp' (PolicyEvent.hasPolicy_delete.1 hp).2⟩
    | reconcile key' snapshot faults =>
      have ht := PolicyEvent.touches (r.cluster (m + d + 1)) key' snapshot faults
      refine ⟨ht.kept k x key hx' howned hname ?_, fun hp => hp' ((ht.policies key).1 hp)⟩
      by_cases hk : key = key'
      · subst hk
        exact .inr hp'
      · exact .inl hk

/-- At every point of every run, no object is orphaned exactly if every policy that is gone had
none of its objects left when it was deleted. -/
theorem noOrphans_iff (r : PolicyRun F) (n : Nat) : r.NoOrphans n ↔ r.CleanDeletions n := by
  constructor
  · intro h m key hdel k x hmade hx howned
    obtain ⟨owner, htraced⟩ := r.exists_traced hmade hx
    have hsame := htraced.owned.unique howned
    subst hsame
    obtain ⟨hx', hgone⟩ := hdel.kept htraced.name howned hx
    have hmade' : r.Made n k := by
      obtain ⟨_, i, hi, hnone⟩ := hmade
      exact ⟨Option.isSome_of_eq_some hx', i, hi.trans hdel.before.le, hnone⟩
    obtain ⟨owner', howned', hp⟩ := h k x hmade' hx'
    exact hgone (howned'.unique howned ▸ hp)
  · intro h k x hmade hx
    obtain ⟨owner, htraced⟩ := r.exists_traced hmade hx
    refine ⟨owner, htraced.owned, ?_⟩
    rcases htraced.source with hp | ⟨m, hdel, hmade', hx'⟩
    · exact hp
    · exact absurd htraced.owned (h m owner hdel k x hmade' hx')

end PolicyRun

theorem reconcilePolicy_missing (driver : Driver F)
    (snapshot : Except String (List (BackendCandidate F))) (h : ¬ s.HasPolicy key) :
    Completes (reconcilePolicy driver snapshot key) s () s := by
  have hnone : s.policies.lookup key = none := Option.not_isSome_iff_eq_none.1 h
  obtain ⟨e, he, hget⟩ := Completes.get_missing (getPolicy_gets key) hnone
  apply Completes.bind hget
  simp only [he, ↓reduceIte]
  exact .pure _ _

/-- A policy is created, reconciled, deleted and reconciled over and over, without an error. -/
def webEvents : List (PolicyEvent ℚ) :=
  [.put webKey webPolicy, .reconcile webKey (.ok [spokeCandidate]) [], .delete webKey]

def webRun : PolicyRun ℚ where
  start := ⟨∅, ∅⟩
  event n := webEvents.getD n (.reconcile webKey (.ok [spokeCandidate]) [])
  start_named key h := by cases h
  put_named n key policy h := by
    cases n with
    | zero =>
      cases h
      decide
    | succ n =>
      rcases n with _ | _ | n
      · cases h
      · cases h
      · cases h

theorem webRun_two :
    webRun.cluster 2 =
      (webRun.cluster 1).converged webKey ⟨webPolicy, ⟨0, 0, []⟩⟩ webOutput := by
  have he : webRun.event 1 = .reconcile webKey (.ok [spokeCandidate]) [] := rfl
  have hp : (webRun.cluster 1).policies.lookup webKey = some ⟨webPolicy, ⟨0, 0, []⟩⟩ := rfl
  have hreturns := (reconcilePolicy_completes hp render_web (takesAll_web fun _ _ => rfl)).returns
  rw [PolicyRun.cluster_succ, he, PolicyEvent.step, hreturns]

theorem webRun_three :
    webRun.cluster 3 = (PolicyEvent.delete webKey : PolicyEvent ℚ).step (webRun.cluster 2) := by
  have he : webRun.event 2 = .delete webKey := rfl
  rw [PolicyRun.cluster_succ, he]

theorem webRun_missing : ¬ (webRun.cluster 3).HasPolicy webKey := by
  rw [webRun_three]
  exact fun h => (PolicyEvent.hasPolicy_delete.1 h).1 rfl

theorem webRun_four : webRun.cluster 4 = webRun.cluster 3 := by
  have he : webRun.event 3 = .reconcile webKey (.ok [spokeCandidate]) [] := rfl
  have hreturns :=
    (reconcilePolicy_missing istioDriver (.ok [spokeCandidate]) webRun_missing).returns
  rw [PolicyRun.cluster_succ, he, PolicyEvent.step, hreturns]

theorem webRun_service :
    (webRun.cluster 4).objects.lookup webOutput.service.key = some webOutput.service.stored := by
  let stored : StoredPolicy := ⟨webPolicy, ⟨0, 0, []⟩⟩
  have hrender : render (stored.named webKey) [spokeCandidate] istioDriver = .ok webOutput :=
    render_web
  have hkeys : (webOutput.objects.map Object.key).Nodup := by decide
  have hservice := converged_rendered (render_labelled hrender) hkeys (webRun.cluster 1) (.head _)
  rw [webRun_four, webRun_three, PolicyEvent.step, webRun_two]
  exact hservice

/-- The Service of a policy is still there when all that has happened to the policy has been
reconciled and the policy is gone. -/
theorem webRun_orphans : webRun.Settled 4 ∧ ¬ webRun.NoOrphans 4 := by
  constructor
  · rintro key ⟨m, hm, hc⟩
    have hkey : webKey = key := by
      rcases m with _ | _ | _ | m
      · exact hc
      · cases hc
      · exact hc
      · cases hc
    subst hkey
    have he : webRun.event 3 = .reconcile webKey (.ok [spokeCandidate]) [] := rfl
    have hreturns :=
      (reconcilePolicy_missing istioDriver (.ok [spokeCandidate]) webRun_missing).returns
    exact ⟨3, by decide, ⟨_, _, _, he, hreturns⟩, fun i hi hin => by omega⟩
  · intro h
    have hmade : webRun.Made 4 webOutput.service.key :=
      ⟨Option.isSome_of_eq_some webRun_service, 0, by decide, rfl⟩
    obtain ⟨owner, howned, hp⟩ := h _ _ hmade webRun_service
    have hweb : OwnedBy webKey webOutput.service.key webOutput.service.stored := ⟨rfl, rfl⟩
    rw [howned.unique hweb, webRun_four] at hp
    exact webRun_missing hp

end Kreg
