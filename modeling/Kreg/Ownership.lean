import Kreg.Convergence
import Kreg.StoredPrior

namespace Kreg
open ApiServer
set_option autoImplicit true

def Cluster.Keeps (policyName : String) (s s' : Cluster) : Prop :=
  ∀ k x, s.objects.lookup k = some x → x.labels.lookup managedByLabel ≠ some policyName →
    s'.objects.lookup k = some x

def Cluster.Adopts (policyName : String) (s : Cluster) (o : Object) : Prop :=
  ∃ x, s.objects.lookup o.key = some x ∧ x.labels.lookup managedByLabel ≠ some policyName

/-- Up to the first object that cannot be written, none lies over an object of somebody else's. -/
def Output.Clear (policyName : String) (s : Cluster) (out : Output) : Prop :=
  ∀ done o rest, out.objects = done ++ o :: rest → s.TakesAll policyName (done ++ [o]) →
    ¬ s.Adopts policyName o

theorem applyOutput_keeps {s : Cluster} (hc : out.Clear key.name s) :
    Ends (applyOutput key stored out) s (fun _ => s.Keeps key.name)
      (fun _ => s.Keeps key.name) := by
  apply applyOutput_inv (I := fun done s' => s' = done.foldl Cluster.put s ∧
    s.TakesAll key.name done ∧ s.Keeps key.name s')
  · exact ⟨rfl, trivial, fun _ _ hx _ => hx⟩
  · exact fun _ _ h => h.2.2
  · rintro done o rest ho s' ⟨hs', htakes, hkept⟩ hadm
    have htakes' := htakes.append (hs' ▸ hadm)
    refine ⟨by rw [hs', List.foldl_append, List.foldl_cons, List.foldl_nil], htakes', ?_⟩
    intro k x hx hl
    rw [Cluster.lookup_put]
    split
    · next he =>
      subst he
      exact absurd ⟨x, hx, hl⟩ (hc done o rest ho htakes')
    · exact hkept k x hx hl
  · intro s' hs' k hk _ s'' hs'' k' x hx hl
    rw [Cluster.lookup_remove]
    split
    · next he =>
      subst he
      obtain ⟨y, hy, hlab⟩ := mem_listSlices.1 hk
      rw [hs' k x hx hl] at hy
      cases hy
      exact absurd (labelledSlice_iff.1 hlab).2.2.1 hl
    · exact hs'' k' x hx hl
  · intro s' hs' k x hx hl
    rw [Cluster.report_objects]
    exact hs' k x hx hl

theorem lookup_foldl_put_append (done : List Object) (o : Object) (s : Cluster) :
    ((done ++ [o]).foldl Cluster.put s).objects.lookup o.key = some o.stored := by
  rw [List.foldl_append, List.foldl_cons, List.foldl_nil, Cluster.lookup_put, if_pos rfl]

variable {F : Type}

theorem clear_of_keeps {candidates : List (BackendCandidate F)} {s : Cluster}
    (hp : s.policies.lookup key = some stored)
    (hrender : render (stored.named key) candidates istioDriver = .ok out)
    (h : ∀ faults, s.Keeps key.name
      (reconcilePolicy istioDriver (.ok candidates) key ⟨s, faults⟩).2.store) :
    out.Clear key.name s := by
  intro done o rest ho htakes hadopts
  obtain ⟨x, hx, hl⟩ := hadopts
  have hsplit : out.objects = (done ++ [o]) ++ rest := by
    rw [ho, List.append_assoc]
    rfl
  obtain ⟨faults, e, w, hrun, hw⟩ := reconcilePolicy_stops hp hrender hsplit htakes
  have hkept := h faults o.key x hx hl
  rw [hrun, hw, lookup_foldl_put_append] at hkept
  cases hkept
  apply hl
  apply (render_labelled hrender).owned
  rw [ho]
  exact List.mem_append_right _ (.head _)

theorem reconcilePolicy_keeps_iff (snapshot : Except String (List (BackendCandidate F)))
    (key : NamespacedName) (s : Cluster) :
    (∀ faults, s.Keeps key.name (reconcilePolicy istioDriver snapshot key ⟨s, faults⟩).2.store) ↔
      ∀ stored candidates out, s.policies.lookup key = some stored → snapshot = .ok candidates →
        render (stored.named key) candidates istioDriver = .ok out → out.Clear key.name s := by
  constructor
  · intro h stored candidates out hp hsnap hrender
    subst hsnap
    exact clear_of_keeps hp hrender h
  · intro h faults
    apply Ends.store
    apply reconcilePolicy_ends
    · exact fun _ _ _ hx _ => hx
    · exact fun _ _ _ hx _ => hx
    · exact fun stored candidates out hp hsnap hrender =>
        applyOutput_keeps (h stored candidates out hp hsnap hrender)

def Records.Keeps (s s' : Records) : Prop :=
  ∀ k r, s.lookup k = some r → r.managed = false → s'.lookup k = some r

/-- The record already holds the desired status, and nothing makes the sweep date it anew. -/
structure Record.Agrees (r : Record) (stamp : Time) (b : AdvertisedBackend) : Prop where
  status : { b.status with
    firstSeen := r.status.firstSeen, lastChange := r.status.lastChange }.stored = r.status
  undisturbed : r.status.semantic = b.status.semantic ∨
    r.status.lastChange = some stamp.truncate

theorem stored_redated (stamp : Time) (desired : AdvertisedBackendStatus) (o : Option Time)
    (h : lc = some stamp.truncate) :
    { desired with firstSeen := o, lastChange := lc }.stored =
      { desired with firstSeen := o, lastChange := some stamp }.stored := by
  subst h
  simp only [AdvertisedBackendStatus.stored, Option.map_some, Time.truncate_truncate]

theorem written_eq_self_iff (stamp : Time) (b : AdvertisedBackend) (r : Record) :
    written stamp b (some r) = r ↔ r.Agrees stamp b := by
  have hstatus : written stamp b (some r) = r ↔
      (updatedStatus stamp r.status b.status).stored = r.status := by
    cases r
    simp only [written, Record.mk.injEq, true_and]
  rw [hstatus]
  by_cases hsem : r.status.semantic = b.status.semantic
  · have hsame : statusChanged r.status b.status = false := by
      rw [statusChanged, hsem, bne_self_eq_false]
    simp only [updatedStatus, hsame, Bool.false_eq_true, ↓reduceIte]
    exact ⟨fun h => ⟨h, .inl hsem⟩, fun h => h.status⟩
  · have hchanged : statusChanged r.status b.status = true := by
      rw [statusChanged, bne_iff_ne]
      exact hsem
    simp only [updatedStatus, hchanged, ↓reduceIte]
    constructor
    · intro h
      have hlc : r.status.lastChange = some stamp.truncate := by
        conv_lhs => rw [← h]
        rfl
      exact ⟨(stored_redated stamp _ _ hlc).trans h, .inr hlc⟩
    · intro h
      have hlc := h.undisturbed.resolve_left hsem
      rw [← stored_redated stamp _ _ hlc]
      exact h.status

variable [Float64 F]

theorem agrees_of_keeps {candidates : List (BackendCandidate F)} {s : Records}
    (h : ∀ faults, s.Keeps (reconcileBackends stamp (.ok candidates) policies ⟨s, faults⟩).2.store)
    (hb : b ∈ buildAdvertisedBackends candidates policies) (hr : s.lookup b.name = some r)
    (hm : r.managed = false) : r.Agrees stamp b := by
  -- wherever the sweep is cut off, the record reads as before
  have hcut : ∀ done rest, buildAdvertisedBackends candidates policies = done ++ rest →
      (done.foldl (applied stamp) s).lookup b.name = some r := by
    intro done rest hsplit
    obtain ⟨faults, e, w, hrun, hw⟩ := reconcileBackends_stops hsplit stamp s
    have hkept := h faults b.name r hr hm
    rw [hrun, hw] at hkept
    exact hkept
  obtain ⟨done, rest, hsplit⟩ := List.append_of_mem hb
  have hbefore := hcut done (b :: rest) hsplit
  have hafter := hcut (done ++ [b]) rest (by rw [hsplit, List.append_assoc]; rfl)
  rw [List.foldl_append, List.foldl_cons, List.foldl_nil, lookup_applied, if_pos rfl,
    hbefore] at hafter
  exact (written_eq_self_iff stamp b r).1 (Option.some.inj hafter)

theorem reconcileBackends_keeps {candidates : List (BackendCandidate F)} {s : Records}
    (h : ∀ b ∈ buildAdvertisedBackends candidates policies, ∀ r, s.lookup b.name = some r →
      r.managed = false → r.Agrees stamp b) (hr : s.lookup k = some r) (hm : r.managed = false) :
    Ends (reconcileBackends stamp (.ok candidates) policies) s
      (fun _ s' => s'.lookup k = some r) (fun _ s' => s'.lookup k = some r) := by
  apply reconcileBackends_inv (I := fun s' => s'.lookup k = some r) candidates policies hr
  · exact fun _ hs' => hs'
  · intro b hb s' hs'
    rw [lookup_applied, hs']
    split
    · next he =>
      subst he
      rw [(written_eq_self_iff stamp b r).2 (h b hb r hr hm)]
    · rfl
  · exact fun b _ s' hs' hnone => lookup_bared_of_some hs' hnone
  · intro s' hs' b hb _ s'' hs''
    have hne : k ≠ b.name := by
      intro he
      obtain ⟨r', hr', hm'⟩ := (mem_listManaged_names s' k).1 (he ▸ List.mem_map_of_mem hb)
      rw [hs'] at hr'
      cases hr'
      rw [hm] at hm'
      cases hm'
    rw [AList.lookup_erase_ne hne]
    exact hs''

theorem reconcileBackends_keeps_iff (stamp : Time)
    (snapshot : Except String (List (BackendCandidate F))) (policies : List BGPBackendPolicy)
    (s : Records) :
    (∀ faults, s.Keeps (reconcileBackends stamp snapshot policies ⟨s, faults⟩).2.store) ↔
      ∀ candidates, snapshot = .ok candidates →
        ∀ b ∈ buildAdvertisedBackends candidates policies, ∀ r, s.lookup b.name = some r →
          r.managed = false → r.Agrees stamp b := by
  constructor
  · intro h candidates hsnap b hb r hr hm
    subst hsnap
    exact agrees_of_keeps h hb hr hm
  · intro h faults k r hr hm
    cases snapshot with
    | error e => exact hr
    | ok candidates => exact (reconcileBackends_keeps (h candidates rfl) hr hm).store faults

/-- Neither controller touches what it does not own exactly if nothing without an owner lies where
it writes: for a policy, up to the first object it cannot write; for the sweep, unless the record
already reads as it would be written. -/
theorem reconciles_keep_unowned_iff (snapshot : Except String (List (BackendCandidate F)))
    (key : NamespacedName) (s : Cluster) (stamp : Time) (policies : List BGPBackendPolicy)
    (records : Records) :
    ((∀ faults,
        s.Keeps key.name (reconcilePolicy istioDriver snapshot key ⟨s, faults⟩).2.store) ↔
      ∀ stored candidates out, s.policies.lookup key = some stored → snapshot = .ok candidates →
        render (stored.named key) candidates istioDriver = .ok out → out.Clear key.name s) ∧
    ((∀ faults,
        records.Keeps (reconcileBackends stamp snapshot policies ⟨records, faults⟩).2.store) ↔
      ∀ candidates, snapshot = .ok candidates →
        ∀ b ∈ buildAdvertisedBackends candidates policies, ∀ r, records.lookup b.name = some r →
          r.managed = false → r.Agrees stamp b) :=
  ⟨reconcilePolicy_keeps_iff snapshot key s,
    reconcileBackends_keeps_iff stamp snapshot policies records⟩

/-- Somebody's own headless Service, with no owner's label on it. -/
def strayService : Object where
  namespaceName := "gateways"
  name := "web-kreg"
  labels := []
  content := .service ⟨"None", [⟨"http", 80, .tcp⟩]⟩

/-- A record somebody has made by hand under the name of a backend. -/
def strayRecords : Records :=
  (∅ : Records).insert "10-1-0-0-24-spoke" ⟨[], .empty⟩

theorem stray_objects_overwritten :
    (¬ ∀ faults, (webCluster [strayService]).Keeps "web"
      (reconcilePolicy istioDriver (.ok [spokeCandidate]) webKey
        ⟨webCluster [strayService], faults⟩).2.store) ∧
    ¬ ∀ faults, strayRecords.Keeps
      (reconcileBackends ⟨second⟩ (.ok [spokeCandidate]) [] ⟨strayRecords, faults⟩).2.store := by
  constructor
  · have hp : (webCluster [strayService]).policies.lookup webKey =
        some ⟨webPolicy, ⟨0, 0, []⟩⟩ := rfl
    intro h
    have hfound : (webCluster [strayService]).objects.lookup webOutput.service.key =
        some strayService.stored := by decide +kernel
    have htakes : (webCluster [strayService]).Takes "web" webOutput.service := by
      constructor
      · rintro x hx ⟨howner, _⟩
        cases hfound.symm.trans hx
        exact howner rfl
      · intro x hx
        cases hfound.symm.trans hx
        rfl
    apply clear_of_keeps hp render_web h [] webOutput.service _ rfl ⟨htakes, trivial⟩
    exact ⟨_, hfound, by decide +kernel⟩
  · intro h
    have hagrees := agrees_of_keeps (b := buildOne spokeCandidate []) h (.head _) rfl rfl
    exact absurd (congrArg AdvertisedBackendStatus.pfx hagrees.status) (by decide +kernel)

end Kreg
