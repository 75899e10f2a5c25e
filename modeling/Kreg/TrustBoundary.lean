import Kreg.AuthorizeSpec

namespace Kreg
set_option autoImplicit true

def Covered (bindings : List ClusterBinding) (clusterID pfx : String) : Prop :=
  ∃ b ∈ bindings, b.clusterID = clusterID ∧ ∃ allowed ∈ b.allowedPrefixes, ∃ a c,
    parseCIDR allowed = .ok a ∧ parseCIDR pfx = .ok c ∧ a.net.Covers c.net

/-- An entry of the cluster contains the network address of `pfx` under a mask no longer than
the one of `pfx`. -/
def NoWider (bindings : List ClusterBinding) (clusterID pfx : String) : Prop :=
  ∃ b ∈ bindings, b.clusterID = clusterID ∧ ∃ allowed ∈ b.allowedPrefixes, ∃ a c,
    parseCIDR allowed = .ok a ∧ parseCIDR pfx = .ok c ∧
      a.net.contains c.net.addr = true ∧ a.net.ones ≤ c.net.ones

theorem covered_iff (bindings : List ClusterBinding) (clusterID pfx : String) :
    Covered bindings clusterID pfx ↔ NoWider bindings clusterID pfx := by
  simp only [Covered, NoWider, IPNet.covers_iff]

/-- Authorize looks at one address of a route. What it lets through stays within its cluster's
blocks exactly when no admitted route is wider than the entries that contain it. -/
theorem authorize_covered_iff (h : authorize routes bindings = .ok out) :
    (∀ r ∈ out, r.rejected = false → Covered bindings r.clusterID r.pfx) ↔
      ∀ i r b, routes[i]? = some r → Admitted bindings routes i r b →
        NoWider bindings b.clusterID r.pfx := by
  have hout : out = routes.mapIdx (authorizedAt bindings routes) :=
    Except.ok.inj (h.symm.trans (authorize_eq (authorize_matchable h)))
  subst hout
  constructor
  · intro hcov i r b hr hadm
    rw [← covered_iff]
    have hmem : authorizedAt bindings routes i r ∈
        routes.mapIdx (authorizedAt bindings routes) := by
      apply List.mem_of_getElem? (i := i)
      rw [List.getElem?_mapIdx, hr]
      rfl
    have hc := hcov _ hmem ((authorizedAt_rejected bindings routes i r).2 ⟨b, hadm⟩)
    rwa [hadm.clusterID, authorizedAt_pfx] at hc
  · intro hwide out hmem hrej
    obtain ⟨i, hi, rfl⟩ := List.mem_mapIdx.1 hmem
    obtain ⟨b, hadm⟩ := (authorizedAt_rejected bindings routes i routes[i]).1 hrej
    rw [hadm.clusterID, authorizedAt_pfx, covered_iff]
    exact hwide i routes[i] b (List.getElem?_eq_getElem hi) hadm

def edgeBinding : ClusterBinding := ⟨"edge", ["10.0.0.0/16"], none, ⟨"eu", "a"⟩⟩

def edgeRoute (pfx : String) : RIBRoute :=
  ⟨pfx, "", "192.0.2.1", ⟨"", ""⟩, 0, .made [64512], .nil, false, ""⟩

theorem authorize_covered_narrow : Covered [edgeBinding] "edge" "10.0.1.0/24" := by
  have hauth : authorize [edgeRoute "10.0.1.0/24"] [edgeBinding] =
      .ok [(edgeRoute "10.0.1.0/24").attribute edgeBinding] := rfl
  refine (authorize_covered_iff hauth).2 ?_ _ (.head _) rfl
  intro i r b hr hadm
  cases i with
  | zero =>
    cases hr
    have hb : edgeBinding = b := Option.some.inj hadm.owned
    exact ⟨edgeBinding, .head _, congrArg _ hb, _, .head _, _, _, rfl, rfl, rfl, by decide⟩
  | succ i => cases hr

/-- A `/8` passes for a cluster that may originate a `/16`. -/
theorem authorize_wide_uncovered :
    ∃ r, authorize [edgeRoute "10.0.0.0/8"] [edgeBinding] = .ok [r] ∧ r.rejected = false ∧
      ¬ Covered [edgeBinding] r.clusterID r.pfx := by
  refine ⟨(edgeRoute "10.0.0.0/8").attribute edgeBinding, rfl, rfl, ?_⟩
  rw [covered_iff]
  rintro ⟨b, hb, _, allowed, hm, a, c, ha, hc, _, hle⟩
  cases List.mem_singleton.1 hb
  cases List.mem_singleton.1 hm
  have ha' : (parseCIDR "10.0.0.0/16").map (fun a => a.net.ones) = .ok 16 := rfl
  have hc' : (parseCIDR "10.0.0.0/8").map (fun c => c.net.ones) = .ok 8 := rfl
  rw [ha] at ha'
  rw [show parseCIDR "10.0.0.0/8" = .ok c from hc] at hc'
  have hones : a.net.ones = 16 := Except.ok.inj ha'
  have hones' : c.net.ones = 8 := Except.ok.inj hc'
  omega

end Kreg
