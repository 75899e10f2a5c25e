import Kreg.ClusterView
import Kreg.TrustBoundary

namespace Kreg
open Ranking
set_option autoImplicit true

/-- The cap a binding puts on its cluster; a negative one counts as none. -/
def ClusterBinding.cap (b : ClusterBinding) : Option Nat :=
  b.maxPrefixes.bind fun m => if m < 0 then none else some m.toInt.toNat

def lowestCap (bindings : List ClusterBinding) (clusterID : String) : Option Nat :=
  ((bindings.filter fun b => b.clusterID == clusterID).filterMap ClusterBinding.cap).min?

theorem cap_eq_some_iff {b : ClusterBinding} :
    b.cap = some n ↔ ∃ m, b.maxPrefixes = some m ∧ ¬ m < 0 ∧ m.toInt.toNat = n := by
  rw [ClusterBinding.cap, Option.bind_eq_some_iff]
  apply exists_congr
  intro m
  apply and_congr_right
  intro _
  by_cases hneg : m < 0
  · simp only [hneg, ↓reduceIte, reduceCtorEq, not_true_eq_false, false_and]
  · simp only [hneg, ↓reduceIte, Option.some.injEq, not_false_eq_true, true_and]

theorem lowestCap_le_iff (bindings : List ClusterBinding) (clusterID : String) (n : Nat) :
    (∃ m, lowestCap bindings clusterID = some m ∧ m ≤ n) ↔
      ∃ b ∈ bindings, b.clusterID = clusterID ∧ ∃ m, b.cap = some m ∧ m ≤ n := by
  have hmem : ∀ m, m ∈ (bindings.filter fun b => b.clusterID == clusterID).filterMap
        ClusterBinding.cap ↔ ∃ b ∈ bindings, b.clusterID = clusterID ∧ b.cap = some m := by
    intro m
    simp only [List.mem_filterMap, List.mem_filter, beq_iff_eq, and_assoc]
  constructor
  · rintro ⟨m, hm, hle⟩
    obtain ⟨b, hb, hc, hcap⟩ := (hmem m).1 (List.min?_mem hm)
    exact ⟨b, hb, hc, m, hcap, hle⟩
  · rintro ⟨b, hb, hc, m, hcap, hle⟩
    have hin := (hmem m).2 ⟨b, hb, hc, hcap⟩
    obtain ⟨least, hleast⟩ := Option.isSome_iff_exists.1
      (List.isSome_min?_iff.2 (List.ne_nil_of_mem hin))
    exact ⟨least, hleast, ((List.min?_eq_some_iff.1 hleast).2 m hin).trans hle⟩

def RIBRoute.rankIn (r : RIBRoute) (own : List RIBRoute) : Nat :=
  own.countP fun a => decide (a.pfx < r.pfx)

theorem rankIn_lt_length {own : List RIBRoute} (hr : r ∈ own) : r.rankIn own < own.length := by
  apply lt_of_le_of_ne List.countP_le_length
  intro he
  exact lt_irrefl r.pfx (of_decide_eq_true (List.countP_eq_length.1 he r hr))

/-- Below `2 ^ 31` routes, the length test of the cap loop never hides an excess route. -/
theorem pastCap_iff {own : List RIBRoute} (hlen : own.length < 2 ^ 31) (hr : r ∈ own)
    (m : Int32) : PastCap own m r ↔ ¬ m < 0 ∧ m.toInt.toNat ≤ r.rankIn own := by
  rw [PastCap]
  apply and_congr_right
  intro hneg
  apply and_iff_right_of_imp
  intro hle
  have hlt := rankIn_lt_length hr
  have hpos : (0 : Int) ≤ m.toInt := by
    rw [Int32.lt_iff_toInt_lt] at hneg
    exact not_lt.1 hneg
  rw [Int32.le_iff_toInt_le, Int32.toInt_ofNat_of_lt hlen]
  rw [RIBRoute.rankIn] at hlt
  omega

theorem mem_share_iff {bindings : List ClusterBinding} {routes : List RIBRoute} :
    r ∈ share bindings routes clusterID ↔ r ∈ routes ∧ r.cluster bindings = some clusterID := by
  rw [share, List.mem_filter, beq_iff_eq]

/-- What Authorize makes of an unflagged route: the first binding that allows the address it is
written with names its cluster and locality, and its rank in that cluster decides. -/
structure Judged (bindings : List ClusterBinding) (routes : List RIBRoute) (r out : RIBRoute) :
    Prop where
  pfx : out.pfx = r.pfx
  peer : out.peer = r.peer
  med : out.med = r.med
  asPath : out.asPath = r.asPath
  largeCommunities : out.largeCommunities = r.largeCommunities
  clusterID : out.clusterID = (r.cluster bindings).getD ""
  locality : out.locality = ((r.owner bindings).map ClusterBinding.locality).getD ⟨"", ""⟩
  rejected : out.rejected = true ↔ r.owner bindings = none ∨
    ∃ clusterID m, r.cluster bindings = some clusterID ∧ lowestCap bindings clusterID = some m ∧
      m ≤ r.rankIn (share bindings routes clusterID)

section Verdicts

variable {bindings : List ClusterBinding} {routes : List RIBRoute}

theorem share_length_lt (hlen : routes.length < 2 ^ 31) (clusterID : String) :
    (share bindings routes clusterID).length < 2 ^ 31 :=
  lt_of_le_of_lt (List.length_filter_le ..) hlen

theorem exists_pastCap_iff (hlen : routes.length < 2 ^ 31) (hr : r ∈ routes)
    (hc : r.cluster bindings = some clusterID) :
    (∃ b ∈ bindings, b.clusterID = clusterID ∧ ∃ m, b.maxPrefixes = some m ∧
        PastCap (share bindings routes clusterID) m r) ↔
      ∃ m, lowestCap bindings clusterID = some m ∧
        m ≤ r.rankIn (share bindings routes clusterID) := by
  have hmem : r ∈ share bindings routes clusterID := mem_share_iff.2 ⟨hr, hc⟩
  simp only [lowestCap_le_iff, pastCap_iff (share_length_lt hlen clusterID) hmem, cap_eq_some_iff]
  constructor
  · rintro ⟨b, hb, hid, m, hm, hneg, hle⟩
    exact ⟨b, hb, hid, _, ⟨m, hm, hneg, rfl⟩, hle⟩
  · rintro ⟨b, hb, hid, _, ⟨m, hm, hneg, rfl⟩, hle⟩
    exact ⟨b, hb, hid, m, hm, hneg, hle⟩

theorem authorizedIn_accepted_iff (hlen : routes.length < 2 ^ 31)
    (hd : (routes.map RIBRoute.pfx).Nodup) (hflag : ∀ r ∈ routes, r.rejected = false)
    (hr : r ∈ routes) (hc : r.cluster bindings = some clusterID) :
    (authorizedIn bindings routes r).rejected = false ↔
      ¬ ∃ m, lowestCap bindings clusterID = some m ∧
        m ≤ r.rankIn (share bindings routes clusterID) := by
  rw [authorizedIn_rejected hd hr, ← exists_pastCap_iff hlen hr hc]
  constructor
  · rintro h ⟨b, hb, hid, m, hm, hp⟩
    subst hid
    exact h.uncut b hb m hm hc hp
  · intro h
    refine ⟨hflag r hr, Option.isSome_of_eq_some hc, ?_⟩
    intro b hb m hm hid hp
    have he : b.clusterID = clusterID := Option.some.inj (hid.symm.trans hc)
    exact h ⟨b, hb, he, m, hm, he ▸ hp⟩

theorem authorizedIn_unowned (hd : (routes.map RIBRoute.pfx).Nodup) (hr : r ∈ routes)
    (ho : r.owner bindings = none) : (authorizedIn bindings routes r).rejected = true := by
  rw [← Bool.not_eq_false, authorizedIn_rejected hd hr]
  intro h
  have hs := h.owned
  rw [RIBRoute.cluster, ho] at hs
  cases hs

theorem judged_authorizedIn (hlen : routes.length < 2 ^ 31)
    (hd : (routes.map RIBRoute.pfx).Nodup) (hflag : ∀ r ∈ routes, r.rejected = false)
    (hr : r ∈ routes) : Judged bindings routes r (authorizedIn bindings routes r) := by
  have hrej : (authorizedIn bindings routes r).rejected = true ↔ r.owner bindings = none ∨
      ∃ clusterID m, r.cluster bindings = some clusterID ∧
        lowestCap bindings clusterID = some m ∧
          m ≤ r.rankIn (share bindings routes clusterID) := by
    cases ho : r.owner bindings with
    | none => exact ⟨fun _ => .inl rfl, fun _ => authorizedIn_unowned hd hr ho⟩
    | some b =>
      have hc : r.cluster bindings = some b.clusterID := by
        rw [RIBRoute.cluster, ho]
        rfl
      rw [← Bool.not_eq_false, authorizedIn_accepted_iff hlen hd hflag hr hc, not_not]
      constructor
      · rintro ⟨m, hm, hle⟩
        exact .inr ⟨b.clusterID, m, hc, hm, hle⟩
      · rintro (h | ⟨k, m, hk, hm, hle⟩)
        · cases h
        · cases hc.symm.trans hk
          exact ⟨m, hm, hle⟩
  have hform : ∃ rejected reason, authorizedIn bindings routes r =
      { r.attributed bindings with rejected := rejected, reason := reason } :=
    authorizedIn_eq hd hr
  obtain ⟨rejected, reason, he⟩ := hform
  have hcluster : (authorizedIn bindings routes r).clusterID = (r.cluster bindings).getD "" :=
    authorizedIn_clusterID hd hr
  rw [he, RIBRoute.attributed] at hrej hcluster ⊢
  cases ho : r.owner bindings with
  | none =>
    rw [ho] at hrej hcluster
    exact ⟨rfl, rfl, rfl, rfl, rfl, hcluster, by rw [ho]; rfl, ho ▸ hrej⟩
  | some b =>
    rw [ho] at hrej hcluster
    exact ⟨rfl, rfl, rfl, rfl, rfl, hcluster, by rw [ho]; rfl, ho ▸ hrej⟩

theorem countP_accepted (hlen : routes.length < 2 ^ 31) (hd : (routes.map RIBRoute.pfx).Nodup)
    (hflag : ∀ r ∈ routes, r.rejected = false) (hm : lowestCap bindings clusterID = some m) :
    (routes.countP fun r => (authorizedIn bindings routes r).clusterID == clusterID &&
        !(authorizedIn bindings routes r).rejected) =
      min m (share bindings routes clusterID).length := by
  have hown : ((share bindings routes clusterID).map RIBRoute.pfx).Nodup :=
    hd.sublist (List.filter_sublist.map _)
  rw [← countP_countP_lt RIBRoute.pfx hown m]
  conv_rhs => rw [share, List.countP_filter, ← share]
  apply List.countP_congr
  intro r hr
  have hid : (authorizedIn bindings routes r).clusterID = (r.cluster bindings).getD "" :=
    authorizedIn_clusterID hd hr
  simp only [Bool.and_eq_true, beq_iff_eq, Bool.not_eq_true', decide_eq_true_eq]
  cases hc : r.cluster bindings with
  | none =>
    have ho : r.owner bindings = none := Option.map_eq_none_iff.1 hc
    simp only [authorizedIn_unowned hd hr ho, Bool.true_eq_false, and_false, reduceCtorEq]
  | some k =>
    rw [hid, hc, Option.getD_some, Option.some.injEq, and_comm]
    apply and_congr_left
    intro hk
    subst hk
    rw [authorizedIn_accepted_iff hlen hd hflag hr hc, ← not_le]
    apply not_congr
    constructor
    · rintro ⟨m', hm', hle⟩
      cases hm.symm.trans hm'
      exact hle
    · intro hle
      exact ⟨m, hm, hle⟩

theorem authorize_perm (hm : Matchable bindings routes) (hd : (routes.map RIBRoute.pfx).Nodup)
    (hp : routes'.Perm routes) :
    authorize routes' bindings = .ok (routes'.map (authorizedIn bindings routes)) := by
  have hm' : Matchable bindings routes' := fun r hr => hm r (hp.mem_iff.1 hr)
  have hd' : (routes'.map RIBRoute.pfx).Nodup := (hp.map _).nodup_iff.2 hd
  rw [authorize_eq hm', mapIdx_authorizedAt hd']
  apply congrArg Except.ok
  apply List.map_congr_left
  intro r _
  exact authorizedIn_of_share fun k _ => hp.filter _

/-- Authorize on a RIB of distinct prefixes: one verdict for every route, whatever their order. -/
theorem authorize_characterised (hlen : routes.length < 2 ^ 31)
    (hd : (routes.map RIBRoute.pfx).Nodup) (hroutes : ∀ r ∈ routes, Parses r.pfx)
    (hflag : ∀ r ∈ routes, r.rejected = false)
    (hbindings : ∀ b ∈ bindings, ∀ allowed ∈ b.allowedPrefixes, Parses allowed) :
    ∃ verdict : RIBRoute → RIBRoute,
      (∀ routes' : List RIBRoute, routes'.Perm routes →
        authorize routes' bindings = .ok (routes'.map verdict)) ∧
      (∀ r ∈ routes, Judged bindings routes r (verdict r)) ∧
      ∀ clusterID m, lowestCap bindings clusterID = some m →
        (routes.countP fun r => (verdict r).clusterID == clusterID && !(verdict r).rejected) =
          min m (share bindings routes clusterID).length := by
  have hm := (matchable_iff hbindings).2 hroutes
  refine ⟨authorizedIn bindings routes, ?_, ?_, ?_⟩
  · intro routes' hp
    exact authorize_perm hm hd hp
  · intro r hr
    exact judged_authorizedIn hlen hd hflag hr
  · intro clusterID m hcap
    exact countP_accepted hlen hd hflag hcap

theorem authorize_characterised_capped :
    ∃ verdict : RIBRoute → RIBRoute,
      authorize [edgeRoute "10.0.2.0/24", edgeRoute "10.0.1.0/24"]
          [{ edgeBinding with maxPrefixes := some 1 }, edgeBinding] =
        .ok [verdict (edgeRoute "10.0.2.0/24"), verdict (edgeRoute "10.0.1.0/24")] ∧
      ([edgeRoute "10.0.2.0/24", edgeRoute "10.0.1.0/24"].countP fun r =>
        (verdict r).clusterID == "edge" && !(verdict r).rejected) = 1 := by
  have hd : ([edgeRoute "10.0.2.0/24", edgeRoute "10.0.1.0/24"].map RIBRoute.pfx).Nodup := by
    decide
  have hroutes : ∀ r ∈ [edgeRoute "10.0.2.0/24", edgeRoute "10.0.1.0/24"], Parses r.pfx := by
    intro r hr
    rcases List.mem_pair.1 hr with rfl | rfl
    · exact ⟨_, rfl⟩
    · exact ⟨_, rfl⟩
  have hbindings : ∀ b ∈ [{ edgeBinding with maxPrefixes := some 1 }, edgeBinding],
      ∀ allowed ∈ b.allowedPrefixes, Parses allowed := by
    intro b hb allowed hallowed
    have hmem : allowed ∈ ["10.0.0.0/16"] := by
      rcases List.mem_pair.1 hb with rfl | rfl
      · exact hallowed
      · exact hallowed
    cases List.mem_singleton.1 hmem
    exact ⟨_, rfl⟩
  obtain ⟨verdict, hperm, _, hcount⟩ :=
    authorize_characterised (by decide) hd hroutes (by decide) hbindings
  exact ⟨verdict, hperm _ (.refl _), hcount "edge" 1 (by decide)⟩

/-- Authorize tests the address a route is written with. With host bits set that is not its
network address, which the cluster may well originate. -/
theorem authorize_host_bits :
    ∃ c, parseCIDR "10.1.2.3/8" = .ok c ∧ edgeBinding.allows c.net.addr = true ∧
      authorize [edgeRoute "10.1.2.3/8"] [edgeBinding] =
        .ok [(edgeRoute "10.1.2.3/8").unmatched] :=
  ⟨_, rfl, rfl, rfl⟩

end Verdicts

end Kreg
