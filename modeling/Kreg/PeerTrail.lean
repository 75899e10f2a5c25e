import Kreg.PeerAuth
import Kreg.PeerRuns

namespace Kreg
open ApiServer
set_option autoImplicit true

section Casts

variable [SecondsCast]

section Reconfigure

variable {spec : BGPPeerConfigSpec} {passwords : GoMap String} {m m' : Manager}

def Manager.Mixes (spec : BGPPeerConfigSpec) (passwords : GoMap String) (m m' : Manager) : Prop :=
  ∀ a p, m'.peers.lookup a = some p → m.peers.lookup a = some p ∨
    ∃ peer ∈ spec.peers, peer.host = a ∧
      p = toAPIPeer peer ((passwords.lookup peer.name).getD "")

theorem Manager.Mixes.refl (h : m'.peers = m.peers) : m.Mixes spec passwords m' := by
  intro a p hp
  rw [h] at hp
  exact .inl hp

theorem Manager.Mixes.configured (h : m.Mixes spec passwords m') (hpeer : peer ∈ spec.peers) :
    m.Mixes spec passwords (m'.configured passwords peer) := by
  intro a p hp
  by_cases ha : a = peer.host
  · subst ha
    rw [Manager.configured, Manager.put, toAPIPeer_neighborAddress, AList.lookup_insert] at hp
    cases hp
    exact .inr ⟨peer, hpeer, rfl, rfl⟩
  · rw [Manager.configured, Manager.put, toAPIPeer_neighborAddress, AList.lookup_insert_ne ha] at hp
    exact h a p hp

omit [SecondsCast] in
theorem Manager.lookup_of_drop (h : (m.drop b).peers.lookup a = some p) :
    m.peers.lookup a = some p := by
  by_cases hab : a = b
  · subst hab
    rw [Manager.drop, AList.lookup_erase] at h
    cases h
  · rw [Manager.drop, AList.lookup_erase_ne hab] at h
    exact h

theorem Manager.Mixes.drop (h : m.Mixes spec passwords m') (b : String) :
    m.Mixes spec passwords (m'.drop b) :=
  fun a p hp => h a p (Manager.lookup_of_drop hp)

theorem Manager.mem_configured {a : String} :
    a ∈ (m.configured passwords peer).peers ↔ a = peer.host ∨ a ∈ m.peers := by
  rw [Manager.configured, Manager.put, AList.mem_insert, toAPIPeer_neighborAddress]

/-- What a `Reconfigure` may leave wherever it stops. It drops no neighbor that its spec lists,
and none at all before all of these are there. -/
structure Manager.Reconfigures (spec : BGPPeerConfigSpec) (passwords : GoMap String)
    (m m' : Manager) : Prop where
  mixes : m.Mixes spec passwords m'
  dropped : ∀ a ∈ m.peers, a ∉ m'.peers → a ∉ spec.hosts ∧ ∀ b ∈ spec.hosts, b ∈ m'.peers

/-- What the first loop keeps: nothing is dropped, and the peers it is done with are there. -/
structure Manager.Adds (spec : BGPPeerConfigSpec) (passwords : GoMap String) (m : Manager)
    (done : List BGPPeer) (m' : Manager) : Prop where
  mixes : m.Mixes spec passwords m'
  kept : ∀ a ∈ m.peers, a ∈ m'.peers
  added : ∀ peer ∈ done, peer.host ∈ m'.peers

theorem Manager.Adds.nil (h : m'.peers = m.peers) : m.Adds spec passwords [] m' where
  mixes := .refl h
  kept _ ha := h ▸ ha
  added := List.forall_mem_nil _

theorem Manager.Adds.configured (h : m.Adds spec passwords done m') (hpeer : peer ∈ spec.peers) :
    m.Adds spec passwords (done ++ [peer]) (m'.configured passwords peer) where
  mixes := h.mixes.configured hpeer
  kept a ha := Manager.mem_configured.2 (.inr (h.kept a ha))
  added other hother := by
    rw [Manager.mem_configured]
    rcases List.mem_append.1 hother with hdone | hnew
    · exact .inr (h.added other hdone)
    · cases List.mem_singleton.1 hnew
      exact .inl rfl

theorem Manager.Adds.reconfigures (h : m.Adds spec passwords done m') :
    m.Reconfigures spec passwords m' where
  mixes := h.mixes
  dropped a ha hnot := absurd (h.kept a ha) hnot

/-- What the second loop keeps: all that the spec lists is there. -/
structure Manager.Lists (spec : BGPPeerConfigSpec) (passwords : GoMap String) (m m' : Manager) :
    Prop where
  mixes : m.Mixes spec passwords m'
  hosts : ∀ b ∈ spec.hosts, b ∈ m'.peers

theorem Manager.Lists.reconfigures (h : m.Lists spec passwords m') :
    m.Reconfigures spec passwords m' where
  mixes := h.mixes
  dropped a _ hnot := ⟨fun ha => hnot (h.hosts a ha), h.hosts⟩

theorem Manager.Adds.lists (h : m.Adds spec passwords spec.peers m') :
    m.Lists spec passwords m' where
  mixes := h.mixes
  hosts b hb := by
    obtain ⟨peer, hpeer, rfl⟩ := List.mem_map.1 hb
    exact h.added peer hpeer

theorem Manager.Lists.drop (h : m.Lists spec passwords m') (hb : b ∉ spec.hosts) :
    m.Lists spec passwords (m'.drop b) where
  mixes := h.mixes.drop b
  hosts a ha := by
    rw [Manager.drop, AList.mem_erase]
    exact ⟨fun he => hb (he ▸ ha), h.hosts a ha⟩

theorem applyPeers_adds (existing : List String) {m₁ : Manager} (h : m₁.peers = m.peers) :
    Ends (each (applyPeer existing passwords) spec.peers) m₁
      (fun _ => m.Adds spec passwords spec.peers) (fun _ => m.Reconfigures spec passwords) := by
  apply Ends.each (I := m.Adds spec passwords) _ (.nil h)
  intro done peer rest hpeers m' hm'
  have hpeer : peer ∈ spec.peers := hpeers ▸ List.mem_append_right _ (.head _)
  apply (applyPeer_ends existing passwords peer m').mono
  · rintro _ _ rfl
    exact hm'.configured hpeer
  · rintro _ _ rfl
    exact hm'.reconfigures

theorem dropPeers_lists (existing : List String) {m₁ : Manager} (h : m.Lists spec passwords m₁) :
    Ends (each (dropPeer spec.hosts) existing) m₁ (fun _ => m.Lists spec passwords)
      (fun _ => m.Reconfigures spec passwords) := by
  apply Ends.each_inv _ h
  intro a _ m' hm'
  apply (dropPeer_ends spec.hosts a m').mono
  · rintro _ _ rfl
    rw [Manager.undesired]
    split
    · exact hm'
    · next ha => exact hm'.drop ha
  · rintro _ _ rfl
    exact hm'.reconfigures

theorem reconfigure_leaves (spec : BGPPeerConfigSpec) (passwords : GoMap String) (m : Manager) :
    Ends (reconfigure spec passwords) m (fun _ => m.Reconfigures spec passwords)
      (fun _ => m.Reconfigures spec passwords) := by
  have hsame {m' : Manager} (h : m'.peers = m.peers) : m.Reconfigures spec passwords m' :=
    (Manager.Adds.nil h).reconfigures
  apply Ends.bind
  apply (ensureStarted_ends spec m).mono
  · intro _ m₁ hm₁
    apply Ends.bind
    apply Ends.wrap
    apply Ends.call
    · exact hsame hm₁
    · exact fun _ _ => hsame hm₁
    · intro existing _ hlist
      cases hlist
      apply Ends.bind
      apply (applyPeers_adds m₁.peers.keys hm₁).mono
      · intro _ m₂ hadds
        apply (dropPeers_lists m₁.peers.keys hadds.lists).mono
        · exact fun _ _ h => h.reconfigures
        · exact fun _ _ h => h
      · exact fun _ _ h => h
  · exact fun _ _ h => hsame h

end Reconfigure

section Reads

def PeerCluster.Reconciles (ns name : String) (s s' : PeerCluster) : Prop :=
  s'.manager.peers = s.manager.peers ∨ ∃ spec passwords, s.specOf name = some spec ∧
    Resolves s ns spec.peers [] ∅ passwords ∧ s.manager.Reconfigures spec passwords s'.manager

theorem PeerReconcile.run_reconciles (q : PeerReconcile) (ns : String) (s : PeerCluster) :
    s.Reconciles ns q.name (q.run ns s).2.store := by
  apply Ends.store (I := s.Reconciles ns q.name)
  apply Ends.bind
  apply (readPeerConfig_resolves ns q.name s).mono
  · rintro found s₁ ⟨rfl, hspec, hfound⟩
    cases found with
    | none => exact .pure (.inl rfl)
    | some p =>
      have hresolves := hfound p rfl
      apply Ends.bind
      apply Ends.wrap
      apply Ends.onPart
      apply (reconfigure_leaves p.1 p.2 s₁.manager).mono
      · intro _ m hm
        have hdone (s' : PeerCluster) (h : s'.manager = m) : s₁.Reconciles ns q.name s' :=
          .inr ⟨p.1, p.2, hspec, hresolves, h ▸ hm⟩
        apply (reportPeers_ends q.observed q.tracker q.name { s₁ with manager := m }).mono
        · exact fun _ s' h => hdone s' h.1
        · exact fun _ s' h => hdone s' h.1
      · exact fun _ m hm => .inr ⟨p.1, p.2, hspec, hresolves, hm⟩
  · rintro _ _ rfl
    exact .inl rfl

theorem PeerEvent.step_peers (e : PeerEvent) (ns : String) (s : PeerCluster) :
    (e.step ns s).manager.peers = s.manager.peers ∨ ∃ q, e = .reconcile q ∧
      s.Reconciles ns q.name (e.step ns s) := by
  cases e with
  | put name spec => exact .inl rfl
  | delete name => exact .inl rfl
  | secret key data => cases data <;> exact .inl rfl
  | reconcile q => exact .inr ⟨q, rfl, q.run_reconciles ns s⟩

end Reads

namespace PeerRun

/-- Event `m` reconciles an object that lists the peer, with the password stored for it, if the
peer names one; for a peer that requires one something is stored, be it the empty text. -/
structure Configures (r : PeerRun) (m : Nat) (peer : BGPPeer) (password : Option String) :
    Prop where
  listed : ∃ q spec, r.event m = .reconcile q ∧ (r.cluster m).specOf q.name = some spec ∧
    peer ∈ spec.peers
  stored : password = (r.cluster m).passwordOf r.namespaceName peer
  required : ∀ ref, peer.Requires ref → password ≠ none

/-- Whatever fails on the way, a neighbor was given as some object had it at some moment, with what
was stored then as its password. -/
theorem neighbors_configured (r : PeerRun)
    (h : (r.cluster n).manager.peers.lookup a = some p) :
    ∃ m < n, ∃ peer password, r.Configures m peer password ∧ peer.host = a ∧
      p = toAPIPeer peer (password.getD "") := by
  induction n with
  | zero =>
    rw [cluster, r.fresh] at h
    cases h
  | succ n ih =>
    have hold (hp : (r.cluster n).manager.peers.lookup a = some p) :
        ∃ m < n + 1, ∃ peer password, r.Configures m peer password ∧ peer.host = a ∧
          p = toAPIPeer peer (password.getD "") := by
      obtain ⟨m, hm, hpeer⟩ := ih hp
      exact ⟨m, Nat.lt_succ_of_lt hm, hpeer⟩
    rw [cluster] at h
    rcases (r.event n).step_peers r.namespaceName (r.cluster n) with hsame | ⟨q, he, hrec⟩
    · exact hold (hsame ▸ h)
    · rcases hrec with hsame | ⟨spec, passwords, hspec, hresolves, hreconf⟩
      · exact hold (hsame ▸ h)
      · rcases hreconf.mixes a p h with hp | ⟨peer, hpeer, hhost, rfl⟩
        · exact hold hp
        · have hstored := hresolves.resolved peer hpeer
          have hrequired := hresolves.required peer hpeer
          rw [← hstored] at hrequired
          exact ⟨n, n.lt_succ_self, peer, passwords.lookup peer.name,
            ⟨⟨q, spec, he, hspec, hpeer⟩, hstored, hrequired⟩, hhost, rfl⟩

/-- A session goes when an object is reconciled that does not list it, and not before every peer
of that object is configured. -/
theorem session_dropped (r : PeerRun) (hlive : a ∈ (r.cluster n).manager.peers)
    (hgone : a ∉ (r.cluster (n + 1)).manager.peers) :
    ∃ q spec, r.event n = .reconcile q ∧ (r.cluster n).specOf q.name = some spec ∧
      a ∉ spec.hosts ∧ ∀ b ∈ spec.hosts, b ∈ (r.cluster (n + 1)).manager.peers := by
  rw [cluster] at hgone ⊢
  rcases (r.event n).step_peers r.namespaceName (r.cluster n) with hsame | ⟨q, he, hrec⟩
  · exact absurd (hsame ▸ hlive) hgone
  · rcases hrec with hsame | ⟨spec, passwords, hspec, _, hreconf⟩
    · exact absurd (hsame ▸ hlive) hgone
    · obtain ⟨hunlisted, hthere⟩ := hreconf.dropped a hlive hgone
      exact ⟨q, spec, he, hspec, hunlisted, hthere⟩

end PeerRun

end Casts

/-- One object, whose peer moves after it is configured. -/
def movingRun : PeerRun where
  namespaceName := "kreg-system"
  start := ⟨AList.singleton "hub" ⟨⟨64512, "192.0.2.1", none, [guardedPeer]⟩, []⟩,
    (guardedCluster "s3cret").secrets, .new⟩
  fresh := rfl
  event n :=
    match n with
    | 1 => .put "hub" (sessionSpec "192.0.2.12")
    | _ => .reconcile ⟨"hub", fun _ => ⟨none, none, []⟩, none, []⟩

theorem neighbors_configured_guarded :
    ∃ m < 1, ∃ peer password, movingRun.Configures m peer password ∧ peer.host = "192.0.2.11" ∧
      toAPIPeer guardedPeer "s3cret" = toAPIPeer peer (password.getD "") := by
  have h : (movingRun.cluster 1).manager.peers.lookup "192.0.2.11" =
      some (toAPIPeer guardedPeer "s3cret") := by
    decide +kernel
  exact movingRun.neighbors_configured h

theorem session_dropped_moving :
    ∃ q spec, movingRun.event 2 = .reconcile q ∧ (movingRun.cluster 2).specOf q.name = some spec ∧
      "192.0.2.11" ∉ spec.hosts ∧ ∀ b ∈ spec.hosts, b ∈ (movingRun.cluster 3).manager.peers := by
  have hlive : "192.0.2.11" ∈ (movingRun.cluster 2).manager.peers := by decide +kernel
  have hgone : "192.0.2.11" ∉ (movingRun.cluster 3).manager.peers := by decide +kernel
  exact movingRun.session_dropped hlive hgone

end Kreg
