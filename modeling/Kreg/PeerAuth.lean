import Kreg.PeerStore

namespace Kreg
open ApiServer
set_option autoImplicit true

section FailsClosed

variable [SecondsCast]

def BGPPeer.authPassword (peer : BGPPeer) (passwords : GoMap String) : String :=
  (toAPIPeer peer ((passwords.lookup peer.name).getD "")).authPassword

/-- No peer comes up without the password it requires, or with another peer's. -/
structure FailsClosed (s : PeerCluster) (ns : String) (peers : List BGPPeer)
    (passwords : GoMap String) : Prop where
  distinct : (peers.map BGPPeer.name).Nodup
  authenticated : ∀ peer ∈ peers, ∀ ref, peer.Requires ref → peer.authPassword passwords ≠ "" ∧
    s.stored ns ref = some (peer.authPassword passwords)
  plain : ∀ peer ∈ peers, peer.secretRef = none → peer.authPassword passwords = ""

def Filled (s : PeerCluster) (ns : String) (peers : List BGPPeer) : Prop :=
  ∀ peer ∈ peers, ∀ ref, peer.Requires ref → s.stored ns ref ≠ some ""

theorem Resolves.authPassword (h : Resolves s ns peers seenNames before after) (hp : peer ∈ peers) :
    peer.authPassword after = (s.passwordOf ns peer).getD "" := by
  rw [BGPPeer.authPassword, h.resolved peer hp]
  rfl

theorem Resolves.stored_eq (h : Resolves s ns peers seenNames before after) (hp : peer ∈ peers)
    (hreq : peer.Requires ref) : s.stored ns ref = some (peer.authPassword after) := by
  have hsome := h.required peer hp ref hreq
  rw [h.authPassword hp]
  rw [passwordOf_of_secretRef hreq.1] at hsome ⊢
  cases hst : s.stored ns ref with
  | none => exact absurd hst hsome
  | some password => rfl

theorem Resolves.failsClosed_iff (h : Resolves s ns peers seenNames before after) :
    FailsClosed s ns peers after ↔ Filled s ns peers := by
  constructor
  · intro hf peer hp ref hreq hempty
    apply (hf.authenticated peer hp ref hreq).1
    exact Option.some.inj ((h.stored_eq hp hreq).symm.trans hempty)
  · intro hfilled
    refine ⟨h.distinct, ?_, ?_⟩
    · intro peer hp ref hreq
      have hst := h.stored_eq hp hreq
      exact ⟨fun he => hfilled peer hp ref hreq (he ▸ hst), hst⟩
    · intro peer hp hnone
      rw [h.authPassword hp, PeerCluster.passwordOf, hnone]
      rfl

theorem reconcilePeerConfig_of_error
    (hget : call (getPeerConfig name) ⟨s, before⟩ = (.ok config, ⟨s, faults⟩))
    (h : resolvePasswords ns config.spec.peers ⟨s, faults⟩ = (.error e, w))
    (observed : String → PeerSession) (tracker : Option (GoMap Int32)) :
    reconcilePeerConfig ns observed tracker name ⟨s, before⟩ =
      (.error (e.wrap "resolve peer auth"), w) := by
  have hwrap : wrap "resolve peer auth" (resolvePasswords ns config.spec.peers) ⟨s, faults⟩ =
      (.error (e.wrap "resolve peer auth"), w) := by
    rw [wrap, h]
  have hread : readPeerConfig ns name ⟨s, before⟩ = (.error (e.wrap "resolve peer auth"), w) := by
    have hattempt : attempt (call (getPeerConfig name)) ⟨s, before⟩ =
        (.ok (.ok config), ⟨s, faults⟩) := by
      rw [attempt, hget]
    exact (bind_of_ok hattempt _).trans (bind_of_error hwrap _)
  exact bind_of_error hread _

/-- Passwords that resolve authenticate every peer that requires it, unless a required secret
holds an empty value; and passwords that do not resolve stop Reconcile with no call of the
manager, whatever is left of it. -/
theorem resolvePasswords_failsClosed_iff (ns : String) (peers : List BGPPeer) (s : PeerCluster)
    (faults : List Bool) :
    (∀ passwords w, resolvePasswords ns peers ⟨s, faults⟩ = (.ok passwords, w) →
      (FailsClosed s ns peers passwords ↔ Filled s ns peers)) ∧
    (∀ e w, resolvePasswords ns peers ⟨s, faults⟩ = (.error e, w) →
      ∀ name config before observed tracker,
        call (getPeerConfig name) ⟨s, before⟩ = (.ok config, ⟨s, faults⟩) →
        config.spec.peers = peers →
        reconcilePeerConfig ns observed tracker name ⟨s, before⟩ =
            (.error (e.wrap "resolve peer auth"), w) ∧ w.store = s) := by
  have hends := resolvePasswords_ends ns peers s
  constructor
  · intro passwords w h
    exact (hends.of_ok h).2.failsClosed_iff
  · intro e w h name config before observed tracker hget hpeers
    subst hpeers
    refine ⟨reconcilePeerConfig_of_error hget h observed tracker, ?_⟩
    have hstop := hends faults
    rw [h] at hstop
    exact hstop

end FailsClosed

def guardedPeer : BGPPeer :=
  ⟨"rr1", "192.0.2.11", 64512, some ⟨some ⟨"bgp-auth", "password", none⟩⟩, none, none⟩

def guardedCluster (password : String) : PeerCluster where
  configs := ∅
  secrets := AList.insert ⟨"kreg-system", "bgp-auth"⟩ (AList.insert "password" password ∅) ∅
  manager := .new

theorem resolvePasswords_failsClosed_guarded :
    FailsClosed (guardedCluster "s3cret") "kreg-system" [guardedPeer]
      (AList.insert "rr1" "s3cret" ∅) := by
  apply ((resolvePasswords_failsClosed_iff "kreg-system" [guardedPeer] (guardedCluster "s3cret")
    []).1 _ _ rfl).2
  intro peer hp ref hreq
  cases List.mem_singleton.1 hp
  cases hreq.1
  decide +kernel

/-- A secret whose required key is there with nothing in it: the session comes up without a
password. -/
theorem resolvePasswords_empty :
    ∃ passwords w, resolvePasswords "kreg-system" [guardedPeer] ⟨guardedCluster "", []⟩ =
        (.ok passwords, w) ∧
      guardedPeer.Requires ⟨"bgp-auth", "password", none⟩ ∧
      guardedPeer.authPassword passwords = "" :=
  ⟨_, _, rfl, ⟨rfl, by decide⟩, rfl⟩

end Kreg
