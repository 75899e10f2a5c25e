import Kreg.PeerReconciler

namespace Kreg
open ApiServer
set_option autoImplicit true

def BGPPeer.host (peer : BGPPeer) : String :=
  (splitHostPort peer.address).1

def BGPPeerConfigSpec.hosts (spec : BGPPeerConfigSpec) : List String :=
  spec.peers.map BGPPeer.host

theorem BGPPeerConfigSpec.hosts_eq_nil_iff {spec : BGPPeerConfigSpec} :
    spec.hosts = [] ↔ spec.peers = [] :=
  List.map_eq_nil_iff

section Manager

theorem addPeer_ok (h : addPeer peer m = .ok (u, m')) : m' = m.put peer := by
  rw [addPeer] at h
  split at h
  · cases h
  · cases h
    rfl

theorem updatePeer_ok (h : updatePeer peer m = .ok (u, m')) : m' = m.put peer := by
  rw [updatePeer] at h
  split at h
  · cases h
  · cases h
    rfl

theorem deletePeer_ok (h : deletePeer address m = .ok (u, m')) : m' = m.drop address := by
  rw [deletePeer] at h
  split at h
  · cases h
  · cases h
    rfl

def Manager.undesired (desired : List String) (m : Manager) (address : String) : Manager :=
  if address ∈ desired then m else m.drop address

theorem dropPeer_ends (desired : List String) (address : String) (m : Manager) :
    Ends (dropPeer desired address) m (fun _ m' => m' = m.undesired desired address)
      (fun _ m' => m' = m) := by
  rw [dropPeer, Manager.undesired]
  split
  · exact .pure rfl
  · apply Ends.wrap
    apply Ends.call
    · rfl
    · exact fun _ _ => rfl
    · exact fun _ _ h => deletePeer_ok h

theorem mem_foldl_undesired {desired l : List String} {m : Manager} {a : String} :
    a ∈ (l.foldl (Manager.undesired desired) m).peers ↔
      a ∈ m.peers ∧ (a ∈ l → a ∈ desired) := by
  induction l generalizing m with
  | nil => simp only [List.foldl_nil, List.not_mem_nil, false_implies, and_true]
  | cons b l ih =>
    rw [List.foldl_cons, ih, Manager.undesired]
    by_cases hb : b ∈ desired
    · rw [if_pos hb, List.mem_cons]
      apply and_congr_right
      intro _
      constructor
      · intro h hab
        obtain rfl | hl := hab
        · exact hb
        · exact h hl
      · exact fun h hl => h (.inr hl)
    · rw [if_neg hb, Manager.drop, AList.mem_erase, List.mem_cons]
      constructor
      · rintro ⟨⟨hne, hm⟩, h⟩
        exact ⟨hm, fun hab => h (hab.resolve_left hne)⟩
      · rintro ⟨hm, h⟩
        refine ⟨⟨fun he => ?_, hm⟩, fun hl => h (.inr hl)⟩
        subst he
        exact hb (h (.inl rfl))

theorem dropPeers_completes {l : List String} {m : Manager} (hn : l.Nodup)
    (h : ∀ a ∈ l, a ∈ m.peers) :
    Completes (each (dropPeer desired) l) m () (l.foldl (Manager.undesired desired) m) := by
  induction l generalizing m with
  | nil => exact .pure _ _
  | cons a l ih =>
    rw [List.nodup_cons] at hn
    have hdrop : Completes (dropPeer desired a) m () (m.undesired desired a) := by
      rw [dropPeer, Manager.undesired]
      split
      · exact .pure _ _
      · obtain ⟨old, hold⟩ := Option.isSome_iff_exists.1 (AList.lookup_isSome.2 (h a (.head _)))
        have hdelete : deletePeer a m = .ok ((), m.drop a) := by
          rw [deletePeer, hold]
        exact .wrap (.call hdelete) _
    apply Completes.bind hdrop
    apply ih hn.2
    intro b hb
    rw [Manager.undesired]
    split
    · exact h b (.tail _ hb)
    · rw [Manager.drop, AList.mem_erase]
      exact ⟨fun he => hn.1 (he ▸ hb), h b (.tail _ hb)⟩

theorem ensureStarted_ends (spec : BGPPeerConfigSpec) (m : Manager) :
    Ends (ensureStarted spec) m (fun _ m' => m'.peers = m.peers)
      (fun _ m' => m'.peers = m.peers) := by
  intro faults
  rw [ensureStarted]
  split
  · exact rfl
  · apply Ends.wrap
    apply Ends.call
    · rfl
    · exact fun _ _ => rfl
    · intro _ m' hstart
      rw [startBgp] at hstart
      split at hstart
      · cases hstart
      · cases hstart
        rfl

theorem ensureStarted_completes (spec : BGPPeerConfigSpec) (m : Manager) :
    ∃ m', Completes (ensureStarted spec) m () m' := by
  cases hg : m.global with
  | some g =>
    refine ⟨m, 0, fun faults _ => ?_⟩
    simp only [ensureStarted, hg]
    rfl
  | none =>
    let global : BgpGlobal :=
      ⟨spec.localASN.toUInt64.toUInt32, spec.routerID, spec.listenPort.getD 179⟩
    have hcall : startBgp global m = .ok ((), { m with global := some global }) := by
      rw [startBgp, hg]
    obtain ⟨k, hs⟩ := Completes.wrap (Completes.call hcall) "start bgp"
    refine ⟨{ m with global := some global }, k, fun faults hd => ?_⟩
    simp only [ensureStarted, hg]
    exact hs faults hd

variable [SecondsCast]

theorem toAPIPeer_neighborAddress (peer : BGPPeer) (password : String) :
    (toAPIPeer peer password).neighborAddress = peer.host :=
  rfl

def Manager.configured (passwords : GoMap String) (m : Manager) (peer : BGPPeer) : Manager :=
  m.put (toAPIPeer peer ((passwords.lookup peer.name).getD ""))

theorem applyPeer_ends (existing : List String) (passwords : GoMap String) (peer : BGPPeer)
    (m : Manager) :
    Ends (applyPeer existing passwords peer) m (fun _ m' => m' = m.configured passwords peer)
      (fun _ m' => m' = m) := by
  rw [applyPeer]
  split
  · apply Ends.wrap
    apply Ends.call
    · rfl
    · exact fun _ _ => rfl
    · exact fun _ _ h => updatePeer_ok h
  · apply Ends.wrap
    apply Ends.call
    · rfl
    · exact fun _ _ => rfl
    · exact fun _ _ h => addPeer_ok h

theorem mem_foldl_configured {peers : List BGPPeer} {m : Manager} {a : String} :
    a ∈ (peers.foldl (Manager.configured passwords) m).peers ↔
      a ∈ peers.map BGPPeer.host ∨ a ∈ m.peers := by
  induction peers generalizing m with
  | nil => simp only [List.foldl_nil, List.map_nil, List.not_mem_nil, false_or]
  | cons peer peers ih =>
    rw [List.foldl_cons, ih, List.map_cons, List.mem_cons]
    rw [Manager.configured, Manager.put, AList.mem_insert, toAPIPeer_neighborAddress, or_left_comm,
      or_assoc]

def Manager.reconfigured (spec : BGPPeerConfigSpec) (passwords : GoMap String) (m : Manager) :
    Manager :=
  m.peers.keys.foldl (Manager.undesired spec.hosts)
    (spec.peers.foldl (Manager.configured passwords) m)

theorem mem_reconfigured {m : Manager} {a : String} :
    a ∈ (m.reconfigured spec passwords).peers ↔ a ∈ spec.hosts := by
  rw [Manager.reconfigured, mem_foldl_undesired, mem_foldl_configured, ← AList.mem_keys]
  constructor
  · rintro ⟨ha, hkept⟩
    obtain ha | ha := ha
    · exact ha
    · exact hkept ha
  · exact fun ha => ⟨.inl ha, fun _ => ha⟩

theorem reconfigure_result (spec : BGPPeerConfigSpec) (passwords : GoMap String) (m : Manager) :
    Ends (reconfigure spec passwords) m
      (fun _ m' => ∃ m₁ : Manager, m₁.peers = m.peers ∧ m' = m₁.reconfigured spec passwords)
      (fun _ _ => True) := by
  apply Ends.bind
  apply (ensureStarted_ends spec m).mono
  · intro _ m₁ hm₁
    have happly (peer : BGPPeer) (m' : Manager) :=
      (applyPeer_ends m₁.peers.keys passwords peer m').mono (fun _ _ h => h) fun _ _ _ => trivial
    have hdrop (address : String) (m' : Manager) :=
      (dropPeer_ends spec.hosts address m').mono (fun _ _ h => h) fun _ _ _ => trivial
    apply Ends.bind
    apply Ends.wrap
    apply Ends.call
    · trivial
    · exact fun _ _ => trivial
    · intro existing m₂ hlist
      cases hlist
      apply Ends.bind
      apply (Ends.each_foldl happly spec.peers m₁).mono
      · intro _ m₂ hm₂
        apply (Ends.each_foldl hdrop m₁.peers.keys m₂).mono
        · intro _ m₃ hm₃
          refine ⟨m₁, hm₁, ?_⟩
          rw [hm₃, hm₂, Manager.reconfigured]
        · exact fun _ _ h => h
      · exact fun _ _ h => h
  · exact fun _ _ _ => trivial

theorem reconfigure_ends (spec : BGPPeerConfigSpec) (passwords : GoMap String) (m : Manager) :
    Ends (reconfigure spec passwords) m (fun _ m' => ∀ a, a ∈ m'.peers ↔ a ∈ spec.hosts)
      (fun _ _ => True) := by
  apply (reconfigure_result spec passwords m).mono
  · rintro _ m' ⟨m₁, _, rfl⟩ a
    exact mem_reconfigured
  · exact fun _ _ h => h

theorem applyPeer_completes (h : peer.host ∈ m.peers ↔ peer.host ∈ existing) :
    Completes (applyPeer existing passwords peer) m () (m.configured passwords peer) := by
  rw [applyPeer]
  split
  · next hlive =>
    obtain ⟨old, hold⟩ := Option.isSome_iff_exists.1 (AList.lookup_isSome.2 (h.2 hlive))
    have hupdate : updatePeer (toAPIPeer peer ((passwords.lookup peer.name).getD "")) m =
        .ok ((), m.configured passwords peer) := by
      rw [updatePeer, toAPIPeer_neighborAddress, hold]
      rfl
    exact .wrap (.call hupdate) _
  · next hlive =>
    have hnone : m.peers.lookup peer.host = none :=
      AList.lookup_eq_none.2 fun hm => hlive (h.1 hm)
    have hadd : addPeer (toAPIPeer peer ((passwords.lookup peer.name).getD "")) m =
        .ok ((), m.configured passwords peer) := by
      rw [addPeer, toAPIPeer_neighborAddress, hnone]
      rfl
    exact .wrap (.call hadd) _

theorem applyPeers_completes {peers : List BGPPeer} {m : Manager}
    (hn : (peers.map BGPPeer.host).Nodup)
    (h : ∀ peer ∈ peers, peer.host ∈ m.peers ↔ peer.host ∈ existing) :
    Completes (each (applyPeer existing passwords) peers) m ()
      (peers.foldl (Manager.configured passwords) m) := by
  induction peers generalizing m with
  | nil => exact .pure _ _
  | cons peer peers ih =>
    rw [List.map_cons, List.nodup_cons] at hn
    apply Completes.bind (applyPeer_completes (h peer (.head _)))
    apply ih hn.2
    intro other hother
    -- the peers still to come have other hosts, so whether they are live has not changed
    have hne : other.host ≠ peer.host :=
      fun he => hn.1 (he ▸ List.mem_map_of_mem (f := BGPPeer.host) hother)
    rw [← h other (.tail _ hother), Manager.configured, Manager.put, AList.mem_insert,
      toAPIPeer_neighborAddress, or_iff_right hne]

theorem reconfigure_completes {spec : BGPPeerConfigSpec} (hn : spec.hosts.Nodup)
    (passwords : GoMap String) (m : Manager) :
    ∃ m', Completes (reconfigure spec passwords) m () m' := by
  obtain ⟨m₁, hstart⟩ := ensureStarted_completes spec m
  refine ⟨_, .bind hstart (.bind (.wrap (.call rfl) _) (.bind (applyPeers_completes hn ?_)
    (dropPeers_completes m₁.peers.keys_nodup ?_)))⟩
  · exact fun _ _ => AList.mem_keys
  · intro a ha
    exact mem_foldl_configured.2 (.inr (AList.mem_keys.2 ha))

end Manager

section Controller

def PeerCluster.specOf (s : PeerCluster) (name : String) : Option BGPPeerConfigSpec :=
  (s.configs.lookup name).map StoredPeerConfig.spec

def BGPPeer.secretRef (peer : BGPPeer) : Option SecretKeySelector :=
  peer.auth.bind BGPPeerAuth.tcpMD5SecretRef

/-- The peer names a secret it must not come up without. -/
def BGPPeer.Requires (peer : BGPPeer) (ref : SecretKeySelector) : Prop :=
  peer.secretRef = some ref ∧ ref.optional ≠ some true

def PeerCluster.stored (s : PeerCluster) (namespaceName : String) (ref : SecretKeySelector) :
    Option String :=
  (s.secrets.lookup ⟨namespaceName, ref.name⟩).bind fun data => data.lookup ref.key

def PeerCluster.passwordOf (s : PeerCluster) (namespaceName : String) (peer : BGPPeer) :
    Option String :=
  peer.secretRef.bind (s.stored namespaceName)

theorem passwordOf_of_secretRef {peer : BGPPeer} (h : peer.secretRef = some ref) (s : PeerCluster)
    (ns : String) : s.passwordOf ns peer = s.stored ns ref := by
  rw [PeerCluster.passwordOf, h]
  rfl

theorem getSecret_gets (key : NamespacedName) : Gets (getSecret key) (·.secrets.lookup key) where
  found s data h := by simp only [getSecret, h]
  missing s h := ⟨⟨true, key.name ++ " not found"⟩, rfl, by simp only [getSecret, h]⟩

theorem getPeerConfig_gets (name : String) :
    Gets (getPeerConfig name) (·.configs.lookup name) where
  found s config h := by simp only [getPeerConfig, h]
  missing s h := ⟨⟨true, name ++ " not found"⟩, rfl, by simp only [getPeerConfig, h]⟩

theorem resolvePassword_resolves (ns : String) (peer : BGPPeer) (s : PeerCluster) :
    Ends (resolvePassword ns peer) s
      (fun found s' => s' = s ∧ found = s.passwordOf ns peer ∧
        ∀ ref, peer.Requires ref → found ≠ none)
      (fun _ s' => s' = s) := by
  rw [resolvePassword]
  cases href : peer.auth.bind BGPPeerAuth.tcpMD5SecretRef with
  | none =>
    have hnone : peer.secretRef = none := href
    apply Ends.pure
    refine ⟨rfl, ?_, ?_⟩
    · rw [PeerCluster.passwordOf, hnone]
      rfl
    · intro ref hreq
      cases hnone.symm.trans hreq.1
  | some ref =>
    have hsome : peer.secretRef = some ref := href
    have hreq : ∀ ref', peer.Requires ref' → ref.optional ≠ some true := by
      intro ref' h
      cases hsome.symm.trans h.1
      exact h.2
    -- passing over the secret is what an optional reference allows, with nothing stored there
    have hskip : ref.optional = some true → s.stored ns ref = none →
        s = s ∧ none = s.passwordOf ns peer ∧
          ∀ ref', peer.Requires ref' → (none : Option String) ≠ none := by
      intro hopt hstored
      refine ⟨rfl, ?_, fun ref' h => absurd hopt (hreq ref' h)⟩
      rw [passwordOf_of_secretRef hsome, hstored]
    simp only
    split
    · exact .fail rfl
    split
    · exact .fail rfl
    split
    · exact .fail rfl
    apply Ends.bind
    apply Ends.get (getSecret_gets ⟨ns, ref.name⟩)
    · exact .fail rfl
    · intro hmissing e he
      have hstored : s.stored ns ref = none := by
        rw [PeerCluster.stored, hmissing]
        rfl
      simp only [he, ↓reduceIte]
      split
      · next hopt => exact .pure (hskip hopt hstored)
      · exact .fail rfl
    · intro data hdata
      have hstored : s.stored ns ref = data.lookup ref.key := by
        rw [PeerCluster.stored, hdata]
        rfl
      simp only
      split
      · next password hpass =>
        apply Ends.pure
        refine ⟨rfl, ?_, fun _ _ => Option.some_ne_none _⟩
        rw [passwordOf_of_secretRef hsome, hstored, hpass]
      · next hnone =>
        split
        · next hopt => exact .pure (hskip hopt (hstored.trans hnone))
        · exact .fail rfl

/-- What `resolvePasswords` has made sure of once it has been through `peers`. -/
structure Resolves (s : PeerCluster) (ns : String) (peers : List BGPPeer) (seenNames : List String)
    (before after : GoMap String) : Prop where
  distinct : (peers.map BGPPeer.name).Nodup
  unseen : ∀ peer ∈ peers, peer.name ∉ seenNames
  resolved : ∀ peer ∈ peers, after.lookup peer.name = s.passwordOf ns peer
  required : ∀ peer ∈ peers, ∀ ref, peer.Requires ref → s.passwordOf ns peer ≠ none
  others : ∀ name ∈ seenNames, after.lookup name = before.lookup name

theorem Resolves.cons {passwords before after : GoMap String}
    (h : Resolves s ns peers (peer.name :: seenNames) passwords after)
    (hnew : peer.name ∉ seenNames) (hhead : passwords.lookup peer.name = s.passwordOf ns peer)
    (hreq : ∀ ref, peer.Requires ref → s.passwordOf ns peer ≠ none)
    (hsame : ∀ name ∈ seenNames, passwords.lookup name = before.lookup name) :
    Resolves s ns (peer :: peers) seenNames before after := by
  refine ⟨?_, ?_, ?_, ?_, ?_⟩
  · rw [List.map_cons, List.nodup_cons]
    refine ⟨?_, h.distinct⟩
    intro hmem
    obtain ⟨other, hother, he⟩ := List.mem_map.1 hmem
    exact h.unseen other hother (he ▸ .head _)
  · rw [List.forall_mem_cons]
    exact ⟨hnew, fun other hother hmem => h.unseen other hother (.tail _ hmem)⟩
  · rw [List.forall_mem_cons]
    exact ⟨(h.others peer.name (.head _)).trans hhead, h.resolved⟩
  · rw [List.forall_mem_cons]
    exact ⟨hreq, h.required⟩
  · intro name hname
    exact (h.others name (.tail _ hname)).trans (hsame name hname)

theorem resolvePasswordsFrom_resolves (ns : String) (peers : List BGPPeer)
    (seenNames : List String) (passwords : GoMap String) (s : PeerCluster)
    (hseen : ∀ name, name ∉ seenNames → passwords.lookup name = none) :
    Ends (resolvePasswordsFrom ns peers seenNames passwords) s
      (fun after s' => s' = s ∧ Resolves s ns peers seenNames passwords after)
      (fun _ s' => s' = s) := by
  induction peers generalizing seenNames passwords with
  | nil =>
    apply Ends.pure
    have hnil : ∀ {P : BGPPeer → Prop}, ∀ peer ∈ ([] : List BGPPeer), P peer :=
      fun _ h => (List.not_mem_nil h).elim
    exact ⟨rfl, .nil, hnil, hnil, hnil, fun _ _ => rfl⟩
  | cons peer peers ih =>
    rw [resolvePasswordsFrom]
    split
    · exact .fail rfl
    · next hnew =>
      apply Ends.bind
      apply (resolvePassword_resolves ns peer s).mono
      · rintro found s₁ ⟨rfl, hfound, hreq⟩
        subst hfound
        have hrest : ∀ passwords' : GoMap String,
            (∀ name, name ∉ peer.name :: seenNames → passwords'.lookup name = none) →
            passwords'.lookup peer.name = s₁.passwordOf ns peer →
            (∀ name ∈ seenNames, passwords'.lookup name = passwords.lookup name) →
            Ends (resolvePasswordsFrom ns peers (peer.name :: seenNames) passwords') s₁
              (fun after s' => s' = s₁ ∧ Resolves s₁ ns (peer :: peers) seenNames passwords after)
              (fun _ s' => s' = s₁) := by
          intro passwords' hseen' hhead hsame
          apply (ih (peer.name :: seenNames) passwords' hseen').mono
          · exact fun after _ h => ⟨h.1, h.2.cons hnew hhead hreq hsame⟩
          · exact fun _ _ h => h
        cases hp : s₁.passwordOf ns peer with
        | none =>
          apply hrest passwords
          · exact fun name hname => hseen name fun h => hname (.tail _ h)
          · rw [hp]
            exact hseen peer.name hnew
          · exact fun _ _ => rfl
        | some password =>
          apply hrest (passwords.insert peer.name password)
          · intro name hname
            rw [List.mem_cons, not_or] at hname
            rw [AList.lookup_insert_ne hname.1]
            exact hseen name hname.2
          · rw [hp, AList.lookup_insert]
          · intro name hname
            exact AList.lookup_insert_ne fun he => hnew (he ▸ hname)
      · exact fun _ _ h => h

theorem resolvePasswords_ends (ns : String) (peers : List BGPPeer) (s : PeerCluster) :
    Ends (resolvePasswords ns peers) s
      (fun passwords s' => s' = s ∧ Resolves s ns peers [] ∅ passwords) (fun _ s' => s' = s) :=
  resolvePasswordsFrom_resolves ns peers [] ∅ s fun _ _ => rfl

/-- What a reconcile hands to the manager: the spec of its object, and the passwords that are
stored. Nothing is written before. -/
theorem readPeerConfig_resolves (namespaceName name : String) (s : PeerCluster) :
    Ends (readPeerConfig namespaceName name) s
      (fun found s' => s' = s ∧ s.specOf name = found.map Prod.fst ∧
        ∀ p ∈ found, Resolves s namespaceName p.1.peers [] ∅ p.2)
      (fun _ s' => s' = s) := by
  apply Ends.bind
  apply Ends.get (getPeerConfig_gets name)
  · exact .fail rfl
  · intro h e he
    simp only [he, ↓reduceIte]
    apply Ends.pure
    rw [PeerCluster.specOf, h]
    exact ⟨rfl, rfl, fun _ hp => by cases hp⟩
  · intro config h
    apply Ends.bind
    apply Ends.wrap
    apply (resolvePasswords_ends namespaceName config.spec.peers s).mono
    · rintro passwords s₁ ⟨rfl, hresolves⟩
      apply Ends.pure
      rw [PeerCluster.specOf, h]
      refine ⟨rfl, rfl, fun p hp => ?_⟩
      cases hp
      exact hresolves
    · exact fun _ _ h => h

theorem readPeerConfig_ends (namespaceName name : String) (s : PeerCluster) :
    Ends (readPeerConfig namespaceName name) s
      (fun found s' => s' = s ∧ s.specOf name = found.map Prod.fst) (fun _ s' => s' = s) :=
  (readPeerConfig_resolves namespaceName name s).mono (fun _ _ h => ⟨h.1, h.2.1⟩) fun _ _ h => h

theorem updatePeerConfigStatus_ok (h : updatePeerConfigStatus name status s = .ok (u, s')) :
    s'.manager = s.manager ∧ ∀ k, s'.specOf k = s.specOf k := by
  rw [updatePeerConfigStatus] at h
  split at h
  · cases h
  · next config hs =>
    cases h
    refine ⟨rfl, fun k => ?_⟩
    simp only [PeerCluster.specOf]
    by_cases hk : k = name
    · subst hk
      rw [AList.lookup_insert, hs]
      rfl
    · rw [AList.lookup_insert_ne hk]

theorem reportPeers_ends (observed : String → PeerSession) (tracker : Option (GoMap Int32))
    (name : String) (s : PeerCluster) :
    Ends (reportPeers observed tracker name) s
      (fun _ s' => s'.manager = s.manager ∧ ∀ k, s'.specOf k = s.specOf k)
      (fun _ s' => s'.manager = s.manager ∧ ∀ k, s'.specOf k = s.specOf k) := by
  have hsame : s.manager = s.manager ∧ ∀ k, s.specOf k = s.specOf k := ⟨rfl, fun _ => rfl⟩
  apply Ends.bind
  apply Ends.wrap
  apply Ends.onPart
  apply Ends.bind
  apply Ends.wrap
  apply Ends.call
  · exact hsame
  · exact fun _ _ => hsame
  · intro addresses m hlist
    cases hlist
    apply Ends.pure
    apply Ends.wrap
    apply Ends.call
    · exact hsame
    · exact fun _ _ => hsame
    · exact fun _ _ h => updatePeerConfigStatus_ok h

end Controller

end Kreg
