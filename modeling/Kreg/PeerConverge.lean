import Kreg.PeerStore

namespace Kreg
open ApiServer
set_option autoImplicit true

/-- A call of `Reconfigure` that changes the neighbors, with the peer name for its error. -/
inductive PeerCall where
  | add (name : String) (peer : APIPeer)
  | update (name : String) (peer : APIPeer)
  | delete (address : String)
deriving DecidableEq

def PeerCall.issue : PeerCall → Api Manager Unit
  | .add name peer => wrap ("add peer " ++ name) (call (addPeer peer))
  | .update name peer => wrap ("update peer " ++ name) (call (updatePeer peer))
  | .delete address => wrap ("delete peer " ++ address) (call (deletePeer address))

def PeerCall.Resets (a : String) : PeerCall → Prop
  | .add _ peer => peer.neighborAddress = a
  | .update _ _ => False
  | .delete address => address = a

theorem each_dropPeer (desired existing : List String) :
    each (dropPeer desired) existing =
      each PeerCall.issue ((existing.filter fun a => a ∉ desired).map .delete) := by
  induction existing with
  | nil => rfl
  | cons a existing ih =>
    rw [each, dropPeer]
    by_cases ha : a ∈ desired
    · have hskip : (a :: existing).filter (fun a => a ∉ desired) =
          existing.filter fun a => a ∉ desired :=
        List.filter_cons_of_neg (by simpa using ha)
      rw [if_pos ha, hskip, ← ih]
      rfl
    · have hkeep : (a :: existing).filter (fun a => a ∉ desired) =
          a :: existing.filter fun a => a ∉ desired :=
        List.filter_cons_of_pos (by simpa using ha)
      rw [if_neg ha, hkeep, ih]
      rfl

theorem lookup_foldl_undesired {desired l : List String} {m : Manager} (ha : a ∈ desired) :
    (l.foldl (Manager.undesired desired) m).peers.lookup a = m.peers.lookup a := by
  induction l generalizing m with
  | nil => rfl
  | cons b l ih =>
    rw [List.foldl_cons, ih, Manager.undesired]
    split
    · rfl
    · next hb => exact AList.lookup_erase_ne fun he => hb (he ▸ ha)

section
variable [SecondsCast]

def BGPPeer.toCall (existing : List String) (passwords : GoMap String) (peer : BGPPeer) :
    PeerCall :=
  let apiPeer := toAPIPeer peer ((passwords.lookup peer.name).getD "")
  if peer.host ∈ existing then .update peer.name apiPeer else .add peer.name apiPeer

/-- What `Reconfigure` asks of GoBGP once it knows who is live. -/
def peerCalls (spec : BGPPeerConfigSpec) (passwords : GoMap String) (existing : List String) :
    List PeerCall :=
  spec.peers.map (BGPPeer.toCall existing passwords) ++
    (existing.filter fun a => a ∉ spec.hosts).map .delete

theorem applyPeer_eq (existing : List String) (passwords : GoMap String) (peer : BGPPeer) :
    applyPeer existing passwords peer = (peer.toCall existing passwords).issue := by
  rw [applyPeer, BGPPeer.toCall, BGPPeer.host]
  split
  · rfl
  · rfl

/-- After its two reads `Reconfigure` issues those calls, in turn, and nothing else. -/
theorem reconfigure_eq (spec : BGPPeerConfigSpec) (passwords : GoMap String) :
    reconfigure spec passwords = ensureStarted spec >>= fun _ =>
      wrap "list peers" (call listPeer) >>= fun existing =>
        each PeerCall.issue (peerCalls spec passwords existing) := by
  have hloops : ∀ existing : List String,
      (each (applyPeer existing passwords) spec.peers >>= fun _ =>
          each (dropPeer spec.hosts) existing) =
        each PeerCall.issue (peerCalls spec passwords existing) := by
    intro existing
    rw [peerCalls, each_append, each_dropPeer]
    congr 1
    induction spec.peers with
    | nil => rfl
    | cons peer peers ih => rw [List.map_cons, each, each, ih, applyPeer_eq]
  simp only [← hloops]
  rfl

/-- From `m` a `Reconfigure` starts BGP if it has to, lists the peers and then issues these calls
in turn, up to the first one that fails. -/
def Issues (spec : BGPPeerConfigSpec) (passwords : GoMap String) (m : Manager)
    (calls : List PeerCall) : Prop :=
  ∀ faults, reconfigure spec passwords ⟨m, faults⟩ = (ensureStarted spec >>= fun _ =>
    wrap "list peers" (call listPeer) >>= fun _ => each PeerCall.issue calls) ⟨m, faults⟩

theorem issues_peerCalls (spec : BGPPeerConfigSpec) (passwords : GoMap String) (m : Manager) :
    Issues spec passwords m (peerCalls spec passwords m.peers.keys) := by
  intro faults
  rw [reconfigure_eq]
  cases hstart : ensureStarted spec ⟨m, faults⟩ with
  | mk o w =>
    cases o with
    | error e => rw [bind_of_error hstart, bind_of_error hstart]
    | ok u =>
      have hpeers : w.store.peers = m.peers := (ensureStarted_ends spec m).of_ok hstart
      rw [bind_of_ok hstart, bind_of_ok hstart]
      cases hlist : wrap "list peers" (call listPeer) w with
      | mk o w' =>
        cases o with
        | error e => rw [bind_of_error hlist, bind_of_error hlist]
        | ok existing =>
          have hkeys : Ends (wrap "list peers" (call listPeer)) w.store
              (fun existing _ => existing = m.peers.keys) (fun _ _ => True) := by
            apply Ends.wrap
            apply Ends.call
            · trivial
            · exact fun _ _ => trivial
            · intro existing m' h
              cases h
              rw [hpeers]
          rw [bind_of_ok hlist, bind_of_ok hlist, hkeys.of_ok hlist]

theorem mem_peerCalls_iff {c : PeerCall} :
    c ∈ peerCalls spec passwords existing ↔
      (∃ peer ∈ spec.peers, c = peer.toCall existing passwords) ∨
        ∃ a ∈ existing, a ∉ spec.hosts ∧ c = .delete a := by
  simp only [peerCalls, List.mem_append, List.mem_map, List.mem_filter, decide_eq_true_eq,
    eq_comm (a := c), and_assoc]

theorem PeerCall.Resets.of_mem {c : PeerCall} (hr : c.Resets a)
    (hc : c ∈ peerCalls spec passwords existing) :
    a ∈ spec.hosts ∧ a ∉ existing ∨ a ∈ existing ∧ a ∉ spec.hosts := by
  rcases mem_peerCalls_iff.1 hc with ⟨peer, hp, rfl⟩ | ⟨b, hb, hout, rfl⟩
  · rw [BGPPeer.toCall] at hr
    split at hr
    · cases hr
    · next hnew =>
      have ha : peer.host = a := hr
      subst ha
      exact .inl ⟨List.mem_map_of_mem hp, hnew⟩
  · have ha : b = a := hr
    subst ha
    exact .inr ⟨hb, hout⟩

theorem lookup_foldl_configured {peers : List BGPPeer} {m : Manager}
    (ha : a ∉ peers.map BGPPeer.host) :
    (peers.foldl (Manager.configured passwords) m).peers.lookup a = m.peers.lookup a := by
  induction peers generalizing m with
  | nil => rfl
  | cons peer peers ih =>
    rw [List.map_cons, List.mem_cons, not_or] at ha
    rw [List.foldl_cons, ih ha.2]
    exact AList.lookup_insert_ne ha.1

theorem lookup_foldl_configured_host {peers : List BGPPeer} {m : Manager}
    (hn : (peers.map BGPPeer.host).Nodup) (hp : peer ∈ peers) :
    (peers.foldl (Manager.configured passwords) m).peers.lookup peer.host =
      some (toAPIPeer peer ((passwords.lookup peer.name).getD "")) := by
  induction peers generalizing m with
  | nil => cases hp
  | cons first peers ih =>
    rw [List.map_cons, List.nodup_cons] at hn
    rw [List.foldl_cons]
    rcases List.mem_cons.1 hp with rfl | hp
    · rw [lookup_foldl_configured hn.1]
      exact AList.lookup_insert _
    · exact ih hn.2 hp

structure InSync (spec : BGPPeerConfigSpec) (passwords : GoMap String) (m : Manager) :
    Prop where
  hosts : ∀ a, a ∈ m.peers ↔ a ∈ spec.hosts
  configured : ∀ peer ∈ spec.peers,
    m.peers.lookup peer.host = some (toAPIPeer peer ((passwords.lookup peer.name).getD ""))

theorem inSync_reconfigured (hn : spec.hosts.Nodup) (passwords : GoMap String) (m : Manager) :
    InSync spec passwords (m.reconfigured spec passwords) := by
  refine ⟨fun _ => mem_reconfigured, ?_⟩
  intro peer hp
  have hhost : peer.host ∈ spec.hosts := List.mem_map_of_mem hp
  rw [Manager.reconfigured, lookup_foldl_undesired hhost]
  exact lookup_foldl_configured_host hn hp

/-- Whatever is live, `Reconfigure` converges to its spec without resetting a session that stays,
and has nothing to add or delete from then on. -/
theorem reconfigure_converges (hn : spec.hosts.Nodup) (passwords : GoMap String) (m : Manager) :
    ∃ m', Completes (reconfigure spec passwords) m () m' ∧ InSync spec passwords m' ∧
      (∃ calls, Issues spec passwords m calls ∧
        ∀ a ∈ m.peers, a ∈ spec.hosts → ∀ c ∈ calls, ¬ c.Resets a) ∧
      ∀ passwords', ∃ calls, Issues spec passwords' m' calls ∧ ∀ c ∈ calls, ∀ a, ¬ c.Resets a := by
  obtain ⟨m', hm'⟩ := reconfigure_completes hn passwords m
  obtain ⟨m₁, _, rfl⟩ := (reconfigure_result spec passwords m).of_ok hm'.returns
  have hsync := inSync_reconfigured hn passwords m₁
  refine ⟨_, hm', hsync, ⟨_, issues_peerCalls spec passwords m, ?_⟩, fun passwords' =>
    ⟨_, issues_peerCalls spec passwords' _, ?_⟩⟩
  · intro a hlive hhost c hc hr
    rcases hr.of_mem hc with ⟨_, hnew⟩ | ⟨_, hout⟩
    · exact hnew (AList.mem_keys.1 hlive)
    · exact hout hhost
  · intro c hc a hr
    rcases hr.of_mem hc with ⟨hhost, hnew⟩ | ⟨hlive, hout⟩
    · exact hnew (AList.mem_keys.1 ((hsync.hosts a).2 hhost))
    · exact hout ((hsync.hosts a).1 (AList.mem_keys.2 hlive))

end

def pairSpec : BGPPeerConfigSpec where
  localASN := 64512
  routerID := "192.0.2.1"
  listenPort := none
  peers := [⟨"rr1", "192.0.2.11:1790", 64513, none, none, none⟩,
    ⟨"rr2", "[2001:db8::1]:179", 64513, none, none, none⟩]

/-- A neighbor that stays and one that goes. -/
def pairManager : Manager where
  global := some ⟨64512, "192.0.2.1", 179⟩
  peers := ((Manager.new.configured ∅ ⟨"rr1", "192.0.2.11", 64512, none, none, none⟩).configured ∅
    ⟨"rr0", "192.0.2.10", 64512, none, none, none⟩).peers

theorem reconfigure_converges_pair :
    "192.0.2.10" ∈ pairManager.peers ∧ ∃ m',
      Completes (reconfigure pairSpec (AList.singleton "rr1" "s3cret")) pairManager () m' ∧
        InSync pairSpec (AList.singleton "rr1" "s3cret") m' ∧
        ∃ calls, Issues pairSpec (AList.singleton "rr1" "s3cret") pairManager calls ∧
          ∀ c ∈ calls, ¬ c.Resets "192.0.2.11" := by
  have hn : pairSpec.hosts.Nodup := by decide +kernel
  obtain ⟨m', hm', hsync, ⟨calls, hcalls, hkept⟩, _⟩ :=
    reconfigure_converges hn (AList.singleton "rr1" "s3cret") pairManager
  refine ⟨by decide +kernel, m', hm', hsync, calls, hcalls, ?_⟩
  exact hkept "192.0.2.11" (by decide +kernel) (by decide +kernel)

end Kreg
