import Kreg.Communities
import Kreg.Settled

namespace Kreg
set_option autoImplicit true

/-- A segment of an AS path, with ASNs of four bytes or, from an old speaker, of two. -/
inductive AsPathParam where
  | as4 (asns : List UInt32)
  | as2 (asns : List UInt16)
deriving DecidableEq

/-- A path attribute after `apiutil.UnmarshalAttribute`. -/
inductive PathAttribute where
  | multiExitDisc (value : UInt32)
  | asPath (value : List AsPathParam)
  | largeCommunities (values : List LargeCommunity)
  | other
deriving DecidableEq

/-- A path of the BGP table; an attribute may fail to unmarshal. -/
structure Path where
  neighborIp : String
  best : Bool
  pattrs : List (Except String PathAttribute)

structure Destination where
  pfx : String
  paths : List Path

/-- Go's `append`: appending nothing to a nil slice leaves it nil. -/
def GoSlice.append (s : GoSlice α) (l : List α) : GoSlice α :=
  match l with
  | [] => s
  | _ => .made (s.elems ++ l)

def AsPathParam.asns : AsPathParam → List UInt32
  | .as4 asns => asns
  | .as2 asns => asns.map UInt16.toUInt32

def decodeASPath (value : List AsPathParam) : GoSlice UInt32 :=
  value.foldl (fun asns param => asns.append param.asns) .nil

/-- The body of the loop in `decodePath`. -/
def decodeAttribute (route : RIBRoute) : PathAttribute → RIBRoute
  | .multiExitDisc value => { route with med := value }
  | .asPath value => { route with asPath := decodeASPath value }
  | .largeCommunities values => { route with largeCommunities := decodeLargeCommunities values }
  | .other => route

def decodeAttributes (route : RIBRoute) : List (Except String PathAttribute) →
    Except String RIBRoute
  | [] => .ok route
  | .error e :: _ => .error ("unmarshal attribute: " ++ e)
  | .ok a :: rest => decodeAttributes (decodeAttribute route a) rest

/-- The route of one path, without its prefix. -/
def decodePath (path : Path) : Except String RIBRoute :=
  decodeAttributes ⟨"", "", path.neighborIp, ⟨"", ""⟩, 0, .nil, .nil, false, ""⟩ path.pattrs

/-- The first path marked as best, or else the first one. -/
def bestPath (paths : List Path) : Option Path :=
  (paths.find? Path.best).or paths.head?

def decodeDestination (dest : Destination) : Except String (Option RIBRoute) :=
  match bestPath dest.paths with
  | none => .ok none
  | some path =>
    match decodePath path with
    | .error e => .error ("decode " ++ dest.pfx ++ ": " ++ e)
    | .ok route => .ok (some { route with pfx := dest.pfx })

/-- The callback of `ListPath`, with the routes so far and `decodeErr`. -/
def collectRoute (s : List RIBRoute × Option String) (dest : Destination) :
    List RIBRoute × Option String :=
  match s.2 with
  | some _ => s
  | none =>
    match decodeDestination dest with
    | .error e => (s.1, some e)
    | .ok none => s
    | .ok (some route) => (s.1 ++ [route], none)

/-- `Manager.Snapshot`, from what `ListPath` hands over. -/
def managerSnapshot (listed : Except String (List Destination)) : Except String (List RIBRoute) :=
  match listed with
  | .error e => .error ("list path: " ++ e)
  | .ok table =>
    match table.foldl collectRoute ([], none) with
    | (_, some e) => .error e
    | (routes, none) => .ok routes

/-- A part of a state that each step overwrites or leaves alone is at the end what the last
overwriting step has put there. -/
theorem foldl_overwritten (f : β → α → β) (part : β → γ) (put : α → Option γ)
    (h : ∀ b a, part (f b a) = (put a).getD (part b)) (l : List α) (b : β) :
    part (l.foldl f b) = (l.filterMap put).getLast?.getD (part b) := by
  induction l generalizing b with
  | nil => rfl
  | cons a l ih =>
    rw [List.foldl_cons, ih, h, List.filterMap_cons]
    cases put a with
    | none => rfl
    | some c => cases hl : (l.filterMap put).getLast? <;> simp [List.getLast?_cons, hl]

def PathAttribute.med? : PathAttribute → Option UInt32
  | .multiExitDisc value => some value
  | _ => none

def PathAttribute.asPath? : PathAttribute → Option (GoSlice UInt32)
  | .asPath value => some (decodeASPath value)
  | _ => none

def PathAttribute.largeCommunities? : PathAttribute → Option (GoSlice String)
  | .largeCommunities values => some (decodeLargeCommunities values)
  | _ => none

def Path.last (p : Path) (part : PathAttribute → Option α) : Option α :=
  ((p.pattrs.filterMap Except.toOption).filterMap part).getLast?

structure Path.Gives (p : Path) (pfx : String) (r : RIBRoute) : Prop where
  readable : ∀ a ∈ p.pattrs, a.isOk = true
  pfx : r.pfx = pfx
  peer : r.peer = p.neighborIp
  med : r.med = (p.last PathAttribute.med?).getD 0
  asPath : r.asPath = (p.last PathAttribute.asPath?).getD .nil
  largeCommunities : r.largeCommunities = (p.last PathAttribute.largeCommunities?).getD .nil
  unattributed : r.clusterID = "" ∧ r.locality = ⟨"", ""⟩
  unflagged : r.rejected = false ∧ r.reason = ""

def Destination.Prefers (d : Destination) (p : Path) : Prop :=
  ∃ before after, d.paths = before ++ p :: after ∧
    (p.best = true ∧ (∀ q ∈ before, q.best = false) ∨
      before = [] ∧ ∀ q ∈ d.paths, q.best = false)

theorem decodeAttributes_ok_iff :
    decodeAttributes route l = .ok r ↔
      (∀ a ∈ l, a.isOk = true) ∧ r = (l.filterMap Except.toOption).foldl decodeAttribute route := by
  induction l generalizing route with
  | nil =>
    simp only [decodeAttributes, Except.ok.injEq, List.not_mem_nil, false_implies, implies_true,
      List.filterMap_nil, List.foldl_nil, true_and]
    exact eq_comm
  | cons a l ih =>
    rw [List.forall_mem_cons]
    cases a with
    | error e =>
      simp only [decodeAttributes, reduceCtorEq, Except.isOk, Except.toBool, Bool.false_eq_true,
        false_and]
    | ok a =>
      rw [decodeAttributes, ih]
      simp only [Except.isOk, Except.toBool, true_and, List.filterMap_cons, Except.toOption,
        List.foldl_cons]

theorem foldl_decodeAttribute (l : List PathAttribute) (route : RIBRoute) :
    l.foldl decodeAttribute route =
      { route with
        med := (l.filterMap PathAttribute.med?).getLast?.getD route.med
        asPath := (l.filterMap PathAttribute.asPath?).getLast?.getD route.asPath
        largeCommunities :=
          (l.filterMap PathAttribute.largeCommunities?).getLast?.getD route.largeCommunities } := by
  have hmed := foldl_overwritten decodeAttribute RIBRoute.med PathAttribute.med?
    (by intro b a; cases a <;> rfl) l route
  have hasPath := foldl_overwritten decodeAttribute RIBRoute.asPath PathAttribute.asPath?
    (by intro b a; cases a <;> rfl) l route
  have hlarge := foldl_overwritten decodeAttribute RIBRoute.largeCommunities
    PathAttribute.largeCommunities? (by intro b a; cases a <;> rfl) l route
  rw [← hmed, ← hasPath, ← hlarge]
  clear hmed hasPath hlarge
  induction l generalizing route with
  | nil => rfl
  | cons a l ih =>
    rw [List.foldl_cons, ih]
    cases a <;> rfl

theorem decodePath_gives_iff :
    (∃ route, decodePath p = .ok route ∧ r = { route with pfx := pfx }) ↔ p.Gives pfx r := by
  simp only [decodePath, decodeAttributes_ok_iff, foldl_decodeAttribute]
  constructor
  · rintro ⟨route, ⟨hok, rfl⟩, rfl⟩
    exact ⟨hok, rfl, rfl, rfl, rfl, rfl, ⟨rfl, rfl⟩, rfl, rfl⟩
  · intro h
    refine ⟨_, ⟨h.readable, rfl⟩, ?_⟩
    cases r
    simp only [RIBRoute.mk.injEq]
    exact ⟨h.pfx, h.unattributed.1, h.peer, h.unattributed.2, h.med, h.asPath,
      h.largeCommunities, h.unflagged.1, h.unflagged.2⟩

theorem bestPath_eq_some_iff (d : Destination) : bestPath d.paths = some p ↔ d.Prefers p := by
  rw [bestPath, Option.or_eq_some_iff, List.find?_eq_some_iff_append, List.find?_eq_none]
  simp only [Bool.not_eq_true, Bool.not_eq_true']
  constructor
  · rintro (⟨hb, before, after, hp, hbefore⟩ | ⟨hnone, hhead⟩)
    · exact ⟨before, after, hp, .inl ⟨hb, hbefore⟩⟩
    · obtain ⟨after, hp⟩ := List.head?_eq_some_iff.1 hhead
      exact ⟨[], after, hp, .inr ⟨rfl, hnone⟩⟩
  · rintro ⟨before, after, hp, ⟨hb, hbefore⟩ | ⟨rfl, hnone⟩⟩
    · exact .inl ⟨hb, before, after, hp, hbefore⟩
    · exact .inr ⟨hnone, List.head?_eq_some_iff.2 ⟨after, hp⟩⟩

theorem bestPath_eq_none_iff (paths : List Path) : bestPath paths = none ↔ paths = [] := by
  rw [bestPath, Option.or_eq_none_iff, List.head?_eq_none_iff]
  constructor
  · exact fun h => h.2
  · rintro rfl
    exact ⟨rfl, rfl⟩

theorem decodeDestination_some_iff :
    decodeDestination d = .ok (some r) ↔ ∃ p, d.Prefers p ∧ p.Gives d.pfx r := by
  simp only [← bestPath_eq_some_iff, ← decodePath_gives_iff]
  rw [decodeDestination]
  cases bestPath d.paths with
  | none => simp only [Except.ok.injEq, reduceCtorEq, false_and, exists_false]
  | some p =>
    simp only [Option.some.injEq, exists_eq_left']
    cases decodePath p with
    | error e => simp only [reduceCtorEq, false_and, exists_false]
    | ok route =>
      simp only [Except.ok.injEq, Option.some.injEq, exists_eq_left']
      exact eq_comm

theorem decodeDestination_none_iff : decodeDestination d = .ok none ↔ d.paths = [] := by
  rw [← bestPath_eq_none_iff, decodeDestination]
  cases bestPath d.paths with
  | none => exact iff_of_true rfl rfl
  | some p =>
    simp only [reduceCtorEq, iff_false]
    cases decodePath p with
    | error e => simp only [reduceCtorEq, not_false_eq_true]
    | ok route => simp only [Except.ok.injEq, reduceCtorEq, not_false_eq_true]

theorem foldl_collectRoute_failed (table : List Destination) (routes : List RIBRoute)
    (e : String) : table.foldl collectRoute (routes, some e) = (routes, some e) := by
  induction table with
  | nil => rfl
  | cons d table ih => exact ih

theorem paths_isEmpty_iff {d : Destination} :
    d.paths.isEmpty = true ↔ decodeDestination d = .ok none := by
  rw [decodeDestination_none_iff, List.isEmpty_iff]

theorem foldl_collectRoute_ok_iff (table : List Destination) (done routes : List RIBRoute) :
    table.foldl collectRoute (done, none) = (routes, none) ↔
      ∃ more, routes = done ++ more ∧
        List.Forall₂ (fun d r => decodeDestination d = .ok (some r))
          (table.filter fun d => !d.paths.isEmpty) more := by
  induction table generalizing done with
  | nil =>
    simp only [List.foldl_nil, Prod.mk.injEq, and_true, List.filter_nil,
      List.forall₂_nil_left_iff, exists_eq_right, List.append_nil]
    exact eq_comm
  | cons d table ih =>
    simp only [List.foldl_cons, List.filter_cons, Bool.not_eq_true', ← Bool.not_eq_true,
      paths_isEmpty_iff, collectRoute]
    cases hd : decodeDestination d with
    | error e =>
      simp only [foldl_collectRoute_failed, Prod.mk.injEq, reduceCtorEq, and_false,
        not_false_eq_true, ↓reduceIte, List.forall₂_cons_left_iff, hd, false_and, exists_false]
    | ok o =>
      cases o with
      | none => simp only [not_true_eq_false, ↓reduceIte, ih done]
      | some r =>
        simp only [Except.ok.injEq, reduceCtorEq, not_false_eq_true, ↓reduceIte, ih,
          List.forall₂_cons_left_iff, hd, Option.some.injEq]
        constructor
        · rintro ⟨more, rfl, hf⟩
          exact ⟨r :: more, (List.append_cons _ _ _).symm, r, more, rfl, hf, rfl⟩
        · rintro ⟨_, rfl, _, more, rfl, hf, rfl⟩
          exact ⟨more, List.append_cons _ _ _, hf⟩

theorem managerSnapshot_eq (table : List Destination) :
    managerSnapshot (.ok table) =
      match (table.foldl collectRoute ([], none)).2 with
      | some e => .error e
      | none => .ok (table.foldl collectRoute ([], none)).1 := by
  rw [managerSnapshot]
  cases table.foldl collectRoute ([], none) with
  | mk routes failure => cases failure <;> rfl

theorem managerSnapshot_ok_iff {table : List Destination} :
    managerSnapshot (.ok table) = .ok routes ↔
      List.Forall₂ (fun d r => ∃ p, d.Prefers p ∧ p.Gives d.pfx r)
        (table.filter fun d => !d.paths.isEmpty) routes := by
  have hfold := foldl_collectRoute_ok_iff table [] routes
  simp only [List.nil_append, exists_eq_left', decodeDestination_some_iff] at hfold
  rw [← hfold, managerSnapshot_eq]
  cases table.foldl collectRoute ([], none) with
  | mk routes' failure =>
    cases failure with
    | none => simp only [Except.ok.injEq, Prod.mk.injEq, and_true]
    | some e => simp only [reduceCtorEq, Prod.mk.injEq, and_false]

/-- What GoBGP keeps in its IPv4 table: one destination for each prefix. -/
structure Keyed (table : List Destination) : Prop where
  ipv4 : ∀ d ∈ table, IPv4Prefix d.pfx
  distinct : (table.map Destination.pfx).Nodup

theorem map_pfx_of_gives {l : List Destination}
    (h : List.Forall₂ (fun d r => ∃ p, Destination.Prefers d p ∧ p.Gives d.pfx r) l routes) :
    routes.map RIBRoute.pfx = l.map Destination.pfx := by
  induction h with
  | nil => rfl
  | cons hr _ ih =>
    obtain ⟨p, _, hg⟩ := hr
    rw [List.map_cons, List.map_cons, hg.pfx, ih]

/-- Ingest hands Authorize what it counts on: distinct IPv4 prefixes, and nothing decided yet. -/
theorem Keyed.rib (hk : Keyed table) (h : managerSnapshot (.ok table) = .ok routes) :
    ∃ rib : RIB, rib.routes = routes := by
  have hf := managerSnapshot_ok_iff.1 h
  have hsub : (table.filter fun d => !d.paths.isEmpty).Sublist table := List.filter_sublist
  have hpfx := map_pfx_of_gives hf
  refine ⟨⟨routes, ?_, ?_⟩, rfl⟩
  · intro r hr
    obtain ⟨d, hd, p, _, hg⟩ := exists_of_forall₂ hf hr
    rw [hg.pfx]
    exact hk.ipv4 d (hsub.subset hd)
  · rw [hpfx]
    exact hk.distinct.sublist (hsub.map _)

end Kreg
