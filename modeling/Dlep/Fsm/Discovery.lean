-- SUMMARY: The router's discovery state machine and the endpoints of a Peer Offer: distinct, usable and in order of preference.
import Dlep.Core.Codec.Decode
import Dlep.Core.Net
import Dlep.Fsm.Events
import Dlep.Lib.Ranked

/-!
# Discovery

`discovery_common.rs` and the router's side of discovery (`discovery_router.rs`).
A Peer Offer names the endpoints of a modem in its Connection Points. The router
orders the usable ones by preference with a stable sort on a coarse key and then
drops equal neighbours. Two Connection Points can name one endpoint, since a
missing port means the default: if another endpoint of the same kind stands
between them, they do not become neighbours and both are kept.
-/

namespace Dlep

variable {source : SocketAddr} {sig : Signal} {e : OfferEndpoint} {a : DataItem}
  {items : List DataItem}

open Ranked

/-! ## Signals -/

/-- `build_peer_discovery`. -/
def buildPeerDiscovery (peerDescription : String) : Signal :=
  ⟨.peerDiscovery, [.peerType .default peerDescription]⟩

/-- `extract_peer_description`. -/
def extractPeerDescription (sig : Signal) : Option String :=
  sig.dataItems.findSome? fun
    | .peerType _ description => some description
    | _ => none

/-- Whether a Peer Type has been seen after an item, if the grammar has the item there. -/
def afterItem (offer peerType : Bool) : DataItem → Option Bool
  | .peerType _ _ => if peerType then none else some true
  | .ipv4ConnectionPoint _ _ _ => if offer then some peerType else none
  | .ipv6ConnectionPoint _ _ _ => if offer then some peerType else none
  | _ => none

/-- The loop of `valid_signal`. -/
def validItems (offer : Bool) : Bool → List (List UInt8) → List DataItem → Bool
  | _, _, [] => true
  | peerType, seen, item :: items =>
    match afterItem offer peerType item with
    | none => false
    | some peerType =>
      match item.encode [] with
      | (.error _, _) => false
      | (.ok _, bytes) =>
        if bytes ∈ seen then false else validItems offer peerType (bytes :: seen) items

/-- `valid_signal`. -/
def validSignal (sig : Signal) : Bool :=
  validItems (decide (sig.signalType = .peerOffer)) false [] sig.dataItems

/-! ## Endpoints -/

/-- The endpoint of a Connection Point. -/
def endpointOf (source : SocketAddr) : DataItem → Option OfferEndpoint
  | .ipv4ConnectionPoint flags addr port =>
    some ⟨.v4 addr (port.getD DEFAULT_PORT), flags.useTls⟩
  | .ipv6ConnectionPoint flags addr port =>
    let scopeId :=
      match source with
      | .v6 _ _ _ scopeId => if addr.isUnicastLinkLocal then scopeId else 0
      | .v4 .. => 0
    some ⟨.v6 addr (port.getD DEFAULT_PORT) 0 scopeId, flags.useTls⟩
  | _ => none

def OfferEndpoint.usable (e : OfferEndpoint) : Bool :=
  !e.addr.isUnspecified && !e.addr.isMulticast && decide (e.addr.port ≠ 0)

/-- The sort key `(!use_tls, !is_ipv6)` as a number. -/
def OfferEndpoint.rank (e : OfferEndpoint) : ℕ :=
  (if e.useTls then 0 else 2) + if e.addr.isIpv6 then 0 else 1

/-- The endpoints that an offer names: without a Connection Point, its source at the default port. -/
def candidates (sig : Signal) (source : SocketAddr) : List OfferEndpoint :=
  let endpoints := sig.dataItems.filterMap (endpointOf source)
  if endpoints.isEmpty then [⟨source.setPort DEFAULT_PORT, false⟩] else endpoints

/-- `offer_endpoints`. -/
def offerEndpoints (sig : Signal) (source : SocketAddr) : List OfferEndpoint :=
  dedup (sortByRank OfferEndpoint.rank ((candidates sig source).filter OfferEndpoint.usable))

/-! ## The router's state machine -/

def TIMER_DISCOVERY : TimerId := ⟨10⟩

inductive RouterDiscoveryState where
  | idle
  | probing
  | offerReceived
  deriving DecidableEq, Repr

structure RouterDiscoveryConfig where
  peerDescription : String
  discoveryInterval : Duration

structure RouterDiscoveryFsm where
  state : RouterDiscoveryState
  config : RouterDiscoveryConfig

namespace RouterDiscoveryFsm

def withConfig (config : RouterDiscoveryConfig) : RouterDiscoveryFsm := ⟨.idle, config⟩

def probe (fsm : RouterDiscoveryFsm) : FsmAction :=
  .sendSignal (buildPeerDiscovery fsm.config.peerDescription) .discoveryGroup

def step (fsm : RouterDiscoveryFsm) : FsmEvent → RouterDiscoveryFsm × List FsmAction
  | .appStartDiscovery =>
    match fsm.state with
    | .idle =>
      ({ fsm with state := .probing },
        [fsm.probe, .startTimer TIMER_DISCOVERY .discovery fsm.config.discoveryInterval true])
    | _ => (fsm, [])
  | .timerExpired _ .discovery =>
    match fsm.state with
    | .probing => (fsm, [fsm.probe])
    | _ => (fsm, [])
  | .recvSignal signal source =>
    match fsm.state with
    | .probing =>
      if signal.signalType ≠ .peerOffer then (fsm, [])
      else if !validSignal signal then (fsm, [])
      else
        let endpoints := offerEndpoints signal source
        if endpoints.isEmpty then (fsm, [])
        -- The router goes on probing: later offers may be from other modems.
        else (fsm, [.emit (.peerDiscovered endpoints (extractPeerDescription signal))])
    | _ => (fsm, [])
  | .appShutdown _ =>
    ({ fsm with state := .idle },
      if fsm.state = .probing then [.cancelTimer TIMER_DISCOVERY] else [])
  | _ => (fsm, [])

end RouterDiscoveryFsm

/-! ## What an offer comes to -/

/-- Distinct usable endpoints in the order of their first appearance, those with TLS first and of
each kind those over IPv6. -/
def preferred (endpoints : List OfferEndpoint) : List OfferEndpoint :=
  let distinct := (endpoints.filter OfferEndpoint.usable).eraseDups
  (distinct.filter fun e => e.useTls && e.addr.isIpv6) ++
    (distinct.filter fun e => e.useTls && !e.addr.isIpv6) ++
    (distinct.filter fun e => !e.useTls && e.addr.isIpv6) ++
    distinct.filter fun e => !e.useTls && !e.addr.isIpv6

theorem rank_lt (e : OfferEndpoint) : e.rank < 4 := by
  unfold OfferEndpoint.rank
  split <;> split <;> decide

/-- If equal endpoints of one rank stand together, sorting makes all of them neighbours. -/
theorem offerEndpoints_eq_sort
    (hgrouped : ∀ k, Grouped (((candidates sig source).filter OfferEndpoint.usable).filter
      fun e => decide (e.rank = k))) :
    offerEndpoints sig source = sortByRank OfferEndpoint.rank
      ((candidates sig source).filter OfferEndpoint.usable).eraseDups := by
  rw [offerEndpoints, sortByRank_eq_buckets fun e _ => rank_lt e, dedup_buckets hgrouped,
    ← sortByRank_eq_buckets fun e _ => rank_lt e]

theorem preferred_eq_sort (endpoints : List OfferEndpoint) :
    preferred endpoints = sortByRank OfferEndpoint.rank
      (endpoints.filter OfferEndpoint.usable).eraseDups := by
  rw [sortByRank_eq_buckets fun e _ => rank_lt e]
  have h₀ : ∀ e : OfferEndpoint, decide (e.rank = 0) = (e.useTls && e.addr.isIpv6) := by
    intro e
    unfold OfferEndpoint.rank
    cases e.useTls <;> cases e.addr.isIpv6 <;> rfl
  have h₁ : ∀ e : OfferEndpoint, decide (e.rank = 1) = (e.useTls && !e.addr.isIpv6) := by
    intro e
    unfold OfferEndpoint.rank
    cases e.useTls <;> cases e.addr.isIpv6 <;> rfl
  have h₂ : ∀ e : OfferEndpoint, decide (e.rank = 2) = (!e.useTls && e.addr.isIpv6) := by
    intro e
    unfold OfferEndpoint.rank
    cases e.useTls <;> cases e.addr.isIpv6 <;> rfl
  have h₃ : ∀ e : OfferEndpoint, decide (e.rank = 3) = (!e.useTls && !e.addr.isIpv6) := by
    intro e
    unfold OfferEndpoint.rank
    cases e.useTls <;> cases e.addr.isIpv6 <;> rfl
  simp only [buckets, List.nil_append, h₀, h₁, h₂, h₃]
  rfl

/-! ## Endpoints that are named twice -/

/-- Two Connection Points that differ in how they say the default port. -/
inductive Respelled : DataItem → DataItem → Prop
  | v4 (flags : ConnectionPointFlags) (addr : Ipv4Addr) :
      Respelled (.ipv4ConnectionPoint flags addr none)
        (.ipv4ConnectionPoint flags addr (some DEFAULT_PORT))
  | v6 (flags : ConnectionPointFlags) (addr : Ipv6Addr) :
      Respelled (.ipv6ConnectionPoint flags addr none)
        (.ipv6ConnectionPoint flags addr (some DEFAULT_PORT))

/-- The address family of a Connection Point and whether it asks for TLS. -/
def DataItem.pointKind : DataItem → Option (Bool × Bool)
  | .ipv4ConnectionPoint flags _ _ => some (flags.useTls, false)
  | .ipv6ConnectionPoint flags _ _ => some (flags.useTls, true)
  | _ => none

/-- A Connection Point with an address and a port that can be dialled. -/
def DataItem.UsablePoint : DataItem → Prop
  | .ipv4ConnectionPoint _ addr port =>
    addr.isUnspecified = false ∧ addr.isMulticast = false ∧ port ≠ some 0
  | .ipv6ConnectionPoint _ addr port =>
    addr.isUnspecified = false ∧ addr.isMulticast = false ∧ port ≠ some 0
  | _ => False

/-- A usable Connection Point stands between two usable ones of its kind that differ in how they
say the default port. -/
def Parted (items : List DataItem) : Prop :=
  ∃ xs a ys b zs, items = xs ++ a :: (ys ++ b :: zs) ∧ (Respelled a b ∨ Respelled b a) ∧
    a.UsablePoint ∧ ∃ c ∈ ys, c.UsablePoint ∧ c.pointKind = a.pointKind

theorem endpointOf_eq_some (h : endpointOf source a = some e) :
    (∃ flags addr port, a = .ipv4ConnectionPoint flags addr port ∧
      e = ⟨.v4 addr (port.getD DEFAULT_PORT), flags.useTls⟩) ∨
    (∃ flags addr port scopeId, a = .ipv6ConnectionPoint flags addr port ∧
      e = ⟨.v6 addr (port.getD DEFAULT_PORT) 0 scopeId, flags.useTls⟩) := by
  unfold endpointOf at h
  split at h
  · cases h
    exact .inl ⟨_, _, _, rfl, rfl⟩
  · cases h
    exact .inr ⟨_, _, _, _, rfl, rfl⟩
  · cases h

theorem port_spellings {port port' : Option UInt16}
    (h : port.getD DEFAULT_PORT = port'.getD DEFAULT_PORT) :
    port = port' ∨ (port = none ∧ port' = some DEFAULT_PORT) ∨
      (port = some DEFAULT_PORT ∧ port' = none) := by
  cases port with
  | none =>
    cases port' with
    | none => exact .inl rfl
    | some p => exact .inr (.inl ⟨rfl, congrArg some h.symm⟩)
  | some p =>
    cases port' with
    | none => exact .inr (.inr ⟨congrArg some h, rfl⟩)
    | some p' => exact .inl (congrArg some h)

/-- Two Connection Points of one endpoint are one, or differ in how they say the port. -/
theorem respelled_of_endpointOf {a b : DataItem} (ha : endpointOf source a = some e)
    (hb : endpointOf source b = some e) : a = b ∨ Respelled a b ∨ Respelled b a := by
  rcases endpointOf_eq_some ha with ⟨⟨tls⟩, addr, port, rfl, rfl⟩ | ⟨⟨tls⟩, addr, port, scope, rfl, rfl⟩
  · rcases endpointOf_eq_some hb with ⟨⟨tls'⟩, addr', port', rfl, heq⟩ | ⟨_, _, _, _, rfl, heq⟩
    · obtain ⟨⟨rfl, hport⟩, rfl⟩ : (addr = addr' ∧ _ = _) ∧ tls = tls' := by simpa using heq
      rcases port_spellings hport with rfl | ⟨rfl, rfl⟩ | ⟨rfl, rfl⟩
      · exact .inl rfl
      · exact .inr (.inl (.v4 _ _))
      · exact .inr (.inr (.v4 _ _))
    · simp at heq
  · rcases endpointOf_eq_some hb with ⟨_, _, _, rfl, heq⟩ | ⟨⟨tls'⟩, addr', port', scope', rfl, heq⟩
    · simp at heq
    · obtain ⟨⟨rfl, hport, -⟩, rfl⟩ : (addr = addr' ∧ _ = _ ∧ _) ∧ tls = tls' := by simpa using heq
      rcases port_spellings hport with rfl | ⟨rfl, rfl⟩ | ⟨rfl, rfl⟩
      · exact .inl rfl
      · exact .inr (.inl (.v6 _ _))
      · exact .inr (.inr (.v6 _ _))

theorem usablePoint_of_endpointOf (ha : endpointOf source a = some e) (husable : e.usable = true) :
    a.UsablePoint := by
  have hport : ∀ port : Option UInt16, port.getD DEFAULT_PORT ≠ 0 → port ≠ some 0 := by
    rintro _ hne rfl
    exact hne rfl
  unfold OfferEndpoint.usable at husable
  simp only [Bool.and_eq_true, Bool.not_eq_true', decide_eq_true_eq] at husable
  obtain ⟨⟨hspecified, hunicast⟩, hdial⟩ := husable
  rcases endpointOf_eq_some ha with ⟨_, _, port, rfl, rfl⟩ | ⟨_, _, port, _, rfl, rfl⟩
  · exact ⟨hspecified, hunicast, hport port hdial⟩
  · exact ⟨hspecified, hunicast, hport port hdial⟩

theorem pointKind_of_endpointOf (ha : endpointOf source a = some e) :
    a.pointKind = some (e.useTls, e.addr.isIpv6) := by
  rcases endpointOf_eq_some ha with ⟨_, _, _, rfl, rfl⟩ | ⟨_, _, _, _, rfl, rfl⟩
  · rfl
  · rfl

/-- The bytes of the items of a valid signal are all different. -/
theorem nodup_of_validItems {offer peerType : Bool} {seen : List (List UInt8)}
    (h : validItems offer peerType seen items = true) :
    (items.map fun item => (item.encode []).2).Nodup ∧
      ∀ item ∈ items, (item.encode []).2 ∉ seen := by
  induction items generalizing peerType seen with
  | nil => exact ⟨List.nodup_nil, nofun⟩
  | cons item items ih =>
    unfold validItems at h
    split at h
    · cases h
    · split at h
      · cases h
      · rename_i hbytes
        split at h
        · cases h
        · rename_i hnew
          obtain ⟨hnodup, hrest⟩ := ih h
          have hitem : (item.encode []).2 = _ := congrArg Prod.snd hbytes
          refine ⟨?_, ?_⟩
          · rw [List.map_cons, List.nodup_cons]
            refine ⟨fun hmem => ?_, hnodup⟩
            obtain ⟨other, hother, heq⟩ := List.mem_map.mp hmem
            rw [hitem] at heq
            exact hrest other hother (heq ▸ List.mem_cons_self)
          · refine List.forall_mem_cons.mpr ⟨hitem ▸ hnew, fun other hother hmem => ?_⟩
            exact hrest other hother (List.mem_cons_of_mem _ hmem)

theorem nodup_of_validSignal (h : validSignal sig = true) : sig.dataItems.Nodup :=
  (nodup_of_validItems h).1.of_map

/-- An endpoint that is usable and of rank `k`. -/
theorem endpointOf_of_filter {k : ℕ} (h : ((endpointOf source a).filter OfferEndpoint.usable).filter
      (fun e => decide (e.rank = k)) = some e) :
    endpointOf source a = some e ∧ e.usable = true ∧ e.rank = k := by
  obtain ⟨h, hrank⟩ := Option.filter_eq_some_iff.mp h
  obtain ⟨h, husable⟩ := Option.filter_eq_some_iff.mp h
  exact ⟨h, husable, of_decide_eq_true hrank⟩

theorem kind_of_rank {e e' : OfferEndpoint} (h : e.rank = e'.rank) :
    e.useTls = e'.useTls ∧ e.addr.isIpv6 = e'.addr.isIpv6 := by
  revert h
  unfold OfferEndpoint.rank
  cases e.useTls <;> cases e'.useTls <;> cases e.addr.isIpv6 <;> cases e'.addr.isIpv6 <;> simp

/-- In a valid signal, equal endpoints of one rank stand together unless they are parted. -/
theorem grouped_of_not_parted (hnodup : items.Nodup) (hparted : ¬ Parted items)
    (source : SocketAddr) (k : ℕ) :
    Grouped (((items.filterMap (endpointOf source)).filter OfferEndpoint.usable).filter
      fun e => decide (e.rank = k)) := by
  intro xs ys zs e heq y hy
  rw [List.filter_filterMap, List.filter_filterMap] at heq
  -- The items behind the two equal endpoints and behind the one between them.
  obtain ⟨front, items', rfl, -, heq⟩ := List.filterMap_eq_append_iff.mp heq
  obtain ⟨skipped, a, rest, rfl, -, ha, heq⟩ := List.filterMap_eq_cons_iff.mp heq
  obtain ⟨between, back, rfl, hbetween, heq⟩ := List.filterMap_eq_append_iff.mp heq
  obtain ⟨skipped', b, tail, rfl, -, hb, -⟩ := List.filterMap_eq_cons_iff.mp heq
  rw [← hbetween] at hy
  obtain ⟨c, hc, hcy⟩ := List.mem_filterMap.mp hy
  obtain ⟨ha, husable, hrank⟩ := endpointOf_of_filter ha
  obtain ⟨hb, -, -⟩ := endpointOf_of_filter hb
  obtain ⟨hcy, husable', hrank'⟩ := endpointOf_of_filter hcy
  have hab : a ≠ b := by
    rintro rfl
    simp [List.nodup_append] at hnodup
  have hkind := kind_of_rank (hrank'.trans hrank.symm)
  refine absurd ?_ hparted
  refine ⟨front ++ skipped, a, between ++ skipped', b, tail, by simp, ?_, ?_, c,
    List.mem_append_left _ hc, ?_, ?_⟩
  · exact (respelled_of_endpointOf ha hb).resolve_left hab
  · exact usablePoint_of_endpointOf ha husable
  · exact usablePoint_of_endpointOf hcy husable'
  · rw [pointKind_of_endpointOf hcy, pointKind_of_endpointOf ha, hkind.1, hkind.2]

theorem grouped_candidates (hvalid : validSignal sig = true) (hparted : ¬ Parted sig.dataItems)
    (source : SocketAddr) (k : ℕ) :
    Grouped (((candidates sig source).filter OfferEndpoint.usable).filter
      fun e => decide (e.rank = k)) := by
  unfold candidates
  dsimp only
  split
  · refine grouped_of_length_le_one ?_
    refine (List.length_filter_le _ _).trans ((List.length_filter_le _ _).trans ?_)
    exact le_rfl
  · exact grouped_of_not_parted (nodup_of_validSignal hvalid) hparted source k

/-! ## Parted endpoints -/

/-- A usable Connection Point has a usable endpoint. -/
theorem endpointOf_of_usablePoint (h : a.UsablePoint) (source : SocketAddr) :
    ∃ e, endpointOf source a = some e ∧ e.usable = true := by
  have hport : ∀ port : Option UInt16, port ≠ some 0 → port.getD DEFAULT_PORT ≠ 0 := by
    rintro (_ | port) hne
    · decide
    · exact fun hzero => hne (congrArg some hzero)
  have husable : ∀ (e : OfferEndpoint), e.addr.isUnspecified = false →
      e.addr.isMulticast = false → e.addr.port ≠ 0 → e.usable = true := by
    intro e hspecified hunicast hdial
    rw [OfferEndpoint.usable, hspecified, hunicast, decide_eq_true hdial]
    rfl
  unfold DataItem.UsablePoint at h
  split at h
  · exact ⟨_, rfl, husable _ h.1 h.2.1 (hport _ h.2.2)⟩
  · exact ⟨_, rfl, husable _ h.1 h.2.1 (hport _ h.2.2)⟩
  · exact h.elim

theorem Respelled.endpointOf_eq {a b : DataItem} (h : Respelled a b) (source : SocketAddr) :
    endpointOf source b = endpointOf source a := by
  cases h with
  | v4 flags addr => rfl
  | v6 flags addr => rfl

/-- There are only two ways to say the default port. -/
theorem eq_of_respelled {a b c : DataItem} (hab : Respelled a b ∨ Respelled b a)
    (hac : Respelled a c ∨ Respelled c a) : c = b := by
  rcases hab with hab | hab
  · cases hab <;> rcases hac with hac | hac <;> cases hac <;> rfl
  · cases hab <;> rcases hac with hac | hac <;> cases hac <;> rfl

theorem rank_of_kind {a c : DataItem} {e e' : OfferEndpoint} (ha : endpointOf source a = some e)
    (hc : endpointOf source c = some e') (hkind : c.pointKind = a.pointKind) :
    e'.rank = e.rank := by
  rw [pointKind_of_endpointOf ha, pointKind_of_endpointOf hc] at hkind
  obtain ⟨htls, hfamily⟩ := Prod.mk.inj (Option.some.inj hkind)
  rw [OfferEndpoint.rank, OfferEndpoint.rank, htls, hfamily]

/-- In a valid signal the endpoints of parted Connection Points do not stand together. -/
theorem Parted.not_grouped (h : Parted items) (hnodup : items.Nodup) (source : SocketAddr) :
    ∃ k < 4, ¬ Grouped (((items.filterMap (endpointOf source)).filter OfferEndpoint.usable).filter
      fun e => decide (e.rank = k)) := by
  obtain ⟨xs, a, ys, b, zs, rfl, hrespelled, husable, c, hc, husable', hkind⟩ := h
  obtain ⟨e, ha, hae⟩ := endpointOf_of_usablePoint husable source
  obtain ⟨e', hce, hce'⟩ := endpointOf_of_usablePoint husable' source
  have hb : endpointOf source b = some e := by
    rw [← ha]
    exact hrespelled.elim (·.endpointOf_eq source) fun h => (h.endpointOf_eq source).symm
  have hrank := rank_of_kind ha hce hkind
  refine ⟨e.rank, rank_lt e, fun hgrouped => ?_⟩
  rw [List.filter_filterMap, List.filter_filterMap] at hgrouped
  generalize hf : (fun x => ((endpointOf source x).filter OfferEndpoint.usable).filter
    fun y => decide (y.rank = e.rank)) = f at hgrouped
  have hkept : ∀ {x : DataItem} {y : OfferEndpoint}, endpointOf source x = some y →
      y.usable = true → y.rank = e.rank → f x = some y := by
    intro x y hx hy hxy
    simp [← hf, hx, hy, hxy]
  rw [List.filterMap_append, List.filterMap_cons_some (hkept ha hae rfl), List.filterMap_append,
    List.filterMap_cons_some (hkept hb hae rfl)] at hgrouped
  have hsame : e' = e :=
    hgrouped _ _ _ e rfl e' (List.mem_filterMap.mpr ⟨c, hc, hkept hce hce' hrank⟩)
  subst hsame
  simp only [List.nodup_append, List.nodup_cons, List.mem_append, List.mem_cons] at hnodup
  have hac : c ≠ a := by
    rintro rfl
    exact hnodup.2.1.1 (.inl hc)
  have hbc : c ≠ b := by
    rintro rfl
    exact hnodup.2.1.2.2.2 c hc c (.inl rfl) rfl
  exact hbc (eq_of_respelled hrespelled
    ((respelled_of_endpointOf ha hce).resolve_left hac.symm))

/-- The endpoints of an offer are the distinct usable endpoints that it names, in the order of
preference. -/
structure OfferExact (sig : Signal) (source : SocketAddr) : Prop where
  preferred : offerEndpoints sig source = preferred (candidates sig source)
  nodup : (offerEndpoints sig source).Nodup
  mem : ∀ e, e ∈ offerEndpoints sig source ↔ e ∈ candidates sig source ∧ e.usable = true
  sorted : (offerEndpoints sig source).Pairwise fun e e' => e.rank ≤ e'.rank
  source : (∀ item ∈ sig.dataItems, item.pointKind = none) →
    offerEndpoints sig source = [⟨source.setPort 854, false⟩].filter OfferEndpoint.usable

theorem offerEndpoints_source (h : ∀ item ∈ sig.dataItems, item.pointKind = none)
    (source : SocketAddr) :
    offerEndpoints sig source = [⟨source.setPort 854, false⟩].filter OfferEndpoint.usable := by
  have hempty : sig.dataItems.filterMap (endpointOf source) = [] := by
    refine List.filterMap_eq_nil_iff.mpr fun item hitem => ?_
    cases hpoint : endpointOf source item with
    | none => rfl
    | some e => cases (h item hitem).symm.trans (pointKind_of_endpointOf hpoint)
  have hsource : candidates sig source = [⟨source.setPort DEFAULT_PORT, false⟩] := by
    rw [candidates, hempty]
    rfl
  rw [offerEndpoints, hsource, show (854 : UInt16) = DEFAULT_PORT from rfl]
  cases husable : OfferEndpoint.usable ⟨source.setPort DEFAULT_PORT, false⟩ with
  | true =>
    rw [List.filter_cons_of_pos husable]
    rfl
  | false =>
    rw [List.filter_cons_of_neg (by simp [husable])]
    rfl

theorem offerExact_of_not_parted (hvalid : validSignal sig = true)
    (hparted : ¬ Parted sig.dataItems) (source : SocketAddr) : OfferExact sig source := by
  have hsort := offerEndpoints_eq_sort (grouped_candidates hvalid hparted source)
  have hperm := perm_sortByRank OfferEndpoint.rank
    ((candidates sig source).filter OfferEndpoint.usable).eraseDups
  refine ⟨?_, ?_, fun e => ?_, ?_, fun hnone => offerEndpoints_source hnone source⟩
  · rw [hsort, preferred_eq_sort]
  · rw [hsort, hperm.nodup_iff]
    exact nodup_eraseDups _
  · rw [hsort, hperm.mem_iff, List.mem_eraseDups, List.mem_filter]
  · rw [hsort]
    exact pairwise_sortByRank _ _

theorem candidates_of_parted (h : Parted sig.dataItems) (source : SocketAddr) :
    candidates sig source = sig.dataItems.filterMap (endpointOf source) := by
  obtain ⟨xs, a, ys, b, zs, hitems, -, husable, -⟩ := h
  obtain ⟨e, ha, -⟩ := endpointOf_of_usablePoint husable source
  refine if_neg fun hempty => ?_
  have hmem : e ∈ sig.dataItems.filterMap (endpointOf source) :=
    List.mem_filterMap.mpr ⟨a, by simp [hitems], ha⟩
  rw [List.isEmpty_iff.mp hempty] at hmem
  cases hmem

/-- The endpoints of a valid offer are exact if and only if no endpoint that is named twice is
parted by another of its kind. -/
theorem offer_endpoints_exact (hvalid : validSignal sig = true) (source : SocketAddr) :
    OfferExact sig source ↔ ¬ Parted sig.dataItems := by
  refine ⟨fun hexact hparted => ?_, fun hparted => offerExact_of_not_parted hvalid hparted source⟩
  obtain ⟨k, hk, hapart⟩ := hparted.not_grouped (nodup_of_validSignal hvalid) source
  have hnodup := hexact.nodup
  rw [offerEndpoints, sortByRank_eq_buckets fun e _ => rank_lt e,
    candidates_of_parted hparted source] at hnodup
  exact hapart (grouped_of_nodup_dedup (nodup_dedup_bucket hnodup hk))

/-- An endpoint is named twice, as neighbours in the signal. -/
theorem offer_endpoints_exact_twice :
    OfferExact ⟨.peerOffer, [.ipv4ConnectionPoint ⟨false⟩ 0xc0000201#32 none,
      .ipv4ConnectionPoint ⟨false⟩ 0xc0000201#32 (some 854)]⟩ (.v4 0xc0000201#32 4000) := by
  refine (offer_endpoints_exact (by decide) _).mpr ?_
  rintro ⟨xs, a, ys, b, zs, hitems, -, -, c, hc, -⟩
  have hlength := congrArg List.length hitems
  have hpos := List.length_pos_of_mem hc
  simp only [List.length_cons, List.length_nil, List.length_append] at hlength
  omega

/-- An endpoint is named twice, with another one between. -/
theorem offer_endpoints_exact_parted :
    validSignal ⟨.peerOffer, [.ipv4ConnectionPoint ⟨false⟩ 0xc0000201#32 none,
      .ipv4ConnectionPoint ⟨false⟩ 0xc0000202#32 none,
      .ipv4ConnectionPoint ⟨false⟩ 0xc0000201#32 (some 854)]⟩ = true ∧
    offerEndpoints ⟨.peerOffer, [.ipv4ConnectionPoint ⟨false⟩ 0xc0000201#32 none,
      .ipv4ConnectionPoint ⟨false⟩ 0xc0000202#32 none,
      .ipv4ConnectionPoint ⟨false⟩ 0xc0000201#32 (some 854)]⟩ (.v4 0xc0000201#32 4000) =
      [⟨.v4 0xc0000201#32 854, false⟩, ⟨.v4 0xc0000202#32 854, false⟩,
        ⟨.v4 0xc0000201#32 854, false⟩] := by
  decide

end Dlep
