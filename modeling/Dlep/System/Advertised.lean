-- SUMMARY: Where no address is advertised twice, the router stores the modem's addresses in every quiescent state.
import Dlep.Fsm.Ownership
import Dlep.System.Agreement
import Dlep.System.Sound

/-!
# Addresses of destinations

The router drops an addition that another destination or the modem itself holds, so
the mirror of metrics and destinations extends to addresses only while what the
modem has advertised is free of such overlaps. The modem tells some changes at once
and keeps others until its Up is answered: what counts is what it has told, not what
it holds.
-/

namespace Dlep

open RouterSessionFsm (learn)

/-! ## What the modem has told -/

/-- The two sets have an address or subnet in common. -/
def DestinationAddrs.overlaps (d e : DestinationAddrs) : Bool :=
  d.v4.any e.v4.contains || d.v6.any e.v6.contains || d.v4Subnets.any e.v4Subnets.contains ||
    d.v6Subnets.any e.v6Subnets.contains

theorem DestinationAddrs.overlaps_eq_true (d e : DestinationAddrs) :
    d.overlaps e = true ↔ ∃ a : Addr, a ∈ d ∧ a ∈ e := by
  simp only [overlaps, Bool.or_eq_true, List.any_eq_true, List.contains_iff_mem]
  constructor
  · rintro (((⟨a, h⟩ | ⟨a, h⟩) | ⟨a, h⟩) | ⟨a, h⟩)
    · exact ⟨.v4 a, h⟩
    · exact ⟨.v6 a, h⟩
    · exact ⟨.v4Subnet a, h⟩
    · exact ⟨.v6Subnet a, h⟩
  · rintro ⟨a, h⟩
    cases a with
    | v4 a => exact .inl (.inl (.inl ⟨a, h⟩))
    | v6 a => exact .inl (.inl (.inr ⟨a, h⟩))
    | v4Subnet a => exact .inl (.inr ⟨a, h⟩)
    | v6Subnet a => exact .inr ⟨a, h⟩

/-- A well-kept destination entry: what was told of an announced destination is what the
modem holds. -/
structure ModemDestination.Kempt (d : ModemDestination) : Prop where
  addrs : d.addrs.WellFormed
  advertised : d.advertisedAddrs.WellFormed
  told : d.announced = true → d.advertisedAddrs.SameAs d.addrs

namespace ModemSessionFsm

variable {s s' : ModemSessionFsm} {event : FsmEvent} {actions : List FsmAction} {mac : MacAddress}
  {d : ModemDestination}

/-- No destination holds an address of the modem's own. -/
def OwnFree (s : ModemSessionFsm) : Prop :=
  ∀ mac d, s.destinations.lookup mac = some d → ∀ a ∈ d.addrs, a ∉ s.localAddresses

/-- No address is in the sets of two of the selected destinations. -/
def Unshared (s : ModemSessionFsm) (selected : MacAddress → ModemDestination → Bool)
    (addrs : ModemDestination → DestinationAddrs) : Prop :=
  ∀ mac d mac' d', s.destinations.lookup mac = some d → selected mac d = true →
    s.destinations.lookup mac' = some d' → selected mac' d' = true → mac' ≠ mac →
    ∀ a ∈ addrs d, a ∉ addrs d'

theorem ownFree_iff (s : ModemSessionFsm) :
    ¬ s.destinations.scan (fun _ d => d.addrs.overlaps s.localAddresses) = true ↔ s.OwnFree := by
  simp only [FinMap.scan_eq_true, DestinationAddrs.overlaps_eq_true, not_exists, not_and]
  rfl

theorem unshared_iff (s : ModemSessionFsm) (selected : MacAddress → ModemDestination → Bool)
    (addrs : ModemDestination → DestinationAddrs) :
    ¬ s.destinations.scan (fun mac d => selected mac d && s.destinations.scan fun mac' d' =>
      selected mac' d' && (decide (mac' ≠ mac) && (addrs d).overlaps (addrs d'))) = true ↔
      s.Unshared selected addrs := by
  simp only [FinMap.scan_eq_true, Bool.and_eq_true, decide_eq_true_eq,
    DestinationAddrs.overlaps_eq_true, not_exists, not_and]
  exact ⟨fun h mac d mac' d' hd hsel => h mac d hd hsel mac' d',
    fun h mac d hd hsel mac' d' => h mac d mac' d' hd hsel⟩

instance (s : ModemSessionFsm) : Decidable s.OwnFree := decidable_of_iff _ s.ownFree_iff

instance (s : ModemSessionFsm) (selected : MacAddress → ModemDestination → Bool)
    (addrs : ModemDestination → DestinationAddrs) : Decidable (s.Unshared selected addrs) :=
  decidable_of_iff _ (s.unshared_iff selected addrs)

/-- The router knows the destination, or will when it has read what is under way. -/
def told (s : ModemSessionFsm) (mac : MacAddress) (d : ModemDestination) : Bool :=
  match s.tx.pending mac with
  | none => d.announced
  | some kind => kind = .destinationUp

/-- No address is held for two destinations, or for a destination and the modem. -/
def Apart (s : ModemSessionFsm) : Prop :=
  s.OwnFree ∧ s.Unshared (fun _ _ => true) ModemDestination.addrs

/-- No address is advertised for two destinations, or held for a destination and the modem. -/
def Exclusive (s : ModemSessionFsm) : Prop :=
  s.OwnFree ∧ s.Unshared s.told ModemDestination.advertisedAddrs

instance (s : ModemSessionFsm) : Decidable s.Apart := inferInstanceAs (Decidable (_ ∧ _))

instance (s : ModemSessionFsm) : Decidable s.Exclusive := inferInstanceAs (Decidable (_ ∧ _))

def Kempt (s : ModemSessionFsm) : Prop := ∀ mac d, s.destinations.lookup mac = some d → d.Kempt

/-- Nothing is left to tell of an acknowledged destination. -/
theorem kempt_acknowledge (hd : d.Kempt) : (acknowledge mac d).Kempt := by
  unfold acknowledge
  split
  · exact ⟨hd.addrs, hd.addrs, fun _ => .refl _⟩
  · rename_i hnone
    refine ⟨hd.addrs, hd.advertised, fun _ => ?_⟩
    simp only [deferredUpdate] at hnone
    split at hnone
    · cases hnone
    · rename_i hnothing
      simp only [Bool.or_eq_true, Bool.not_eq_true', not_or, Bool.not_eq_true,
        Bool.not_eq_false] at hnothing
      exact (AddressChanges.isEmpty_between_iff _ _).mp hnothing.2

theorem Transition.kempt (h : s.Transition event s' actions) (hk : s.Kempt) : s'.Kempt := by
  cases h with
  | added _ hp =>
    cases hp with
    | add _ _ _ _ hvalid =>
      have haddrs := AddressChanges.wellFormed_of_validate hvalid
      exact FinMap.of_lookup_insert hk ⟨haddrs, haddrs, nofun⟩
  | acknowledged _ _ _ _ _ hd => exact FinMap.of_lookup_insert hk (kempt_acknowledge (hk _ _ hd))
  | refused _ _ _ _ _ _ hd => exact FinMap.of_lookup_insert hk (hk _ _ hd)
  | metricsDeferred _ _ hd | metricsSent _ _ hd | linkAnswered _ _ hd =>
    exact FinMap.of_lookup_insert hk ⟨(hk _ _ hd).addrs, (hk _ _ hd).advertised, (hk _ _ hd).told⟩
  | addressesKept _ _ hd hkept =>
    have hd := hk _ _ hd
    refine FinMap.of_lookup_insert hk ⟨AddressChanges.wellFormed_applyLenient hd.addrs _, hd.advertised, ?_⟩
    intro hann
    rcases hkept with hnew | hempty
    · cases hnew.symm.trans hann
    · exact (AddressChanges.isEmpty_between_iff _ _).mp hempty
  | addressesSent _ _ hd =>
    have haddrs := AddressChanges.wellFormed_applyLenient (hk _ _ hd).addrs
    exact FinMap.of_lookup_insert hk ⟨haddrs _, haddrs _, fun _ => .refl _⟩
  | forgotten | dropAnswered => exact FinMap.of_lookup_erase hk
  | withdrawn _ _ _ _ hd =>
    exact FinMap.of_lookup_insert hk ⟨(hk _ _ hd).addrs, (hk _ _ hd).advertised, nofun⟩
  | announceGranted _ _ _ _ hd =>
    exact FinMap.of_lookup_insert hk ⟨(hk _ _ hd).addrs, (hk _ _ hd).addrs, fun _ => .refl _⟩
  | sessionMetricsSent =>
    exact FinMap.of_lookup_mapValues fun mac d hd =>
      ⟨(hk mac d hd).addrs, (hk mac d hd).advertised, (hk mac d hd).told⟩
  | _ => exact hk

end ModemSessionFsm

/-! ## What the router makes of it -/

/-- A message that carries the change from one address set to another. -/
structure Message.Changes (msg : Message) (old new : DestinationAddrs) : Prop where
  added : ∀ a, a ∈ (AddressChanges.fromMessage msg).added ↔ a ∈ new ∧ a ∉ old
  removed : ∀ a, a ∈ (AddressChanges.fromMessage msg).removed ↔ a ∈ old ∧ a ∉ new

section

variable {msg : Message} {old new : DestinationAddrs} {mac : MacAddress} {metrics : LinkMetrics}
  {addrs : DestinationAddrs}

theorem changes_between (hold : old.WellFormed) (hnew : new.WellFormed)
    (hskip : ∀ i ∈ msg.dataItems, AddressChanges.Skipped i) :
    ((AddressChanges.between old new).appendTo msg).Changes old new := by
  have hread := AddressChanges.fromMessage_appendTo (.between old new) hskip
  rw [AddressChanges.canonical_between hold hnew] at hread
  exact ⟨fun a => by rw [hread, AddressChanges.mem_between_added],
    fun a => by rw [hread, AddressChanges.mem_between_removed]⟩

theorem changes_nothing (addrs : DestinationAddrs) (h : AddressChanges.fromMessage msg = .default) :
    msg.Changes addrs addrs := by
  refine ⟨fun a => ?_, fun a => ?_⟩
  · rw [h]
    exact ⟨fun ha => absurd ha (DestinationAddrs.not_mem_default a), fun ha => absurd ha.1 ha.2⟩
  · rw [h]
    exact ⟨fun ha => absurd ha (DestinationAddrs.not_mem_default a), fun ha => absurd ha.1 ha.2⟩

theorem fromMessage_buildDestinationUp (mac : MacAddress) (metrics : LinkMetrics)
    (h : addrs.WellFormed) :
    AddressChanges.fromMessage (buildDestinationUp mac metrics addrs) = ⟨addrs, .default⟩ := by
  rw [buildDestinationUp, fromMessage_pushMetricItems, AddressChanges.upAddressItems_eq h,
    AddressChanges.fromMessage, List.foldl_append, AddressChanges.foldl_absorb_sideItems, h.canonical]
  simp [AddressChanges.absorb, AddressChanges.onSide, AddressChanges.default]

/-- A report carries the whole set. -/
theorem changes_of_report (hread : AddressChanges.fromMessage msg = ⟨addrs, .default⟩) :
    msg.Changes .default addrs := by
  refine ⟨fun a => ?_, fun a => ?_⟩
  · rw [hread]
    exact ⟨fun ha => ⟨ha, DestinationAddrs.not_mem_default a⟩, And.left⟩
  · rw [hread]
    exact ⟨fun ha => absurd ha (DestinationAddrs.not_mem_default a),
      fun ha => absurd ha.1 (DestinationAddrs.not_mem_default a)⟩

theorem changes_buildDestinationUp (h : addrs.WellFormed) :
    (buildDestinationUp mac metrics addrs).Changes .default addrs :=
  changes_of_report (fromMessage_buildDestinationUp mac metrics h)

theorem changes_announceSuccess {d : ModemDestination} (h : d.addrs.WellFormed) :
    (ModemSessionFsm.announceSuccess mac d).Changes .default d.addrs := by
  refine changes_of_report ?_
  have hup := fromMessage_buildDestinationUp mac d.metrics h
  rw [AddressChanges.fromMessage] at hup
  rw [AddressChanges.fromMessage, ModemSessionFsm.announceSuccess, List.foldl_append, hup]
  rfl

theorem changes_buildDestinationUpdate (addrs : DestinationAddrs) :
    (buildDestinationUpdate mac metrics).Changes addrs addrs :=
  changes_nothing addrs (fromMessage_pushMetricItems _ metrics)

theorem changes_deferredUpdate {d : ModemDestination} (hd : d.Kempt)
    (h : ModemSessionFsm.deferredUpdate mac d = some msg) :
    msg.Changes d.advertisedAddrs d.addrs := by
  simp only [ModemSessionFsm.deferredUpdate] at h
  split at h
  · cases h
    refine changes_between hd.advertised hd.addrs ?_
    intro i hi
    split at hi
    · rcases List.mem_append.mp hi with hi | hi
      · rw [List.mem_singleton.mp hi]
        exact fun _ => rfl
      · exact skipped_of_metric (isMetricItem_of_mem hi)
    · rw [List.mem_singleton.mp hi]
      exact fun _ => rfl
  · cases h

/-- Where no addition is taken, the router applies the whole change. -/
theorem RouterSessionFsm.sameAs_applied {v : RouterSessionFsm} {base : DestinationAddrs}
    (h : msg.Changes old new) (hbase : base.SameAs old)
    (hfree : ∀ a ∈ new, a ∉ v.peerAddresses ∧
      ∀ m addrs, v.addrsOf m = some addrs → m ≠ mac → a ∉ addrs) :
    ((v.destinationAddressChanges mac msg).applyLenient base).SameAs new := by
  intro a
  rw [AddressChanges.mem_applyLenient, canonical_destinationAddressChanges,
    mem_destinationAddressChanges, destinationAddressChanges_removed, h.added, h.removed, hbase a]
  constructor
  · rintro (⟨hold, hkept | ⟨⟨hnew, -⟩, -⟩⟩ | ⟨⟨⟨hnew, -⟩, -⟩, -⟩)
    · exact by_contra fun hnew => hkept ⟨hold, hnew⟩
    · exact hnew
    · exact hnew
  · intro hnew
    have hkept : ¬ (a ∈ old ∧ a ∉ new) := fun hgone => hgone.2 hnew
    by_cases hold : a ∈ old
    · exact .inl ⟨hold, .inl hkept⟩
    · exact .inr ⟨⟨⟨hnew, hold⟩, .inr (hfree a hnew)⟩, hkept⟩

end

/-! ## Stored addresses -/

/-- The view holds what the modem has told of each destination. -/
def Stored (v : RouterSessionFsm) (m : ModemSessionFsm) : Prop :=
  ∀ mac x d, v.destinations.lookup mac = some x → m.destinations.lookup mac = some d →
    x.addrs.SameAs d.advertisedAddrs

section

variable {v v' : RouterSessionFsm} {m m' : ModemSessionFsm} {mac : MacAddress} {msg : Message}
  {x : RouterDestination} {d : ModemDestination} {new : DestinationAddrs}

/-- What the view knows, the modem has told. -/
theorem Mirrored.told (hM : Mirrored v m) (hx : v.destinations.lookup mac = some x) :
    ∃ d, m.destinations.lookup mac = some d ∧ m.told mac d = true := by
  have h := hM.cell mac
  rw [hx] at h
  generalize hp : m.tx.pending mac = pending, hd : m.destinations.lookup mac = entry at h
  cases h with
  | @asking _ d => exact ⟨d, rfl, by rw [ModemSessionFsm.told, hp]; rfl⟩
  | @granted _ d hann => exact ⟨d, rfl, by rw [ModemSessionFsm.told, hp]; exact hann⟩

/-- The modem changed at most one destination. -/
structure ModemSessionFsm.ChangedAt (m m' : ModemSessionFsm) (mac : MacAddress) : Prop where
  session : m'.localAddresses = m.localAddresses
  pending : ∀ x, x ≠ mac → m'.tx.pending x = m.tx.pending x
  destinations : ∀ x, x ≠ mac → m'.destinations.lookup x = m.destinations.lookup x

/-- While nothing is advertised twice, the view has room for what the modem tells. -/
theorem Stored.free (hst : Stored v m) (hM : Mirrored v m) (hat : m.ChangedAt m' mac)
    (hex : m'.Exclusive) (hd : m'.destinations.lookup mac = some d) (htold : m'.told mac d = true)
    (hheld : d.advertisedAddrs.SameAs d.addrs) : ∀ a ∈ d.advertisedAddrs, a ∉ v.peerAddresses ∧
      ∀ y addrs, v.addrsOf y = some addrs → y ≠ mac → a ∉ addrs := by
  intro a ha
  refine ⟨fun hpeer => ?_, fun y addrs haddrs hy hmem => ?_⟩
  · refine hex.1 mac d hd a ((hheld a).mp ha) ?_
    rw [hat.session]
    exact (hM.peer a).mp hpeer
  · obtain ⟨x, hx, rfl⟩ := Option.map_eq_some_iff.mp haddrs
    obtain ⟨e, he, hetold⟩ := hM.told hx
    have hetold' : m'.told y e = true := by
      rw [ModemSessionFsm.told, hat.pending y hy]
      exact hetold
    exact hex.2 mac d y e hd htold ((hat.destinations y hy).trans he) hetold' hy a ha
      ((hst y x e hx he a).mp hmem)

/-- A change at one destination. -/
theorem Stored.at (hst : Stored v m) (hat : m.ChangedAt m' mac)
    (helsewhere : ∀ y, y ≠ mac → v'.destinations.lookup y = v.destinations.lookup y)
    (hhere : ∀ x d, v'.destinations.lookup mac = some x → m'.destinations.lookup mac = some d →
      x.addrs.SameAs d.advertisedAddrs) : Stored v' m' := by
  intro y x d hx hd
  by_cases hy : y = mac
  · subst hy
    exact hhere x d hx hd
  · rw [helsewhere y hy] at hx
    rw [hat.destinations y hy] at hd
    exact hst y x d hx hd

/-- A report of an unknown destination. -/
theorem Stored.report (hst : Stored v m) (hM : Mirrored v m) (hat : m.ChangedAt m' mac)
    (hex : m'.Exclusive) (hd : m'.destinations.lookup mac = some d) (htold : m'.told mac d = true)
    (hheld : d.advertisedAddrs.SameAs d.addrs) (hn : msg.news = .report mac)
    (hchanges : msg.Changes .default d.advertisedAddrs) : Stored (v.learn msg) m' := by
  rw [RouterSessionFsm.learn_report hn]
  refine hst.at hat (fun y hy => Finmap.lookup_insert_of_ne _ hy) fun x e hx he => ?_
  rw [Finmap.lookup_insert] at hx
  cases hx
  cases he.symm.trans hd
  exact RouterSessionFsm.sameAs_applied hchanges (.refl _) (hst.free hM hat hex hd htold hheld)

/-- An update of a known one. -/
theorem Stored.update (hst : Stored v m) (hM : Mirrored v m) (hat : m.ChangedAt m' mac)
    (hex : m'.Exclusive) {old : ModemDestination} (hold : m.destinations.lookup mac = some old)
    (hx : v.destinations.lookup mac = some x) (hd : m'.destinations.lookup mac = some d)
    (htold : m'.told mac d = true) (hheld : d.advertisedAddrs.SameAs d.addrs)
    (hn : msg.news = .update mac)
    (hchanges : msg.Changes old.advertisedAddrs d.advertisedAddrs) : Stored (v.learn msg) m' := by
  rw [RouterSessionFsm.learn_update hn hx]
  refine hst.at hat (fun y hy => Finmap.lookup_insert_of_ne _ hy) fun z e hz he => ?_
  rw [Finmap.lookup_insert] at hz
  cases hz
  cases he.symm.trans hd
  exact RouterSessionFsm.sameAs_applied hchanges (hst mac x old hx hold) (hst.free hM hat hex hd htold hheld)

/-- A change that keeps what was told of the destination, with news that keep what is stored. -/
theorem Stored.keep (hst : Stored v m) (hat : m.ChangedAt m' mac)
    (helsewhere : ∀ y, y ≠ mac → v'.destinations.lookup y = v.destinations.lookup y)
    (hstored : ∀ x', v'.destinations.lookup mac = some x' →
      ∃ x, v.destinations.lookup mac = some x ∧ x'.addrs = x.addrs)
    (htold : ∀ d', m'.destinations.lookup mac = some d' →
      ∃ d, m.destinations.lookup mac = some d ∧ d'.advertisedAddrs = d.advertisedAddrs) :
    Stored v' m' := by
  refine hst.at hat helsewhere fun x' d' hx' hd' => ?_
  obtain ⟨x, hx, hxaddrs⟩ := hstored x' hx'
  obtain ⟨d, hd, hdaddrs⟩ := htold d' hd'
  rw [hxaddrs, hdaddrs]
  exact hst mac x d hx hd

/-- A destination that the view does not know. -/
theorem Stored.unknown (hst : Stored v m) (hat : m.ChangedAt m' mac)
    (hnone : v.destinations.lookup mac = none) : Stored v m' :=
  hst.at hat (fun _ _ => rfl) fun x _ hx => by cases hnone.symm.trans hx

theorem Stored.removal (hst : Stored v m) (hat : m.ChangedAt m' mac)
    (hn : msg.news = .removal mac) : Stored (v.learn msg) m' := by
  rw [RouterSessionFsm.learn_removal hn]
  refine hst.at hat (fun y hy => Finmap.lookup_erase_ne hy) fun x _ hx => ?_
  rw [Finmap.lookup_erase] at hx
  cases hx

/-- Link characteristics change metrics alone. -/
theorem Stored.characteristics (hst : Stored v m) (hat : m.ChangedAt m' mac)
    (hx : v.destinations.lookup mac = some x) (hn : msg.news = .characteristics mac)
    (htold : ∀ d', m'.destinations.lookup mac = some d' →
      ∃ d, m.destinations.lookup mac = some d ∧ d'.advertisedAddrs = d.advertisedAddrs) :
    Stored (v.learn msg) m' := by
  rw [RouterSessionFsm.learn_characteristics hn hx]
  refine hst.keep hat (fun y hy => Finmap.lookup_insert_of_ne _ hy) (fun x' hx' => ⟨x, hx, ?_⟩) htold
  rw [Finmap.lookup_insert] at hx'
  cases hx'
  rfl

/-- Session news change metrics and the modem's own addresses alone. -/
theorem Stored.session (hst : Stored v m) (hn : msg.news = .session)
    (htold : ∀ mac d', m'.destinations.lookup mac = some d' →
      ∃ d, m.destinations.lookup mac = some d ∧ d'.advertisedAddrs = d.advertisedAddrs) :
    Stored (v.learn msg) m' := by
  rw [RouterSessionFsm.learn_session hn]
  intro mac x' d' hx' hd'
  dsimp only at hx'
  rw [FinMap.lookup_mapValues] at hx'
  obtain ⟨x, hx, rfl⟩ := Option.map_eq_some_iff.mp hx'
  obtain ⟨d, hd, hdaddrs⟩ := htold mac d' hd'
  rw [hdaddrs]
  exact hst mac x d hx hd

end

/-! ## Every step stores -/

namespace ModemSessionFsm

variable {v : RouterSessionFsm} {s s' : ModemSessionFsm} {event : FsmEvent}
  {actions : List FsmAction} {mac : MacAddress} {d : ModemDestination} {msg : Message}

open RouterSessionFsm (learn_removal learn_characteristics learn_session learn_of_nothing)

theorem changedAt_insert (s : ModemSessionFsm) (mac : MacAddress) (d : ModemDestination) :
    s.ChangedAt { s with destinations := s.destinations.insert mac d } mac :=
  ⟨rfl, fun _ _ => rfl, fun _ hx => Finmap.lookup_insert_of_ne _ hx⟩

theorem changedAt_withPending (s : ModemSessionFsm) (mac : MacAddress) (kind : RequestKind)
    (d : ModemDestination) :
    s.ChangedAt
      { s with tx := s.tx.withPending mac kind, destinations := s.destinations.insert mac d } mac :=
  ⟨rfl, fun x hx => by simp [hx], fun _ hx => Finmap.lookup_insert_of_ne _ hx⟩

theorem told_of_announced (hidle : s.tx.pending mac = none) (hann : d.announced = true) :
    s.told mac d = true := by
  rw [told, hidle]
  exact hann

theorem told_of_up (hup : s.tx.pending mac = some .destinationUp) : s.told mac d = true := by
  rw [told, hup]
  rfl

/-- Nothing about addresses is sent, and nothing told changes. -/
theorem stored_of_nothing (hst : Stored v s) (hsent : ∀ m ∈ sentMessages actions, m.news = .nothing)
    (hdestinations : s'.destinations = s.destinations) :
    Stored ((sentMessages actions).foldl learn v) s' := by
  have hview : (sentMessages actions).foldl learn v = v := by
    generalize sentMessages actions = sent at hsent
    induction sent with
    | nil => rfl
    | cons m sent ih =>
      rw [List.foldl_cons, learn_of_nothing (hsent m List.mem_cons_self)]
      exact ih fun m' hm' => hsent m' (List.mem_cons_of_mem _ hm')
  rw [hview]
  intro mac x d hx hd
  rw [hdestinations] at hd
  exact hst mac x d hx hd

theorem stored_one (hsent : sentMessages actions = [msg]) (h : Stored (v.learn msg) s') :
    Stored ((sentMessages actions).foldl learn v) s' := by
  rw [hsent]
  exact h

theorem stored_acknowledged (hst : Stored v s) (hM : Mirrored v s) (hk : s.Kempt)
    (hd : s.destinations.lookup mac = some d) (hup : s.tx.pending mac = some .destinationUp)
    (hs' : s' = { s with
      tx := s.tx.closeDestination mac
      destinations := s.destinations.insert mac (acknowledge mac d) })
    (hex : s'.Exclusive) : Stored ((deferredUpdate mac d).toList.foldl learn v) s' := by
  obtain ⟨x, hx, -⟩ := hM.asking hd hup
  have hat : s.ChangedAt s' mac := by
    subst hs'
    exact ⟨rfl, fun y hy => by simp [hy], fun y hy => Finmap.lookup_insert_of_ne _ hy⟩
  have hd' : s'.destinations.lookup mac = some (acknowledge mac d) := by
    subst hs'
    exact Finmap.lookup_insert _
  have hidle : s'.tx.pending mac = none := by
    subst hs'
    simp
  cases hmsg : deferredUpdate mac d with
  | none =>
    refine hst.keep hat (fun _ _ => rfl) (fun x' hx' => ⟨x', hx', rfl⟩) fun e he => ⟨d, hd, ?_⟩
    cases he.symm.trans hd'
    simp only [acknowledge, hmsg]
  | some msg =>
    refine hst.update hM hat hex hd hx hd' (told_of_announced hidle (announced_acknowledge mac d))
      ((kempt_acknowledge (hk mac d hd)).told (announced_acknowledge mac d))
      (news_of_deferredUpdate hmsg) ?_
    have hadvertised : (acknowledge mac d).advertisedAddrs = d.addrs := by
      simp only [acknowledge, hmsg]
    rw [hadvertised]
    exact changes_deferredUpdate (hk mac d hd) hmsg

/-- What an inserted entry tells. -/
theorem told_of_insert {e : ModemDestination} (hd : s.destinations.lookup mac = some d)
    (htold : e.advertisedAddrs = d.advertisedAddrs) :
    ∀ d', (s.destinations.insert mac e).lookup mac = some d' →
      ∃ d, s.destinations.lookup mac = some d ∧ d'.advertisedAddrs = d.advertisedAddrs := by
  intro d' hd'
  rw [Finmap.lookup_insert] at hd'
  cases hd'
  exact ⟨d, hd, htold⟩

theorem Transition.stores (h : s.Transition event s' actions) (hs : s.state = .inSession)
    (hs' : s'.state = .inSession) (hk : s.Kempt) (hM : Mirrored v s) (hst : Stored v s)
    (hex : s'.Exclusive)
    (hok : ∀ msg, event = .recvMessage msg → msg.messageType = .destinationUpResponse →
      extractStatus msg = some .success) :
    Stored ((sentMessages actions).foldl learn v) s' := by
  cases h with
  | accepted hs₀ | initialized hs₀ => cases hs.symm.trans hs₀
  | ends h => rcases h.gone with rfl | rfl <;> cases hs'
  | rejected | ignored | alive | sessionAddressesKept | linkDeferred | sessionAnswered =>
    exact stored_of_nothing hst (by simp) rfl
  | beat => exact stored_of_nothing hst (List.forall_mem_singleton.mpr rfl) rfl
  | announceDenied =>
    refine stored_of_nothing hst ?_ rfl
    simp only [sentMessages_append, sentMessages_reset]
    exact List.forall_mem_singleton.mpr rfl
  | sessionUpdated =>
    refine stored_of_nothing hst ?_ rfl
    simp only [sentMessages_append, sentMessages_reset]
    split <;> exact List.forall_mem_singleton.mpr rfl
  | @added mac metrics addrs _ hp =>
    cases hp with
    | add _ _ hnew _ hvalid =>
      have haddrs := AddressChanges.wellFormed_of_validate hvalid
      have hat := changedAt_withPending s mac .destinationUp
        { announced := false, pendingMetrics := false,
          metrics := effectiveMetrics s.sessionMetrics metrics,
          addrs := addrs.canonical, advertisedAddrs := addrs.canonical }
      exact stored_one rfl (hst.report hM hat hex (Finmap.lookup_insert _)
        (told_of_up (by simp)) (.refl _) rfl (changes_buildDestinationUp haddrs))
  | @acknowledged msg mac d _ _ _ _ _ hd _ hup =>
    have hsent : sentMessages (((deferredUpdate mac d).map FsmAction.sendMessage).toList ++
        s.heartbeatReset) = (deferredUpdate mac d).toList := by simp
    rw [hsent]
    exact stored_acknowledged hst hM hk hd hup rfl hex
  | refused _ _ ht _ hstatus hfail =>
    cases hstatus.symm.trans (hok _ rfl ht)
    exact absurd rfl hfail
  | @metricsDeferred mac metrics d _ hp hd hnew =>
    exact hst.keep (changedAt_insert s mac _) (fun _ _ => rfl) (fun x' hx' => ⟨x', hx', rfl⟩)
      (told_of_insert hd rfl)
  | @metricsSent mac metrics d _ hp hd hann hidle =>
    obtain ⟨x, hx, -⟩ := hM.granted hd hann hidle
    exact stored_one rfl (hst.update hM (changedAt_insert s mac _) hex hd hx
      (Finmap.lookup_insert _) (told_of_announced hidle hann) ((hk mac d hd).told hann) rfl
      (changes_buildDestinationUpdate _))
  | @addressesKept mac changes d _ hp hd hkept =>
    exact hst.keep (changedAt_insert s mac _) (fun _ _ => rfl) (fun x' hx' => ⟨x', hx', rfl⟩)
      (told_of_insert hd rfl)
  | @addressesSent mac changes d _ hp hd hann hidle =>
    obtain ⟨x, hx, -⟩ := hM.granted hd hann hidle
    refine stored_one rfl (hst.update hM (changedAt_insert s mac _) hex hd hx
      (Finmap.lookup_insert _) (told_of_announced hidle hann) (.refl _) rfl ?_)
    refine changes_between (hk mac d hd).advertised
      (AddressChanges.wellFormed_applyLenient (hk mac d hd).addrs _) ?_
    exact List.forall_mem_singleton.mpr fun _ => rfl
  | @forgotten mac reason d _ hp hd hnew hidle hlink =>
    exact hst.unknown ⟨rfl, fun _ _ => rfl, fun x hx => Finmap.lookup_erase_ne hx⟩
      (hM.idle hd hnew hidle)
  | @dropSent mac reason d _ hp hd hann hidle hlink =>
    have hat : s.ChangedAt { s with tx := s.tx.withPending mac .destinationDown } mac :=
      ⟨rfl, fun x hx => by simp [hx], fun _ _ => rfl⟩
    exact stored_one rfl (hst.removal hat rfl)
  | @withdrawn msg mac d _ _ _ _ hd hann hidle hlink =>
    have hn : (buildDestinationDownResponse mac .success).news = .removal mac := rfl
    exact stored_one (by simp) (hst.removal (changedAt_insert s mac _) hn)
  | @dropAnswered msg mac _ _ _ _ hdown =>
    simp only [sentMessages_reset]
    exact hst.unknown ⟨rfl, fun x hx => by simp [hx], fun x hx => Finmap.lookup_erase_ne hx⟩
      (hM.dropping hdown)
  | @announceGranted msg mac d _ _ _ _ hd hnew hidle =>
    have hn : (announceSuccess mac d).news = .report mac := by
      simp only [Message.news, extractStatus_announceSuccess]
      rfl
    exact stored_one (by simp) (hst.report hM (changedAt_insert s mac _) hex
      (Finmap.lookup_insert _) (told_of_announced hidle rfl) (.refl _) hn
      (changes_announceSuccess (hk mac d hd).addrs))
  | @linkDenied msg mac d _ _ _ _ hd hann hidle =>
    obtain ⟨x, hx, -⟩ := hM.granted hd hann hidle
    have hat : s.ChangedAt s mac := ⟨rfl, fun _ _ => rfl, fun _ _ => rfl⟩
    have hn : (buildLinkCharacteristicsResponse mac .requestDenied d.metrics).news =
      .characteristics mac := rfl
    exact stored_one (by simp) (hst.characteristics hat hx hn fun d' hd' => ⟨d', hd', rfl⟩)
  | @linkAnswered mac status text metrics d _ hp hd hann hidle =>
    obtain ⟨x, hx, -⟩ := hM.granted hd hann hidle
    have hat := changedAt_insert s mac
      { d with metrics := (metrics.map (effectiveMetrics d.metrics)).getD d.metrics }
    exact stored_one rfl (hst.characteristics ⟨hat.session, hat.pending, hat.destinations⟩ hx rfl
      (told_of_insert hd rfl))
  | sessionMetricsSent =>
    refine stored_one rfl (hst.session rfl fun mac d' hd' => ?_)
    dsimp only at hd'
    rw [FinMap.lookup_mapValues] at hd'
    obtain ⟨d, hd, rfl⟩ := Option.map_eq_some_iff.mp hd'
    exact ⟨d, hd, rfl⟩
  | sessionAddressesSent =>
    exact stored_one rfl (hst.session rfl fun mac d' hd' => ⟨d', hd', rfl⟩)

end ModemSessionFsm

/-! ## Sessions without overlaps -/

/-- The mirror with the addresses of destinations. -/
structure AddressMirror (r : RouterSessionFsm) (m : ModemSessionFsm)
    (toRouter toModem : List Message) : Prop where
  mirror : SessionMirror r m toRouter toModem
  kempt : m.Kempt
  stored : Stored (toRouter.foldl learn r.learned) m

theorem addressMirror_kept (routerConfig modemConfig : SessionConfig) :
    Joint.KeptWhile AddressMirror ModemSessionFsm.Exclusive routerConfig modemConfig where
  init := {
    mirror := (sessionMirror_kept routerConfig modemConfig).init
    kempt := fun mac d hd => nomatch hd
    stored := fun mac x d hx hd => nomatch hd }
  routerLocal := by
    intro r m toRouter toModem event r' actions hs ht hl hin
    exact {
      mirror := (sessionMirror_kept routerConfig modemConfig).routerLocal
        (hs.weaken AddressMirror.mirror) ht hl hin
      kempt := hs.joint.kempt
      stored := by
        rw [ht.learned_local hl hs.routerIn hin]
        exact hs.joint.stored }
  modemLocal := by
    intro r m toRouter toModem event m' actions hs ht hl hin hex
    exact {
      mirror := (sessionMirror_kept routerConfig modemConfig).modemLocal
        (hs.weaken AddressMirror.mirror) ht hl hin trivial
      kempt := ht.kempt hs.joint.kempt
      stored := by
        rw [List.foldl_append]
        exact ht.stores hs.modemIn hin hs.joint.kempt hs.joint.mirror.mirrored hs.joint.stored hex
          fun msg hmsg => absurd hmsg (not_message_of_local hl) }
  routerReceives := by
    intro r m msg toRouter toModem r' actions hs ht hin
    have hlearned := ht.learned_received hs.routerIn hin
    rw [RouterSessionFsm.learned_learn] at hlearned
    exact {
      mirror := (sessionMirror_kept routerConfig modemConfig).routerReceives
        (hs.weaken AddressMirror.mirror) ht hin
      kempt := hs.joint.kempt
      stored := by
        rw [hlearned]
        exact hs.joint.stored }
  modemReceives := by
    intro r m msg toRouter toModem m' actions hs ht hin hex
    exact {
      mirror := (sessionMirror_kept routerConfig modemConfig).modemReceives
        (hs.weaken AddressMirror.mirror) ht hin trivial
      kempt := ht.kempt hs.joint.kempt
      stored := by
        rw [List.foldl_append]
        refine ht.stores hs.modemIn hin hs.joint.kempt hs.joint.mirror.mirrored hs.joint.stored hex ?_
        rintro _ ⟨⟩
        exact hs.joint.mirror.accepted _ List.mem_cons_self }

/-- For every announced destination the router stores the modem's addresses. -/
def AddressAgreement (sys : System) : Prop :=
  ∀ mac d, sys.modem.destinations.lookup mac = some d → d.announced = true →
    ∃ x, sys.router.destinations.lookup mac = some x ∧ x.addrs.SameAs d.addrs

/-- As long as the modem advertises no address for two destinations, and holds none of its own
for a destination, the two sides agree on the addresses of every announced destination in every
quiescent state. -/
theorem address_agreement (routerConfig modemConfig : SessionConfig) (inputs : List System.Input) :
    ∃ sys trace, System.run routerConfig modemConfig inputs = .ok (sys, trace) ∧
      ((∀ e ∈ trace, e.after.modem.Exclusive) → sys.Quiescent → AddressAgreement sys) := by
  obtain ⟨sys, trace, hrun⟩ := System.run_ok routerConfig modemConfig inputs
  refine ⟨sys, trace, hrun, fun hex hq => ?_⟩
  have hcoupled := run_coupled_while (addressMirror_kept routerConfig modemConfig) hrun hex
  obtain ⟨toRouter, toModem, hqr, hqm, hs⟩ := hcoupled.session_of_inSession hq.routerIn hq.modemIn
  rw [hq.toRouter] at hqr
  obtain rfl := List.map_eq_nil_iff.mp hqr.symm
  intro mac d hd hann
  obtain ⟨x, hx, -⟩ := hs.joint.mirror.mirrored.granted hd hann (hq.modemIdle (.destination mac))
  exact ⟨x, hx, (hs.joint.stored mac x d hx hd).trans ((hs.joint.kempt mac d hd).told hann)⟩

/-- A destination, and a second one with an address that then moves to the first; `before` and
`after` are the deliveries around the move. -/
def movingAddress (before after : List System.Input) : List System.Input :=
  [.deliverToModem, .deliverToRouter,
    .modem ⟨.appAddDestination (.eui48 (.replicate 6 1)) .default .default, rfl⟩,
    .deliverToRouter, .deliverToModem,
    .modem ⟨.appAddDestination (.eui48 (.replicate 6 2)) .default ⟨[1], [], [], []⟩, rfl⟩] ++ before ++
  [.modem ⟨.appUpdateAddresses (.eui48 (.replicate 6 2)) ⟨.default, ⟨[1], [], [], []⟩⟩, rfl⟩,
    .modem ⟨.appUpdateAddresses (.eui48 (.replicate 6 1)) ⟨⟨[1], [], [], []⟩, .default⟩, rfl⟩] ++ after

/-- The address moves after the Up of its destination is answered. -/
theorem address_agreement_moved :
    ∃ sys trace, System.run .default .default (movingAddress [.deliverToRouter, .deliverToModem]
        [.deliverToRouter, .deliverToRouter]) = .ok (sys, trace) ∧
      (∀ e ∈ trace, e.after.modem.Exclusive) ∧ sys.Quiescent ∧ AddressAgreement sys := by
  obtain ⟨sys, trace, hrun, hagree⟩ := address_agreement .default .default
    (movingAddress [.deliverToRouter, .deliverToModem] [.deliverToRouter, .deliverToRouter])
  have hview : (System.run .default .default (movingAddress [.deliverToRouter, .deliverToModem]
      [.deliverToRouter, .deliverToRouter])).map (fun r =>
        decide ((∀ e ∈ r.2, e.after.modem.Exclusive) ∧ r.1.settled = true)) = .ok true := by
    decide +kernel
  rw [hrun] at hview
  obtain ⟨hexclusive, hsettled⟩ := of_decide_eq_true (Except.ok.inj hview)
  have hquiescent := System.quiescent_of_settled hsettled
  exact ⟨sys, trace, hrun, hexclusive, hquiescent, hagree hexclusive hquiescent⟩

/-- The address moves before the Up of its destination is answered: the removal waits, the
addition does not, and the router drops it. What the modem holds overlaps at no time. -/
theorem address_agreement_overtaken :
    ∃ sys trace, System.run .default .default (movingAddress []
        [.deliverToRouter, .deliverToRouter, .deliverToModem, .deliverToRouter]) = .ok (sys, trace) ∧
      (∀ e ∈ trace, e.after.modem.Apart) ∧ sys.Quiescent ∧ ¬ AddressAgreement sys := by
  obtain ⟨sys, trace, hrun⟩ := System.run_ok .default .default (movingAddress []
    [.deliverToRouter, .deliverToRouter, .deliverToModem, .deliverToRouter])
  have hview : (System.run .default .default (movingAddress []
      [.deliverToRouter, .deliverToRouter, .deliverToModem, .deliverToRouter])).map (fun r => decide (
        (∀ e ∈ r.2, e.after.modem.Apart) ∧ r.1.settled = true ∧
        (r.1.router.destinations.lookup (.eui48 (.replicate 6 1))).map (·.addrs) = some .default ∧
        (r.1.modem.destinations.lookup (.eui48 (.replicate 6 1))).map
          (fun d => (d.announced, d.addrs)) = some (true, ⟨[1], [], [], []⟩))) = .ok true := by
    decide +kernel
  rw [hrun] at hview
  obtain ⟨hapart, hsettled, hrouter, hmodem⟩ := of_decide_eq_true (Except.ok.inj hview)
  refine ⟨sys, trace, hrun, hapart, System.quiescent_of_settled hsettled, fun hagree => ?_⟩
  obtain ⟨d, hd, hfields⟩ := Option.map_eq_some_iff.mp hmodem
  obtain ⟨hann, haddrs⟩ := Prod.mk.inj hfields
  obtain ⟨x, hx, hsame⟩ := hagree _ d hd hann
  rw [hx] at hrouter
  have hempty : x.addrs = .default := Option.some.inj hrouter
  rw [hempty, haddrs] at hsame
  exact absurd ((hsame (.v4 1)).mpr List.mem_cons_self) (DestinationAddrs.not_mem_default _)

end Dlep
