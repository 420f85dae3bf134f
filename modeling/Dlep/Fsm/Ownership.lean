-- SUMMARY: Addresses at the router: how a step moves them, and that no two destinations ever hold the same one.
import Dlep.Fsm.Safety

/-!
# Address ownership at the router

The router lets no destination take an address that another one holds. The filter
of `destination_address_changes` passes an addition that the same message removes,
and relies on the lenient application to drop it; both are read here through
membership, so that the four families are one argument.
-/

namespace Dlep

/-! ## Changes read from a message -/

namespace AddressChanges

variable {c : AddressChanges}

theorem canonical_onSide {add : Bool} {f : DestinationAddrs → DestinationAddrs}
    (hc : c.canonical = c) (hf : ∀ d : DestinationAddrs, d.canonical = d → (f d).canonical = f d) :
    (c.onSide add f).canonical = c.onSide add f := by
  have hadded : c.added.canonical = c.added := congrArg AddressChanges.added hc
  have hremoved : c.removed.canonical = c.removed := congrArg AddressChanges.removed hc
  cases add with
  | false => simp [onSide, canonical, hadded, hf _ hremoved]
  | true => simp [onSide, canonical, hremoved, hf _ hadded]

theorem canonical_absorb (hc : c.canonical = c) (item : DataItem) :
    (c.absorb item).canonical = c.absorb item := by
  cases item with
  | ipv4Address add addr | ipv6Address add addr | ipv4AttachedSubnet add addr
  | ipv6AttachedSubnet add addr =>
    refine canonical_onSide hc fun d hd => ?_
    simp only [DestinationAddrs.canonical, DestinationAddrs.ext_iff] at hd
    simp [DestinationAddrs.canonical, hd]
  | _ => exact hc

/-- `from_message` stores subnets in network form. -/
theorem canonical_fromMessage (msg : Message) : (fromMessage msg).canonical = fromMessage msg := by
  have hfold : ∀ (items : List DataItem) (c : AddressChanges), c.canonical = c →
      (items.foldl absorb c).canonical = items.foldl absorb c := by
    intro items
    induction items with
    | nil => exact fun c hc => hc
    | cons item items ih => exact fun c hc => ih _ (canonical_absorb hc item)
  exact hfold msg.dataItems default rfl

/-- The additions of a message that passes strict application are well formed. -/
theorem wellFormed_added {msg : Message} {current : DestinationAddrs}
    (h : ((fromMessage msg).applyStrict current).1 = .ok ()) :
    (fromMessage msg).added.WellFormed := by
  have hcanon := canonical_fromMessage msg
  unfold applyStrict at h
  split at h
  · cases h
  · rename_i hvalid
    unfold validate at hvalid
    simp only [hcanon] at hvalid
    split at hvalid
    · rename_i hwf
      simp only [Bool.and_eq_true, Delta.wellFormed_iff] at hwf
      obtain ⟨⟨⟨h₁, h₂⟩, h₃⟩, h₄⟩ := hwf
      exact ⟨h₁.1, h₂.1, h₃.1, h₄.1, congrArg AddressChanges.added hcanon⟩
    · cases hvalid

/-- Strict application keeps a well-formed set well formed. -/
theorem wellFormed_applyStrict {current next : DestinationAddrs} (hcur : current.WellFormed)
    (h : c.applyStrict current = (.ok (), next)) : next.WellFormed := by
  unfold applyStrict at h
  split at h
  · cases h
  · dsimp only at h
    split at h
    · cases h
    · cases h
      exact wellFormed_applyLenient hcur _

end AddressChanges

namespace RouterSessionFsm

variable {s s' : RouterSessionFsm} {event : FsmEvent} {actions : List FsmAction}
  {mac : MacAddress} {msg : Message}

/-- The addresses stored for a destination. -/
def addrsOf (s : RouterSessionFsm) (mac : MacAddress) : Option DestinationAddrs :=
  (s.destinations.lookup mac).map RouterDestination.addrs

/-! ## The ownership filter -/

theorem mem_retainUnclaimed {α : Type} [DecidableEq α] (family : DestinationAddrs → List α)
    (changes : AddressChanges) (a : α) :
    a ∈ retainUnclaimed family s mac changes ↔
      a ∈ family changes.added ∧ (a ∈ family changes.removed ∨
        a ∉ family s.peerAddresses ∧
          ∀ m addrs, s.addrsOf m = some addrs → m ≠ mac → a ∉ family addrs) := by
  have hscan : (s.destinations.scan fun m d =>
      decide (m ≠ mac) && decide (a ∈ family d.addrs)) = false ↔
      ∀ m addrs, s.addrsOf m = some addrs → m ≠ mac → a ∉ family addrs := by
    rw [← Bool.not_eq_true, FinMap.scan_eq_true]
    simp only [addrsOf, Option.map_eq_some_iff]
    constructor
    · rintro hnone m addrs ⟨d, hd, rfl⟩ hne hmem
      exact hnone ⟨m, d, hd, by simp [hne, hmem]⟩
    · rintro hall ⟨m, d, hd, hp⟩
      simp only [Bool.and_eq_true, decide_eq_true_eq] at hp
      exact hall m d.addrs ⟨d, hd, rfl⟩ hp.1 hp.2
  simp only [retainUnclaimed, List.mem_filter, Bool.or_eq_true, Bool.and_eq_true,
    Bool.not_eq_true', List.contains_eq_mem, decide_eq_true_eq, decide_eq_false_iff_not]
  rw [hscan]

/-- An addition passes when it is also removed, or when nobody else holds it. -/
theorem mem_destinationAddressChanges (a : Addr) :
    a ∈ (s.destinationAddressChanges mac msg).added ↔
      a ∈ (AddressChanges.fromMessage msg).added ∧
        (a ∈ (AddressChanges.fromMessage msg).removed ∨
          a ∉ s.peerAddresses ∧ ∀ m addrs, s.addrsOf m = some addrs → m ≠ mac → a ∉ addrs) := by
  cases a <;> exact mem_retainUnclaimed _ _ _

@[simp] theorem destinationAddressChanges_removed :
    (s.destinationAddressChanges mac msg).removed = (AddressChanges.fromMessage msg).removed := rfl

theorem canonical_destinationAddressChanges :
    (s.destinationAddressChanges mac msg).canonical = s.destinationAddressChanges mac msg := by
  have hcanon := AddressChanges.canonical_fromMessage msg
  have hadded : (AddressChanges.fromMessage msg).added.canonical =
      (AddressChanges.fromMessage msg).added := congrArg AddressChanges.added hcanon
  have hremoved : (AddressChanges.fromMessage msg).removed.canonical =
      (AddressChanges.fromMessage msg).removed := congrArg AddressChanges.removed hcanon
  have hkept : (s.destinationAddressChanges mac msg).added.canonical =
      (s.destinationAddressChanges mac msg).added := by
    rw [AddressChanges.canonical_eq_iff] at hadded ⊢
    exact ⟨fun n hn => hadded.1 n (List.mem_of_mem_filter hn),
      fun n hn => hadded.2 n (List.mem_of_mem_filter hn)⟩
  simp only [AddressChanges.canonical, hkept, destinationAddressChanges_removed, hremoved]
  rfl

/-- What a message can bring to a destination: an address it had, or one nobody else holds. -/
theorem mem_applied {base : DestinationAddrs} {a : Addr}
    (h : a ∈ (s.destinationAddressChanges mac msg).applyLenient base) :
    a ∈ base ∨ a ∉ s.peerAddresses ∧
      ∀ m addrs, s.addrsOf m = some addrs → m ≠ mac → a ∉ addrs := by
  rw [AddressChanges.mem_applyLenient, canonical_destinationAddressChanges,
    mem_destinationAddressChanges, destinationAddressChanges_removed] at h
  rcases h with ⟨hbase, -⟩ | ⟨⟨-, hremoved | hfree⟩, hkept⟩
  · exact .inl hbase
  -- The filter let it through because it is removed as well: then it is not applied.
  · exact absurd hremoved hkept
  · exact .inr hfree

/-! ## How a step moves addresses -/

/-- What one step does to the stored addresses. -/
inductive AddrStep (s : RouterSessionFsm) : FsmEvent → RouterSessionFsm → Prop where
  | kept {e t} (hkept : ∀ m, t.addrsOf m = s.addrsOf m) : AddrStep s e t
  | dropped {about k t} (hmac : extractDestinationMac about = some k)
      (hdropped : ∀ m, t.addrsOf m = if m = k then none else s.addrsOf m) :
      AddrStep s (.recvMessage about) t
  | applied {about k t} (base : DestinationAddrs) (hmac : extractDestinationMac about = some k)
      (hbase : base = .default ∨ s.addrsOf k = some base)
      (happlied : ∀ m, t.addrsOf m =
        if m = k then some ((s.destinationAddressChanges k about).applyLenient base)
        else s.addrsOf m) :
      AddrStep s (.recvMessage about) t

theorem addrsOf_insert (destinations : FinMap MacAddress RouterDestination) (m mac : MacAddress)
    (d : RouterDestination) :
    ((destinations.insert mac d).lookup m).map RouterDestination.addrs =
      if m = mac then some d.addrs
      else (destinations.lookup m).map RouterDestination.addrs := by
  rw [FinMap.lookup_insert_eq]
  split <;> rfl

theorem addrsOf_erase (destinations : FinMap MacAddress RouterDestination) (m mac : MacAddress) :
    ((destinations.erase mac).lookup m).map RouterDestination.addrs =
      if m = mac then none else (destinations.lookup m).map RouterDestination.addrs := by
  rw [FinMap.lookup_erase_eq]
  split <;> rfl

theorem Transition.addrStep (h : s.Transition event s' actions) : s.AddrStep event s' := by
  cases h with
  | upReceived hs ha ht hmac =>
    exact .applied .default hmac (.inl rfl) fun m => addrsOf_insert _ m _ _
  | announceGranted hs ha ht hmac =>
    exact .applied .default hmac (.inl rfl) fun m => addrsOf_insert _ m _ _
  | @updateReceived msg mac d hs ha ht hmac hd =>
    exact .applied d.addrs hmac (.inr (by simp [addrsOf, hd])) fun m => addrsOf_insert _ m _ _
  | downReceived hs ha ht hmac | dropAnswered hs ha ht hmac =>
    exact .dropped hmac fun m => addrsOf_erase _ m _
  | @linkAnswered msg mac d _ _ hs ha ht hmac hd =>
    refine .kept fun m => ?_
    unfold addrsOf
    rw [addrsOf_insert]
    split
    · rename_i heq
      rw [heq, hd]
      rfl
    · rfl
  | sessionUpdated =>
    refine .kept fun m => ?_
    simp only [addrsOf]
    split
    · simp [Option.map_map, Function.comp_def]
    · rfl
  | _ => exact .kept fun m => rfl

/-! ## Ownership -/

/-- No address or subnet at two destinations; every stored list duplicate-free, with its
subnets in network form. -/
structure Owned (s : RouterSessionFsm) : Prop where
  exclusive : ∀ mac mac' addrs addrs', s.addrsOf mac = some addrs → s.addrsOf mac' = some addrs' →
    mac ≠ mac' → ∀ a ∈ addrs, a ∉ addrs'
  stored : ∀ mac addrs, s.addrsOf mac = some addrs → addrs.WellFormed
  peer : s.peerAddresses.WellFormed

theorem owned_withConfig (config : SessionConfig) : (withConfig config).Owned :=
  ⟨by simp [addrsOf, withConfig], by simp [addrsOf, withConfig],
    DestinationAddrs.wellFormed_default⟩

theorem AddrStep.exclusive (h : s.AddrStep event s') (ho : s.Owned) :
    ∀ mac mac' addrs addrs', s'.addrsOf mac = some addrs → s'.addrsOf mac' = some addrs' →
      mac ≠ mac' → ∀ a ∈ addrs, a ∉ addrs' := by
  intro m m' addrs addrs' hm hm' hne a ha ha'
  cases h with
  | kept hkept => exact ho.exclusive m m' _ _ (hkept m ▸ hm) (hkept m' ▸ hm') hne a ha ha'
  | @dropped msg mac _ _ hdropped =>
    rw [hdropped] at hm hm'
    split at hm
    · cases hm
    · split at hm'
      · cases hm'
      · exact ho.exclusive m m' _ _ hm hm' hne a ha ha'
  | @applied msg mac _ base _ hbase happlied =>
    -- What `mac` gets, no other destination holds.
    have hnew : ∀ n addrs, s.addrsOf n = some addrs → n ≠ mac →
        a ∈ (s.destinationAddressChanges mac msg).applyLenient base → a ∉ addrs := by
      intro n other hn hnmac happ
      rcases mem_applied happ with hin | ⟨-, hfree⟩
      · rcases hbase with rfl | hold
        · exact absurd hin (DestinationAddrs.not_mem_default a)
        · exact ho.exclusive mac n base other hold hn (Ne.symm hnmac) a hin
      · exact hfree n other hn hnmac
    rw [happlied] at hm hm'
    split at hm
    · cases hm
      split at hm'
      · rename_i h₁ h₂
        exact hne (h₁.trans h₂.symm)
      · rename_i h₂
        exact hnew m' addrs' hm' h₂ ha ha'
    · rename_i h₁
      split at hm'
      · cases hm'
        exact hnew m addrs hm h₁ ha' ha
      · exact ho.exclusive m m' _ _ hm hm' hne a ha ha'

theorem AddrStep.stored (h : s.AddrStep event s') (ho : s.Owned) :
    ∀ mac addrs, s'.addrsOf mac = some addrs → addrs.WellFormed := by
  intro m addrs hm
  cases h with
  | kept hkept => exact ho.stored m addrs (hkept m ▸ hm)
  | dropped _ hdropped =>
    rw [hdropped] at hm
    split at hm
    · cases hm
    · exact ho.stored m addrs hm
  | @applied msg mac _ base _ hbase happlied =>
    rw [happlied] at hm
    split at hm
    · cases hm
      refine AddressChanges.wellFormed_applyLenient ?_ _
      rcases hbase with rfl | hold
      · exact DestinationAddrs.wellFormed_default
      · exact ho.stored mac base hold
    · exact ho.stored m addrs hm

theorem Transition.wellFormed_peer (h : s.Transition event s' actions)
    (hp : s.peerAddresses.WellFormed) : s'.peerAddresses.WellFormed := by
  cases h with
  | initialized hs hok => exact AddressChanges.wellFormed_added (init_of_refusal hs hok).2
  | sessionUpdated _ _ _ hpeer => exact AddressChanges.wellFormed_applyStrict hp hpeer
  | _ => exact hp

theorem Transition.owned (h : s.Transition event s' actions) (ho : s.Owned) : s'.Owned :=
  ⟨h.addrStep.exclusive ho, h.addrStep.stored ho, h.wellFormed_peer ho.peer⟩

/-- A message about one destination leaves the addresses of every other one alone. -/
theorem AddrStep.frame (h : s.AddrStep (.recvMessage msg) s')
    (hmac : extractDestinationMac msg = some mac) {m : MacAddress} (hne : m ≠ mac) :
    s'.addrsOf m = s.addrsOf m := by
  cases h with
  | kept hkept => exact hkept m
  | dropped hmac' hdropped =>
    cases hmac.symm.trans hmac'
    rw [hdropped, if_neg hne]
  | applied _ hmac' _ happlied =>
    cases hmac.symm.trans hmac'
    rw [happlied, if_neg hne]

theorem run_owned {config : SessionConfig} {events : List FsmEvent} {t : RouterSessionFsm}
    {trace : List Entry} (h : run config events = .ok (t, trace)) : t.Consistent ∧ t.Owned :=
  have hc := consistent_withConfig config
  ⟨lawful.run_inv hc h,
    lawful.run_history (fun _ _ _ _ _ _ ho ht => ht.owned ho) hc (owned_withConfig config) h⟩

end RouterSessionFsm

/-- Whatever the peer and the application do, the router's destinations own disjoint,
duplicate-free sets of addresses in network form, and a message about one destination
moves nobody else's. -/
theorem router_owns_addresses_exclusively (config : SessionConfig) (events : List FsmEvent)
    (msg : Message) :
    ∃ s trace s' actions, RouterSessionFsm.run config events = .ok (s, trace) ∧
      s.step (.recvMessage msg) = .ok (s', actions) ∧ s.Owned ∧
      ∀ mac, extractDestinationMac msg = some mac → ∀ m, m ≠ mac → s'.addrsOf m = s.addrsOf m := by
  obtain ⟨s, trace, hrun⟩ := RouterSessionFsm.run_ok config events
  obtain ⟨hc, ho⟩ := RouterSessionFsm.run_owned hrun
  obtain ⟨s', actions, hstep, ht⟩ := RouterSessionFsm.step_spec hc (.recvMessage msg)
  refine ⟨s, trace, s', actions, hrun, hstep, ho, ?_⟩
  intro mac hmac m hne
  exact ht.addrStep.frame hmac hne

end Dlep
