-- SUMMARY: Layer 3 address sets and their changes: strict and lenient application, differences, wire items.
import Dlep.Core.Types
import Dlep.Lib.Delta

/-!
# Address state

`DestinationAddrs` holds the four address families of a destination or a session
peer as lists; `AddressChanges` holds additions and removals. The functions are
those of `addresses.rs`, each acting family by family through `Delta`.

`Addr` joins the four families into one type, so that an address set is read
through a single membership relation.
-/

namespace Dlep

/-! ## Address sets -/

@[ext] structure DestinationAddrs where
  v4 : List Ipv4Addr
  v6 : List Ipv6Addr
  v4Subnets : List Ipv4Net
  v6Subnets : List Ipv6Net
  deriving DecidableEq, Repr

namespace DestinationAddrs

/-- `DestinationAddrs::default()`. -/
def default : DestinationAddrs := ⟨[], [], [], []⟩

def isEmpty (d : DestinationAddrs) : Bool :=
  d.v4.isEmpty && d.v6.isEmpty && d.v4Subnets.isEmpty && d.v6Subnets.isEmpty

/-- Subnets identify networks, independent of host bits. -/
def canonical (d : DestinationAddrs) : DestinationAddrs where
  v4 := d.v4
  v6 := d.v6
  v4Subnets := d.v4Subnets.map IpNet.trunc
  v6Subnets := d.v6Subnets.map IpNet.trunc

@[simp] theorem canonical_canonical (d : DestinationAddrs) :
    d.canonical.canonical = d.canonical := by
  simp [canonical]

end DestinationAddrs

structure AddressChanges where
  added : DestinationAddrs
  removed : DestinationAddrs
  deriving DecidableEq, Repr

namespace AddressChanges

/-- `AddressChanges::default()`. -/
def default : AddressChanges := ⟨.default, .default⟩

def isEmpty (c : AddressChanges) : Bool := c.added.isEmpty && c.removed.isEmpty

def canonical (c : AddressChanges) : AddressChanges := ⟨c.added.canonical, c.removed.canonical⟩

/-- Update the side of a change that an item's add flag selects. -/
def onSide (c : AddressChanges) (add : Bool) (f : DestinationAddrs → DestinationAddrs) :
    AddressChanges :=
  if add then { c with added := f c.added } else { c with removed := f c.removed }

/-- One iteration of `from_message`. -/
def absorb (c : AddressChanges) : DataItem → AddressChanges
  | .ipv4Address add addr => c.onSide add fun s => { s with v4 := s.v4 ++ [addr] }
  | .ipv6Address add addr => c.onSide add fun s => { s with v6 := s.v6 ++ [addr] }
  | .ipv4AttachedSubnet add subnet =>
    c.onSide add fun s => { s with v4Subnets := s.v4Subnets ++ [subnet.trunc] }
  | .ipv6AttachedSubnet add subnet =>
    c.onSide add fun s => { s with v6Subnets := s.v6Subnets ++ [subnet.trunc] }
  | _ => c

def fromMessage (m : Message) : AddressChanges := m.dataItems.foldl absorb default

/-- The items one side of a change puts on the wire. -/
def sideItems (add : Bool) (addresses : DestinationAddrs) : List DataItem :=
  addresses.v4.map (.ipv4Address add) ++ addresses.v6.map (.ipv6Address add) ++
    addresses.v4Subnets.map (fun s => .ipv4AttachedSubnet add s.trunc) ++
    addresses.v6Subnets.map (fun s => .ipv6AttachedSubnet add s.trunc)

/-- Removals first, then additions. -/
def appendTo (c : AddressChanges) (m : Message) : Message :=
  { m with dataItems := m.dataItems ++ sideItems false c.removed ++ sideItems true c.added }

/-- Reject ambiguous commands and duplicates before encoding a wire message. -/
def validate (c : AddressChanges) : Except StatusCode Unit :=
  let changes := c.canonical
  if Delta.wellFormed changes.added.v4 changes.removed.v4
      && Delta.wellFormed changes.added.v6 changes.removed.v6
      && Delta.wellFormed changes.added.v4Subnets changes.removed.v4Subnets
      && Delta.wellFormed changes.added.v6Subnets changes.removed.v6Subnets then
    .ok ()
  else .error .invalidData

/-- Destination inconsistencies never terminate a session. -/
def applyLenient (c : AddressChanges) (current : DestinationAddrs) : DestinationAddrs :=
  let changes := c.canonical
  { v4 := Delta.apply current.v4 changes.added.v4 changes.removed.v4
    v6 := Delta.apply current.v6 changes.added.v6 changes.removed.v6
    v4Subnets := Delta.apply current.v4Subnets changes.added.v4Subnets changes.removed.v4Subnets
    v6Subnets := Delta.apply current.v6Subnets changes.added.v6Subnets changes.removed.v6Subnets }

/-- Session messages must reject existing adds and unknown removes. The result
comes with the set the call leaves in `current`. -/
def applyStrict (c : AddressChanges) (current : DestinationAddrs) :
    Except StatusCode Unit × DestinationAddrs :=
  match c.validate with
  | .error e => (.error e, current)
  | .ok () =>
    let changes := c.canonical
    if !Delta.admits current.v4 changes.added.v4 changes.removed.v4
        || !Delta.admits current.v6 changes.added.v6 changes.removed.v6
        || !Delta.admits current.v4Subnets changes.added.v4Subnets changes.removed.v4Subnets
        || !Delta.admits current.v6Subnets changes.added.v6Subnets changes.removed.v6Subnets then
      (.error .invalidData, current)
    else (.ok (), changes.applyLenient current)

/-- The values of `a` that `b` lacks, in each family. -/
def difference (a b : DestinationAddrs) : DestinationAddrs where
  v4 := Delta.difference a.v4 b.v4
  v6 := Delta.difference a.v6 b.v6
  v4Subnets := Delta.difference a.v4Subnets b.v4Subnets
  v6Subnets := Delta.difference a.v6Subnets b.v6Subnets

/-- Effective changes between two complete sets. -/
def between (old new : DestinationAddrs) : AddressChanges :=
  ⟨difference new old, difference old new⟩

end AddressChanges

/-! ## One membership relation for the four families -/

/-- An address or attached subnet of any family. -/
inductive Addr where
  | v4 (a : Ipv4Addr)
  | v6 (a : Ipv6Addr)
  | v4Subnet (n : Ipv4Net)
  | v6Subnet (n : Ipv6Net)
  deriving DecidableEq, Repr

instance : Membership Addr DestinationAddrs where
  mem d
    | .v4 a => a ∈ d.v4
    | .v6 a => a ∈ d.v6
    | .v4Subnet n => n ∈ d.v4Subnets
    | .v6Subnet n => n ∈ d.v6Subnets

namespace DestinationAddrs

@[simp] theorem mem_v4 (d : DestinationAddrs) (a : Ipv4Addr) : Addr.v4 a ∈ d ↔ a ∈ d.v4 := .rfl
@[simp] theorem mem_v6 (d : DestinationAddrs) (a : Ipv6Addr) : Addr.v6 a ∈ d ↔ a ∈ d.v6 := .rfl
@[simp] theorem mem_v4Subnet (d : DestinationAddrs) (n : Ipv4Net) :
    Addr.v4Subnet n ∈ d ↔ n ∈ d.v4Subnets := .rfl
@[simp] theorem mem_v6Subnet (d : DestinationAddrs) (n : Ipv6Net) :
    Addr.v6Subnet n ∈ d ↔ n ∈ d.v6Subnets := .rfl

instance decidableMem (a : Addr) (d : DestinationAddrs) : Decidable (a ∈ d) :=
  match a with
  | .v4 a => inferInstanceAs (Decidable (a ∈ d.v4))
  | .v6 a => inferInstanceAs (Decidable (a ∈ d.v6))
  | .v4Subnet n => inferInstanceAs (Decidable (n ∈ d.v4Subnets))
  | .v6Subnet n => inferInstanceAs (Decidable (n ∈ d.v6Subnets))

/-- Two address sets hold the same addresses and subnets, in any order. -/
def SameAs (d e : DestinationAddrs) : Prop := ∀ a : Addr, a ∈ d ↔ a ∈ e

theorem SameAs.refl (d : DestinationAddrs) : d.SameAs d := fun _ => .rfl

theorem SameAs.trans {d e f : DestinationAddrs} (h : d.SameAs e) (h' : e.SameAs f) :
    d.SameAs f := fun a => (h a).trans (h' a)

@[simp] theorem not_mem_default (a : Addr) : ¬ a ∈ default := by
  cases a <;> simp [default]

theorem isEmpty_iff (d : DestinationAddrs) : d.isEmpty = true ↔ ∀ a : Addr, a ∉ d := by
  simp only [isEmpty, Bool.and_eq_true, List.isEmpty_iff]
  constructor
  · rintro ⟨⟨⟨h₁, h₂⟩, h₃⟩, h₄⟩ a
    cases a <;> simp [h₁, h₂, h₃, h₄]
  · intro h
    refine ⟨⟨⟨?_, ?_⟩, ?_⟩, ?_⟩
    · exact List.eq_nil_iff_forall_not_mem.mpr fun a => h (.v4 a)
    · exact List.eq_nil_iff_forall_not_mem.mpr fun a => h (.v6 a)
    · exact List.eq_nil_iff_forall_not_mem.mpr fun a => h (.v4Subnet a)
    · exact List.eq_nil_iff_forall_not_mem.mpr fun a => h (.v6Subnet a)

theorem SameAs.isEmpty_eq {d e : DestinationAddrs} (h : d.SameAs e) : d.isEmpty = e.isEmpty := by
  rw [Bool.eq_iff_iff, isEmpty_iff, isEmpty_iff]
  exact forall_congr' fun a => not_congr (h a)

/-- Duplicate-free lists with every subnet in network form. -/
structure WellFormed (d : DestinationAddrs) : Prop where
  v4 : d.v4.Nodup
  v6 : d.v6.Nodup
  v4Subnets : d.v4Subnets.Nodup
  v6Subnets : d.v6Subnets.Nodup
  canonical : d.canonical = d

theorem wellFormed_default : default.WellFormed := by
  constructor <;> simp [default, DestinationAddrs.canonical]

end DestinationAddrs

namespace AddressChanges

/-! ## Applying changes -/

theorem mem_applyLenient (c : AddressChanges) (d : DestinationAddrs) (a : Addr) :
    a ∈ c.applyLenient d ↔
      (a ∈ d ∧ (a ∉ c.canonical.removed ∨ a ∈ c.canonical.added)) ∨
        (a ∈ c.canonical.added ∧ a ∉ c.canonical.removed) := by
  cases a <;> exact Delta.mem_apply _ _ _ _

private theorem map_trunc_eq_self {w : ℕ} (ns : List (IpNet w)) :
    ns.map IpNet.trunc = ns ↔ ∀ n ∈ ns, n.trunc = n := by
  simpa using List.map_inj_left (l := ns) (f := IpNet.trunc) (g := id)

theorem canonical_eq_iff (d : DestinationAddrs) :
    d.canonical = d ↔ (∀ n ∈ d.v4Subnets, n.trunc = n) ∧ ∀ n ∈ d.v6Subnets, n.trunc = n := by
  simp only [DestinationAddrs.canonical, DestinationAddrs.ext_iff, true_and, map_trunc_eq_self]

private theorem map_trunc_apply {w : ℕ} {current add : List (IpNet w)} (remove : List (IpNet w))
    (hcur : current.map IpNet.trunc = current) (hadd : add.map IpNet.trunc = add) :
    (Delta.apply current add remove).map IpNet.trunc = Delta.apply current add remove := by
  rw [map_trunc_eq_self] at hcur hadd ⊢
  intro n hn
  rcases (Delta.mem_apply current add remove n).mp hn with ⟨h, -⟩ | ⟨h, -⟩
  · exact hcur n h
  · exact hadd n h

private theorem map_trunc_map_trunc {w : ℕ} (ns : List (IpNet w)) :
    (ns.map IpNet.trunc).map IpNet.trunc = ns.map IpNet.trunc := by
  simp

/-- Lenient application keeps a well-formed set well formed, whatever the changes. -/
theorem wellFormed_applyLenient {d : DestinationAddrs} (h : d.WellFormed) (c : AddressChanges) :
    (c.applyLenient d).WellFormed := by
  have hcanon := h.canonical
  simp only [DestinationAddrs.canonical, DestinationAddrs.ext_iff] at hcanon
  obtain ⟨-, -, h₄, h₆⟩ := hcanon
  refine ⟨Delta.nodup_apply h.v4 _ _, Delta.nodup_apply h.v6 _ _,
    Delta.nodup_apply h.v4Subnets _ _, Delta.nodup_apply h.v6Subnets _ _, ?_⟩
  simp only [applyLenient, DestinationAddrs.canonical, DestinationAddrs.mk.injEq, true_and]
  exact ⟨map_trunc_apply _ h₄ (map_trunc_map_trunc _), map_trunc_apply _ h₆ (map_trunc_map_trunc _)⟩

@[simp] theorem applyLenient_default (d : DestinationAddrs) : default.applyLenient d = d := by
  simp [applyLenient, canonical, default, DestinationAddrs.default, DestinationAddrs.canonical]

/-- No changes fit any set. -/
theorem applyStrict_default (d : DestinationAddrs) : default.applyStrict d = (.ok (), d) := by
  have hcanon : default.canonical = default := rfl
  have hvalid : default.validate = .ok () := rfl
  simp only [applyStrict, hvalid, hcanon, applyLenient_default]
  simp [default, DestinationAddrs.default, Delta.admits]

/-! ## Strict application -/

/-- What a strict receiver asks of a change, in each family: no value twice on either side,
none on both, every addition new and every removal present. -/
structure Applicable (c : AddressChanges) (current : DestinationAddrs) : Prop where
  added : c.canonical.added.WellFormed
  removed : c.canonical.removed.WellFormed
  disjoint : ∀ a : Addr, a ∈ c.canonical.added → a ∉ c.canonical.removed
  new : ∀ a : Addr, a ∈ c.canonical.added → a ∉ current
  present : ∀ a : Addr, a ∈ c.canonical.removed → a ∈ current

/-- A property of all addresses is one of each family. -/
theorem forall_addr {P : Addr → Prop} :
    (∀ a, P a) ↔ (∀ a, P (.v4 a)) ∧ (∀ a, P (.v6 a)) ∧ (∀ n, P (.v4Subnet n)) ∧
      ∀ n, P (.v6Subnet n) := by
  constructor
  · intro h
    exact ⟨fun a => h _, fun a => h _, fun n => h _, fun n => h _⟩
  · rintro ⟨h₁, h₂, h₃, h₄⟩ a
    cases a with
    | v4 a => exact h₁ a
    | v6 a => exact h₂ a
    | v4Subnet n => exact h₃ n
    | v6Subnet n => exact h₄ n

theorem wellFormed_canonical_iff (d : DestinationAddrs) :
    d.canonical.WellFormed ↔ d.canonical.v4.Nodup ∧ d.canonical.v6.Nodup ∧
      d.canonical.v4Subnets.Nodup ∧ d.canonical.v6Subnets.Nodup :=
  ⟨fun h => ⟨h.v4, h.v6, h.v4Subnets, h.v6Subnets⟩,
    fun ⟨h₁, h₂, h₃, h₄⟩ => ⟨h₁, h₂, h₃, h₄, d.canonical_canonical⟩⟩

theorem validate_iff (c : AddressChanges) :
    c.validate = .ok () ↔ c.canonical.added.WellFormed ∧ c.canonical.removed.WellFormed ∧
      ∀ a : Addr, a ∈ c.canonical.added → a ∉ c.canonical.removed := by
  have hvalid : c.validate = .ok () ↔
      Delta.wellFormed c.canonical.added.v4 c.canonical.removed.v4 = true ∧
      Delta.wellFormed c.canonical.added.v6 c.canonical.removed.v6 = true ∧
      Delta.wellFormed c.canonical.added.v4Subnets c.canonical.removed.v4Subnets = true ∧
      Delta.wellFormed c.canonical.added.v6Subnets c.canonical.removed.v6Subnets = true := by
    unfold validate
    dsimp only
    split <;> simp_all
  rw [hvalid, forall_addr]
  simp only [Delta.wellFormed_iff, canonical, wellFormed_canonical_iff,
    DestinationAddrs.mem_v4, DestinationAddrs.mem_v6, DestinationAddrs.mem_v4Subnet,
    DestinationAddrs.mem_v6Subnet]
  tauto

/-- The four families' checks against the current set, as one. -/
def admits (c : AddressChanges) (current : DestinationAddrs) : Bool :=
  Delta.admits current.v4 c.canonical.added.v4 c.canonical.removed.v4 &&
    Delta.admits current.v6 c.canonical.added.v6 c.canonical.removed.v6 &&
    Delta.admits current.v4Subnets c.canonical.added.v4Subnets c.canonical.removed.v4Subnets &&
    Delta.admits current.v6Subnets c.canonical.added.v6Subnets c.canonical.removed.v6Subnets

theorem admits_iff (c : AddressChanges) (current : DestinationAddrs) :
    c.admits current = true ↔ (∀ a : Addr, a ∈ c.canonical.added → a ∉ current) ∧
      ∀ a : Addr, a ∈ c.canonical.removed → a ∈ current := by
  rw [forall_addr, forall_addr]
  simp only [admits, Bool.and_eq_true, Delta.admits_iff, DestinationAddrs.mem_v4,
    DestinationAddrs.mem_v6, DestinationAddrs.mem_v4Subnet, DestinationAddrs.mem_v6Subnet]
  tauto

@[simp] theorem canonical_canonical (c : AddressChanges) : c.canonical.canonical = c.canonical := by
  simp [canonical]

theorem applyLenient_canonical (c : AddressChanges) (d : DestinationAddrs) :
    c.canonical.applyLenient d = c.applyLenient d := by
  simp only [applyLenient, canonical_canonical]

theorem applyStrict_eq (c : AddressChanges) (current : DestinationAddrs) :
    c.applyStrict current = if c.validate = .ok () ∧ c.admits current = true then
      (.ok (), c.applyLenient current) else (.error .invalidData, current) := by
  cases hvalid : c.validate with
  | error e =>
    have he : e = .invalidData := by
      unfold validate at hvalid
      dsimp only at hvalid
      split at hvalid <;> cases hvalid
      rfl
    simp [applyStrict, hvalid, he]
  | ok u =>
    have hrefused : (!Delta.admits current.v4 c.canonical.added.v4 c.canonical.removed.v4
        || !Delta.admits current.v6 c.canonical.added.v6 c.canonical.removed.v6
        || !Delta.admits current.v4Subnets c.canonical.added.v4Subnets c.canonical.removed.v4Subnets
        || !Delta.admits current.v6Subnets c.canonical.added.v6Subnets c.canonical.removed.v6Subnets)
        = !c.admits current := by
      simp only [admits, Bool.not_and]
    simp only [applyStrict, hvalid, applyLenient_canonical, hrefused]
    cases c.admits current <;> rfl

/-- Strict application succeeds exactly on an applicable change. It then removes and adds
what the change lists, and keeps the set well formed; otherwise it changes nothing. -/
theorem strict_application_exact (c : AddressChanges) (current : DestinationAddrs)
    (hcurrent : current.WellFormed) :
    ((c.applyStrict current).1 = .ok () ↔ c.Applicable current) ∧
      ((c.applyStrict current).1 = .ok () →
        (∀ a : Addr, a ∈ (c.applyStrict current).2 ↔
          a ∈ current ∧ a ∉ c.canonical.removed ∨ a ∈ c.canonical.added) ∧
        (c.applyStrict current).2.WellFormed) ∧
      ((c.applyStrict current).1 ≠ .ok () → (c.applyStrict current).2 = current) := by
  rw [applyStrict_eq]
  have happlicable : c.Applicable current ↔ c.validate = .ok () ∧ c.admits current = true := by
    rw [validate_iff, admits_iff]
    exact ⟨fun h => ⟨⟨h.added, h.removed, h.disjoint⟩, h.new, h.present⟩,
      fun ⟨⟨h₁, h₂, h₃⟩, h₄, h₅⟩ => ⟨h₁, h₂, h₃, h₄, h₅⟩⟩
  rw [happlicable]
  split
  · rename_i hok
    refine ⟨⟨fun _ => hok, fun _ => rfl⟩, fun _ => ⟨fun a => ?_, ?_⟩, fun h => absurd rfl h⟩
    · have hdisjoint := (happlicable.mpr hok).disjoint a
      rw [mem_applyLenient]
      tauto
    · exact wellFormed_applyLenient hcurrent c
  · rename_i hbad
    exact ⟨⟨nofun, fun h => absurd h hbad⟩, nofun, fun _ => rfl⟩

theorem strict_application_exact_replace :
    ((AddressChanges.mk ⟨[2], [], [], []⟩ ⟨[1], [], [], []⟩).applyStrict ⟨[1], [], [], []⟩).1 =
        .ok () ∧
      ((AddressChanges.mk ⟨[2], [], [], []⟩ ⟨[1], [], [], []⟩).applyStrict
        ⟨[1], [], [], []⟩).2.WellFormed :=
  have hok : ((AddressChanges.mk ⟨[2], [], [], []⟩ ⟨[1], [], [], []⟩).applyStrict
      ⟨[1], [], [], []⟩).1 = .ok () := by decide
  ⟨hok, ((strict_application_exact _ _
    ⟨by decide, by decide, by decide, by decide, by decide⟩).2.1 hok).2⟩

/-! ## Differences -/

@[simp] theorem mem_difference (d e : DestinationAddrs) (a : Addr) :
    a ∈ difference d e ↔ a ∈ d ∧ a ∉ e := by
  cases a <;> exact Delta.mem_difference _ _ _

@[simp] theorem mem_between_added (old new : DestinationAddrs) (a : Addr) :
    a ∈ (between old new).added ↔ a ∈ new ∧ a ∉ old := mem_difference new old a

@[simp] theorem mem_between_removed (old new : DestinationAddrs) (a : Addr) :
    a ∈ (between old new).removed ↔ a ∈ old ∧ a ∉ new := mem_difference old new a

theorem wellFormed_difference {d : DestinationAddrs} (h : d.WellFormed) (e : DestinationAddrs) :
    (difference d e).WellFormed := by
  have hcanon := h.canonical
  simp only [DestinationAddrs.canonical, DestinationAddrs.ext_iff] at hcanon
  obtain ⟨-, -, h₄, h₆⟩ := hcanon
  rw [map_trunc_eq_self] at h₄ h₆
  refine ⟨Delta.nodup_difference h.v4 _, Delta.nodup_difference h.v6 _,
    Delta.nodup_difference h.v4Subnets _, Delta.nodup_difference h.v6Subnets _, ?_⟩
  simp only [difference, DestinationAddrs.canonical, DestinationAddrs.mk.injEq, true_and,
    map_trunc_eq_self]
  exact ⟨fun n hn => h₄ n ((Delta.mem_difference _ _ n).mp hn).1,
    fun n hn => h₆ n ((Delta.mem_difference _ _ n).mp hn).1⟩

theorem canonical_between {old new : DestinationAddrs} (hold : old.WellFormed)
    (hnew : new.WellFormed) : (between old new).canonical = between old new := by
  simp only [canonical, between, (wellFormed_difference hold new).canonical,
    (wellFormed_difference hnew old).canonical]

theorem isEmpty_between_iff (old new : DestinationAddrs) :
    (between old new).isEmpty = true ↔ old.SameAs new := by
  simp only [isEmpty, Bool.and_eq_true, DestinationAddrs.isEmpty_iff, mem_between_added,
    mem_between_removed]
  constructor
  · rintro ⟨hadd, hrem⟩ a
    exact ⟨fun h => by_contra fun hn => hrem a ⟨h, hn⟩, fun h => by_contra fun hn => hadd a ⟨h, hn⟩⟩
  · intro h
    exact ⟨fun a ha => ha.2 ((h a).mpr ha.1), fun a ha => ha.2 ((h a).mp ha.1)⟩

/-- The difference of two sets takes any copy of the first to a copy of the second. -/
theorem applyLenient_between {old new current : DestinationAddrs} (hold : old.WellFormed)
    (hnew : new.WellFormed) (hcur : current.SameAs old) :
    ((between old new).applyLenient current).SameAs new := by
  intro a
  rw [mem_applyLenient, canonical_between hold hnew, mem_between_added, mem_between_removed, hcur a]
  by_cases ho : a ∈ old <;> by_cases hn : a ∈ new <;> simp [ho, hn]

/-- The difference that changes made to a set makes the same set again, order included. -/
theorem applyLenient_between_applyLenient {old : DestinationAddrs} (hold : old.WellFormed)
    (c : AddressChanges) :
    (between old (c.applyLenient old)).applyLenient old = c.applyLenient old := by
  have hcanon := canonical_between hold (wellFormed_applyLenient hold c)
  unfold applyLenient at hcanon ⊢
  simp only [hcanon]
  simp only [between, difference, Delta.apply_difference]

/-- Changes whose difference is empty left the set as it was. -/
theorem applyLenient_of_isEmpty_between {old : DestinationAddrs} (hold : old.WellFormed)
    {c : AddressChanges} (h : (between old (c.applyLenient old)).isEmpty = true) :
    c.applyLenient old = old := by
  have hdefault : between old (c.applyLenient old) = default := by
    simp only [isEmpty, DestinationAddrs.isEmpty, Bool.and_eq_true, List.isEmpty_iff] at h
    obtain ⟨⟨⟨⟨h₁, h₂⟩, h₃⟩, h₄⟩, ⟨⟨h₅, h₆⟩, h₇⟩, h₈⟩ := h
    cases hb : between old (c.applyLenient old) with
    | mk added removed =>
      rw [hb] at h₁ h₂ h₃ h₄ h₅ h₆ h₇ h₈
      cases added
      cases removed
      simp_all [default, DestinationAddrs.default]
  rw [← applyLenient_between_applyLenient hold c, hdefault, applyLenient_default]

theorem validate_between {old new : DestinationAddrs} (hold : old.WellFormed)
    (hnew : new.WellFormed) : (between old new).validate = .ok () := by
  unfold validate
  rw [canonical_between hold hnew]
  simp only [between, difference, Delta.wellFormed_difference hold.v4 hnew.v4,
    Delta.wellFormed_difference hold.v6 hnew.v6,
    Delta.wellFormed_difference hold.v4Subnets hnew.v4Subnets,
    Delta.wellFormed_difference hold.v6Subnets hnew.v6Subnets, Bool.and_self, if_true]

/-- A receiver with the old set accepts the difference to the new one strictly. -/
theorem applyStrict_between {old new current : DestinationAddrs} (hold : old.WellFormed)
    (hnew : new.WellFormed) (hcur : current.SameAs old) :
    (between old new).applyStrict current =
      (.ok (), (between old new).applyLenient current) := by
  have h₁ := Delta.admits_difference new.v4 fun a => hcur (.v4 a)
  have h₂ := Delta.admits_difference new.v6 fun a => hcur (.v6 a)
  have h₃ := Delta.admits_difference new.v4Subnets fun a => hcur (.v4Subnet a)
  have h₄ := Delta.admits_difference new.v6Subnets fun a => hcur (.v6Subnet a)
  simp only [applyStrict, validate_between hold hnew, canonical_between hold hnew]
  simp only [between, difference] at h₁ h₂ h₃ h₄ ⊢
  simp [h₁, h₂, h₃, h₄]

/-! ## Reading changes back from wire items -/

/-- Items that `from_message` skips. -/
def Skipped (item : DataItem) : Prop := ∀ c : AddressChanges, c.absorb item = c

theorem foldl_absorb_of_skipped {items : List DataItem} (h : ∀ i ∈ items, Skipped i)
    (c : AddressChanges) : items.foldl absorb c = c := by
  induction items generalizing c with
  | nil => rfl
  | cons i items ih =>
    rw [List.foldl_cons, h i List.mem_cons_self c]
    exact ih (fun j hj => h j (List.mem_cons_of_mem _ hj)) c

/-- Append one address set to another, family by family. -/
def join (d e : DestinationAddrs) : DestinationAddrs where
  v4 := d.v4 ++ e.v4
  v6 := d.v6 ++ e.v6
  v4Subnets := d.v4Subnets ++ e.v4Subnets
  v6Subnets := d.v6Subnets ++ e.v6Subnets

private theorem foldl_absorb_v4 (add : Bool) (xs : List Ipv4Addr) (c : AddressChanges) :
    (xs.map (DataItem.ipv4Address add)).foldl absorb c =
      c.onSide add fun s => { s with v4 := s.v4 ++ xs } := by
  induction xs generalizing c with
  | nil => cases add <;> simp [onSide]
  | cons x xs ih => cases add <;> simp_all [absorb, onSide]

private theorem foldl_absorb_v6 (add : Bool) (xs : List Ipv6Addr) (c : AddressChanges) :
    (xs.map (DataItem.ipv6Address add)).foldl absorb c =
      c.onSide add fun s => { s with v6 := s.v6 ++ xs } := by
  induction xs generalizing c with
  | nil => cases add <;> simp [onSide]
  | cons x xs ih => cases add <;> simp_all [absorb, onSide]

private theorem foldl_absorb_v4Subnets (add : Bool) (xs : List Ipv4Net) (c : AddressChanges) :
    (xs.map fun s => DataItem.ipv4AttachedSubnet add s.trunc).foldl absorb c =
      c.onSide add fun s => { s with v4Subnets := s.v4Subnets ++ xs.map IpNet.trunc } := by
  induction xs generalizing c with
  | nil => cases add <;> simp [onSide]
  | cons x xs ih => cases add <;> simp_all [absorb, onSide]

private theorem foldl_absorb_v6Subnets (add : Bool) (xs : List Ipv6Net) (c : AddressChanges) :
    (xs.map fun s => DataItem.ipv6AttachedSubnet add s.trunc).foldl absorb c =
      c.onSide add fun s => { s with v6Subnets := s.v6Subnets ++ xs.map IpNet.trunc } := by
  induction xs generalizing c with
  | nil => cases add <;> simp [onSide]
  | cons x xs ih => cases add <;> simp_all [absorb, onSide]

theorem foldl_absorb_sideItems (add : Bool) (d : DestinationAddrs) (c : AddressChanges) :
    (sideItems add d).foldl absorb c = c.onSide add fun s => join s d.canonical := by
  simp only [sideItems, List.foldl_append, foldl_absorb_v4, foldl_absorb_v6,
    foldl_absorb_v4Subnets, foldl_absorb_v6Subnets]
  cases add <;> simp [onSide, join, DestinationAddrs.canonical]

@[simp] theorem join_default (d : DestinationAddrs) : join .default d = d := by
  simp [join, DestinationAddrs.default]

/-- What `append_to` writes, `from_message` reads back in network form. -/
theorem fromMessage_appendTo (c : AddressChanges) {m : Message}
    (h : ∀ i ∈ m.dataItems, Skipped i) : fromMessage (c.appendTo m) = c.canonical := by
  simp only [fromMessage, appendTo, List.foldl_append, foldl_absorb_of_skipped h,
    foldl_absorb_sideItems]
  simp [onSide, default, canonical]

theorem fromMessage_of_skipped {m : Message} (h : ∀ i ∈ m.dataItems, Skipped i) :
    fromMessage m = default := foldl_absorb_of_skipped h default

end AddressChanges

end Dlep
