-- SUMMARY: Messages with permuted data items: the checks decide alike and the readers find the same.
import Dlep.Fsm.Metrics
import Dlep.Fsm.Ownership
import Dlep.Lib.Permutation

/-!
# Permuted messages

The grammar check runs through the items with early returns, the extractors take the
first match and the address and metric readers fold over the list. A message that passes
the check has at most one item of every type but the address ones, so that the first
match is the only one; and the address readers depend on the set of addresses alone.
-/

namespace Dlep

open Permutation

/-! ## The item loop -/

section ItemLoop

variable {addresses : List (List UInt8)} {types : List DataItemType} {i : DataItem}

/-- An item the decoder recognised. -/
def DataItem.isTyped : DataItem → Bool
  | .unknown _ => false
  | _ => true

theorem DataItem.isTyped_of_ne (h : ∀ raw, i ≠ .unknown raw) : i.isTyped = true := by
  cases i <;> first
    | rfl
    | exact absurd rfl (h _)

/-- The octets by which an address item is recognised as a duplicate. -/
def DataItem.addressKey (i : DataItem) : Option (List UInt8) :=
  if i.isTyped && i.typeId.isAddress then some (i.encode []).2 else none

/-- The type of an item that may occur once. -/
def DataItem.plainType (i : DataItem) : Option DataItemType :=
  if i.isTyped && !i.typeId.isAddress then some i.typeId else none

/-- What the item loop asks of an item on its own. -/
def DataItem.passes (msg : Message) (router initializing : Bool) (localExtensions : List ExtensionId)
    (i : DataItem) : Bool :=
  if i.isTyped then
    allowedItem msg.messageType router i.typeId && (i.encode []).1.isOk &&
      !(i.typeId.isAddress && initializing && isRemoval i)
  else initializing && unrecognizedExtension msg localExtensions

variable (msg : Message) (router initializing : Bool) (localExtensions : List ExtensionId)

/-- The loop as one condition on the items: each passes, and no address and no other type
occurs twice. -/
def ItemsFit (items : List DataItem) (types : List DataItemType) (addresses : List (List UInt8)) :
    Prop :=
  (∀ i ∈ items, i.passes msg router initializing localExtensions = true) ∧
    (items.filterMap DataItem.addressKey ++ addresses).Nodup ∧
    (items.filterMap DataItem.plainType ++ types).Nodup

/-- One iteration on an item that passes on its own. -/
theorem checkItems_cons_of_passes {items : List DataItem}
    (h : i.passes msg router initializing localExtensions = true) :
    checkItems msg router initializing localExtensions (i :: items) types addresses =
      if (∃ key ∈ i.addressKey, key ∈ addresses) ∨ ∃ t ∈ i.plainType, t ∈ types then
        .error .invalidData
      else checkItems msg router initializing localExtensions items
        (i.plainType.toList ++ types) (i.addressKey.toList ++ addresses) := by
  by_cases hu : ∃ raw, i = .unknown raw
  · obtain ⟨raw, rfl⟩ := hu
    have hskip : (initializing && unrecognizedExtension msg localExtensions) = true := by
      simpa [DataItem.passes, DataItem.isTyped] using h
    rw [checkItems, if_pos hskip]
    simp [DataItem.addressKey, DataItem.plainType, DataItem.isTyped]
  · have hne : ∀ raw, i ≠ .unknown raw := fun raw hr => hu ⟨raw, hr⟩
    have htyped := DataItem.isTyped_of_ne hne
    rw [DataItem.passes, if_pos htyped] at h
    simp only [Bool.and_eq_true, Bool.not_eq_true'] at h
    obtain ⟨⟨hallowed, hok⟩, hkept⟩ := h
    rw [checkItems.eq_3 _ _ _ _ _ _ _ _ hne]
    obtain ⟨bytes, hencode⟩ : ∃ bytes, i.encode [] = (.ok (), bytes) := by
      cases hres : (i.encode []).1 with
      | error e => rw [hres] at hok; cases hok
      | ok u => exact ⟨(i.encode []).2, Prod.ext hres rfl⟩
    simp only [hallowed, hencode, DataItem.addressKey, DataItem.plainType, htyped]
    -- The item is recorded by its octets or by its type.
    cases haddress : i.typeId.isAddress with
    | true =>
      have hkept' : (initializing && isRemoval i) = false := by simpa [haddress] using hkept
      simp [hkept']
    | false => simp

/-- An item that does not pass ends the loop. -/
theorem checkItems_cons_of_not_passes (items : List DataItem) (types : List DataItemType)
    (addresses : List (List UInt8)) (h : i.passes msg router initializing localExtensions = false) :
    checkItems msg router initializing localExtensions (i :: items) types addresses =
      .error .invalidData := by
  by_cases hu : ∃ raw, i = .unknown raw
  · obtain ⟨raw, rfl⟩ := hu
    rw [checkItems, if_neg]
    simpa [DataItem.passes, DataItem.isTyped] using h
  · have hne : ∀ raw, i ≠ .unknown raw := fun raw hr => hu ⟨raw, hr⟩
    rw [checkItems.eq_3 _ _ _ _ _ _ _ _ hne]
    rw [DataItem.passes, if_pos (DataItem.isTyped_of_ne hne)] at h
    split
    · rfl
    · rename_i hallowed
      split
      · rfl
      · rename_i hencode
        have hremoval : (i.typeId.isAddress && initializing && isRemoval i) = true := by
          simp only [Bool.not_eq_true, Bool.not_eq_false'] at hallowed
          simpa [hallowed, hencode, Except.isOk, Except.toBool] using h
        simp only [Bool.and_eq_true] at hremoval
        simp [hremoval]

/-- The condition moves with the loop: what the item adds is recorded. -/
theorem itemsFit_cons {items : List DataItem}
    (h : i.passes msg router initializing localExtensions = true) :
    ItemsFit msg router initializing localExtensions (i :: items) types addresses ↔
      ItemsFit msg router initializing localExtensions items
        (i.plainType.toList ++ types) (i.addressKey.toList ++ addresses) := by
  unfold ItemsFit
  rw [filterMap_cons_append, filterMap_cons_append]
  refine and_congr ?_ (and_congr ?_ ?_)
  · simp [h]
  · rw [List.append_assoc]
    exact (List.perm_append_comm_assoc _ _ _).nodup_iff
  · rw [List.append_assoc]
    exact (List.perm_append_comm_assoc _ _ _).nodup_iff

theorem checkItems_eq (items : List DataItem) (htypes : types.Nodup) (haddresses : addresses.Nodup)
    :
    (ItemsFit msg router initializing localExtensions items types addresses →
      checkItems msg router initializing localExtensions items types addresses =
        .ok ((items.filterMap DataItem.plainType).reverse ++ types)) ∧
    (¬ ItemsFit msg router initializing localExtensions items types addresses →
      checkItems msg router initializing localExtensions items types addresses =
        .error .invalidData) := by
  induction items generalizing types addresses with
  | nil => simp [ItemsFit, checkItems, htypes, haddresses]
  | cons i items ih =>
    cases hpass : i.passes msg router initializing localExtensions with
    | false =>
      refine ⟨fun hfit => ?_, fun _ => checkItems_cons_of_not_passes _ _ _ _ _ _ _ hpass⟩
      rw [hfit.1 i List.mem_cons_self] at hpass
      cases hpass
    | true =>
      rw [checkItems_cons_of_passes _ _ _ _ hpass, itemsFit_cons _ _ _ _ hpass]
      split
      · rename_i hdup
        refine ⟨fun hfit => ?_, fun _ => rfl⟩
        obtain ⟨-, hkeys, hplain⟩ := hfit
        rcases hdup with ⟨key, hkey, hmem⟩ | ⟨t, ht, hmem⟩
        · rw [Option.mem_def.mp hkey] at hkeys
          exact absurd hmem (List.nodup_cons.mp (List.nodup_append.mp hkeys).2.1).1
        · rw [Option.mem_def.mp ht] at hplain
          exact absurd hmem (List.nodup_cons.mp (List.nodup_append.mp hplain).2.1).1
      · rename_i hnew
        push Not at hnew
        have htypes' : (i.plainType.toList ++ types).Nodup := by
          cases ht : i.plainType with
          | none => exact htypes
          | some t => exact List.nodup_cons.mpr ⟨hnew.2 t ht, htypes⟩
        have haddresses' : (i.addressKey.toList ++ addresses).Nodup := by
          cases hkey : i.addressKey with
          | none => exact haddresses
          | some key => exact List.nodup_cons.mpr ⟨hnew.1 key hkey, haddresses⟩
        obtain ⟨hok, herror⟩ := ih htypes' haddresses'
        refine ⟨fun hfit => ?_, herror⟩
        rw [hok hfit, filterMap_cons_append]
        cases i.plainType <;> simp

end ItemLoop

/-! ## Permuted messages -/

/-- The same message with its data items in another order. -/
structure Message.Permuted (m m' : Message) : Prop where
  messageType : m'.messageType = m.messageType
  items : m.dataItems.Perm m'.dataItems

namespace Message.Permuted

variable {m m' : Message}

theorem unrecognizedExtension (h : m.Permuted m') (localExtensions : List ExtensionId) :
    unrecognizedExtension m localExtensions = Dlep.unrecognizedExtension m' localExtensions :=
  any_perm h.items

theorem validateMacFormat (h : m.Permuted m') (format : MacAddressFormat) :
    validateMacFormat m format = Dlep.validateMacFormat m' format := by
  unfold Dlep.validateMacFormat
  rw [any_perm h.items]

theorem itemsFit_iff (h : m.Permuted m') (router initializing : Bool)
    (localExtensions : List ExtensionId) :
    ItemsFit m router initializing localExtensions m.dataItems [] [] ↔
      ItemsFit m' router initializing localExtensions m'.dataItems [] [] := by
  unfold ItemsFit
  simp only [List.append_nil]
  refine and_congr ?_ (and_congr ?_ ?_)
  · simp only [DataItem.passes, h.unrecognizedExtension, h.messageType, h.items.mem_iff]
  · exact (h.items.filterMap _).nodup_iff
  · exact (h.items.filterMap _).nodup_iff

/-- The grammar check does not depend on the order of the items. -/
theorem validateMessage (h : m.Permuted m') (router initializing : Bool)
    (localExtensions : List ExtensionId) :
    validateMessage m router initializing localExtensions =
      Dlep.validateMessage m' router initializing localExtensions := by
  have hloop := checkItems_eq m router initializing localExtensions m.dataItems
    List.nodup_nil List.nodup_nil
  have hloop' := checkItems_eq m' router initializing localExtensions m'.dataItems
    List.nodup_nil List.nodup_nil
  unfold Dlep.validateMessage
  rw [h.messageType]
  by_cases hfit : ItemsFit m router initializing localExtensions m.dataItems [] []
  · -- The collected types are the same set.
    have htypes : ((m.dataItems.filterMap DataItem.plainType).reverse ++ []).Perm
        ((m'.dataItems.filterMap DataItem.plainType).reverse ++ []) := by
      simp only [List.append_nil]
      exact (List.reverse_perm _).trans ((h.items.filterMap _).trans (List.reverse_perm _).symm)
    rw [hloop.1 hfit, hloop'.1 ((h.itemsFit_iff _ _ _).mp hfit)]
    simp only [List.contains_eq_mem, htypes.mem_iff, any_perm htypes]
  · rw [hloop.2 hfit, hloop'.2 (mt (h.itemsFit_iff _ _ _).mpr hfit)]

end Message.Permuted

/-- A message that passes the grammar check has at most one item of each type but the
address ones. -/
theorem plain_of_validateMessage {msg : Message} {router initializing : Bool}
    {localExtensions : List ExtensionId}
    (h : validateMessage msg router initializing localExtensions = .ok ()) :
    (msg.dataItems.filterMap DataItem.plainType).Nodup := by
  by_contra hdup
  have hloop := checkItems_eq msg router initializing localExtensions msg.dataItems
    List.nodup_nil List.nodup_nil
  have hfit : ¬ ItemsFit msg router initializing localExtensions msg.dataItems [] [] :=
    fun hfit => hdup (by simpa using hfit.2.2)
  unfold validateMessage at h
  rw [hloop.2 hfit] at h
  simp only at h
  split at h
  · cases h
  · split at h <;> cases h

/-! ## The readers -/

section Readers

variable {m m' : Message}

/-- A status that ends the session. -/
def DataItem.isFatal : DataItem → Bool
  | .status code _ => code.terminatesSession
  | _ => false

theorem Message.Permuted.fatalStatus (h : m.Permuted m')
    (hone : m.dataItems.countP DataItem.isFatal ≤ 1) : fatalStatus m = Dlep.fatalStatus m' := by
  have hfirst : m.dataItems.find? DataItem.isFatal = m'.dataItems.find? DataItem.isFatal :=
    find?_perm h.items hone
  unfold Dlep.fatalStatus
  rw [h.messageType]
  exact congrArg (ite (m.messageType = .sessionTermination) none) hfirst

/-- A reader of one type of item finds the same one. -/
theorem first_perm {α : Type} {f : DataItem → Option α} {t : DataItemType} (h : m.Permuted m')
    (hplain : (m.dataItems.filterMap DataItem.plainType).Nodup)
    (hf : ∀ i v, f i = some v → i.plainType = some t) :
    m.dataItems.findSome? f = m'.dataItems.findSome? f := by
  refine findSome?_perm h.items fun a ha b hb x y hx hy => ?_
  have hab : a = b := eq_of_nodup_filterMap hplain ha hb (hf a x hx) (hf b y hy)
  rw [hab, hy] at hx
  exact (Option.some.inj hx).symm

theorem plainType_of_metric {i : DataItem} (h : i.isMetricItem = true) :
    i.plainType = some i.typeId := by
  cases i <;> first
    | rfl
    | cases h

/-- A fold that skips all but the metric items, and in which metrics of different types
commute. -/
theorem foldl_perm {σ : Type} {f : σ → DataItem → σ} (h : m.Permuted m')
    (hplain : (m.dataItems.filterMap DataItem.plainType).Nodup)
    (hskip : ∀ i z, i.isMetricItem = false → f z i = z)
    (hcomm : ∀ x y z, x.isMetricItem = true → y.isMetricItem = true → x.typeId ≠ y.typeId →
      f (f z x) y = f (f z y) x) (z : σ) :
    m.dataItems.foldl f z = m'.dataItems.foldl f z := by
  refine h.items.foldl_eq' (fun x hx y hy z => ?_) z
  cases hxm : x.isMetricItem with
  | false => rw [hskip x z hxm, hskip x _ hxm]
  | true =>
    cases hym : y.isMetricItem with
    | false => rw [hskip y _ hym, hskip y z hym]
    | true =>
      by_cases ht : x.typeId = y.typeId
      · have hy' : y.plainType = some x.typeId := ht ▸ plainType_of_metric hym
        rw [eq_of_nodup_filterMap hplain hx hy (plainType_of_metric hxm) hy']
      · exact hcomm x y z hxm hym ht

theorem mergeItem_comm (x y : DataItem) (z : LinkMetrics × Bool) (hx : x.isMetricItem = true)
    (hy : y.isMetricItem = true) (ht : x.typeId ≠ y.typeId) :
    mergeItem (mergeItem z x) y = mergeItem (mergeItem z y) x := by
  cases x <;> first
    | (cases hx; done)
    | cases y <;> first
      | rfl
      | (cases hy; done)
      | exact absurd rfl ht

theorem requestItem_of_not_metric {i : DataItem} (h : i.isMetricItem = false)
    (z : LinkCharacteristics) : requestItem z i = z := by
  cases i <;> first
    | rfl
    | cases h

theorem requestItem_comm (x y : DataItem) (z : LinkCharacteristics) (hx : x.isMetricItem = true)
    (hy : y.isMetricItem = true) (ht : x.typeId ≠ y.typeId) :
    requestItem (requestItem z x) y = requestItem (requestItem z y) x := by
  cases x <;> first
    | (cases hx; done)
    | cases y <;> first
      | rfl
      | (cases hy; done)
      | exact absurd rfl ht

end Readers

/-! ## Address changes -/

namespace AddressChanges

/-- The same addresses and subnets on either side, in any order. -/
structure SameAs (c c' : AddressChanges) : Prop where
  added : c.added.SameAs c'.added
  removed : c.removed.SameAs c'.removed

theorem SameAs.isEmpty_eq {c c' : AddressChanges} (h : c.SameAs c') : c.isEmpty = c'.isEmpty := by
  unfold isEmpty
  rw [h.added.isEmpty_eq, h.removed.isEmpty_eq]

/-- The side of a change that an add flag selects. -/
def side (c : AddressChanges) (add : Bool) : DestinationAddrs := if add then c.added else c.removed

theorem side_onSide (c : AddressChanges) (a add : Bool) (f : DestinationAddrs → DestinationAddrs) :
    (c.onSide a f).side add = if a = add then f (c.side add) else c.side add := by
  cases a <;> cases add <;> rfl

/-- A list that `from_message` fills is what it picks from the items, in their order. -/
theorem foldl_absorb {α : Type} (family : AddressChanges → List α) (pick : DataItem → Option α)
    (hpick : ∀ c i, family (absorb c i) = family c ++ (pick i).toList) (items : List DataItem)
    (c : AddressChanges) : family (items.foldl absorb c) = family c ++ items.filterMap pick := by
  induction items generalizing c with
  | nil => simp
  | cons i items ih =>
    rw [List.foldl_cons, ih, hpick, filterMap_cons_append, List.append_assoc]

end AddressChanges

/-- The families of `e` are those of `d` in another order. -/
structure DestinationAddrs.Permuted (d e : DestinationAddrs) : Prop where
  v4 : d.v4.Perm e.v4
  v6 : d.v6.Perm e.v6
  v4Subnets : d.v4Subnets.Perm e.v4Subnets
  v6Subnets : d.v6Subnets.Perm e.v6Subnets

namespace DestinationAddrs.Permuted

variable {d e : DestinationAddrs}

theorem sameAs (h : d.Permuted e) : d.SameAs e := by
  intro a
  cases a with
  | v4 a => exact h.v4.mem_iff
  | v6 a => exact h.v6.mem_iff
  | v4Subnet n => exact h.v4Subnets.mem_iff
  | v6Subnet n => exact h.v6Subnets.mem_iff

theorem wellFormed (h : d.Permuted e) (hd : d.WellFormed) : e.WellFormed := by
  refine ⟨h.v4.nodup_iff.mp hd.v4, h.v6.nodup_iff.mp hd.v6, h.v4Subnets.nodup_iff.mp hd.v4Subnets,
    h.v6Subnets.nodup_iff.mp hd.v6Subnets, ?_⟩
  have hcanonical := hd.canonical
  rw [AddressChanges.canonical_eq_iff] at hcanonical ⊢
  simpa only [h.v4Subnets.mem_iff, h.v6Subnets.mem_iff] using hcanonical

end DestinationAddrs.Permuted

namespace Message.Permuted

variable {m m' : Message}

theorem absorbed {α : Type} (h : m.Permuted m') (family : AddressChanges → List α)
    (pick : DataItem → Option α)
    (hpick : ∀ c i, family (AddressChanges.absorb c i) = family c ++ (pick i).toList) :
    (family (AddressChanges.fromMessage m)).Perm (family (AddressChanges.fromMessage m')) := by
  unfold AddressChanges.fromMessage
  rw [AddressChanges.foldl_absorb family pick hpick, AddressChanges.foldl_absorb family pick hpick]
  exact (h.items.filterMap pick).append_left _

/-- Either side of the changes holds the same addresses. -/
theorem side (h : m.Permuted m') (add : Bool) :
    ((AddressChanges.fromMessage m).side add).Permuted
      ((AddressChanges.fromMessage m').side add) := by
  refine ⟨h.absorbed (fun c => (c.side add).v4)
      (fun | .ipv4Address a v => if a = add then some v else none | _ => none) ?_,
    h.absorbed (fun c => (c.side add).v6)
      (fun | .ipv6Address a v => if a = add then some v else none | _ => none) ?_,
    h.absorbed (fun c => (c.side add).v4Subnets)
      (fun | .ipv4AttachedSubnet a n => if a = add then some n.trunc else none | _ => none) ?_,
    h.absorbed (fun c => (c.side add).v6Subnets)
      (fun | .ipv6AttachedSubnet a n => if a = add then some n.trunc else none | _ => none) ?_⟩
  all_goals
    intro c i
    cases i <;> simp only [AddressChanges.absorb, AddressChanges.side_onSide] <;>
      first
        | exact (List.append_nil _).symm
        | split <;> simp

theorem added (h : m.Permuted m') :
    (AddressChanges.fromMessage m).added.Permuted (AddressChanges.fromMessage m').added :=
  h.side true

theorem removed (h : m.Permuted m') :
    (AddressChanges.fromMessage m).removed.Permuted (AddressChanges.fromMessage m').removed :=
  h.side false

theorem changes (h : m.Permuted m') :
    (AddressChanges.fromMessage m).SameAs (AddressChanges.fromMessage m') :=
  ⟨h.added.sameAs, h.removed.sameAs⟩

theorem symm (h : m.Permuted m') : m'.Permuted m := ⟨h.messageType.symm, h.items.symm⟩

theorem validate (h : m.Permuted m')
    (hvalid : (AddressChanges.fromMessage m).validate = .ok ()) :
    (AddressChanges.fromMessage m').validate = .ok () := by
  rw [AddressChanges.validate_iff, AddressChanges.canonical_fromMessage] at hvalid ⊢
  obtain ⟨hadded, hremoved, hdisjoint⟩ := hvalid
  refine ⟨h.added.wellFormed hadded, h.removed.wellFormed hremoved, fun a ha hr => ?_⟩
  exact hdisjoint a ((h.changes.added a).mpr ha) ((h.changes.removed a).mpr hr)

theorem admits_eq (h : m.Permuted m') (current : DestinationAddrs) :
    (AddressChanges.fromMessage m).admits current =
      (AddressChanges.fromMessage m').admits current := by
  rw [Bool.eq_iff_iff, AddressChanges.admits_iff, AddressChanges.admits_iff,
    AddressChanges.canonical_fromMessage, AddressChanges.canonical_fromMessage]
  simp only [h.changes.added _, h.changes.removed _]

theorem applyLenient (h : m.Permuted m') (current : DestinationAddrs) :
    ((AddressChanges.fromMessage m).applyLenient current).SameAs
      ((AddressChanges.fromMessage m').applyLenient current) := by
  intro a
  rw [AddressChanges.mem_applyLenient, AddressChanges.mem_applyLenient,
    AddressChanges.canonical_fromMessage, AddressChanges.canonical_fromMessage,
    h.changes.added a, h.changes.removed a]

/-- Strict application decides alike and leaves the same set. -/
theorem applyStrict (h : m.Permuted m') (current : DestinationAddrs) :
    ((AddressChanges.fromMessage m).applyStrict current).1 =
        ((AddressChanges.fromMessage m').applyStrict current).1 ∧
      ((AddressChanges.fromMessage m).applyStrict current).2.SameAs
        ((AddressChanges.fromMessage m').applyStrict current).2 := by
  rw [AddressChanges.applyStrict_eq, AddressChanges.applyStrict_eq, h.admits_eq]
  have hvalid : (AddressChanges.fromMessage m).validate = .ok () ↔
      (AddressChanges.fromMessage m').validate = .ok () := ⟨h.validate, h.symm.validate⟩
  simp only [hvalid]
  split
  · exact ⟨rfl, h.applyLenient current⟩
  · exact ⟨rfl, .refl _⟩

end Message.Permuted

/-! ## Checked messages -/

/-- Permuted messages of which every reader finds the same. -/
structure Message.Alike (m m' : Message) : Prop where
  permuted : m.Permuted m'
  status : extractStatus m = extractStatus m'
  statusItem : RouterSessionFsm.statusItem m = RouterSessionFsm.statusItem m'
  mac : extractDestinationMac m = extractDestinationMac m'
  heartbeatInterval : extractHeartbeatInterval m = extractHeartbeatInterval m'
  extensions : extractExtensionsSupported m = extractExtensionsSupported m'
  metrics : ∀ base, mergeLinkMetrics m base = mergeLinkMetrics m' base
  requested : extractLinkCharacteristics m = extractLinkCharacteristics m'

theorem Message.Permuted.alike {m m' : Message} {router initializing : Bool}
    {localExtensions : List ExtensionId} (h : m.Permuted m')
    (hvalid : Dlep.validateMessage m router initializing localExtensions = .ok ()) :
    m.Alike m' where
  permuted := h
  status := first_perm (t := .status) h (plain_of_validateMessage hvalid) fun i v hv => by
    cases i <;> cases hv
    rfl
  statusItem := first_perm (t := .status) h (plain_of_validateMessage hvalid) fun i v hv => by
    cases i <;> cases hv
    rfl
  mac := first_perm (t := .macAddress) h (plain_of_validateMessage hvalid) fun i v hv => by
    cases i <;> cases hv
    rfl
  heartbeatInterval :=
    first_perm (t := .heartbeatInterval) h (plain_of_validateMessage hvalid) fun i v hv => by
      cases i <;> cases hv
      rfl
  extensions :=
    first_perm (t := .extensionsSupported) h (plain_of_validateMessage hvalid) fun i v hv => by
      cases i <;> cases hv
      rfl
  metrics base := foldl_perm h (plain_of_validateMessage hvalid)
    (fun i z hi => mergeItem_of_not_metric hi z) mergeItem_comm (base, false)
  requested := foldl_perm h (plain_of_validateMessage hvalid)
    (fun i z hi => requestItem_of_not_metric hi z) requestItem_comm .default

section Checks

variable {m m' : Message}

theorem Message.Permuted.metricTypes_perm (h : m.Permuted m') :
    (metricTypes m).Perm (metricTypes m') := (h.items.map _).filter _

theorem Message.Alike.validateTransaction (h : m.Alike m') (tx : TransactionTracker)
    (known : Bool) : validateTransaction m tx known = Dlep.validateTransaction m' tx known := by
  unfold Dlep.validateTransaction
  rw [h.mac, h.permuted.messageType]

theorem RouterSessionFsm.checkMessage_perm (s : RouterSessionFsm) (h : m.Permuted m') :
    s.checkMessage m = s.checkMessage m' := by
  unfold RouterSessionFsm.checkMessage
  dsimp only
  rw [← h.validateMessage]
  cases hvalid : validateMessage m true (decide (s.state = .sessionInitPending))
      s.config.advertisedExtensions with
  | error e => rfl
  | ok u =>
    have halike := h.alike hvalid
    rw [← h.validateMacFormat, h.messageType, (h.applyStrict s.peerAddresses).1,
      any_perm h.metricTypes_perm, List.toFinset_eq_of_perm _ _ h.metricTypes_perm, halike.mac,
      halike.validateTransaction]

theorem ModemSessionFsm.checkMessage_perm (s : ModemSessionFsm) (h : m.Permuted m') :
    s.checkMessage m = s.checkMessage m' := by
  unfold ModemSessionFsm.checkMessage
  dsimp only
  rw [← h.validateMessage]
  cases hvalid : validateMessage m false (decide (s.state = .awaitingSessionInit))
      s.config.advertisedExtensions with
  | error e => rfl
  | ok u =>
    have halike := h.alike hvalid
    rw [← h.validateMacFormat, h.messageType, (h.applyStrict s.peerAddresses).1, halike.mac,
      halike.validateTransaction]

theorem RouterSessionFsm.refusal_perm (s : RouterSessionFsm) (h : m.Permuted m')
    (hone : m.dataItems.countP DataItem.isFatal ≤ 1) : s.refusal m = s.refusal m' := by
  unfold RouterSessionFsm.refusal refuse
  rw [h.fatalStatus hone, s.checkMessage_perm h]

theorem ModemSessionFsm.refusal_perm (s : ModemSessionFsm) (h : m.Permuted m')
    (hone : m.dataItems.countP DataItem.isFatal ≤ 1) : s.refusal m = s.refusal m' := by
  unfold ModemSessionFsm.refusal refuse
  rw [h.fatalStatus hone, s.checkMessage_perm h]

end Checks

end Dlep
