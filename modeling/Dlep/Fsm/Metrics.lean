-- SUMMARY: Metric updates as overlays, and the shape that all metrics of a session share.
import Dlep.Fsm.Accepted
import Dlep.Fsm.Content

/-!
# Metrics of a session

A metric update replaces the mandatory fields and the optional fields it supplies.
Every metric set of a session has the optional fields declared at initialization,
so a complete report replaces whatever it is merged into.
-/

namespace Dlep

variable {i : DataItem} {msg : Message}

namespace LinkMetrics

/-- The fields of `m`, and of `base` where `m` supplies none. -/
def overlay (base m : LinkMetrics) : LinkMetrics where
  maxDataRateRxBps := m.maxDataRateRxBps
  maxDataRateTxBps := m.maxDataRateTxBps
  currentDataRateRxBps := m.currentDataRateRxBps
  currentDataRateTxBps := m.currentDataRateTxBps
  latency := m.latency
  resources := m.resources.or base.resources
  rlqRx := m.rlqRx.or base.rlqRx
  rlqTx := m.rlqTx.or base.rlqTx
  mtu := m.mtu.or base.mtu

/-- The same optional fields are present. -/
structure SameShape (a b : LinkMetrics) : Prop where
  resources : a.resources.isSome = b.resources.isSome
  rlqRx : a.rlqRx.isSome = b.rlqRx.isSome
  rlqTx : a.rlqTx.isSome = b.rlqTx.isSome
  mtu : a.mtu.isSome = b.mtu.isSome

theorem SameShape.refl (a : LinkMetrics) : SameShape a a := ⟨rfl, rfl, rfl, rfl⟩

theorem SameShape.symm {a b : LinkMetrics} (h : SameShape a b) : SameShape b a :=
  ⟨h.resources.symm, h.rlqRx.symm, h.rlqTx.symm, h.mtu.symm⟩

theorem SameShape.trans {a b c : LinkMetrics} (h : SameShape a b) (h' : SameShape b c) :
    SameShape a c :=
  ⟨h.resources.trans h'.resources, h.rlqRx.trans h'.rlqRx, h.rlqTx.trans h'.rlqTx,
    h.mtu.trans h'.mtu⟩

private theorem or_of_isSome_le {α : Type} {a b : Option α} (h : b.isSome = true → a.isSome = true) :
    a.or b = a := by
  cases a with
  | some => rfl
  | none =>
    cases b with
    | none => rfl
    | some => simp at h

private theorem isSome_or_of_isSome_le {α β : Type} {a b : Option α} {c : Option β}
    (h : (a.isNone || c.isSome) = true) (hb : b.isSome = c.isSome) :
    (a.or b).isSome = c.isSome := by
  cases a with
  | none => simpa using hb
  | some => simpa using h.symm

/-- A report with all fields of its base replaces it. -/
theorem overlay_of_sameShape {base m : LinkMetrics} (h : SameShape base m) :
    base.overlay m = m := by
  have h₁ := or_of_isSome_le (a := m.resources) (b := base.resources) (by simp [h.resources])
  have h₂ := or_of_isSome_le (a := m.rlqRx) (b := base.rlqRx) (by simp [h.rlqRx])
  have h₃ := or_of_isSome_le (a := m.rlqTx) (b := base.rlqTx) (by simp [h.rlqTx])
  have h₄ := or_of_isSome_le (a := m.mtu) (b := base.mtu) (by simp [h.mtu])
  simp only [overlay, h₁, h₂, h₃, h₄]

theorem SameShape.overlay {a b : LinkMetrics} (h : SameShape a b) (m : LinkMetrics) :
    SameShape (a.overlay m) (b.overlay m) := by
  constructor <;>
    simp only [LinkMetrics.overlay, Option.isSome_or, h.resources, h.rlqRx, h.rlqTx, h.mtu]

/-- The first report of a session replaces the defaults. -/
theorem overlay_default (m : LinkMetrics) : LinkMetrics.default.overlay m = m := by
  simp [overlay, default]

/-- A supported update keeps the shape. -/
theorem sameShape_overlay {base m initial : LinkMetrics} (h : SameShape base initial)
    (hm : m.supportedBy initial = true) : SameShape (base.overlay m) initial := by
  simp only [supportedBy, Bool.and_eq_true] at hm
  obtain ⟨⟨⟨h₁, h₂⟩, h₃⟩, h₄⟩ := hm
  exact ⟨isSome_or_of_isSome_le h₁ h.resources, isSome_or_of_isSome_le h₂ h.rlqRx,
    isSome_or_of_isSome_le h₃ h.rlqTx, isSome_or_of_isSome_le h₄ h.mtu⟩

end LinkMetrics

/-! ## Fields -/

/-- The metric fields, the mandatory ones first. -/
inductive MetricField where
  | maxDataRateRx
  | maxDataRateTx
  | currentDataRateRx
  | currentDataRateTx
  | latency
  | resources
  | rlqRx
  | rlqTx
  | mtu
  deriving DecidableEq, Repr

namespace MetricField

def Value : MetricField → Type
  | .maxDataRateRx | .maxDataRateTx | .currentDataRateRx | .currentDataRateTx => UInt64
  | .latency => Duration
  | .resources | .rlqRx | .rlqTx => UInt8
  | .mtu => UInt16

/-- The value stored for a field; only an optional one may be missing. -/
def get : (f : MetricField) → LinkMetrics → Option f.Value
  | .maxDataRateRx, m => some m.maxDataRateRxBps
  | .maxDataRateTx, m => some m.maxDataRateTxBps
  | .currentDataRateRx, m => some m.currentDataRateRxBps
  | .currentDataRateTx, m => some m.currentDataRateTxBps
  | .latency, m => some m.latency
  | .resources, m => m.resources
  | .rlqRx, m => m.rlqRx
  | .rlqTx, m => m.rlqTx
  | .mtu, m => m.mtu

/-- The value an item carries for a field. -/
def item : (f : MetricField) → DataItem → Option f.Value
  | .maxDataRateRx, .maxDataRateReceive v => some v
  | .maxDataRateTx, .maxDataRateTransmit v => some v
  | .currentDataRateRx, .currentDataRateReceive v => some v
  | .currentDataRateTx, .currentDataRateTransmit v => some v
  | .latency, .latency v => some v
  | .resources, .resources v => some v
  | .rlqRx, .relativeLinkQualityReceive v => some v
  | .rlqTx, .relativeLinkQualityTransmit v => some v
  | .mtu, .mtu v => some v
  | _, _ => none

/-- The value a message carries for a field; a repeated item would overrule. -/
def carried (f : MetricField) (msg : Message) : Option f.Value :=
  msg.dataItems.reverse.findSome? f.item

def type : MetricField → DataItemType
  | .maxDataRateRx => .maximumDataRateReceive
  | .maxDataRateTx => .maximumDataRateTransmit
  | .currentDataRateRx => .currentDataRateReceive
  | .currentDataRateTx => .currentDataRateTransmit
  | .latency => .latency
  | .resources => .resources
  | .rlqRx => .relativeLinkQualityReceive
  | .rlqTx => .relativeLinkQualityTransmit
  | .mtu => .mtu

end MetricField

/-! ## Merging messages -/

theorem mergeItem_of_not_metric (h : i.isMetricItem = false) (acc : LinkMetrics × Bool) :
    mergeItem acc i = acc := by
  cases i <;> first
    | rfl
    | cases h

theorem mergeItem_flag (h : i.isMetricItem = true) (acc : LinkMetrics × Bool) :
    (mergeItem acc i).2 = true := by
  cases i <;> first
    | rfl
    | cases h

theorem foldl_mergeItem_of_not_metric {items : List DataItem}
    (h : ∀ i ∈ items, i.isMetricItem = false) (acc : LinkMetrics × Bool) :
    items.foldl mergeItem acc = acc := by
  induction items generalizing acc with
  | nil => rfl
  | cons i items ih =>
    rw [List.foldl_cons, mergeItem_of_not_metric (h i List.mem_cons_self)]
    exact ih (fun j hj => h j (List.mem_cons_of_mem _ hj)) acc

/-- The flag never goes back. -/
theorem foldl_mergeItem_flag (items : List DataItem) (acc : LinkMetrics × Bool)
    (h : acc.2 = true) : (items.foldl mergeItem acc).2 = true := by
  induction items generalizing acc with
  | nil => exact h
  | cons i items ih =>
    refine ih _ ?_
    cases hi : i.isMetricItem with
    | true => exact mergeItem_flag hi acc
    | false => rwa [mergeItem_of_not_metric hi]

/-- A merge that reports no change has met no metric. -/
theorem mergeLinkMetrics_of_flag {m : LinkMetrics} (h : (mergeLinkMetrics msg m).2 = false) :
    ∀ i ∈ msg.dataItems, i.isMetricItem = false := by
  intro i hi
  by_contra hne
  have hmetric : i.isMetricItem = true := by simpa using hne
  obtain ⟨before, after, heq⟩ := List.append_of_mem hi
  have hflag : (mergeLinkMetrics msg m).2 = true := by
    rw [mergeLinkMetrics, heq, List.foldl_append, List.foldl_cons]
    exact foldl_mergeItem_flag _ _ (mergeItem_flag hmetric _)
  rw [h] at hflag
  cases hflag

theorem mergeLinkMetrics_of_not_metric (h : ∀ i ∈ msg.dataItems, i.isMetricItem = false)
    (m : LinkMetrics) : mergeLinkMetrics msg m = (m, false) := foldl_mergeItem_of_not_metric h _

theorem foldl_mergeItem_metricItems (m : LinkMetrics) (acc : LinkMetrics × Bool) :
    (metricItems m).foldl mergeItem acc = (acc.1.overlay m, true) := by
  obtain ⟨_, _, _, _, _, res, rx, tx, mtu⟩ := m
  cases res <;> cases rx <;> cases tx <;> cases mtu <;> rfl

theorem get_mergeItem (f : MetricField) (acc : LinkMetrics × Bool) (i : DataItem) :
    f.get (mergeItem acc i).1 = (f.item i).or (f.get acc.1) := by
  cases f <;> cases i <;> rfl

/-- Merging writes the fields that the message carries, and no other. -/
theorem get_mergeLinkMetrics (f : MetricField) (msg : Message) (m : LinkMetrics) :
    f.get (mergeLinkMetrics msg m).1 = (f.carried msg).or (f.get m) := by
  have hfold : ∀ (items : List DataItem) (acc : LinkMetrics × Bool),
      f.get (items.foldl mergeItem acc).1 = (items.reverse.findSome? f.item).or (f.get acc.1) := by
    intro items
    induction items with
    | nil => exact fun acc => rfl
    | cons i items ih =>
      intro acc
      rw [List.foldl_cons, ih, get_mergeItem, List.reverse_cons, List.findSome?_append,
        Option.or_assoc]
      simp
  exact hfold msg.dataItems (m, false)

theorem MetricField.typeId_of_item {f : MetricField} {v : f.Value} (h : f.item i = some v) :
    i.typeId = f.type ∧ ∀ raw, i ≠ .unknown raw := by
  cases f <;> cases i <;> cases h <;> exact ⟨rfl, fun raw hraw => by cases hraw⟩

theorem MetricField.item_of_typeId {f : MetricField} (h : i.typeId = f.type)
    (hraw : ∀ raw, i ≠ .unknown raw) : ∃ v, f.item i = some v := by
  cases f <;> cases i <;> first
    | exact ⟨_, rfl⟩
    | exact absurd rfl (hraw _)
    | cases h

/-- A message carries a field when it has a typed item of its type. -/
theorem MetricField.carried_isSome_iff {f : MetricField} :
    (f.carried msg).isSome = true ↔ msg.Carries f.type := by
  rw [MetricField.carried, List.findSome?_isSome_iff]
  constructor
  · rintro ⟨i, hi, hsome⟩
    obtain ⟨v, hv⟩ := Option.isSome_iff_exists.mp hsome
    obtain ⟨ht, hraw⟩ := typeId_of_item hv
    exact ⟨i, List.mem_reverse.mp hi, ht, hraw⟩
  · rintro ⟨i, hi, ht, hraw⟩
    obtain ⟨v, hv⟩ := item_of_typeId ht hraw
    exact ⟨i, List.mem_reverse.mpr hi, by rw [hv]; rfl⟩

/-- Merging a built message overlays the metrics it carries. -/
theorem mergeLinkMetrics_pushMetricItems (h : ∀ i ∈ msg.dataItems, i.isMetricItem = false)
    (m base : LinkMetrics) :
    mergeLinkMetrics (pushMetricItems msg m) base = (base.overlay m, true) := by
  rw [mergeLinkMetrics, pushMetricItems, List.foldl_append, foldl_mergeItem_of_not_metric h,
    foldl_mergeItem_metricItems]

theorem effectiveMetrics_eq (base m : LinkMetrics) :
    ModemSessionFsm.effectiveMetrics base m = base.overlay m := by
  rw [ModemSessionFsm.effectiveMetrics, buildSessionUpdate,
    mergeLinkMetrics_pushMetricItems (by simp [Message.new])]

/-! ## Metrics of built messages -/

theorem not_metric_of_mem_upAddressItems {d : DestinationAddrs} (h : i ∈ upAddressItems d) :
    i.isMetricItem = false := by
  have ha := isAddressItem_of_mem_upAddressItems h
  cases i <;> first
    | rfl
    | cases ha

theorem not_metric_of_mem_sideItems {add : Bool} {d : DestinationAddrs}
    (h : i ∈ AddressChanges.sideItems add d) : i.isMetricItem = false := by
  have ha := isAddressItem_of_mem_sideItems h
  cases i <;> first
    | rfl
    | cases ha

/-- Address items carry no metrics. -/
theorem mergeLinkMetrics_appendTo (c : AddressChanges) (msg : Message) (base : LinkMetrics) :
    mergeLinkMetrics (c.appendTo msg) base = mergeLinkMetrics msg base := by
  rw [mergeLinkMetrics, AddressChanges.appendTo, List.foldl_append, List.foldl_append,
    foldl_mergeItem_of_not_metric fun _ => not_metric_of_mem_sideItems,
    foldl_mergeItem_of_not_metric fun _ => not_metric_of_mem_sideItems, mergeLinkMetrics]

theorem mergeLinkMetrics_buildDestinationUp (mac : MacAddress) (m base : LinkMetrics)
    (addrs : DestinationAddrs) :
    mergeLinkMetrics (buildDestinationUp mac m addrs) base = (base.overlay m, true) := by
  refine mergeLinkMetrics_pushMetricItems (fun i hi => ?_) m base
  rcases List.mem_append.mp hi with hi | hi
  · rw [List.mem_singleton.mp hi]
    rfl
  · exact not_metric_of_mem_upAddressItems hi

theorem mergeLinkMetrics_announceSuccess (mac : MacAddress) (d : ModemDestination)
    (base : LinkMetrics) :
    mergeLinkMetrics (ModemSessionFsm.announceSuccess mac d) base =
      (base.overlay d.metrics, true) := by
  have hup := mergeLinkMetrics_buildDestinationUp mac d.metrics base d.addrs
  rw [mergeLinkMetrics] at hup
  rw [mergeLinkMetrics, ModemSessionFsm.announceSuccess, List.foldl_append, hup]
  rfl

theorem mergeLinkMetrics_buildDestinationUpdate (mac : MacAddress) (m base : LinkMetrics) :
    mergeLinkMetrics (buildDestinationUpdate mac m) base = (base.overlay m, true) :=
  mergeLinkMetrics_pushMetricItems (by simp [DataItem.isMetricItem]) m base

theorem mergeLinkMetrics_buildSessionUpdate (m base : LinkMetrics) :
    mergeLinkMetrics (buildSessionUpdate m) base = (base.overlay m, true) :=
  mergeLinkMetrics_pushMetricItems (by simp) m base

theorem mergeLinkMetrics_buildLinkCharacteristicsReply (mac : MacAddress) (status : StatusCode)
    (text : String) (m base : LinkMetrics) :
    mergeLinkMetrics (buildLinkCharacteristicsReply mac status text m) base =
      (base.overlay m, true) :=
  foldl_mergeItem_metricItems m (base, false)

theorem mergeLinkMetrics_buildLinkCharacteristicsResponse (mac : MacAddress) (status : StatusCode)
    (m base : LinkMetrics) :
    mergeLinkMetrics (buildLinkCharacteristicsResponse mac status m) base =
      (base.overlay m, true) :=
  foldl_mergeItem_metricItems m (base, false)

theorem mergeLinkMetrics_buildSessionInitializationResponse (config : SessionConfig)
    (base : LinkMetrics) :
    mergeLinkMetrics (buildSessionInitializationResponse config) base =
      (base.overlay config.initialMetrics, true) := by
  refine mergeLinkMetrics_pushMetricItems (fun i hi => ?_) _ base
  unfold pushExtensionsSupported at hi
  split at hi <;> simp at hi <;> grind [DataItem.isMetricItem]

end Dlep
