-- SUMMARY: The difference of two address sets, sent as address items, is read back and rebuilds the second set.
import Dlep.Core.Codec.Canonical
import Dlep.Fsm.Content

/-!
# Address deltas on the wire

`AddressChanges::between` gives what leads from one address set to another. A sender
appends it to a message, the receiver decodes the message and applies what it reads.

What a receiver reads is decided by the octets alone: a raw item under the type id of an
address item is an address item to it, and one that its type does not allow is an error.
-/

namespace Dlep

/-- The message encodes, and a receiver finds no address items in it. -/
def Message.ReadsPlain (base : Message) : Prop :=
  ∃ bytes m, base.encode = .ok bytes ∧ Message.decode bytes = .ok m ∧
    ∀ i ∈ m.dataItems, i.isAddressItem = false

/-- The items that the receiver of a message finds before those that were appended to it. -/
theorem Message.decode_extended {base : Message} {items : List DataItem} {bytes : List UInt8}
    {m : Message} (hbase : ∃ raw, base.encode = .ok raw ∧ Message.decode raw = .ok m)
    (htyped : ∀ i ∈ items, i.Typed)
    (h : (Message.mk base.messageType (base.dataItems ++ items)).encode = .ok bytes) :
    Message.decode bytes =
      .ok ⟨base.messageType, m.dataItems ++ items.map DataItem.norm⟩ := by
  obtain ⟨raw, hraw, hdecode⟩ := hbase
  obtain ⟨-, hfitsBase, rfl⟩ := Message.encode_eq hraw
  obtain ⟨hencodable, hfits, rfl⟩ := Message.encode_eq h
  dsimp only at hencodable hfits ⊢
  -- The base message as its receiver sees it.
  rw [← length_flatMap_tlv] at hfitsBase hfits hdecode ⊢
  have hwritten := Message.decode_written base.messageType hfitsBase []
  rw [List.append_nil, hdecode] at hwritten
  have hbody : decodeItems (base.dataItems.flatMap DataItem.tlv) = .ok m.dataItems := by
    cases hitems : decodeItems (base.dataItems.flatMap DataItem.tlv) with
    | error e =>
      rw [hitems] at hwritten
      cases hwritten
    | ok found =>
      rw [hitems] at hwritten
      cases hwritten
      rfl
  have hall := Message.decode_written base.messageType hfits []
  rw [List.append_nil] at hall
  have hmore := decodeItems_encoded (fun i hi => hencodable i (List.mem_append_right _ hi)) htyped
  rw [hall, List.flatMap_append, decodeItems_append hbody, hmore]
  rfl

namespace AddressChanges

theorem typed_of_mem_sideItems {add : Bool} {d : DestinationAddrs} {i : DataItem}
    (h : i ∈ sideItems add d) : i.Typed := by
  have ha := isAddressItem_of_mem_sideItems h
  cases i with
  | unknown raw => cases ha
  | _ => trivial

/-- The items of a change are in network form already. -/
theorem norm_of_mem_sideItems {add : Bool} {d : DestinationAddrs} {i : DataItem}
    (h : i ∈ sideItems add d) : i.norm = i := by
  simp only [sideItems, List.mem_append, List.mem_map] at h
  rcases h with ((⟨a, -, rfl⟩ | ⟨a, -, rfl⟩) | ⟨n, -, rfl⟩) | ⟨n, -, rfl⟩ <;>
    simp [DataItem.norm]

/-- What `append_to` puts behind a message, its receiver reads back. -/
theorem fromMessage_decode_appendTo (c : AddressChanges) {base : Message} {bytes : List UInt8}
    (hbase : base.ReadsPlain) (h : (c.appendTo base).encode = .ok bytes) :
    ∃ m, Message.decode bytes = .ok m ∧ fromMessage m = c.canonical := by
  obtain ⟨raw, found, hraw, hdecode, hplain⟩ := hbase
  have htyped : ∀ i ∈ sideItems false c.removed ++ sideItems true c.added, i.Typed :=
    List.forall_mem_append.mpr ⟨fun _ => typed_of_mem_sideItems, fun _ => typed_of_mem_sideItems⟩
  have hnorm : (sideItems false c.removed ++ sideItems true c.added).map DataItem.norm =
      sideItems false c.removed ++ sideItems true c.added := by
    refine (List.map_congr_left ?_).trans (List.map_id _)
    exact List.forall_mem_append.mpr ⟨fun _ => norm_of_mem_sideItems, fun _ => norm_of_mem_sideItems⟩
  have hextended : c.appendTo base = ⟨base.messageType,
      base.dataItems ++ (sideItems false c.removed ++ sideItems true c.added)⟩ := by
    unfold appendTo
    rw [List.append_assoc]
  rw [hextended] at h
  refine ⟨_, Message.decode_extended ⟨raw, hraw, hdecode⟩ htyped h, ?_⟩
  rw [hnorm, ← List.append_assoc]
  exact fromMessage_appendTo (m := ⟨base.messageType, found.dataItems⟩) c
    fun i hi => skipped_of_not_address (hplain i hi)

end AddressChanges

/-! ## Differences -/

open AddressChanges

/-- The difference of two address sets leads from one to the other, is accepted by a strict
receiver, is empty when there is none, and survives the wire. -/
theorem deltas_rebuild_addresses (a b : DestinationAddrs) (ha : a.WellFormed) (hb : b.WellFormed) :
    ((between a b).applyLenient a).SameAs b ∧
    (between a b).validate = .ok () ∧
    (between a b).applyStrict a = (.ok (), (between a b).applyLenient a) ∧
    ((between a b).isEmpty = true ↔ a.SameAs b) ∧
    ∀ base bytes, Message.ReadsPlain base → ((between a b).appendTo base).encode = .ok bytes →
      ∃ m, Message.decode bytes = .ok m ∧ fromMessage m = between a b := by
  have hself : a.SameAs a := fun _ => .rfl
  refine ⟨applyLenient_between ha hb hself, validate_between ha hb, applyStrict_between ha hb hself,
    isEmpty_between_iff a b, ?_⟩
  intro base bytes hbase hencode
  have hread := fromMessage_decode_appendTo (between a b) hbase hencode
  rwa [canonical_between ha hb] at hread

/-- A destination update of a modem, before the addresses are appended. -/
def plainUpdate : Message := ⟨.destinationUpdate, [.macAddress (.eui48 (Vector.replicate 6 1))]⟩

theorem readsPlain_plainUpdate : plainUpdate.ReadsPlain := by
  refine ⟨_, plainUpdate.norm, rfl, Message.decode_encode ?_ rfl, ?_⟩
  · exact List.forall_mem_singleton.mpr trivial
  · exact List.forall_mem_singleton.mpr rfl

theorem deltas_rebuild_addresses_moved :
    ((between ⟨[1, 2], [], [], []⟩ ⟨[2, 3], [], [], []⟩).applyLenient ⟨[1, 2], [], [], []⟩).SameAs
        ⟨[2, 3], [], [], []⟩ ∧
      ∃ bytes m, ((between ⟨[1, 2], [], [], []⟩ ⟨[2, 3], [], [], []⟩).appendTo plainUpdate).encode =
          .ok bytes ∧
        Message.decode bytes = .ok m ∧
        fromMessage m = between ⟨[1, 2], [], [], []⟩ ⟨[2, 3], [], [], []⟩ := by
  obtain ⟨hrebuilt, -, -, -, hwire⟩ := deltas_rebuild_addresses ⟨[1, 2], [], [], []⟩
    ⟨[2, 3], [], [], []⟩ (by constructor <;> decide) (by constructor <;> decide)
  obtain ⟨m, hdecode, hread⟩ := hwire plainUpdate _ readsPlain_plainUpdate rfl
  exact ⟨hrebuilt, _, m, rfl, hdecode, hread⟩

/-- A raw item under the type id of a metric, with a value too short for it: no address item, it
encodes, and its receiver rejects the message. -/
theorem deltas_rebuild_addresses_raw :
    ∃ (base : Message) (bytes : List UInt8),
      (∀ i ∈ base.dataItems, i.typeId.isAddress = false) ∧
      ((between .default .default).appendTo base).encode = .ok bytes ∧
      ¬ ∃ m, Message.decode bytes = .ok m := by
  refine ⟨⟨.sessionUpdate, [.unknown ⟨.latency, [1]⟩]⟩, [0, 3, 0, 5, 0, 16, 0, 1, 1], ?_, rfl, ?_⟩
  · exact List.forall_mem_singleton.mpr rfl
  · rintro ⟨m, hm⟩
    obtain ⟨-, -, -, hitems⟩ := Message.decode_ok hm
    have hraw : RawDataItem.decode [0, 16, 0, 1, 1] = .ok (⟨.latency, [1]⟩, []) := by decide
    have hfails : DataItem.decode ⟨.latency, [1]⟩ =
        .error (.invalidDataItemLength .latency (.exact 8) 1) := by decide
    have hbody : decodeItems [0, 16, 0, 1, 1] = .ok m.dataItems := hitems
    rw [decodeItems_of_raw hraw, hfails] at hbody
    cases hbody

end Dlep
