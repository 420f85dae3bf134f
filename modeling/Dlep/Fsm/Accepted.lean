-- SUMMARY: What the message checks establish: the items a valid message carries and the transactions it fits.
import Dlep.Fsm.Validation

/-!
# What validation establishes

The state machines read a message only after its checks passed. This file turns
each check that returned `ok` into the facts the handlers rely on: a required item
is present, so its extractor succeeds; a response answers an open request; a
request finds its scope idle.
-/

namespace Dlep

variable {msg : Message} {router initializing : Bool} {localExtensions : List ExtensionId}
  {tx : TransactionTracker}

open MessageType

/-! ## Items -/

/-- A typed item of type `t` is present. -/
def Message.Carries (msg : Message) (t : DataItemType) : Prop :=
  ∃ item ∈ msg.dataItems, item.typeId = t ∧ ∀ raw, item ≠ .unknown raw

/-- The types the item loop collects are those of typed items it passed over. -/
theorem checkItems_types {items : List DataItem} {types types' : List DataItemType}
    {addresses : List (List UInt8)}
    (h : checkItems msg router initializing localExtensions items types addresses = .ok types') :
    ∀ t ∈ types', t ∈ types ∨ ∃ item ∈ items, item.typeId = t ∧ ∀ raw, item ≠ .unknown raw := by
  induction items generalizing types addresses with
  | nil =>
    cases h
    exact fun t ht => .inl ht
  | cons item items ih =>
    intro t ht
    -- An `unknown` item is skipped; every other one may add its own type.
    by_cases hu : ∃ raw, item = .unknown raw
    · obtain ⟨raw, rfl⟩ := hu
      simp only [checkItems] at h
      split at h
      · rcases ih h t ht with ht | ⟨i, hi, ht⟩
        · exact .inl ht
        · exact .inr ⟨i, List.mem_cons_of_mem _ hi, ht⟩
      · cases h
    · have hne : ∀ raw, item ≠ .unknown raw := fun raw hr => hu ⟨raw, hr⟩
      rw [checkItems.eq_3 _ _ _ _ _ _ _ _ hne] at h
      repeat' split at h
      all_goals first
        | cases h
        | skip
      · rcases ih h t ht with ht | ⟨i, hi, ht⟩
        · exact .inl ht
        · exact .inr ⟨i, List.mem_cons_of_mem _ hi, ht⟩
      · rcases ih h t ht with ht | ⟨i, hi, ht⟩
        · rcases List.mem_cons.mp ht with rfl | ht
          · exact .inr ⟨item, List.mem_cons_self, rfl, hne⟩
          · exact .inl ht
        · exact .inr ⟨i, List.mem_cons_of_mem _ hi, ht⟩

/-- Every typed item the loop passed over can be put on the wire. -/
theorem checkItems_encodes {items : List DataItem} {types types' : List DataItemType}
    {addresses : List (List UInt8)}
    (h : checkItems msg router initializing localExtensions items types addresses = .ok types') :
    ∀ item ∈ items, (∀ raw, item ≠ .unknown raw) → (item.encode []).1 = .ok () := by
  induction items generalizing types addresses with
  | nil => exact fun item hitem => absurd hitem List.not_mem_nil
  | cons first items ih =>
    intro item hitem hne
    rcases List.mem_cons.mp hitem with rfl | hrest
    · rw [checkItems.eq_3 _ _ _ _ _ _ _ _ hne] at h
      split at h
      · cases h
      · split at h
        · cases h
        · rename_i hencode
          rw [hencode]
    · by_cases hu : ∃ raw, first = .unknown raw
      · obtain ⟨raw, rfl⟩ := hu
        simp only [checkItems] at h
        split at h
        · exact ih h item hrest hne
        · cases h
      · have hfirst : ∀ raw, first ≠ .unknown raw := fun raw hr => hu ⟨raw, hr⟩
        rw [checkItems.eq_3 _ _ _ _ _ _ _ _ hfirst] at h
        repeat' split at h
        all_goals first
          | cases h
          | exact ih h item hrest hne

/-- A message that passed the grammar check. -/
structure Grammatical (msg : Message) (router initializing : Bool) : Prop where
  expected : expectedType msg.messageType router initializing = true
  required : ∀ t ∈ requiredItems msg.messageType, msg.Carries t
  encodes : ∀ item ∈ msg.dataItems, (∀ raw, item ≠ .unknown raw) → (item.encode []).1 = .ok ()

theorem validateMessage_ok (h : validateMessage msg router initializing localExtensions = .ok ()) :
    Grammatical msg router initializing := by
  simp only [validateMessage] at h
  split at h
  · cases h
  · split at h
    · cases h
    · rename_i hexp
      split at h
      · cases h
      · rename_i types hitems
        split at h
        · cases h
        · rename_i hreq
          refine ⟨by simpa using hexp, fun t ht => ?_, checkItems_encodes hitems⟩
          have hmem : t ∈ types := by
            simp only [List.any_eq_true, not_exists, not_and] at hreq
            simpa using hreq t ht
          rcases checkItems_types hitems t hmem with hnil | hitem
          · cases hnil
          · exact hitem

theorem extractDestinationMac_of_carries (h : msg.Carries .macAddress) :
    ∃ mac, extractDestinationMac msg = some mac := by
  obtain ⟨item, hmem, ht, hraw⟩ := h
  cases item with
  | macAddress mac =>
    refine Option.isSome_iff_exists.mp ?_
    exact List.findSome?_isSome_iff.mpr ⟨_, hmem, rfl⟩
  | unknown raw => exact absurd rfl (hraw raw)
  | _ => cases ht

theorem extractStatus_of_carries (h : msg.Carries .status) :
    ∃ code, extractStatus msg = some code := by
  obtain ⟨item, hmem, ht, hraw⟩ := h
  cases item with
  | status code text =>
    refine Option.isSome_iff_exists.mp ?_
    exact List.findSome?_isSome_iff.mpr ⟨_, hmem, rfl⟩
  | unknown raw => exact absurd rfl (hraw raw)
  | _ => cases ht

/-- An accepted heartbeat interval is one the codec can write. -/
theorem Grammatical.heartbeatInterval (h : Grammatical msg router initializing)
    (ht : .heartbeatInterval ∈ requiredItems msg.messageType) :
    ∃ d, extractHeartbeatInterval msg = some d ∧ 1000 ≤ d.asMillis ∧ d.asMillis ≤ u32Max := by
  obtain ⟨item, hmem, htype, hraw⟩ := h.required _ ht
  obtain ⟨d, hd⟩ : ∃ d, extractHeartbeatInterval msg = some d := by
    cases item with
    | heartbeatInterval d =>
      exact Option.isSome_iff_exists.mp (List.findSome?_isSome_iff.mpr ⟨_, hmem, rfl⟩)
    | unknown raw => exact absurd rfl (hraw raw)
    | _ => cases htype
  refine ⟨d, hd, ?_⟩
  obtain ⟨first, hfirst, heq⟩ := List.exists_of_findSome?_eq_some hd
  cases first with
  | heartbeatInterval d' =>
    cases heq
    have hok := h.encodes _ hfirst fun raw hr => by cases hr
    by_contra hrange
    have hnot : ¬ (DataItem.heartbeatInterval d).Encodable := fun henc => hrange henc.1
    obtain ⟨e, he⟩ := DataItem.encode_of_not_encodable hnot []
    rw [he] at hok
    cases hok
  | _ => cases heq

/-- A fatal status is a status item. -/
theorem fatalStatus_status {item : DataItem} (h : fatalStatus msg = some item) :
    ∃ code text, item = .status code text := by
  unfold fatalStatus at h
  split at h
  · cases h
  · have hp := List.find?_some h
    cases item <;> simp at hp
    exact ⟨_, _, rfl⟩

section

variable {receiving : Prop} [Decidable receiving] {check : Except StatusCode Unit} {msg : Message}
  {item : DataItem}

theorem refuse_eq_none (hreceiving : receiving) :
    refuse receiving check msg = none ↔ fatalStatus msg = none ∧ check = .ok () := by
  unfold refuse
  rw [if_pos hreceiving]
  cases fatalStatus msg with
  | some item => exact ⟨nofun, nofun⟩
  | none =>
    cases check with
    | error code => exact ⟨nofun, nofun⟩
    | ok => exact ⟨fun _ => ⟨rfl, rfl⟩, fun _ => rfl⟩

theorem refuse_eq_some (h : refuse receiving check msg = some item) :
    receiving ∧ (fatalStatus msg = some item ∨
      fatalStatus msg = none ∧ ∃ code, check = .error code ∧ item = .status code "") := by
  unfold refuse at h
  split at h
  · rename_i hreceiving
    refine ⟨hreceiving, ?_⟩
    cases hf : fatalStatus msg with
    | some item' =>
      rw [hf] at h
      exact .inl h
    | none =>
      rw [hf] at h
      cases check with
      | error code => exact .inr ⟨rfl, code, rfl, (Option.some.inj h).symm⟩
      | ok => cases h
  · cases h

/-- A refusal always is a status item. -/
theorem refuse_status (h : refuse receiving check msg = some item) :
    ∃ code text, item = .status code text := by
  rcases (refuse_eq_some h).2 with hf | ⟨-, code, -, rfl⟩
  · exact fatalStatus_status hf
  · exact ⟨code, "", rfl⟩

/-- A refusal of a message without a fatal status explains nothing. -/
theorem refuse_text {code : StatusCode} {text : String}
    (h : refuse receiving check msg = some (.status code text)) (hf : fatalStatus msg = none) :
    text = "" := by
  rcases (refuse_eq_some h).2 with hf' | ⟨-, code, -, heq⟩
  · cases hf.symm.trans hf'
  · cases heq
    rfl

end

/-! ## Transactions -/

/-- The types that ask for an answer about a destination. -/
def destinationRequests : List MessageType :=
  [destinationUp, destinationAnnounce, destinationDown, linkCharacteristicsRequest]

/-- A message that fits the open transactions, for a receiver that knows the
destinations of `known`. -/
structure Transacts (msg : Message) (tx : TransactionTracker) (known : MacAddress → Bool) :
    Prop where
  sessionIdle : msg.messageType = sessionUpdate → tx.sessionPending = none
  sessionAnswer : msg.messageType = sessionUpdateResponse →
    tx.sessionPending.map PendingRequest.kind = some .sessionUpdate
  answer : ∀ mac kind, extractDestinationMac msg = some mac →
    responseKind msg.messageType = some kind → tx.pending mac = some kind
  idle : ∀ mac, extractDestinationMac msg = some mac → msg.messageType ∈ destinationRequests →
    tx.pending mac = none
  up : ∀ mac, extractDestinationMac msg = some mac →
    msg.messageType ∈ [destinationUpdate, destinationDown, linkCharacteristicsRequest] →
    known mac = true
  down : ∀ mac, extractDestinationMac msg = some mac →
    msg.messageType ∈ [destinationUp, destinationAnnounce] → known mac = false

/-- No destination request is a response. -/
theorem responseKind_of_request {mt : MessageType}
    (h : mt ∈ destinationRequests ∨ mt = destinationUpdate) : responseKind mt = none := by
  simp only [destinationRequests, List.mem_cons, List.not_mem_nil, or_false] at h
  rcases h with (rfl | rfl | rfl | rfl) | rfl <;> rfl

theorem validateDestinationTransaction_answer {mt : MessageType} {mac : MacAddress} {up : Bool}
    {kind : RequestKind} (h : validateDestinationTransaction mt mac tx up = .ok ())
    (hkind : responseKind mt = some kind) : tx.pending mac = some kind := by
  simp only [validateDestinationTransaction, hkind] at h
  split at h
  · assumption
  · cases h

theorem validateDestinationTransaction_request {mt : MessageType} {mac : MacAddress} {up : Bool}
    (h : validateDestinationTransaction mt mac tx up = .ok ()) (hkind : responseKind mt = none) :
    (mt ∈ destinationRequests → tx.pending mac = none) ∧
      (mt ∈ [destinationUpdate, destinationDown, linkCharacteristicsRequest] → up = true) ∧
      (mt ∈ [destinationUp, destinationAnnounce] → up = false) := by
  simp only [validateDestinationTransaction, hkind, Bool.and_eq_true, decide_eq_true_eq] at h
  split at h
  · cases h
  · rename_i hbusy
    split at h
    · cases h
    · rename_i hup
      split at h
      · cases h
      · rename_i hdown
        refine ⟨fun ht => ?_, fun ht => ?_, fun ht => ?_⟩
        · rw [tx.pending_eq_none_iff]
          exact Bool.eq_false_iff.mpr fun hb => hbusy ⟨ht, hb⟩
        · exact by_contra fun hu => hup ⟨ht, by simpa using hu⟩
        · exact Bool.eq_false_iff.mpr fun hu => hdown ⟨ht, hu⟩

theorem validateTransaction_ok {known : MacAddress → Bool}
    (h : validateTransaction msg tx ((extractDestinationMac msg).any known) = .ok ()) :
    Transacts msg tx known := by
  simp only [validateTransaction, Bool.and_eq_true, decide_eq_true_eq] at h
  split at h
  · cases h
  · rename_i hbusy
    split at h
    · cases h
    · rename_i hanswer
      have hdest : ∀ mac, extractDestinationMac msg = some mac →
          validateDestinationTransaction msg.messageType mac tx (known mac) = .ok () := by
        intro mac hmac
        simpa [hmac] using h
      refine ⟨fun ht => ?_, fun ht => ?_, fun mac kind hmac hkind => ?_, fun mac hmac ht => ?_,
        fun mac hmac ht => ?_, fun mac hmac ht => ?_⟩
      · exact tx.sessionBusy_eq_false_iff.mp (Bool.eq_false_iff.mpr fun hb => hbusy ⟨ht, hb⟩)
      · exact by_contra fun hne => hanswer ⟨ht, hne⟩
      · exact validateDestinationTransaction_answer (hdest mac hmac) hkind
      · exact (validateDestinationTransaction_request (hdest mac hmac)
          (responseKind_of_request (.inl ht))).1 ht
      · refine (validateDestinationTransaction_request (hdest mac hmac)
          (responseKind_of_request ?_)).2.1 ht
        simp only [List.mem_cons, List.not_mem_nil, or_false, destinationRequests] at ht ⊢
        tauto
      · refine (validateDestinationTransaction_request (hdest mac hmac)
          (responseKind_of_request (.inl ?_))).2.2 ht
        simp only [List.mem_cons, List.not_mem_nil, or_false, destinationRequests] at ht ⊢
        tauto

end Dlep
