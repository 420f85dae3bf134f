-- SUMMARY: When an in-session state machine accepts a message: its form, what it supposes, and the open requests.
import Dlep.Fsm.Admissible
import Dlep.Fsm.Transactions

/-!
# Welcome messages

The converse of the facts an accepted message carries. A message of good form that
suits the receiver's transactions is accepted, unless it is a request in a scope where
the receiver has a request of its own open: the two have crossed.
-/

namespace Dlep

open MessageType

/-! ## Transactions -/

/-- A request in a scope where the receiver has a request open. -/
def Message.Crosses (msg : Message) (tx : TransactionTracker) : Prop :=
  ∃ scope kind own, msg.role = .request scope kind ∧ tx.kindIn scope = some own

/-- A message that suits the receiver's transactions but for crossing: a response
answers an open request, and the destination is as the message supposes. -/
structure Message.Suits (msg : Message) (tx : TransactionTracker) (known : MacAddress → Bool) :
    Prop where
  sessionAnswer : msg.messageType = sessionUpdateResponse →
    tx.kindIn .session = some .sessionUpdate
  answer : ∀ mac kind, extractDestinationMac msg = some mac →
    responseKind msg.messageType = some kind → tx.pending mac = some kind
  update : ∀ mac, extractDestinationMac msg = some mac → msg.messageType = destinationUpdate →
    known mac = true
  up : ∀ mac, extractDestinationMac msg = some mac → tx.pending mac = none →
    msg.messageType ∈ [destinationDown, linkCharacteristicsRequest] → known mac = true
  down : ∀ mac, extractDestinationMac msg = some mac → tx.pending mac = none →
    msg.messageType ∈ [destinationUp, destinationAnnounce] → known mac = false

/-- Every destination request has a kind. -/
theorem requestKind_of_mem {mt : MessageType} (h : mt ∈ destinationRequests) :
    ∃ kind, requestKind mt = some kind := by
  simp only [destinationRequests, List.mem_cons, List.not_mem_nil, or_false] at h
  rcases h with rfl | rfl | rfl | rfl <;> exact ⟨_, rfl⟩

/-- No response asks for one. -/
theorem requestKind_of_response {mt : MessageType} {kind : RequestKind}
    (h : responseKind mt = some kind) : requestKind mt = none := by
  unfold responseKind at h
  split_ifs at h with h₁ h₂ h₃ h₄
  · rw [h₁]; rfl
  · rw [h₂]; rfl
  · rw [h₃]; rfl
  · rw [h₄]; rfl

variable {msg : Message} {tx : TransactionTracker} {known : MacAddress → Bool} {mac : MacAddress}

theorem Message.Suits.validateDestination (h : msg.Suits tx known)
    (hmac : extractDestinationMac msg = some mac) :
    validateDestinationTransaction msg.messageType mac tx (known mac) = .ok () ∨
      validateDestinationTransaction msg.messageType mac tx (known mac) = .error .unexpectedMessage ∧
        msg.Crosses tx := by
  unfold validateDestinationTransaction
  cases hkind : responseKind msg.messageType with
  | some kind => exact .inl (if_pos (h.answer mac kind hmac hkind))
  | none =>
    dsimp only
    split
    · -- The request meets an open one: this is the crossing.
      rename_i hbusy
      simp only [Bool.and_eq_true, decide_eq_true_eq] at hbusy
      obtain ⟨kind, hrequest⟩ := requestKind_of_mem hbusy.1
      obtain ⟨own, hown⟩ : ∃ own, tx.pending mac = some own :=
        Option.isSome_iff_exists.mp (by
          rw [← Option.ne_none_iff_isSome, ne_eq, tx.pending_eq_none_iff, hbusy.2]
          exact Bool.noConfusion)
      exact .inr ⟨rfl, .destination mac, kind, own, Message.role_request rfl hmac hrequest, hown⟩
    · rename_i hidle
      have hfree : msg.messageType ∈ destinationRequests → tx.pending mac = none := by
        intro hmem
        rw [tx.pending_eq_none_iff]
        refine Bool.eq_false_iff.mpr fun hbusy => hidle ?_
        exact Bool.and_eq_true_iff.mpr ⟨decide_eq_true hmem, hbusy⟩
      refine .inl ?_
      split
      · rename_i hdown
        simp only [Bool.and_eq_true, decide_eq_true_eq, Bool.not_eq_true'] at hdown
        obtain ⟨hmem, hunknown⟩ := hdown
        have hknown : known mac = true := by
          rcases List.mem_cons.mp hmem with ht | ht
          · exact h.update mac hmac ht
          · exact h.up mac hmac (hfree (List.mem_cons_of_mem _ (List.mem_cons_of_mem _ ht))) ht
        cases hunknown.symm.trans hknown
      · split
        · rename_i hup
          simp only [Bool.and_eq_true, decide_eq_true_eq] at hup
          obtain ⟨hmem, hknown⟩ := hup
          have hreq : msg.messageType ∈ destinationRequests := by
            simp only [destinationRequests, List.mem_cons, List.not_mem_nil, or_false] at hmem ⊢
            exact hmem.elim .inl fun ht => .inr (.inl ht)
          cases hknown.symm.trans (h.down mac hmac (hfree hreq) hmem)
        · rfl

/-- A suitable message is accepted, or it crosses. -/
theorem Message.Suits.validate (h : msg.Suits tx known) :
    validateTransaction msg tx ((extractDestinationMac msg).any known) = .ok () ∨
      validateTransaction msg tx ((extractDestinationMac msg).any known) =
          .error .unexpectedMessage ∧ msg.Crosses tx := by
  unfold validateTransaction
  dsimp only
  split
  · rename_i hbusy
    simp only [Bool.and_eq_true, decide_eq_true_eq] at hbusy
    obtain ⟨request, hrequest⟩ := Option.isSome_iff_exists.mp hbusy.2
    refine .inr ⟨rfl, .session, .sessionUpdate, request.kind, role_sessionUpdate hbusy.1, ?_⟩
    rw [TransactionTracker.kindIn, hrequest]
    rfl
  · split
    · rename_i hanswer
      simp only [Bool.and_eq_true, decide_eq_true_eq] at hanswer
      exact absurd (h.sessionAnswer hanswer.1) hanswer.2
    · cases hmac : extractDestinationMac msg with
      | none => exact .inl rfl
      | some mac => exact h.validateDestination hmac

/-! ## Refusals -/

namespace RouterSessionFsm

variable {s : RouterSessionFsm}

/-- What an in-session router checks of a message before its transactions. -/
structure Welcomes (s : RouterSessionFsm) (msg : Message) : Prop where
  form : msg.Admissible true s.config.macAddressFormat
  opened : msg.initializes = false
  addresses : msg.messageType = sessionUpdate →
    ((AddressChanges.fromMessage msg).applyStrict s.peerAddresses).1 = .ok ()
  declared : ∀ t ∈ metricTypes msg, t ∈ s.sessionMetricTypes
  complete : msg.messageType = linkCharacteristicsResponse →
    (metricTypes msg).toFinset = s.sessionMetricTypes

/-- The other checks of a welcome message pass. -/
theorem Welcomes.checkMessage (h : s.Welcomes msg) (hs : s.state = .inSession) :
    s.checkMessage msg =
      validateTransaction msg s.tx ((extractDestinationMac msg).any s.isUp) := by
  have hvalid : ∀ extensions, validateMessage msg true false extensions = .ok () := fun extensions =>
    (h.opened ▸ h.form.wellFormed).validate
  have hdeclared : (metricTypes msg).any (fun t => t ∉ s.sessionMetricTypes) = false := by
    simpa using h.declared
  have hcomplete : (decide (msg.messageType = linkCharacteristicsResponse) &&
      decide ((metricTypes msg).toFinset ≠ s.sessionMetricTypes)) = false := by
    by_cases ht : msg.messageType = linkCharacteristicsResponse
    · simp [h.complete ht]
    · simp [ht]
  unfold RouterSessionFsm.checkMessage
  simp only [hs, reduceCtorEq, decide_false, Bool.false_or, hvalid, h.form.validateMacFormat,
    hdeclared, hcomplete, Bool.false_eq_true, if_false]
  by_cases ht : msg.messageType = sessionUpdate
  · simp [ht, h.addresses ht, bind, Except.bind]
  · simp [ht, bind, Except.bind]

/-- A welcome and suitable message is refused only when it crosses. -/
theorem Welcomes.refusal (h : s.Welcomes msg) (hs : s.state = .inSession)
    (hsuits : msg.Suits s.tx s.isUp) :
    s.refusal msg = none ∨
      s.refusal msg = some (.status .unexpectedMessage "") ∧ msg.Crosses s.tx := by
  unfold RouterSessionFsm.refusal refuse
  rw [if_pos (.inr hs), h.form.benign, h.checkMessage hs]
  rcases hsuits.validate with hok | ⟨herror, hcrosses⟩
  · exact .inl (by rw [hok])
  · exact .inr ⟨by rw [herror], hcrosses⟩

end RouterSessionFsm

namespace ModemSessionFsm

variable {s : ModemSessionFsm}

/-- What an in-session modem checks of a message before its transactions. -/
structure Welcomes (s : ModemSessionFsm) (msg : Message) : Prop where
  form : msg.Admissible false s.config.macAddressFormat
  opened : msg.initializes = false
  addresses : msg.messageType = sessionUpdate →
    ((AddressChanges.fromMessage msg).applyStrict s.peerAddresses).1 = .ok ()
  undeferred : ∀ mac, extractDestinationMac msg = some mac →
    msg.messageType ∈ [destinationDown, linkCharacteristicsRequest] → mac ∉ s.pendingLinkRequests

theorem Welcomes.checkMessage (h : s.Welcomes msg) (hs : s.state = .inSession) :
    s.checkMessage msg =
      validateTransaction msg s.tx ((extractDestinationMac msg).any s.isAnnounced) := by
  have hvalid : ∀ extensions, validateMessage msg false false extensions = .ok () :=
    fun extensions => (h.opened ▸ h.form.wellFormed).validate
  have hundeferred : ((extractDestinationMac msg).any (fun mac => mac ∈ s.pendingLinkRequests) &&
      decide (msg.messageType ∈ [destinationDown, linkCharacteristicsRequest])) = false := by
    cases hmac : extractDestinationMac msg with
    | none => rfl
    | some mac =>
      by_cases ht : msg.messageType ∈ [destinationDown, linkCharacteristicsRequest]
      · simp [h.undeferred mac hmac ht]
      · simp [ht]
  unfold ModemSessionFsm.checkMessage
  simp only [hs, reduceCtorEq, decide_false, Bool.false_or, hvalid, h.form.validateMacFormat,
    hundeferred, Bool.false_eq_true, if_false]
  by_cases ht : msg.messageType = sessionUpdate
  · simp [ht, h.addresses ht, bind, Except.bind]
  · simp [ht, bind, Except.bind]

theorem Welcomes.refusal (h : s.Welcomes msg) (hs : s.state = .inSession)
    (hsuits : msg.Suits s.tx s.isAnnounced) :
    s.refusal msg = none ∨
      s.refusal msg = some (.status .unexpectedMessage "") ∧ msg.Crosses s.tx := by
  unfold ModemSessionFsm.refusal refuse
  rw [if_pos (.inr hs), h.form.benign, h.checkMessage hs]
  rcases hsuits.validate with hok | ⟨herror, hcrosses⟩
  · exact .inl (by rw [hok])
  · exact .inr ⟨by rw [herror], hcrosses⟩

end ModemSessionFsm

end Dlep
