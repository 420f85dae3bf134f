-- SUMMARY: Plug-ins and core traffic: what a plug-in can claim, and that two sessions with different plug-ins feed the state machine the same events.
import Dlep.Daemon.Turns
import Dlep.Fsm.Encoding

/-!
# Plug-ins do not interfere

Before a received message reaches the state machine, the negotiated plug-ins may claim it
or some of its items. What they can claim is limited by the message type and by the items
the codec knows. Two sessions that run the same state machine under different plug-ins
then see the same events for core traffic, as long as the plug-ins queue no messages of
their own, which could end a session early.

The limit has a gap: the two link characteristics messages are core messages that the state
machines handle, but they are offered to the plug-ins.
-/

namespace Dlep

/-! ## Plug-ins that queue nothing -/

structure DlepExtension.Silent {χ : Type} (e : DlepExtension χ) : Prop where
  dataItem : ∀ mt raw c, (e.onUnknownDataItem mt raw c).2.1.sends = []
  message : ∀ mt items c, (e.onUnknownMessage mt items c).2.1.sends = []
  sessionState : ∀ up c, (e.onSessionState up c).2.sends = []
  destinationState : ∀ mac snap c, (e.onDestinationState mac snap c).2.sends = []

/-- A core message type: one of the sixteen of the protocol. -/
def MessageType.IsCore (mt : MessageType) : Prop := 1 ≤ mt.id ∧ mt.id ≤ 16

instance (mt : MessageType) : Decidable mt.IsCore := inferInstanceAs (Decidable (_ ∧ _))

section Registry

variable {χ : Type}

theorem filterUnknownItems_cons (active : List (Registration χ)) (mt : MessageType)
    {item : DataItem} (hitem : item.isCore = true) (items : List DataItem) (c : χ) :
    filterUnknownItems active mt (item :: items) c =
      ((filterUnknownItems active mt items c).1, (filterUnknownItems active mt items c).2.1,
        item :: (filterUnknownItems active mt items c).2.2) := by
  cases item with
  | unknown raw => cases hitem
  | _ => rfl

/-- The plug-ins keep every core item, and see none. -/
theorem filterUnknownItems_core (active : List (Registration χ)) (mt : MessageType)
    {items : List DataItem} (hcore : ∀ item ∈ items, item.isCore = true) (c : χ) :
    filterUnknownItems active mt items c = (c, .none, items) := by
  induction items with
  | nil => rfl
  | cons item items ih =>
    obtain ⟨hitem, hrest⟩ := List.forall_mem_cons.mp hcore
    rw [filterUnknownItems_cons active mt hitem, ih hrest]

/-- What the plug-ins leave of a message: nothing but unknown items is missing. -/
theorem filterUnknownItems_keeps (active : List (Registration χ)) (mt : MessageType)
    (items : List DataItem) (c : χ) :
    (filterUnknownItems active mt items c).2.2.Sublist items ∧
      (filterUnknownItems active mt items c).2.2.filter DataItem.isCore =
        items.filter DataItem.isCore := by
  induction items generalizing c with
  | nil => exact ⟨.slnil, rfl⟩
  | cons item items ih =>
    cases hitem : item.isCore with
    | true =>
      obtain ⟨hsub, hcore⟩ := ih c
      rw [filterUnknownItems_cons active mt hitem]
      exact ⟨hsub.cons_cons _, by simp only [List.filter_cons, hitem, if_true, hcore]⟩
    | false =>
      cases item with
      | unknown raw =>
        obtain ⟨hsub, hcore⟩ := ih (claimItem mt raw active c).1
        simp only [filterUnknownItems]
        split
        · exact ⟨hsub.cons _, by simp only [List.filter_cons, hitem, hcore]; rfl⟩
        · exact ⟨hsub.cons_cons _, by simp only [List.filter_cons, hitem, hcore]⟩
      | _ => cases hitem

end Registry

namespace SessionTask

variable {F χ : Type}

/-! ## Batches without queued messages -/

structure Quiet (s : SessionTask F χ) : Prop where
  registry : ∀ r ∈ s.registry, r.1.Silent
  active : ∀ r ∈ s.activeExts, r.1.Silent
  pending : s.pendingSends = []

theorem Quiet.absorb {s : SessionTask F χ} (h : s.Quiet) {out : HookOutput} (hout : out.sends = []) :
    (s.absorb out).Quiet where
  registry := h.registry
  active := h.active
  pending := by simp [SessionTask.absorb, record, h.pending, hout]

/-- Silent plug-ins queue nothing when an event is emitted. -/
theorem keeps_quiet : HookInvariant (F := F) (χ := χ) Quiet fun r => r.1.Silent where
  registry h := h.registry
  active h := h.active
  sessionState {s r} up h hr := by
    have hcalled : ({ s with plugins := (r.1.onSessionState up s.plugins).1 }.record
        [.sessionState r.2 up]).Quiet := ⟨h.registry, h.active, h.pending⟩
    exact hcalled.absorb (hr.sessionState up _)
  destinationState {s r} mac snap h hr := by
    have hcalled : { s with plugins := (r.1.onDestinationState mac snap s.plugins).1 }.Quiet :=
      ⟨h.registry, h.active, h.pending⟩
    exact hcalled.absorb (hr.destinationState mac snap _)
  negotiated _ h hactive := ⟨h.registry, hactive, h.pending⟩
  record h _ := ⟨h.registry, h.active, h.pending⟩
  ended h := ⟨h.registry, List.forall_mem_nil _, h.pending⟩
  downEmitted h := ⟨h.registry, h.active, h.pending⟩
  linkJobs _ h := ⟨h.registry, h.active, h.pending⟩

theorem Quiet.flush {s : SessionTask F χ} (h : s.Quiet) (budget : Budget) :
    s.flushPendingSends budget = .ok (s, budget) := by
  obtain ⟨-, -, hpending⟩ := h
  cases s
  subst hpending
  rfl

end SessionTask

/-- The action does not fail to encode. -/
def FsmAction.writable : FsmAction → Bool
  | .sendMessage msg => msg.encode.isOk
  | _ => true

namespace SessionTask

variable {F χ : Type}

theorem Quiet.perform {s : SessionTask F χ} (h : s.Quiet) (action : FsmAction) :
    (action.writable = true → ∃ s', s.perform action none =
      .ok (s', decide (action = .closeTcp), none) ∧ s'.Quiet ∧ s'.fsm = s.fsm) ∧
    (action.writable = false → ∃ s', s.perform action none = .error s') := by
  cases action with
  | sendMessage msg =>
    simp only [FsmAction.writable, SessionTask.perform, writeMessage]
    cases msg.encode with
    | error e => exact ⟨nofun, fun _ => ⟨s, rfl⟩⟩
    | ok bytes =>
      refine ⟨fun _ => ?_, nofun⟩
      exact ⟨_, rfl, ⟨h.registry, h.active, h.pending⟩, rfl⟩
  | emit event =>
    have hquiet := keeps_quiet.emitted h event
    refine ⟨fun _ => ⟨s.emitted event, ?_, hquiet, fsm_emitted s event⟩, nofun⟩
    simp only [SessionTask.perform, hquiet.flush]
    rfl
  | closeTcp => exact ⟨fun _ => ⟨s, rfl, h, rfl⟩, nofun⟩
  | sendSignal signal target => exact ⟨fun _ => ⟨s, rfl, h, rfl⟩, nofun⟩
  | startTimer id kind duration periodic =>
    exact ⟨fun _ => ⟨_, rfl, ⟨h.registry, h.active, h.pending⟩, rfl⟩, nofun⟩
  | cancelTimer id =>
    exact ⟨fun _ => ⟨_, rfl, ⟨h.registry, h.active, h.pending⟩, rfl⟩, nofun⟩
  | resetHeartbeat id deadline =>
    exact ⟨fun _ => ⟨_, rfl, ⟨h.registry, h.active, h.pending⟩, rfl⟩, nofun⟩

/-- A batch succeeds iff all its messages encode, whatever the plug-ins are. -/
theorem Quiet.processActions {s : SessionTask F χ} (h : s.Quiet) (actions : List FsmAction)
    (close : Bool) :
    (actions.all FsmAction.writable = true → ∃ s', SessionTask.processActions actions s close none =
      .ok (s', close || actions.any (· = .closeTcp), none) ∧ s'.Quiet ∧ s'.fsm = s.fsm) ∧
    (actions.all FsmAction.writable = false →
      ∃ s', SessionTask.processActions actions s close none = .error s') := by
  induction actions generalizing s close with
  | nil =>
    refine ⟨fun _ => ⟨s, ?_, h, rfl⟩, nofun⟩
    cases close <;> rfl
  | cons action actions ih =>
    obtain ⟨hok, herr⟩ := h.perform action
    cases haction : action.writable with
    | false =>
      obtain ⟨s', hperform⟩ := herr haction
      refine ⟨by simp [haction], fun _ => ⟨s', ?_⟩⟩
      simp only [SessionTask.processActions, hperform]
      rfl
    | true =>
      obtain ⟨s', hperform, hquiet, hfsm⟩ := hok haction
      obtain ⟨hrest, hfails⟩ := ih hquiet (close || decide (action = .closeTcp))
      have hstep : SessionTask.processActions (action :: actions) s close none =
          SessionTask.processActions actions s' (close || decide (action = .closeTcp)) none := by
        simp only [SessionTask.processActions, hperform]
        rfl
      simp only [hstep, List.all_cons, haction, Bool.true_and, List.any_cons]
      refine ⟨fun hall => ?_, hfails⟩
      obtain ⟨s'', hbatch, hquiet', hfsm'⟩ := hrest hall
      exact ⟨s'', by rw [hbatch, Bool.or_assoc], hquiet', hfsm'.trans hfsm⟩

end SessionTask

/-! ## Core traffic -/

/-- The fourteen known types are the sixteen core types without the link characteristics. -/
theorem MessageType.IsCore.known {mt : MessageType} (h : mt.IsCore)
    (hrequest : mt ≠ .linkCharacteristicsRequest) (hresponse : mt ≠ .linkCharacteristicsResponse) :
    isKnownMessageType mt = true := by
  have hall : ∀ n : Fin 17, n ≠ 0 → (⟨UInt16.ofNat n⟩ : MessageType) = .linkCharacteristicsRequest ∨
      (⟨UInt16.ofNat n⟩ : MessageType) = .linkCharacteristicsResponse ∨
      isKnownMessageType ⟨UInt16.ofNat n⟩ = true := by decide
  obtain ⟨hlow, hhigh⟩ := h
  have hlow' : 1 ≤ mt.id.toNat := UInt16.le_iff_toNat_le.mp hlow
  have hhigh' : mt.id.toNat ≤ 16 := UInt16.le_iff_toNat_le.mp hhigh
  have hid := hall ⟨mt.id.toNat, by omega⟩ (by simp [Fin.ext_iff]; omega)
  simp only [UInt16.ofNat_toNat] at hid
  rcases hid with hid | hid | hid
  · exact absurd hid hrequest
  · exact absurd hid hresponse
  · exact hid

namespace SessionTask

variable {F χ : Type} [SessionFsm F]

/-- A core message of a known type reaches the state machine as it is, and the plug-ins do not see
it. -/
theorem receive_known (s : SessionTask F χ) {msg : Message}
    (hknown : isKnownMessageType msg.messageType = true)
    (hcore : ∀ item ∈ msg.dataItems, item.isCore = true) :
    s.receive msg = (s, .recvMessage msg) := by
  unfold receive
  simp only [hknown, Bool.not_true, Bool.and_false, Bool.false_and, Bool.false_eq_true, if_false,
    filterUnknownItems_core _ _ hcore]
  split
  · simp [absorb, record, HookOutput.none]
  · rfl

omit [SessionFsm F] in
theorem Quiet.describePeer {s : SessionTask F χ} (h : s.Quiet) (msg : Message) :
    (s.describePeer msg).Quiet ∧ (s.describePeer msg).fsm = s.fsm := by
  unfold SessionTask.describePeer
  split
  · exact ⟨⟨h.registry, h.active, h.pending⟩, rfl⟩
  · exact ⟨h, rfl⟩

/-- The events that a sequence of messages feeds to the state machine, up to the turn that ends the
session. -/
def fedEvents (s : SessionTask F χ) : List Message → List FsmEvent
  | [] => []
  | msg :: msgs =>
    ((s.describePeer msg).receive msg).2 ::
      match s.turn (.message msg) none with
      | .ok (s, _, true, _) => s.fedEvents msgs
      | _ => []

/-- The state machine after a message, unless the message ends the session. -/
def carriesOn (f : F) (msg : Message) : Option F :=
  match SessionFsm.step f (.recvMessage msg) with
  | .ok (f, actions) =>
    if actions.all FsmAction.writable && !actions.any (· = .closeTcp) then some f else none
  | .error _ => none

/-- The events of core traffic, from the state machine alone. -/
def coreEvents : List Message → F → List FsmEvent
  | [], _ => []
  | msg :: msgs, f => .recvMessage msg ::
      match carriesOn f msg with
      | some f => coreEvents msgs f
      | none => []

/-- A turn on a known core message goes the way the state machine alone decides. -/
theorem Quiet.turn_message {s : SessionTask F χ} (h : s.Quiet) {msg : Message}
    (hknown : isKnownMessageType msg.messageType = true)
    (hcore : ∀ item ∈ msg.dataItems, item.isCore = true) :
    (∀ f, carriesOn s.fsm msg = some f → ∃ s' actions,
      s.turn (.message msg) none = .ok (s', actions, true, none) ∧ s'.Quiet ∧ s'.fsm = f) ∧
    (carriesOn s.fsm msg = none → ∀ s' actions budget,
      s.turn (.message msg) none ≠ .ok (s', actions, true, budget)) := by
  obtain ⟨hquiet, hfsm⟩ := h.describePeer msg
  simp only [turn, arm, onMessage, receive_known _ hknown hcore, feed, hfsm, carriesOn]
  cases SessionFsm.step s.fsm (.recvMessage msg) with
  | error e =>
    refine ⟨fun f hf => ?_, fun _ s' actions budget hturn => ?_⟩
    · cases hf
    · cases hturn
  | ok r =>
    have hfed : { s.describePeer msg with fsm := r.1 }.Quiet :=
      ⟨hquiet.registry, hquiet.active, hquiet.pending⟩
    obtain ⟨hok, herr⟩ := hfed.processActions r.2 false
    cases hall : r.2.all FsmAction.writable with
    | false =>
      obtain ⟨s', hbatch⟩ := herr hall
      simp [bind, Except.bind, hbatch, hall]
    | true =>
      obtain ⟨s', hbatch, hquiet', hfsm'⟩ := hok hall
      cases hclose : r.2.any (· = .closeTcp) with
      | true => simp [bind, Except.bind, hbatch, hall, hclose]
      | false =>
        simp only [Bool.false_or, hclose] at hbatch
        simp only [bind, Except.bind, hbatch, hall, hclose, hquiet'.flush]
        refine ⟨?_, by simp⟩
        intro f hf
        cases hf
        exact ⟨s', r.2, rfl, hquiet', hfsm'⟩

/-- What reaches the state machine does not depend on the plug-ins. -/
theorem fedEvents_eq {msgs : List Message}
    (hmsgs : ∀ msg ∈ msgs, isKnownMessageType msg.messageType = true ∧
      ∀ item ∈ msg.dataItems, item.isCore = true) {s : SessionTask F χ} (h : s.Quiet) :
    s.fedEvents msgs = coreEvents msgs s.fsm := by
  induction msgs generalizing s with
  | nil => rfl
  | cons msg msgs ih =>
    obtain ⟨⟨hknown, hcore⟩, hrest⟩ := List.forall_mem_cons.mp hmsgs
    obtain ⟨hgoes, hends⟩ := h.turn_message hknown hcore
    simp only [fedEvents, coreEvents, receive_known _ hknown hcore]
    cases hon : carriesOn s.fsm msg with
    | some f =>
      obtain ⟨s', actions, hturn, hquiet, rfl⟩ := hgoes f hon
      simp only [hturn, ih hrest hquiet]
    | none =>
      have hnone := hends hon
      split
      · rename_i s' actions budget hturn
        exact absurd hturn (hnone s' actions budget)
      · rfl

theorem coreEvents_prefix (msgs : List Message) (f : F) :
    coreEvents msgs f <+: msgs.map FsmEvent.recvMessage := by
  induction msgs generalizing f with
  | nil => exact List.prefix_rfl
  | cons msg msgs ih =>
    refine List.prefix_cons_inj _ |>.mpr ?_
    split
    · exact ih _
    · exact List.nil_prefix

/-- The event of a message, as far as the plug-ins can change it. -/
theorem receive_cases (s : SessionTask F χ) (msg : Message) :
    (s.receive msg).2 = .protocolError .invalidData ∧ isKnownMessageType msg.messageType = false ∨
    (s.receive msg).2 = .recvExtensionMessage ∧ isKnownMessageType msg.messageType = false ∨
    ∃ items, (s.receive msg).2 = .recvMessage { msg with dataItems := items } ∧
      items.Sublist msg.dataItems ∧
      items.filter DataItem.isCore = msg.dataItems.filter DataItem.isCore := by
  have hkept (s : SessionTask F χ) := filterUnknownItems_keeps s.activeExts msg.messageType
    msg.dataItems s.plugins
  unfold receive
  dsimp only
  split
  · rename_i hmac
    simp only [Bool.and_eq_true, Bool.not_eq_true'] at hmac
    exact .inl ⟨rfl, hmac.1.2⟩
  · split
    · rename_i hoffered
      simp only [Bool.and_eq_true, Bool.not_eq_true'] at hoffered
      dsimp only
      split
      · exact .inr (.inl ⟨rfl, hoffered.2⟩)
      · split
        · exact .inr (.inr ⟨_, rfl, hkept _⟩)
        · exact .inr (.inr ⟨_, rfl, .refl _, rfl⟩)
    · simp only [Bool.false_eq_true, if_false]
      split
      · exact .inr (.inr ⟨_, rfl, hkept _⟩)
      · exact .inr (.inr ⟨_, rfl, .refl _, rfl⟩)

end SessionTask

/-- For core traffic without link characteristics messages, the events a session feeds to its state
machine are the messages themselves, whatever the plug-ins are and do, as long as they queue no
messages. More generally, a plug-in claims only messages of other than core type, and removes only
items the codec does not know. -/
theorem plugins_do_not_interfere {F χ₁ χ₂ : Type} [SessionFsm F] (s₁ : SessionTask F χ₁)
    (s₂ : SessionTask F χ₂) (hfsm : s₁.fsm = s₂.fsm) (hquiet₁ : s₁.Quiet) (hquiet₂ : s₂.Quiet)
    (msgs : List Message)
    (hcore : ∀ msg ∈ msgs, msg.messageType.IsCore ∧ ∀ item ∈ msg.dataItems, item.isCore = true)
    (hlink : ∀ msg ∈ msgs, msg.messageType ≠ .linkCharacteristicsRequest ∧
      msg.messageType ≠ .linkCharacteristicsResponse) :
    s₁.fedEvents msgs = s₂.fedEvents msgs ∧
    s₁.fedEvents msgs <+: msgs.map FsmEvent.recvMessage ∧
    (∀ msg ∈ msgs, ∀ s : SessionTask F χ₁, (s.receive msg).2 = .recvMessage msg) ∧
    ∀ (s : SessionTask F χ₁) (msg : Message), msg.messageType ≠ .linkCharacteristicsRequest →
      msg.messageType ≠ .linkCharacteristicsResponse → msg.messageType.IsCore →
      ∃ items, (s.receive msg).2 = .recvMessage { msg with dataItems := items } ∧
        items.Sublist msg.dataItems ∧
        items.filter DataItem.isCore = msg.dataItems.filter DataItem.isCore := by
  have hknown : ∀ msg ∈ msgs, isKnownMessageType msg.messageType = true ∧
      ∀ item ∈ msg.dataItems, item.isCore = true := fun msg hmsg =>
    ⟨(hcore msg hmsg).1.known (hlink msg hmsg).1 (hlink msg hmsg).2, (hcore msg hmsg).2⟩
  have heq₁ := SessionTask.fedEvents_eq hknown hquiet₁
  have heq₂ := SessionTask.fedEvents_eq hknown hquiet₂
  refine ⟨by rw [heq₁, heq₂, hfsm], ?_, ?_, ?_⟩
  · rw [heq₁]
    exact SessionTask.coreEvents_prefix msgs s₁.fsm
  · intro msg hmsg s
    rw [s.receive_known (hknown msg hmsg).1 (hknown msg hmsg).2]
  · intro s msg hrequest hresponse htype
    rcases s.receive_cases msg with ⟨-, hunknown⟩ | ⟨-, hunknown⟩ | hitems
    · rw [htype.known hrequest hresponse] at hunknown
      cases hunknown
    · rw [htype.known hrequest hresponse] at hunknown
      cases hunknown
    · exact hitems

/-! ## A plug-in that claims a core request -/

/-- A plug-in that claims every message it is offered. -/
def greedyExtension : DlepExtension Unit where
  advertisedIds := [⟨65000⟩]
  onNegotiated _ c := (c, true)
  onUnknownDataItem _ _ c := (c, .none, .passthrough)
  onUnknownMessage _ _ c := (c, .none, .handled)
  onSessionState _ c := (c, .none)
  onDestinationState _ _ c := (c, .none)

theorem greedyExtension_silent : greedyExtension.Silent :=
  ⟨fun _ _ _ => rfl, fun _ _ _ => rfl, fun _ _ => rfl, fun _ _ _ => rfl⟩

/-- A modem in session, with or without the plug-in. -/
def joinedSession (active : List (Registration Unit)) : SessionTask ModemSessionFsm Unit :=
  { SessionTask.new ⟨1⟩ ModemSessionFsm.joined ⟨.v4 0 0, false, none⟩ [greedyExtension] () false false
    with activeExts := active }

theorem joinedSession_quiet {active : List (Registration Unit)}
    (hactive : ∀ r ∈ active, r = (greedyExtension, 0)) : (joinedSession active).Quiet where
  registry r hr := by
    rw [List.mem_singleton.mp hr]
    exact greedyExtension_silent
  active r hr := by
    rw [hactive r hr]
    exact greedyExtension_silent
  pending := rfl

/-- What a router in session may send. -/
def coreTraffic : List Message :=
  [⟨.sessionUpdate, [.ipv4Address true 7, .ipv4Address false 5]⟩,
    ⟨.destinationAnnounce, [.macAddress (.eui48 (Vector.replicate 6 1))]⟩, buildHeartbeat]

theorem plugins_do_not_interfere_traffic :
    (joinedSession [(greedyExtension, 0)]).fedEvents coreTraffic =
        (joinedSession []).fedEvents coreTraffic ∧
      (joinedSession []).fedEvents coreTraffic = coreTraffic.map .recvMessage := by
  refine ⟨(plugins_do_not_interfere (joinedSession [(greedyExtension, 0)]) (joinedSession []) rfl
    (joinedSession_quiet (by simp)) (joinedSession_quiet (by simp)) coreTraffic ?_ ?_).1, ?_⟩
  · decide
  · decide
  · decide +kernel

/-- A router's link request that only one of two sessions passes on. -/
theorem plugins_do_not_interfere_link :
    ∃ (s₁ s₂ : SessionTask ModemSessionFsm Unit) (msg : Message), s₁.fsm = s₂.fsm ∧ s₁.Quiet ∧
      s₂.Quiet ∧ SessionFsm.inSession s₁.fsm = true ∧ msg.messageType.IsCore ∧
      (∀ item ∈ msg.dataItems, item.isCore = true) ∧
      s₁.fedEvents [msg] = [.recvExtensionMessage] ∧ s₂.fedEvents [msg] = [.recvMessage msg] := by
  refine ⟨joinedSession [(greedyExtension, 0)], joinedSession [],
    buildLinkCharacteristicsRequest (.eui48 (Vector.replicate 6 1)) .default, rfl,
    joinedSession_quiet (by simp), joinedSession_quiet (by simp), by decide +kernel, by decide,
    by decide, ?_, ?_⟩
  · decide +kernel
  · decide +kernel

end Dlep
