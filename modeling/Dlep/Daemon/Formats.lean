-- SUMMARY: Messages with a MAC address of the other format: no plug-in is offered one, and none is written.
import Dlep.Daemon.Turns
import Dlep.Fsm.Formats

/-!
# The format of MAC addresses in the session task

Plug-ins see the messages of a session that the state machine does not know, and queue
messages of their own; neither go through the state machine. The task checks both against
the session's format of MAC addresses: a received message before it is offered, and a
queued one before it is written.

A plug-in that records what it is offered makes the first of the two visible.
-/

namespace Dlep

/-- Every MAC address in the message has the format. -/
def Message.InFormat (format : MacAddressFormat) (msg : Message) : Prop :=
  ∀ mac ∈ msg.macs, format.accepts mac = true

/-! ## Plug-ins that record what they are offered -/

section

variable {χ : Type}

/-- `e`, and a record of the unknown messages it was offered. -/
def DlepExtension.recorded (e : DlepExtension χ) : DlepExtension (χ × List Message) where
  advertisedIds := e.advertisedIds
  onNegotiated remote c :=
    let (plugins, accepted) := e.onNegotiated remote c.1
    ((plugins, c.2), accepted)
  onUnknownDataItem inMessage raw c :=
    let (plugins, result) := e.onUnknownDataItem inMessage raw c.1
    ((plugins, c.2), result)
  onUnknownMessage messageType items c :=
    let (plugins, result) := e.onUnknownMessage messageType items c.1
    ((plugins, c.2 ++ [⟨messageType, items⟩]), result)
  onSessionState up c :=
    let (plugins, out) := e.onSessionState up c.1
    ((plugins, c.2), out)
  onDestinationState mac snap c :=
    let (plugins, out) := e.onDestinationState mac snap c.1
    ((plugins, c.2), out)

/-- Every registration records. -/
def Recording (rs : List (Registration (χ × List Message))) : Prop :=
  ∀ r ∈ rs, ∃ e : DlepExtension χ, r.1 = e.recorded

variable {rs : List (Registration (χ × List Message))}

theorem negotiate_record (remote : List ExtensionId) (h : Recording rs) (c : χ × List Message) :
    (negotiate remote rs c).1.2 = c.2 := by
  induction rs generalizing c with
  | nil => rfl
  | cons r rs ih =>
    obtain ⟨⟨e, he⟩, hrs⟩ := List.forall_mem_cons.mp h
    have haccepts : (r.1.accepts remote c).1.2 = c.2 := by
      rw [he]
      unfold DlepExtension.accepts
      split <;> rfl
    exact (ih hrs _).trans haccepts

/-- The only message that a dispatch adds to the record is the one dispatched. -/
theorem dispatchUnknownMessage_record (h : Recording rs) (messageType : MessageType)
    (items : List DataItem) (c : χ × List Message) :
    ∀ msg ∈ (dispatchUnknownMessage messageType items rs c).1.2,
      msg ∈ c.2 ∨ msg = ⟨messageType, items⟩ := by
  induction rs generalizing c with
  | nil => exact fun msg hmsg => .inl hmsg
  | cons r rs ih =>
    obtain ⟨⟨e, he⟩, hrs⟩ := List.forall_mem_cons.mp h
    have hoffered : ∀ msg ∈ (r.1.onUnknownMessage messageType items c).1.2,
        msg ∈ c.2 ∨ msg = ⟨messageType, items⟩ := by
      intro msg hmsg
      rw [he] at hmsg
      exact (List.mem_append.mp hmsg).imp_right List.mem_singleton.mp
    unfold dispatchUnknownMessage
    split
    · rename_i heq
      rw [heq] at hoffered
      exact hoffered
    · rename_i heq
      rw [heq] at hoffered
      intro msg hmsg
      exact (ih hrs _ msg hmsg).elim (hoffered msg) .inr

theorem claimItem_record (h : Recording rs) (inMessage : MessageType) (raw : RawDataItem)
    (c : χ × List Message) : (claimItem inMessage raw rs c).1.2 = c.2 := by
  induction rs generalizing c with
  | nil => rfl
  | cons r rs ih =>
    obtain ⟨⟨e, he⟩, hrs⟩ := List.forall_mem_cons.mp h
    have hoffered : (r.1.onUnknownDataItem inMessage raw c).1.2 = c.2 := by
      rw [he]
      rfl
    unfold claimItem
    split
    · rename_i heq
      rw [heq] at hoffered
      exact hoffered
    · rename_i heq
      rw [heq] at hoffered
      exact (ih hrs _).trans hoffered

theorem filterUnknownItems_record (h : Recording rs) (inMessage : MessageType)
    (items : List DataItem) (c : χ × List Message) :
    (filterUnknownItems rs inMessage items c).1.2 = c.2 := by
  induction items generalizing c with
  | nil => rfl
  | cons item items ih =>
    cases item with
    | unknown raw => exact (ih _).trans (claimItem_record h inMessage raw c)
    | _ => exact ih c

end

/-! ## State machines that keep the format -/

/-- A state machine that stores and sends only MAC addresses of the format it was given. -/
class FormattedFsm (F : Type) [SessionFsm F] where
  Formatted : MacAddressFormat → F → Prop
  step_formatted : ∀ {format : MacAddressFormat} {f f' : F} {event : FsmEvent}
    {actions : List FsmAction}, Formatted format f → SessionFsm.step f event = .ok (f', actions) →
      Formatted format f' ∧ format.Covers actions

instance : FormattedFsm RouterSessionFsm where
  Formatted format s := s.Consistent ∧ s.InFormat ∧ s.config.macAddressFormat = format
  step_formatted := by
    rintro format s s' event actions ⟨hc, hs, rfl⟩ hstep
    have ht := RouterSessionFsm.lawful.trans hc hstep
    exact ⟨⟨ht.consistent hc, ht.inFormat hs, congrArg _ ht.config_eq⟩, ht.covers⟩

instance : FormattedFsm ModemSessionFsm where
  Formatted format s := s.Consistent ∧ s.InFormat ∧ s.config.macAddressFormat = format
  step_formatted := by
    rintro format s s' event actions ⟨hc, hs, rfl⟩ hstep
    have ht := ModemSessionFsm.lawful.trans hc hstep
    exact ⟨⟨ht.consistent hc, ht.inFormat hs, congrArg _ ht.config_eq⟩, ht.covers hs⟩

/-! ## The task -/

namespace SessionTask

variable {F χ : Type} [SessionFsm F] [FormattedFsm F] {s : SessionTask F (χ × List Message)}
  {format : MacAddressFormat}

/-- So far every message offered to a plug-in or written had the format. -/
structure Policed (format : MacAddressFormat) (s : SessionTask F (χ × List Message)) : Prop where
  fsm : FormattedFsm.Formatted format s.fsm
  policy : s.macAddressFormat = format
  registry : Recording s.registry
  active : Recording s.activeExts
  offered : ∀ msg ∈ s.plugins.2, msg.InFormat format
  written : ∀ msg, .written msg ∈ s.log → msg.InFormat format

theorem Policed.record {effects : List Effect} (h : s.Policed format)
    (heffects : ∀ msg, .written msg ∈ effects → msg.InFormat format) :
    (s.record effects).Policed format where
  fsm := h.fsm
  policy := h.policy
  registry := h.registry
  active := h.active
  offered := h.offered
  written msg hmsg := (List.mem_append.mp hmsg).elim (h.written msg) (heffects msg)

/-- A hook ran: it may queue messages in either format. -/
theorem Policed.hooked (h : s.Policed format) (plugins : χ × List Message) (out : HookOutput)
    (hplugins : ∀ msg ∈ plugins.2, msg.InFormat format) :
    ({ s with plugins }.absorb out).Policed format := by
  have hran : { s with plugins, pendingSends := s.pendingSends ++ out.sends }.Policed format :=
    ⟨h.fsm, h.policy, h.registry, h.active, hplugins, h.written⟩
  refine hran.record fun msg hmsg => ?_
  obtain ⟨payload, -, hpayload⟩ := List.mem_map.mp hmsg
  cases hpayload

/-- A hook that is not offered a message ran. -/
theorem Policed.hooked_same (h : s.Policed format) (plugins : χ × List Message) (out : HookOutput)
    (hplugins : plugins.2 = s.plugins.2) : ({ s with plugins }.absorb out).Policed format :=
  h.hooked plugins out fun msg hmsg => h.offered msg (hplugins ▸ hmsg)

/-! ### Emitted events -/

/-- Hooks that are offered no message ran. -/
theorem keeps_policed : HookInvariant (F := F) (Policed (χ := χ) format)
    fun r => ∃ e : DlepExtension χ, r.1 = e.recorded where
  registry h := h.registry
  active h := h.active
  sessionState {s r} up h hr := by
    obtain ⟨e, he⟩ := hr
    have htold : (s.record [.sessionState r.2 up]).Policed format := h.record (by simp)
    refine htold.hooked_same (r.1.onSessionState up s.plugins).1 _ ?_
    rw [he]
    rfl
  destinationState {s r} mac snap h hr := by
    obtain ⟨e, he⟩ := hr
    refine h.hooked_same (r.1.onDestinationState mac snap s.plugins).1 _ ?_
    rw [he]
    rfl
  negotiated {s} remote h hactive :=
    ⟨h.fsm, h.policy, h.registry, hactive, fun msg hmsg =>
      h.offered msg (negotiate_record remote h.registry s.plugins ▸ hmsg), h.written⟩
  record h heffects := h.record fun msg hmsg => absurd hmsg (heffects msg)
  ended h := ⟨h.fsm, h.policy, h.registry, List.forall_mem_nil _, h.offered, h.written⟩
  downEmitted h := ⟨h.fsm, h.policy, h.registry, h.active, h.offered, h.written⟩
  linkJobs _ h := ⟨h.fsm, h.policy, h.registry, h.active, h.offered, h.written⟩

/-! ### Turns -/

/-- Ready to process `actions`: what they send has the format too. -/
def Sending (format : MacAddressFormat) (s : SessionTask F (χ × List Message))
    (actions : List FsmAction) : Prop :=
  s.Policed format ∧ ∀ msg ∈ sentMessages actions, msg.InFormat format

theorem Policed.write (h : s.Policed format) {msg : Message} (hmsg : msg.InFormat format) :
    (s.record [.written msg]).Policed format := by
  refine h.record fun msg' hmsg' => ?_
  cases List.mem_singleton.mp hmsg'
  exact hmsg

/-- A received message is checked before the plug-ins are offered it. -/
theorem Policed.receive (h : s.Policed format) (msg : Message) :
    (s.receive msg).1.Policed format := by
  have hfiltered {t : SessionTask F (χ × List Message)} (ht : t.Policed format) :=
    ht.hooked_same _
      (filterUnknownItems t.activeExts msg.messageType msg.dataItems t.plugins).2.1
      (filterUnknownItems_record ht.active msg.messageType msg.dataItems t.plugins)
  unfold SessionTask.receive
  dsimp only
  split
  · exact h
  · rename_i hvalid
    split
    · rename_i hoffered
      have hformat : msg.InFormat format := by
        apply validateMacFormat_eq_ok.mp
        rw [hoffered, h.policy, Bool.true_and, Bool.not_eq_true', Bool.not_eq_false] at hvalid
        cases hresult : validateMacFormat msg format with
        | ok u => rfl
        | error e => rw [hresult] at hvalid; cases hvalid
      have hasked : ({ s with plugins := (dispatchUnknownMessage msg.messageType msg.dataItems
          s.activeExts s.plugins).1 }.absorb (dispatchUnknownMessage msg.messageType msg.dataItems
          s.activeExts s.plugins).2.1).Policed format := by
        refine h.hooked _ _ fun msg' hmsg' => ?_
        rcases dispatchUnknownMessage_record h.active _ _ _ msg' hmsg' with hold | rfl
        · exact h.offered msg' hold
        · exact hformat
      dsimp only
      split
      · exact hasked
      · split
        · exact hfiltered hasked
        · exact hasked
    · simp only [Bool.false_eq_true, if_false]
      split
      · exact hfiltered h
      · exact h

/-- The parts of a turn keep the policy. -/
theorem keeps_sending :
    TurnInvariant (F := F) (χ := χ × List Message) (Sending format) (Policed format) where
  stop h := h.1
  write := by
    rintro s msg actions ⟨hs, hsent⟩ -
    obtain ⟨hmsg, hrest⟩ := List.forall_mem_cons.mp hsent
    exact ⟨hs.write hmsg, hrest⟩
  emit := by
    rintro s event actions ⟨hs, hsent⟩
    have hemitted := keeps_policed.emitted hs event
    exact ⟨⟨hemitted.fsm, hemitted.policy, hemitted.registry, hemitted.active, hemitted.offered,
      hemitted.written⟩, hsent⟩
  skip := by
    rintro s action actions ⟨hs, hsent⟩ hmsg -
    cases action with
    | sendMessage msg => exact absurd rfl (hmsg msg)
    | _ => exact ⟨hs, hsent⟩
  timers _ h := ⟨⟨h.1.fsm, h.1.policy, h.1.registry, h.1.active, h.1.offered, h.1.written⟩, h.2⟩
  flush h hvalid := ⟨h.1.write (validateMacFormat_eq_ok.mp (h.1.policy ▸ hvalid)), h.2⟩
  feed := by
    rintro s actions event fsm more ⟨hs, hsent⟩ hstep
    obtain ⟨hfsm, hcovers⟩ := FormattedFsm.step_formatted hs.fsm hstep
    refine ⟨⟨hfsm, hs.policy, hs.registry, hs.active, hs.offered, hs.written⟩, ?_⟩
    rw [sentMessages_append]
    exact List.forall_mem_append.mpr ⟨hsent, hcovers.sent⟩
  drain h := ⟨⟨h.1.fsm, h.1.policy, h.1.registry, h.1.active, h.1.offered, h.1.written⟩, h.2⟩
  peer _ h := ⟨⟨h.1.fsm, h.1.policy, h.1.registry, h.1.active, h.1.offered, h.1.written⟩, h.2⟩
  receive msg h := ⟨h.1.receive msg, h.2⟩
  commandsOpen _ h := ⟨⟨h.1.fsm, h.1.policy, h.1.registry, h.1.active, h.1.offered, h.1.written⟩, h.2⟩
  linkJobs _ h := ⟨⟨h.1.fsm, h.1.policy, h.1.registry, h.1.active, h.1.offered, h.1.written⟩, h.2⟩
  receipt _ h := ⟨h.1.record (by simp), h.2⟩

/-! ## The whole task -/

/-- The hooks that the guard drives are offered no message, and it writes none. -/
theorem Policed.drop (h : s.Policed format) : s.drop.Policed format := by
  unfold SessionTask.drop
  split
  · exact h
  · have hreported : (s.record [.broadcast (.sessionDown s.sessionId s.peer .timedOut)]).Policed
        format := h.record (by simp)
    have htold := keeps_policed.dispatchSessionState hreported false
    exact ⟨htold.fsm, htold.policy, htold.registry, htold.active, htold.offered, htold.written⟩

/-- Recording plug-ins in a task that has not run yet. -/
theorem policed_new (id : SessionId) (fsm : F) (peer : PeerInfo)
    (extensions : List (DlepExtension χ)) (plugins : χ) (tracked backend : Bool)
    (hfsm : FormattedFsm.Formatted format fsm) (hformat : SessionFsm.macAddressFormat fsm = format) :
    (SessionTask.new id fsm peer (extensions.map DlepExtension.recorded) (plugins, []) tracked
      backend).Policed format where
  fsm := hfsm
  policy := hformat
  registry r hr := by
    obtain ⟨e, -, he⟩ := List.mem_map.mp (List.fst_mem_of_mem_zipIdx hr)
    exact ⟨e, he.symm⟩
  active := List.forall_mem_nil _
  offered := List.forall_mem_nil _
  written _ hmsg := absurd hmsg List.not_mem_nil

theorem Policed.runTracked (h : s.Policed format) (initialEvent : FsmEvent)
    (inputs : List LoopInput) (budget : Budget) :
    (s.runTracked initialEvent inputs budget).Policed format := by
  obtain ⟨t, ht, hrun⟩ := keeps_sending.runTracked ⟨h, by simp⟩ initialEvent inputs budget
  rw [hrun]
  exact Policed.drop ht

end SessionTask

/-- Every message that a plug-in was offered, and every message written, has the format. -/
def SessionTask.KeptFormat {F χ : Type} (format : MacAddressFormat)
    (s : SessionTask F (χ × List Message)) : Prop :=
  (∀ msg ∈ s.plugins.2, msg.InFormat format) ∧
    ∀ msg, Effect.written msg ∈ s.log → msg.InFormat format

/-- The policy on MAC addresses is never bypassed: not in the state, the messages and the events of
either state machine, and not by the plug-ins of a session task, whatever it is given and wherever
it stops. -/
theorem mac_format_never_bypassed {χ : Type} (config : SessionConfig) (events : List FsmEvent)
    (id : SessionId) (peer : PeerInfo) (extensions : List (DlepExtension χ)) (plugins : χ)
    (tracked backend : Bool) (inputs : List LoopInput) (budget : Budget) :
    (∀ s trace, ModemSessionFsm.run config events = .ok (s, trace) →
      config.macAddressFormat.Keeps s.destinations s.tx s.pendingLinkRequests ∧
        ∀ e ∈ trace, config.macAddressFormat.Covers e.output) ∧
    (∀ s trace, RouterSessionFsm.run config events = .ok (s, trace) →
      config.macAddressFormat.Keeps s.destinations s.tx ∅ ∧
        ∀ e ∈ trace, config.macAddressFormat.Covers e.output) ∧
    ((SessionTask.new id (ModemSessionFsm.withConfig config) peer
      (extensions.map DlepExtension.recorded) (plugins, []) tracked backend).runTracked
        .tcpAccepted inputs budget).KeptFormat config.macAddressFormat ∧
    ((SessionTask.new id (RouterSessionFsm.withConfig config) peer
      (extensions.map DlepExtension.recorded) (plugins, []) tracked backend).runTracked
        .tcpConnected inputs budget).KeptFormat config.macAddressFormat := by
  refine ⟨?_, ?_, ?_, ?_⟩
  · intro s trace hrun
    obtain ⟨hs, rfl, htrace⟩ := ModemSessionFsm.run_inFormat hrun
    exact ⟨hs, htrace⟩
  · intro s trace hrun
    obtain ⟨hs, rfl, htrace⟩ := RouterSessionFsm.run_inFormat hrun
    exact ⟨hs, htrace⟩
  · have hnew := SessionTask.policed_new id (ModemSessionFsm.withConfig config) peer extensions
      plugins tracked backend ⟨ModemSessionFsm.consistent_withConfig config,
        ModemSessionFsm.inFormat_withConfig config, rfl⟩ rfl
    have hrun := hnew.runTracked .tcpAccepted inputs budget
    exact ⟨hrun.offered, hrun.written⟩
  · have hnew := SessionTask.policed_new id (RouterSessionFsm.withConfig config) peer extensions
      plugins tracked backend ⟨RouterSessionFsm.consistent_withConfig config,
        RouterSessionFsm.inFormat_withConfig config, rfl⟩ rfl
    have hrun := hnew.runTracked .tcpConnected inputs budget
    exact ⟨hrun.offered, hrun.written⟩

end Dlep
