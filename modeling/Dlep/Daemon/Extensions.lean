-- SUMMARY: Extension plug-ins: their hooks, negotiation, and the dispatch of unknown messages and items to them.
import Dlep.Fsm.Events
import Mathlib.Data.List.Dedup

/-!
# Extensions

`dlep-ext` and the dispatch functions of `session.rs`. A plug-in keeps state of its own
behind its hooks, and plug-ins may share some, so a hook is a function on one state `χ`
that stands for all of it. A hook may queue messages for the peer and emit events of its
own; it cannot touch the state machine.

A registration is known by its position in the registry.
-/

namespace Dlep

inductive ExtHandled where
  | handled
  | passthrough
  deriving DecidableEq, Repr

structure DestinationStateSnapshot where
  up : Bool
  lastStatus : StatusCode
  metrics : Option LinkMetrics
  deriving DecidableEq, Repr

/-- What a hook asks of its context: messages to queue, and opaque events to broadcast. -/
structure HookOutput where
  sends : List Message
  events : List ℕ
  deriving DecidableEq, Repr

namespace HookOutput

def none : HookOutput := ⟨[], []⟩

def append (x y : HookOutput) : HookOutput := ⟨x.sends ++ y.sends, x.events ++ y.events⟩

end HookOutput

structure DlepExtension (χ : Type) where
  advertisedIds : List ExtensionId
  onNegotiated : List ExtensionId → χ → χ × Bool
  onUnknownDataItem : MessageType → RawDataItem → χ → χ × HookOutput × ExtHandled
  onUnknownMessage : MessageType → List DataItem → χ → χ × HookOutput × ExtHandled
  onSessionState : Bool → χ → χ × HookOutput
  onDestinationState : MacAddress → DestinationStateSnapshot → χ → χ × HookOutput

/-- A registration and its position. -/
abbrev Registration (χ : Type) : Type := DlepExtension χ × ℕ

section

variable {χ : Type}

/-! ## Negotiation -/

/-- Whether a plug-in takes part: both sides advertise all its identifiers, and it agrees. -/
def DlepExtension.accepts (e : DlepExtension χ) (remote : List ExtensionId) (c : χ) : χ × Bool :=
  if !e.advertisedIds.isEmpty && e.advertisedIds.all (remote.contains ·) then
    e.onNegotiated remote c
  else (c, false)

/-- The registrations that accept negotiation, in order. -/
def negotiate (remote : List ExtensionId) :
    List (Registration χ) → χ → χ × List (Registration χ)
  | [], c => (c, [])
  | r :: rest, c =>
    let (c, accepted) := r.1.accepts remote c
    let (c, active) := negotiate remote rest c
    (c, if accepted then r :: active else active)

/-- Negotiation picks registrations in their order. -/
theorem negotiate_sublist (remote : List ExtensionId) (registry : List (Registration χ)) (c : χ) :
    (negotiate remote registry c).2.Sublist registry := by
  induction registry generalizing c with
  | nil => exact .slnil
  | cons r rest ih =>
    simp only [negotiate]
    split
    · exact (ih _).cons_cons r
    · exact (ih _).cons r

/-- The identifiers of the active plug-ins that the peer advertised too. -/
def negotiatedFromActive (active : List (Registration χ)) (peerExtensions : List ExtensionId) :
    List ExtensionId :=
  (((active.flatMap fun r => r.1.advertisedIds).filter (peerExtensions.contains ·)).mergeSort
    fun a b => a.id ≤ b.id).dedup

/-! ## Dispatch -/

/-- Offer a message to the plug-ins until one claims it. -/
def dispatchUnknownMessage (messageType : MessageType) (items : List DataItem) :
    List (Registration χ) → χ → χ × HookOutput × Bool
  | [], c => (c, .none, false)
  | r :: rest, c =>
    match r.1.onUnknownMessage messageType items c with
    | (c, out, .handled) => (c, out, true)
    | (c, out, .passthrough) =>
      let (c, out', claimed) := dispatchUnknownMessage messageType items rest c
      (c, out.append out', claimed)

/-- Offer an unknown item to the plug-ins until one claims it. -/
def claimItem (inMessage : MessageType) (raw : RawDataItem) :
    List (Registration χ) → χ → χ × HookOutput × Bool
  | [], c => (c, .none, false)
  | r :: rest, c =>
    match r.1.onUnknownDataItem inMessage raw c with
    | (c, out, .handled) => (c, out, true)
    | (c, out, .passthrough) =>
      let (c, out', claimed) := claimItem inMessage raw rest c
      (c, out.append out', claimed)

/-- Remove the unknown items that a plug-in claims. -/
def filterUnknownItems (active : List (Registration χ)) (inMessage : MessageType) :
    List DataItem → χ → χ × HookOutput × List DataItem
  | [], c => (c, .none, [])
  | .unknown raw :: items, c =>
    let (c, out, claimed) := claimItem inMessage raw active c
    let (c, out', kept) := filterUnknownItems active inMessage items c
    (c, out.append out', if claimed then kept else .unknown raw :: kept)
  | item :: items, c =>
    let (c, out, kept) := filterUnknownItems active inMessage items c
    (c, out, item :: kept)

end

end Dlep
