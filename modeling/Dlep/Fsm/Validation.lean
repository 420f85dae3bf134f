-- SUMMARY: The message grammar, the MAC format policy and the transaction rules a received message must meet.
import Dlep.Fsm.Common

/-!
# Validation of received messages

`validate_message` checks a message against the RFC 8175 grammar,
`validate_mac_format` against the session's MAC format, and
`validate_transaction` against the open transactions (`validation.rs`).
-/

namespace Dlep

open MessageType

/-! ## MAC format -/

def validateMacFormat (msg : Message) (format : MacAddressFormat) : Except StatusCode Unit :=
  if msg.dataItems.any fun
      | .macAddress mac => !format.accepts mac
      | _ => false then
    .error .invalidData
  else .ok ()

/-! ## Fatal statuses -/

/-- A fatal status is echoed verbatim, including its explanation. -/
def fatalStatus (msg : Message) : Option DataItem :=
  if msg.messageType = .sessionTermination then none
  else msg.dataItems.find? fun
    | .status code _ => code.terminatesSession
    | _ => false

/-- The status a received message is answered with, if it is refused: its own fatal status, or what
the checks of a side that is receiving found. -/
def refuse (receiving : Prop) [Decidable receiving] (check : Except StatusCode Unit)
    (msg : Message) : Option DataItem :=
  if receiving then
    match fatalStatus msg with
    | some item => some item
    | none =>
      match check with
      | .error code => some (.status code "")
      | .ok () => none
  else none

/-! ## Grammar -/

/-- The message types 1 to 16 of RFC 8175. -/
def MessageType.isCore (mt : MessageType) : Bool := decide (1 ≤ mt.id) && decide (mt.id ≤ 16)

/-- The types a role may receive in its phase. -/
def expectedType (mt : MessageType) (router initializing : Bool) : Bool :=
  if initializing then
    mt = if router then sessionInitializationResponse else sessionInitialization
  else
    mt ∈ [sessionUpdate, sessionUpdateResponse, sessionTermination, .heartbeat] ||
      if router then
        mt ∈ [destinationUp, destinationAnnounceResponse, destinationDown,
          destinationDownResponse, destinationUpdate, linkCharacteristicsResponse]
      else
        mt ∈ [destinationUpResponse, destinationAnnounce, destinationDown,
          destinationDownResponse, linkCharacteristicsRequest]

/-- The items a message type may carry. -/
def allowedItem (mt : MessageType) (router : Bool) (t : DataItemType) : Bool :=
  let address := t.isAddress
  let metric := t.isMetric
  if mt = sessionInitialization then
    t ∈ [.peerType, .heartbeatInterval, .extensionsSupported] || address
  else if mt = sessionInitializationResponse then
    t ∈ [.status, .peerType, .heartbeatInterval, .extensionsSupported] || address || metric
  else if mt = sessionUpdate then address || (router && metric)
  else if mt ∈ [sessionUpdateResponse, sessionTermination] then t = .status
  else if mt ∈ [destinationUp, destinationUpdate] then t = .macAddress || address || metric
  else if mt ∈ [destinationUpResponse, destinationDownResponse] then t ∈ [.macAddress, .status]
  else if mt = destinationAnnounce then t ∈ [.macAddress, .ipv4Address, .ipv6Address]
  else if mt = destinationAnnounceResponse then
    t ∈ [.macAddress, .status] || address || metric
  else if mt = linkCharacteristicsResponse then t ∈ [.macAddress, .status] || metric
  else if mt = destinationDown then t = .macAddress
  else if mt = linkCharacteristicsRequest then
    t ∈ [.macAddress, .currentDataRateReceive, .currentDataRateTransmit, .latency]
  else false

/-- The items a message type must carry. -/
def requiredItems (mt : MessageType) : List DataItemType :=
  if mt = sessionInitialization then [.peerType, .heartbeatInterval]
  else if mt = sessionInitializationResponse then
    [.status, .peerType, .heartbeatInterval, .maximumDataRateReceive, .maximumDataRateTransmit,
      .currentDataRateReceive, .currentDataRateTransmit, .latency]
  else if mt ∈ [sessionUpdateResponse, sessionTermination] then [.status]
  else if mt ∈ [destinationUpResponse, destinationAnnounceResponse, destinationDownResponse,
      linkCharacteristicsResponse] then
    [.macAddress, .status]
  else if mt ∈ [destinationUp, destinationAnnounce, destinationDown, destinationUpdate,
      linkCharacteristicsRequest] then
    [.macAddress]
  else []

/-- Some advertised extension is not one of ours. -/
def unrecognizedExtension (msg : Message) (localExtensions : List ExtensionId) : Bool :=
  msg.dataItems.any fun
    | .extensionsSupported ids => ids.any fun id => !localExtensions.contains id
    | _ => false

/-- A removal of an address or subnet. -/
def isRemoval : DataItem → Bool
  | .ipv4Address add _ => !add
  | .ipv6Address add _ => !add
  | .ipv4AttachedSubnet add _ => !add
  | .ipv6AttachedSubnet add _ => !add
  | _ => false

section ItemLoop

variable (msg : Message) (router initializing : Bool) (localExtensions : List ExtensionId)

/-- The item loop of `validate_message`: `types` and `addresses` are the sets of
item types and encoded address items met so far, and the final `types` is the
result. -/
def checkItems : List DataItem → List DataItemType → List (List UInt8) →
    Except StatusCode (List DataItemType)
  | [], types, _ => .ok types
  | .unknown _ :: items, types, addresses =>
    if initializing && unrecognizedExtension msg localExtensions then
      checkItems items types addresses
    else .error .invalidData
  | item :: items, types, addresses =>
    let t := item.typeId
    if !allowedItem msg.messageType router t then .error .invalidData
    else
      match item.encode [] with
      | (.error _, _) => .error .invalidData
      | (.ok (), bytes) =>
        if t.isAddress then
          if addresses.contains bytes then .error .invalidData
          else if initializing && isRemoval item then .error .invalidData
          else checkItems items types (bytes :: addresses)
        else if types.contains t then .error .invalidData
        else checkItems items (t :: types) addresses

end ItemLoop

def validateMessage (msg : Message) (router initializing : Bool)
    (localExtensions : List ExtensionId) : Except StatusCode Unit :=
  let mt := msg.messageType
  if !mt.isCore then .error .unknownMessage
  else if !expectedType mt router initializing then .error .unexpectedMessage
  else
    match checkItems msg router initializing localExtensions msg.dataItems [] [] with
    | .error e => .error e
    | .ok types =>
      if (requiredItems mt).any fun t => !types.contains t then .error .invalidData
      else if mt = linkCharacteristicsRequest && !types.any fun t =>
          t ∈ [DataItemType.currentDataRateReceive, .currentDataRateTransmit, .latency] then
        .error .invalidData
      else .ok ()

/-! ## Transactions -/

/-- The request kind a response type answers. -/
def responseKind (mt : MessageType) : Option RequestKind :=
  if mt = destinationUpResponse then some .destinationUp
  else if mt = destinationDownResponse then some .destinationDown
  else if mt = destinationAnnounceResponse then some .destinationAnnounce
  else if mt = linkCharacteristicsResponse then some .linkCharacteristics
  else none

/-- The destination rules of `validate_transaction`, for a message about `mac`. -/
def validateDestinationTransaction (mt : MessageType) (mac : MacAddress)
    (tx : TransactionTracker) (destinationUp? : Bool) : Except StatusCode Unit :=
  match responseKind mt with
  | some kind =>
    if tx.pending mac = some kind then .ok () else .error .unexpectedMessage
  | none =>
    if mt ∈ [destinationUp, destinationAnnounce, destinationDown, linkCharacteristicsRequest]
        && tx.destinationBusy mac then
      .error .unexpectedMessage
    else if mt ∈ [destinationUpdate, destinationDown, linkCharacteristicsRequest]
        && !destinationUp? then
      .error .invalidDestination
    else if mt ∈ [destinationUp, destinationAnnounce] && destinationUp? then
      .error .unexpectedMessage
    else .ok ()

def validateTransaction (msg : Message) (tx : TransactionTracker) (destinationUp? : Bool) :
    Except StatusCode Unit :=
  let mt := msg.messageType
  if mt = sessionUpdate && tx.sessionBusy then .error .unexpectedMessage
  else if mt = sessionUpdateResponse
      && tx.sessionPending.map PendingRequest.kind ≠ some .sessionUpdate then
    .error .unexpectedMessage
  else
    match extractDestinationMac msg with
    | some mac => validateDestinationTransaction mt mac tx destinationUp?
    | none => .ok ()

end Dlep
