/-
The two decoders of SimpleOrderBook.hpp: `applyMessage` reads a struct in host
order, `applyPacket` a length-prefixed struct in network order.  The host is
little-endian, so the network conversions are byte swaps.

Spans are byte lists.  The second half of the module splits each decoder into
reading a message and applying it, which is how later results use them.
-/

import Waler.Book.SimpleOrderBook

universe u

namespace Waler

open MarketData
open PackedLayout (word8 word16 word32 word64)

/-! ### Byte order and copying -/

def fromNetwork16 (value : UInt16) : UInt16 :=
  word16.byteSwap value

def fromNetwork32 (value : UInt32) : UInt32 :=
  word32.byteSwap value

def fromNetwork64 (value : UInt64) : UInt64 :=
  word64.byteSwap value

@[simp] theorem fromNetwork32_fromNetwork32 (value : UInt32) :
    fromNetwork32 (fromNetwork32 value) = value :=
  word32.byteSwap_byteSwap value

@[simp] theorem fromNetwork64_fromNetwork64 (value : UInt64) :
    fromNetwork64 (fromNetwork64 value) = value :=
  word64.byteSwap_byteSwap value

namespace MarketData

def AddOrderMessage.fromNetwork (message : AddOrderMessage) : AddOrderMessage :=
  { message with
    timestampNs := fromNetwork64 message.timestampNs
    orderId := fromNetwork32 message.orderId
    price := fromNetwork32 message.price
    quantity := fromNetwork32 message.quantity }

def CancelOrderMessage.fromNetwork (message : CancelOrderMessage) :
    CancelOrderMessage :=
  { message with
    timestampNs := fromNetwork64 message.timestampNs
    orderId := fromNetwork32 message.orderId
    quantity := fromNetwork32 message.quantity }

def ExecuteMessage.fromNetwork (message : ExecuteMessage) : ExecuteMessage :=
  { message with
    timestampNs := fromNetwork64 message.timestampNs
    orderId := fromNetwork32 message.orderId
    execQty := fromNetwork32 message.execQty
    execPrice := fromNetwork32 message.execPrice }

def QuoteMessage.fromNetwork (message : QuoteMessage) : QuoteMessage :=
  { message with
    timestampNs := fromNetwork64 message.timestampNs
    bidPrice := fromNetwork32 message.bidPrice
    bidQty := fromNetwork32 message.bidQty
    askPrice := fromNetwork32 message.askPrice
    askQty := fromNetwork32 message.askQty }

end MarketData

namespace SimpleOrderBook

/-- `copyMessage`, failing unless the payload is exactly one struct. -/
def copyMessage {α : Type u} (layout : PackedLayout α)
    (payload : List UInt8) : Option α :=
  if payload.length ≠ layout.size then none else some (layout.decode payload)

/-! ### The decoders -/

def applyPayload {α : Type u} (layout : PackedLayout α)
    (overload : SimpleOrderBook → α → Bool × SimpleOrderBook)
    (book : SimpleOrderBook) (payload : List UInt8) : Bool × SimpleOrderBook :=
  if payload.length ≠ layout.size then (false, book)
  else overload book (layout.decode payload)

def applyMessage (book : SimpleOrderBook) (payload : List UInt8) :
    Bool × SimpleOrderBook :=
  match payload with
  | [] => (false, book)
  | msgType :: _ =>
      match MessageType.ofByte? msgType with
      | some .addOrder =>
          applyPayload AddOrderMessage.layout applyAddOrder book payload
      | some .cancelOrder =>
          applyPayload CancelOrderMessage.layout applyCancelOrder book payload
      | some .execute =>
          applyPayload ExecuteMessage.layout applyExecute book payload
      | some .quote =>
          applyPayload QuoteMessage.layout applyQuote book payload
      | none => (false, book)

def applyNetworkPayload (book : SimpleOrderBook) (payload : List UInt8) :
    Bool × SimpleOrderBook :=
  match payload with
  | [] => (false, book)
  | msgType :: _ =>
      match MessageType.ofByte? msgType with
      | some .addOrder =>
          match copyMessage AddOrderMessage.layout payload with
          | none => (false, book)
          | some message => book.applyAddOrder message.fromNetwork
      | some .cancelOrder =>
          match copyMessage CancelOrderMessage.layout payload with
          | none => (false, book)
          | some message => book.applyCancelOrder message.fromNetwork
      | some .execute =>
          match copyMessage ExecuteMessage.layout payload with
          | none => (false, book)
          | some message => book.applyExecute message.fromNetwork
      | some .quote =>
          match copyMessage QuoteMessage.layout payload with
          | none => (false, book)
          | some message => book.applyQuote message.fromNetwork
      | none => (false, book)

def applyPacket (book : SimpleOrderBook) (packet : List UInt8) :
    Bool × SimpleOrderBook :=
  if packet.length < word16.size then (false, book)
  else
    let wireLen := word16.decode (packet.take word16.size)
    let payloadSize := (fromNetwork16 wireLen).toNat
    let packetSize := word16.size + payloadSize
    if packet.length < packetSize then (false, book)
    else
      book.applyNetworkPayload
        ((packet.drop word16.size).take payloadSize)

end SimpleOrderBook

/-! ### Reading a message -/

namespace MarketData

def Message.fromNetwork : Message → Message
  | .addOrder message => .addOrder message.fromNetwork
  | .cancelOrder message => .cancelOrder message.fromNetwork
  | .execute message => .execute message.fromNetwork
  | .quote message => .quote message.fromNetwork

@[simp] theorem Message.fromNetwork_fromNetwork (message : Message) :
    message.fromNetwork.fromNetwork = message := by
  cases message <;>
    simp only [Message.fromNetwork, AddOrderMessage.fromNetwork,
      CancelOrderMessage.fromNetwork, ExecuteMessage.fromNetwork,
      QuoteMessage.fromNetwork, fromNetwork32_fromNetwork32,
      fromNetwork64_fromNetwork64]

@[simp] theorem Message.fromNetwork_type (message : Message) :
    message.fromNetwork.type = message.type := by
  cases message <;> simp only [Message.fromNetwork, Message.type]

@[simp] theorem Message.fromNetwork_header (message : Message) :
    message.fromNetwork.header = message.header := by
  cases message <;>
    simp only [Message.fromNetwork, Message.header,
      AddOrderMessage.fromNetwork, CancelOrderMessage.fromNetwork,
      ExecuteMessage.fromNetwork, QuoteMessage.fromNetwork]

theorem Message.fromNetwork_tagged {message : Message}
    (tagged : message.Tagged) : message.fromNetwork.Tagged := by
  unfold Message.Tagged at tagged ⊢
  rw [Message.fromNetwork_header, Message.fromNetwork_type]
  exact tagged

/-- The struct of a type that a payload holds, its fields as they stand in
memory. -/
def MessageType.read? (payload : List UInt8) : MessageType → Option Message
  | .addOrder =>
      (SimpleOrderBook.copyMessage AddOrderMessage.layout payload).map
        Message.addOrder
  | .cancelOrder =>
      (SimpleOrderBook.copyMessage CancelOrderMessage.layout payload).map
        Message.cancelOrder
  | .execute =>
      (SimpleOrderBook.copyMessage ExecuteMessage.layout payload).map
        Message.execute
  | .quote =>
      (SimpleOrderBook.copyMessage QuoteMessage.layout payload).map
        Message.quote

def structMessage? (payload : List UInt8) : Option Message :=
  (payload.head?.bind MessageType.ofByte?).bind (MessageType.read? payload)

section Copying

variable {α : Type u} {layout : PackedLayout α} {payload : List UInt8}

theorem copyMessage_encode (layout : PackedLayout α) (value : α) :
    SimpleOrderBook.copyMessage layout (layout.encode value) = some value := by
  unfold SimpleOrderBook.copyMessage
  rw [if_neg (not_not.mpr (layout.encode_length value)), layout.decode_encode]

theorem encode_of_copyMessage {value : α}
    (copied : SimpleOrderBook.copyMessage layout payload = some value) :
    layout.encode value = payload := by
  unfold SimpleOrderBook.copyMessage at copied
  split at copied
  · cases copied
  · rename_i sized
    cases copied
    exact layout.encode_decode payload (not_not.mp sized)

theorem copyMessage_isSome_iff :
    (SimpleOrderBook.copyMessage layout payload).isSome ↔
      payload.length = layout.size := by
  unfold SimpleOrderBook.copyMessage
  by_cases sized : payload.length = layout.size
  · rw [if_neg (not_not.mpr sized)]
    exact ⟨fun _ => sized, fun _ => rfl⟩
  · rw [if_pos sized]
    constructor
    · intro impossible
      cases impossible
    · intro same
      exact absurd same sized

end Copying

theorem MessageType.read?_bytes (message : Message) :
    message.type.read? message.bytes = some message := by
  cases message with
  | addOrder message =>
      exact congrArg (Option.map Message.addOrder)
        (copyMessage_encode AddOrderMessage.layout message)
  | cancelOrder message =>
      exact congrArg (Option.map Message.cancelOrder)
        (copyMessage_encode CancelOrderMessage.layout message)
  | execute message =>
      exact congrArg (Option.map Message.execute)
        (copyMessage_encode ExecuteMessage.layout message)
  | quote message =>
      exact congrArg (Option.map Message.quote)
        (copyMessage_encode QuoteMessage.layout message)

theorem MessageType.read?_eq_some {type : MessageType} {payload : List UInt8}
    {message : Message} (read : type.read? payload = some message) :
    message.bytes = payload ∧ message.type = type := by
  cases type <;>
    rcases Option.map_eq_some_iff.mp read with ⟨inner, copied, rfl⟩ <;>
    exact ⟨encode_of_copyMessage copied, rfl⟩

theorem MessageType.read?_isSome_iff (type : MessageType)
    (payload : List UInt8) :
    (type.read? payload).isSome ↔ payload.length = type.structSize := by
  cases type <;> rw [read?, Option.isSome_map] <;> exact copyMessage_isSome_iff

theorem structMessage?_bytes {message : Message} (tagged : message.Tagged) :
    structMessage? message.bytes = some message := by
  rcases message.bytes_header with ⟨fields, headed⟩
  have first : message.bytes.head? = some message.type.toByte := by
    rw [headed, tagged]
    rfl
  unfold structMessage?
  rw [first, Option.bind_some, MessageType.ofByte?_toByte, Option.bind_some]
  exact MessageType.read?_bytes message

theorem bytes_of_structMessage? {payload : List UInt8} {message : Message}
    (read : structMessage? payload = some message) :
    message.bytes = payload ∧ message.Tagged := by
  rcases Option.bind_eq_some_iff.mp read with ⟨type, selected, readType⟩
  rcases Option.bind_eq_some_iff.mp selected with ⟨msgType, first, named⟩
  rcases MessageType.read?_eq_some readType with ⟨bytesEq, typeEq⟩
  rcases message.bytes_header with ⟨fields, headed⟩
  have sameByte : message.header.msgType = msgType := by
    rw [← bytesEq, headed] at first
    exact Option.some.inj first
  refine ⟨bytesEq, ?_⟩
  rw [Message.Tagged, sameByte, typeEq]
  exact (MessageType.ofByte?_eq_some_iff msgType type).mp named

/-- A payload reads as a message exactly when its first byte names a type and
its length is that type's struct size. -/
theorem structMessage?_isSome_iff (payload : List UInt8) :
    (structMessage? payload).isSome ↔
      ∃ type : MessageType, payload.head? = some type.toByte ∧
        payload.length = type.structSize := by
  constructor
  · intro read
    rcases Option.isSome_iff_exists.mp read with ⟨message, messageEq⟩
    rcases bytes_of_structMessage? messageEq with ⟨bytesEq, tagged⟩
    rcases message.bytes_header with ⟨fields, headed⟩
    refine ⟨message.type, ?_, ?_⟩
    · rw [← bytesEq, headed, tagged]
      rfl
    · rw [← bytesEq, message.bytes_length]
  · rintro ⟨type, first, sized⟩
    unfold structMessage?
    rw [first, Option.bind_some, MessageType.ofByte?_toByte, Option.bind_some]
    exact (type.read?_isSome_iff payload).mpr sized

end MarketData

/-! ### Reading, then applying -/

namespace SimpleOrderBook

def applyRead (book : SimpleOrderBook) : Option Message → Bool × SimpleOrderBook
  | none => (false, book)
  | some message => book.apply message

theorem applyPayload_eq {α : Type u} (layout : PackedLayout α)
    (overload : SimpleOrderBook → α → Bool × SimpleOrderBook)
    (book : SimpleOrderBook) (payload : List UInt8) :
    applyPayload layout overload book payload =
      match copyMessage layout payload with
      | none => (false, book)
      | some message => overload book message := by
  unfold applyPayload copyMessage
  by_cases sized : payload.length ≠ layout.size
  · rw [if_pos sized, if_pos sized]
  · rw [if_neg sized, if_neg sized]

theorem applyMessage_eq (book : SimpleOrderBook) (payload : List UInt8) :
    book.applyMessage payload = book.applyRead (structMessage? payload) := by
  cases payload with
  | nil => rfl
  | cons msgType fields =>
      simp only [applyMessage, structMessage?, List.head?_cons,
        Option.bind_some, applyPayload_eq]
      cases MessageType.ofByte? msgType with
      | none => rfl
      | some type =>
          cases type with
          | addOrder =>
              simp only [Option.bind_some, MessageType.read?]
              cases copyMessage AddOrderMessage.layout (msgType :: fields) <;>
                simp only [Option.map, applyRead, apply]
          | cancelOrder =>
              simp only [Option.bind_some, MessageType.read?]
              cases copyMessage CancelOrderMessage.layout (msgType :: fields) <;>
                simp only [Option.map, applyRead, apply]
          | execute =>
              simp only [Option.bind_some, MessageType.read?]
              cases copyMessage ExecuteMessage.layout (msgType :: fields) <;>
                simp only [Option.map, applyRead, apply]
          | quote =>
              simp only [Option.bind_some, MessageType.read?]
              cases copyMessage QuoteMessage.layout (msgType :: fields) <;>
                simp only [Option.map, applyRead, apply]

/-- `applyNetworkPayload` reads a struct, swaps its fields into host order and
applies it. -/
theorem applyNetworkPayload_eq (book : SimpleOrderBook)
    (payload : List UInt8) :
    book.applyNetworkPayload payload =
      book.applyRead ((structMessage? payload).map Message.fromNetwork) := by
  cases payload with
  | nil => rfl
  | cons msgType fields =>
      simp only [applyNetworkPayload, structMessage?, List.head?_cons,
        Option.bind_some]
      cases MessageType.ofByte? msgType with
      | none => rfl
      | some type =>
          cases type with
          | addOrder =>
              simp only [Option.bind_some, MessageType.read?]
              cases copyMessage AddOrderMessage.layout (msgType :: fields) <;>
                simp only [Option.map, applyRead, apply, Message.fromNetwork]
          | cancelOrder =>
              simp only [Option.bind_some, MessageType.read?]
              cases copyMessage CancelOrderMessage.layout (msgType :: fields) <;>
                simp only [Option.map, applyRead, apply, Message.fromNetwork]
          | execute =>
              simp only [Option.bind_some, MessageType.read?]
              cases copyMessage ExecuteMessage.layout (msgType :: fields) <;>
                simp only [Option.map, applyRead, apply, Message.fromNetwork]
          | quote =>
              simp only [Option.bind_some, MessageType.read?]
              cases copyMessage QuoteMessage.layout (msgType :: fields) <;>
                simp only [Option.map, applyRead, apply, Message.fromNetwork]

end SimpleOrderBook

end Waler
