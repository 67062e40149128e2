/-
The market-data messages of MarketData.hpp and their packed layouts.

Field values are machine words exactly as wide as the source's.  A header
holds a raw byte: the enumeration there has a fixed underlying type, and any
byte can be copied into it from the network.
-/

import Waler.Foundation.PackedLayout

namespace Waler

abbrev PriceCents := UInt32

namespace MarketData

open PackedLayout (word8 word32 word64 byteArray)

def symbolLen : ℕ := 8

inductive MessageType
  | addOrder
  | cancelOrder
  | execute
  | quote
  deriving DecidableEq, Repr

def MessageType.toByte : MessageType → UInt8
  | .addOrder => 'A'.toUInt8
  | .cancelOrder => 'X'.toUInt8
  | .execute => 'E'.toUInt8
  | .quote => 'Q'.toUInt8

/-- The message type a `switch` on a header byte selects, if any. -/
def MessageType.ofByte? (byte : UInt8) : Option MessageType :=
  if byte = MessageType.addOrder.toByte then some .addOrder
  else if byte = MessageType.cancelOrder.toByte then some .cancelOrder
  else if byte = MessageType.execute.toByte then some .execute
  else if byte = MessageType.quote.toByte then some .quote
  else none

@[simp] theorem MessageType.ofByte?_toByte (type : MessageType) :
    MessageType.ofByte? type.toByte = some type := by
  cases type <;> decide

theorem MessageType.ofByte?_eq_some_iff (byte : UInt8) (type : MessageType) :
    MessageType.ofByte? byte = some type ↔ byte = type.toByte := by
  constructor
  · intro selected
    unfold MessageType.ofByte? at selected
    split at selected
    · cases selected
      assumption
    · split at selected
      · cases selected
        assumption
      · split at selected
        · cases selected
          assumption
        · split at selected
          · cases selected
            assumption
          · cases selected
  · intro same
    rw [same, MessageType.ofByte?_toByte]

structure MessageHeader where
  msgType : UInt8
  deriving DecidableEq, Repr

structure AddOrderMessage where
  header : MessageHeader
  timestampNs : UInt64
  orderId : UInt32
  side : UInt8
  price : PriceCents
  quantity : UInt32
  symbol : Vector UInt8 symbolLen
  deriving DecidableEq

structure CancelOrderMessage where
  header : MessageHeader
  timestampNs : UInt64
  orderId : UInt32
  quantity : UInt32
  deriving DecidableEq

structure ExecuteMessage where
  header : MessageHeader
  timestampNs : UInt64
  orderId : UInt32
  execQty : UInt32
  execPrice : PriceCents
  deriving DecidableEq

structure QuoteMessage where
  header : MessageHeader
  timestampNs : UInt64
  bidPrice : PriceCents
  bidQty : UInt32
  askPrice : PriceCents
  askQty : UInt32
  deriving DecidableEq

/-! ### Packed layouts

Each record is presented as the product of its fields in declaration order,
which is the order of its bytes. -/

def MessageHeader.layout : PackedLayout MessageHeader :=
  word8.via
    { toFun := fun msgType => ⟨msgType⟩
      invFun := fun header => header.msgType
      left_inv := fun _ => rfl
      right_inv := fun _ => rfl }

def AddOrderMessage.layout : PackedLayout AddOrderMessage :=
  (MessageHeader.layout.pair <| word64.pair <| word32.pair <| word8.pair <|
    word32.pair <| word32.pair (byteArray symbolLen)).via
    { toFun := fun ⟨header, timestampNs, orderId, side, price, quantity,
          symbol⟩ =>
        ⟨header, timestampNs, orderId, side, price, quantity, symbol⟩
      invFun := fun message =>
        (message.header, message.timestampNs, message.orderId, message.side,
          message.price, message.quantity, message.symbol)
      left_inv := fun _ => rfl
      right_inv := fun _ => rfl }

def CancelOrderMessage.layout : PackedLayout CancelOrderMessage :=
  (MessageHeader.layout.pair <| word64.pair <| word32.pair word32).via
    { toFun := fun ⟨header, timestampNs, orderId, quantity⟩ =>
        ⟨header, timestampNs, orderId, quantity⟩
      invFun := fun message =>
        (message.header, message.timestampNs, message.orderId,
          message.quantity)
      left_inv := fun _ => rfl
      right_inv := fun _ => rfl }

def ExecuteMessage.layout : PackedLayout ExecuteMessage :=
  (MessageHeader.layout.pair <| word64.pair <| word32.pair <|
    word32.pair word32).via
    { toFun := fun ⟨header, timestampNs, orderId, execQty, execPrice⟩ =>
        ⟨header, timestampNs, orderId, execQty, execPrice⟩
      invFun := fun message =>
        (message.header, message.timestampNs, message.orderId,
          message.execQty, message.execPrice)
      left_inv := fun _ => rfl
      right_inv := fun _ => rfl }

def QuoteMessage.layout : PackedLayout QuoteMessage :=
  (MessageHeader.layout.pair <| word64.pair <| word32.pair <| word32.pair <|
    word32.pair word32).via
    { toFun := fun ⟨header, timestampNs, bidPrice, bidQty, askPrice,
          askQty⟩ =>
        ⟨header, timestampNs, bidPrice, bidQty, askPrice, askQty⟩
      invFun := fun message =>
        (message.header, message.timestampNs, message.bidPrice,
          message.bidQty, message.askPrice, message.askQty)
      left_inv := fun _ => rfl
      right_inv := fun _ => rfl }

/-! The sizes the source asserts. -/

theorem AddOrderMessage.layout_size : AddOrderMessage.layout.size = 30 :=
  rfl

theorem CancelOrderMessage.layout_size : CancelOrderMessage.layout.size = 17 :=
  rfl

theorem ExecuteMessage.layout_size : ExecuteMessage.layout.size = 21 :=
  rfl

theorem QuoteMessage.layout_size : QuoteMessage.layout.size = 25 :=
  rfl

/-! ### Messages of any type -/

inductive Message
  | addOrder (message : AddOrderMessage)
  | cancelOrder (message : CancelOrderMessage)
  | execute (message : ExecuteMessage)
  | quote (message : QuoteMessage)
  deriving DecidableEq

namespace Message

def type : Message → MessageType
  | .addOrder _ => .addOrder
  | .cancelOrder _ => .cancelOrder
  | .execute _ => .execute
  | .quote _ => .quote

def header : Message → MessageHeader
  | .addOrder message => message.header
  | .cancelOrder message => message.header
  | .execute message => message.header
  | .quote message => message.header

/-- The header byte is the one of the message's own type, as every builder
sets it. -/
def Tagged (message : Message) : Prop :=
  message.header.msgType = message.type.toByte

instance (message : Message) : Decidable message.Tagged :=
  inferInstanceAs (Decidable (_ = _))

def bytes : Message → List UInt8
  | .addOrder message => AddOrderMessage.layout.encode message
  | .cancelOrder message => CancelOrderMessage.layout.encode message
  | .execute message => ExecuteMessage.layout.encode message
  | .quote message => QuoteMessage.layout.encode message

end Message

def MessageType.structSize : MessageType → ℕ
  | .addOrder => AddOrderMessage.layout.size
  | .cancelOrder => CancelOrderMessage.layout.size
  | .execute => ExecuteMessage.layout.size
  | .quote => QuoteMessage.layout.size

theorem MessageType.structSize_bounds (type : MessageType) :
    17 ≤ type.structSize ∧ type.structSize ≤ 30 := by
  cases type <;> decide

theorem Message.bytes_length (message : Message) :
    message.bytes.length = message.type.structSize := by
  cases message with
  | addOrder message => exact AddOrderMessage.layout.encode_length message
  | cancelOrder message => exact CancelOrderMessage.layout.encode_length message
  | execute message => exact ExecuteMessage.layout.encode_length message
  | quote message => exact QuoteMessage.layout.encode_length message

theorem MessageHeader.layout_encode (header : MessageHeader) :
    MessageHeader.layout.encode header = [header.msgType] :=
  congrArg (fun byte => [byte]) UInt8.ofNat_toNat

theorem Message.bytes_header (message : Message) :
    ∃ fields, message.bytes = message.header.msgType :: fields := by
  cases message with
  | addOrder message =>
      exact ⟨_, congrArg (· ++ _) (MessageHeader.layout_encode message.header)⟩
  | cancelOrder message =>
      exact ⟨_, congrArg (· ++ _) (MessageHeader.layout_encode message.header)⟩
  | execute message =>
      exact ⟨_, congrArg (· ++ _) (MessageHeader.layout_encode message.header)⟩
  | quote message =>
      exact ⟨_, congrArg (· ++ _) (MessageHeader.layout_encode message.header)⟩

end MarketData

end Waler
