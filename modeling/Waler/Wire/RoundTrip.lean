/-
Round trips between the encoders and the packet decoder.

A packet is a two-byte length in network order followed by a packed struct
whose integer fields are in network order.  The generator and the strategy
write packets, the book reads them; each was written by hand.
-/

import Waler.Book.Acceptance
import Waler.Strategy.QuoteEncoder

namespace Waler

open MarketData
open PackedLayout (word16)

namespace MarketData

/-- The message with its integer fields in network order, as the builders
fill them in. -/
def Message.toNetwork : Message → Message
  | .addOrder message => .addOrder
      { message with
        timestampNs := toNetwork64 message.timestampNs
        orderId := toNetwork32 message.orderId
        price := toNetwork32 message.price
        quantity := toNetwork32 message.quantity }
  | .cancelOrder message => .cancelOrder
      { message with
        timestampNs := toNetwork64 message.timestampNs
        orderId := toNetwork32 message.orderId
        quantity := toNetwork32 message.quantity }
  | .execute message => .execute
      { message with
        timestampNs := toNetwork64 message.timestampNs
        orderId := toNetwork32 message.orderId
        execQty := toNetwork32 message.execQty
        execPrice := toNetwork32 message.execPrice }
  | .quote message => .quote
      { message with
        timestampNs := toNetwork64 message.timestampNs
        bidPrice := toNetwork32 message.bidPrice
        bidQty := toNetwork32 message.bidQty
        askPrice := toNetwork32 message.askPrice
        askQty := toNetwork32 message.askQty }

def Message.write (capacity : ℕ) : Message → Option (List UInt8)
  | .addOrder message => writeMessage AddOrderMessage.layout capacity message
  | .cancelOrder message =>
      writeMessage CancelOrderMessage.layout capacity message
  | .execute message => writeMessage ExecuteMessage.layout capacity message
  | .quote message => writeMessage QuoteMessage.layout capacity message

/-- Swapping the bytes is its own inverse, so one conversion serves both
directions. -/
theorem Message.toNetwork_eq_fromNetwork (message : Message) :
    message.toNetwork = message.fromNetwork := by
  cases message <;>
    simp only [Message.toNetwork, Message.fromNetwork,
      AddOrderMessage.fromNetwork, CancelOrderMessage.fromNetwork,
      ExecuteMessage.fromNetwork, QuoteMessage.fromNetwork, toNetwork32,
      toNetwork64, fromNetwork32, fromNetwork64]

end MarketData

def lengthBytes (size : ℕ) : List UInt8 :=
  word16.encode (toNetwork16 (UInt16.ofNat size))

theorem lengthBytes_length (size : ℕ) : (lengthBytes size).length = 2 :=
  word16.encode_length _

theorem lengthBytes_eq {size : ℕ} (fits : size < 2 ^ 16) :
    lengthBytes size = bigEndian16 size := by
  have value : (UInt16.ofNat size).toNat = size :=
    UInt16.toNat_ofNat_of_lt' fits
  unfold lengthBytes toNetwork16
  rw [PackedLayout.encode_byteSwap_word16, value]

theorem lengthPrefix_append (size : ℕ) (fits : size < 2 ^ 16)
    (rest : List UInt8) : lengthPrefix (lengthBytes size ++ rest) = size := by
  rw [lengthBytes_eq fits]
  exact lengthPrefix_bigEndian16 fits rest

theorem lengthBytes_lengthPrefix {packet : List UInt8}
    (prefixed : 2 ≤ packet.length) :
    lengthBytes (lengthPrefix packet) = packet.take 2 := by
  have sized : (packet.take 2).reverse.length = 2 := by
    rw [List.length_reverse, List.length_take]
    omega
  have bound := littleEndianValue_lt (packet.take 2).reverse
  rw [sized] at bound
  have value : (UInt16.ofNat (lengthPrefix packet)).toNat =
      littleEndianValue (packet.take 2).reverse :=
    UInt16.toNat_ofNat_of_lt' bound
  have digits := littleEndianBytes_value (packet.take 2).reverse
  rw [sized] at digits
  unfold lengthBytes toNetwork16
  rw [PackedLayout.encode_byteSwap]
  change (littleEndianBytes 2
    (UInt16.ofNat (lengthPrefix packet)).toNat).reverse = packet.take 2
  rw [value, digits, List.reverse_reverse]

theorem MarketData.Message.write_eq (message : Message) (capacity : ℕ) :
    message.write capacity =
      if capacity < 2 + message.type.structSize then none
      else some (lengthBytes message.type.structSize ++ message.bytes) := by
  cases message <;> rfl

theorem packetMessage?_written {message : Message} (tagged : message.Tagged)
    (trailing : List UInt8) :
    packetMessage? (lengthBytes message.type.structSize ++
      (message.toNetwork.bytes ++ trailing)) = some message := by
  have largest := message.type.structSize_bounds.2
  have fits : message.type.structSize < 2 ^ 16 := by
    omega
  have announced := lengthPrefix_append message.type.structSize fits
    (message.toNetwork.bytes ++ trailing)
  have bytesLength :
      message.toNetwork.bytes.length = message.type.structSize := by
    rw [Message.bytes_length, Message.toNetwork_eq_fromNetwork,
      Message.fromNetwork_type]
  have complete : 2 + message.type.structSize ≤
      (lengthBytes message.type.structSize ++
        (message.toNetwork.bytes ++ trailing)).length := by
    rw [List.length_append, List.length_append, lengthBytes_length,
      bytesLength]
    omega
  unfold packetMessage? packetPayload?
  rw [announced, if_pos ⟨by omega, complete⟩, Option.bind_some,
    List.drop_left' (lengthBytes_length _), List.take_left' bytesLength,
    Message.toNetwork_eq_fromNetwork,
    structMessage?_bytes (Message.fromNetwork_tagged tagged),
    Option.map_some, Message.fromNetwork_fromNetwork]

theorem MarketData.Message.write_eq_none_iff (message : Message)
    (capacity : ℕ) :
    message.toNetwork.write capacity = none ↔
      capacity < 2 + message.type.structSize := by
  have typeEq : message.toNetwork.type = message.type := by
    rw [Message.toNetwork_eq_fromNetwork, Message.fromNetwork_type]
  rw [Message.write_eq, typeEq, ite_eq_left_iff]
  constructor
  · intro absent
    by_contra enough
    cases absent enough
  · intro short enough
    exact absurd short enough

theorem MarketData.Message.write_isSome (message : Message) {capacity : ℕ}
    (room : 2 + message.type.structSize ≤ capacity) :
    ∃ packet, message.toNetwork.write capacity = some packet := by
  have written : message.toNetwork.write capacity ≠ none := by
    rw [Ne, message.write_eq_none_iff]
    omega
  exact Option.ne_none_iff_exists'.mp written

theorem packetMessage?_of_write {message : Message} (tagged : message.Tagged)
    {capacity : ℕ} {packet : List UInt8}
    (written : message.toNetwork.write capacity = some packet) :
    packet.length = 2 + message.type.structSize ∧
      packetMessage? packet = some message := by
  have typeEq : message.toNetwork.type = message.type := by
    rw [Message.toNetwork_eq_fromNetwork, Message.fromNetwork_type]
  have read := packetMessage?_written tagged []
  rw [Message.write_eq, typeEq] at written
  split at written
  · cases written
  · cases written
    rw [List.append_nil] at read
    refine ⟨?_, read⟩
    rw [List.length_append, lengthBytes_length, Message.bytes_length, typeEq]

/-- With capacity for it, a message is written as a packet that applies like
the message itself. -/
theorem applyPacket_written {message : Message} (tagged : message.Tagged)
    {capacity : ℕ} (room : 2 + message.type.structSize ≤ capacity) :
    ∃ packet, message.toNetwork.write capacity = some packet ∧
      packet.length = 2 + message.type.structSize ∧
      lengthPrefix packet = message.type.structSize ∧
      ∀ book : SimpleOrderBook,
        book.applyPacket packet = book.apply message := by
  obtain ⟨packet, written⟩ := message.write_isSome room
  obtain ⟨sized, read⟩ := packetMessage?_of_write tagged written
  obtain ⟨_, announced, _⟩ := SimpleOrderBook.packetMessage?_fields read
  rw [← SimpleOrderBook.structSize_eq] at announced
  refine ⟨packet, written, sized, announced, ?_⟩
  intro book
  rw [SimpleOrderBook.applyPacket_eq, read]
  rfl

theorem write_packetMessage? {packet : List UInt8} {message : Message}
    (read : packetMessage? packet = some message) {capacity : ℕ}
    (room : 2 + lengthPrefix packet ≤ capacity) :
    message.toNetwork.write capacity =
      some (packet.take (2 + lengthPrefix packet)) := by
  obtain ⟨prefixed, _, bytesEq, _⟩ :=
    SimpleOrderBook.packetMessage?_eq_some read
  obtain ⟨_, sized, _⟩ := SimpleOrderBook.packetMessage?_fields read
  have typeEq : message.toNetwork.type = message.type := by
    rw [Message.toNetwork_eq_fromNetwork, Message.fromNetwork_type]
  rw [Message.write_eq, typeEq, SimpleOrderBook.structSize_eq, ← sized,
    if_neg (Nat.not_lt.mpr room), Message.toNetwork_eq_fromNetwork, bytesEq,
    lengthBytes_lengthPrefix prefixed, List.take_add]

theorem buildQuote_eq_encodeQuote (generator : PacketGenerator)
    (nowNs : UInt64) {capacity : ℕ} (room : 27 ≤ capacity)
    (bidDollars askDollars : ℚ) (qty : UInt32)
    (same : generator.quoteTop =
      { bid := Strategy.dollarsToCents bidDollars
        bidQty := qty
        ask := Strategy.dollarsToCents askDollars
        askQty := qty }) :
    generator.buildQuote nowNs capacity =
      some (Strategy.encodeQuote nowNs bidDollars askDollars qty) := by
  have enough : ¬ capacity < word16.size + QuoteMessage.layout.size :=
    Nat.not_lt.mpr room
  simp only [PacketGenerator.buildQuote, same, writeMessage, if_neg enough,
    Strategy.encodeQuote]

/-- The wire format round-trips: every message written is read back as it
was, every well-formed packet is written back as it was read, and the two
quote encoders agree. -/
theorem wire_round_trip :
    (∀ message : Message, message.Tagged →
      ∀ capacity, 2 + message.type.structSize ≤ capacity →
        ∃ packet, message.toNetwork.write capacity = some packet ∧
          packet.length = 2 + message.type.structSize ∧
          lengthPrefix packet = message.type.structSize ∧
          ∀ book : SimpleOrderBook,
            book.applyPacket packet = book.apply message) ∧
    (∀ packet : List UInt8, 2 ≤ packet.length →
      2 + lengthPrefix packet ≤ packet.length →
        (∃ type : MessageType, packet[2]? = some type.toByte ∧
          lengthPrefix packet = SimpleOrderBook.wireSize type) →
        ∃ message, packetMessage? packet = some message ∧
          (∀ book : SimpleOrderBook,
            book.applyPacket packet = book.apply message) ∧
          ∀ capacity, 2 + lengthPrefix packet ≤ capacity →
            message.toNetwork.write capacity =
              some (packet.take (2 + lengthPrefix packet))) ∧
    (∀ (generator : PacketGenerator) (nowNs : UInt64) (capacity : ℕ)
      (bidDollars askDollars : ℚ) (qty : UInt32), 27 ≤ capacity →
        generator.quoteTop =
          { bid := Strategy.dollarsToCents bidDollars
            bidQty := qty
            ask := Strategy.dollarsToCents askDollars
            askQty := qty } →
        generator.buildQuote nowNs capacity =
          some (Strategy.encodeQuote nowNs bidDollars askDollars qty)) := by
  refine ⟨?_, ?_, ?_⟩
  · intro message tagged capacity room
    exact applyPacket_written tagged room
  · intro packet prefixed complete typed
    have readable := (SimpleOrderBook.packetMessage?_isSome_iff packet).mpr
      ⟨prefixed, complete, typed⟩
    obtain ⟨message, read⟩ := Option.isSome_iff_exists.mp readable
    refine ⟨message, read, ?_, ?_⟩
    · intro book
      rw [SimpleOrderBook.applyPacket_eq, read]
      rfl
    · intro capacity room
      exact write_packetMessage? read room
  · intro generator nowNs capacity bidDollars askDollars qty room same
    exact buildQuote_eq_encodeQuote generator nowNs room bidDollars askDollars
      qty same

end Waler
