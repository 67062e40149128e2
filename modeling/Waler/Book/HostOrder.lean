/-
The host-order decoder against the network-order decoder.

Reversing the bytes of every integer field in place turns a payload in one
byte order into the payload of the same message in the other, so the two
hand-written dispatchers can be compared on all payloads, malformed ones
included.
-/

import Waler.Book.Acceptance

universe u

namespace Waler

open MarketData
open PackedLayout (word8 word16 word32 word64 byteArray)

/-! ### Reversing fields in place -/

/-- The leading fields of the given widths reversed, the rest kept. -/
def reverseFields : List ℕ → List UInt8 → List UInt8
  | [], bytes => bytes
  | width :: widths, bytes =>
      (bytes.take width).reverse ++ reverseFields widths (bytes.drop width)

theorem reverseFields_encode {α : Type u} (layout : PackedLayout α)
    (value : α) (widths : List ℕ) (rest : List UInt8) :
    reverseFields (layout.size :: widths) (layout.encode value ++ rest) =
      layout.encode (layout.byteSwap value) ++ reverseFields widths rest := by
  have sized := layout.encode_length value
  rw [layout.encode_byteSwap]
  change ((layout.encode value ++ rest).take layout.size).reverse ++
    reverseFields widths ((layout.encode value ++ rest).drop layout.size) = _
  rw [List.take_left' sized, List.drop_left' sized]

/-- The fields of a struct up to its last integer. -/
def fieldWidths : MessageType → List ℕ
  | .addOrder => [1, 8, 4, 1, 4, 4]
  | .cancelOrder => [1, 8, 4, 4]
  | .execute => [1, 8, 4, 4, 4]
  | .quote => [1, 8, 4, 4, 4, 4]

/-- The payload with the integer fields of the struct its first byte names
reversed in place, or as it is when it is not of that struct's size. -/
def hostOrder (payload : List UInt8) : List UInt8 :=
  match payload.head?.bind MessageType.ofByte? with
  | some type =>
      if payload.length = type.structSize then
        reverseFields (fieldWidths type) payload
      else payload
  | none => payload

/-! ### Structs in either byte order -/

theorem reverseFields_header (header : MessageHeader) (widths : List ℕ)
    (rest : List UInt8) :
    reverseFields (1 :: widths) (MessageHeader.layout.encode header ++ rest) =
      MessageHeader.layout.encode header ++ reverseFields widths rest := by
  rw [MessageHeader.layout_encode]
  rfl

theorem reverseFields_word8 (byte : UInt8) (widths : List ℕ)
    (rest : List UInt8) :
    reverseFields (1 :: widths) (word8.encode byte ++ rest) =
      word8.encode byte ++ reverseFields widths rest :=
  rfl

theorem reverseFields_word32 (value : UInt32) (widths : List ℕ)
    (rest : List UInt8) :
    reverseFields (4 :: widths) (word32.encode value ++ rest) =
      word32.encode (fromNetwork32 value) ++ reverseFields widths rest :=
  reverseFields_encode word32 value widths rest

theorem reverseFields_word64 (value : UInt64) (widths : List ℕ)
    (rest : List UInt8) :
    reverseFields (8 :: widths) (word64.encode value ++ rest) =
      word64.encode (fromNetwork64 value) ++ reverseFields widths rest :=
  reverseFields_encode word64 value widths rest

theorem reverseFields_last32 (value : UInt32) :
    reverseFields [4] (word32.encode value) =
      word32.encode (fromNetwork32 value) := by
  have appended := reverseFields_word32 value [] []
  rw [List.append_nil] at appended
  rw [appended]
  exact List.append_nil _

theorem addOrder_bytes (message : AddOrderMessage) :
    (Message.addOrder message).bytes =
      MessageHeader.layout.encode message.header ++
        (word64.encode message.timestampNs ++
          (word32.encode message.orderId ++ (word8.encode message.side ++
            (word32.encode message.price ++ (word32.encode message.quantity ++
              (byteArray symbolLen).encode message.symbol))))) :=
  rfl

theorem reverseFields_bytes (message : Message) :
    reverseFields (fieldWidths message.type) message.bytes =
      message.fromNetwork.bytes := by
  cases message with
  | addOrder message =>
      have widths : fieldWidths (Message.addOrder message).type =
          [1, 8, 4, 1, 4, 4] := rfl
      rw [addOrder_bytes, widths, reverseFields_header, reverseFields_word64,
        reverseFields_word32, reverseFields_word8, reverseFields_word32,
        reverseFields_word32]
      simp only [Message.fromNetwork, addOrder_bytes,
        AddOrderMessage.fromNetwork, reverseFields]
  | cancelOrder message =>
      change reverseFields [1, 8, 4, 4]
        (MessageHeader.layout.encode message.header ++
          (word64.encode message.timestampNs ++
            (word32.encode message.orderId ++
              word32.encode message.quantity))) = _
      rw [reverseFields_header, reverseFields_word64, reverseFields_word32,
        reverseFields_last32]
      rfl
  | execute message =>
      change reverseFields [1, 8, 4, 4, 4]
        (MessageHeader.layout.encode message.header ++
          (word64.encode message.timestampNs ++
            (word32.encode message.orderId ++
              (word32.encode message.execQty ++
                word32.encode message.execPrice)))) = _
      rw [reverseFields_header, reverseFields_word64, reverseFields_word32,
        reverseFields_word32, reverseFields_last32]
      rfl
  | quote message =>
      change reverseFields [1, 8, 4, 4, 4, 4]
        (MessageHeader.layout.encode message.header ++
          (word64.encode message.timestampNs ++
            (word32.encode message.bidPrice ++
              (word32.encode message.bidQty ++
                (word32.encode message.askPrice ++
                  word32.encode message.askQty))))) = _
      rw [reverseFields_header, reverseFields_word64, reverseFields_word32,
        reverseFields_word32, reverseFields_word32, reverseFields_last32]
      rfl

theorem hostOrder_bytes {message : Message} (tagged : message.Tagged) :
    hostOrder message.bytes = message.fromNetwork.bytes := by
  obtain ⟨fields, headed⟩ := message.bytes_header
  have named : message.bytes.head?.bind MessageType.ofByte? =
      some message.type := by
    rw [headed, tagged]
    exact MessageType.ofByte?_toByte message.type
  unfold hostOrder
  rw [named]
  dsimp only
  rw [if_pos message.bytes_length, reverseFields_bytes]

/-- A payload that is no struct stays as it is. -/
theorem hostOrder_of_unreadable {payload : List UInt8}
    (unreadable : structMessage? payload = none) :
    hostOrder payload = payload := by
  unfold hostOrder
  cases named : payload.head?.bind MessageType.ofByte? with
  | none => rfl
  | some type =>
      have otherSize : payload.length ≠ type.structSize := by
        intro sized
        have readable := (type.read?_isSome_iff payload).mpr sized
        unfold structMessage? at unreadable
        rw [named, Option.bind_some] at unreadable
        rw [unreadable] at readable
        cases readable
      exact if_neg otherSize

theorem structMessage?_hostOrder (payload : List UInt8) :
    structMessage? (hostOrder payload) =
      (structMessage? payload).map Message.fromNetwork := by
  cases read : structMessage? payload with
  | none =>
      rw [hostOrder_of_unreadable read, read]
      rfl
  | some message =>
      obtain ⟨bytesEq, tagged⟩ := bytes_of_structMessage? read
      rw [← bytesEq, hostOrder_bytes tagged,
        structMessage?_bytes (Message.fromNetwork_tagged tagged)]
      rfl

/-! ### Both decoders -/

namespace SimpleOrderBook

theorem packetPayload?_framed (payload trailing : List UInt8)
    (fits : payload.length ≤ 65535) :
    packetPayload? (bigEndian16 payload.length ++ (payload ++ trailing)) =
      some payload := by
  have announced := lengthPrefix_bigEndian16
    (show payload.length < 65536 by omega) (payload ++ trailing)
  have complete : 2 + payload.length ≤
      (bigEndian16 payload.length ++ (payload ++ trailing)).length := by
    rw [List.length_append, List.length_append, bigEndian16_length]
    omega
  unfold packetPayload?
  rw [announced, if_pos ⟨by omega, complete⟩,
    List.drop_left' (bigEndian16_length _), List.take_left' rfl]

/-- On every payload, framed with its length and followed by anything,
`applyPacket` does what `applyMessage` does on the payload in host order. -/
theorem applyPacket_eq_applyMessage (book : SimpleOrderBook)
    (payload trailing : List UInt8) (fits : payload.length ≤ 65535) :
    book.applyPacket (bigEndian16 payload.length ++ (payload ++ trailing)) =
      book.applyMessage (hostOrder payload) := by
  rw [applyPacket_eq, applyMessage_eq, structMessage?_hostOrder]
  unfold packetMessage?
  rw [packetPayload?_framed payload trailing fits]
  rfl

/-- A cancel of order 1 in network order, and one stray byte behind it. -/
theorem applyPacket_eq_applyMessage_cancel :
    empty.applyPacket (bigEndian16 17 ++
        ([88, 0, 0, 0, 0, 0, 0, 0, 9, 0, 0, 0, 1, 0, 0, 0, 2] ++ [7])) =
      empty.applyMessage
        (hostOrder [88, 0, 0, 0, 0, 0, 0, 0, 9, 0, 0, 0, 1, 0, 0, 0, 2]) :=
  applyPacket_eq_applyMessage empty
    [88, 0, 0, 0, 0, 0, 0, 0, 9, 0, 0, 0, 1, 0, 0, 0, 2] [7] (by decide)

end SimpleOrderBook

end Waler
