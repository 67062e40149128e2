/-
Which byte strings `applyPacket` accepts, and what it leaves behind when it
does not.
-/

import Waler.Book.Decoder

namespace Waler

open MarketData
open PackedLayout (word16 word32 word64)

/-! ### The payload of a packet -/

/-- The number the first two bytes of a packet spell in network order. -/
def lengthPrefix (packet : List UInt8) : ℕ :=
  bigEndianValue (packet.take 2)

theorem lengthPrefix_bigEndian16 {size : ℕ} (fits : size < 65536)
    (rest : List UInt8) :
    lengthPrefix (bigEndian16 size ++ rest) = size := by
  unfold lengthPrefix
  rw [List.take_left' (bigEndian16_length size),
    bigEndianValue_bigEndian16 fits]

def packetPayload? (packet : List UInt8) : Option (List UInt8) :=
  if 2 ≤ packet.length ∧ 2 + lengthPrefix packet ≤ packet.length then
    some ((packet.drop 2).take (lengthPrefix packet))
  else none

def packetMessage? (packet : List UInt8) : Option Message :=
  (packetPayload? packet).bind
    (fun payload => (structMessage? payload).map Message.fromNetwork)

theorem fromNetwork16_decode (packet : List UInt8)
    (prefixed : 2 ≤ packet.length) :
    (fromNetwork16 (word16.decode (packet.take 2))).toNat =
      lengthPrefix packet := by
  have sized : (packet.take 2).length = 2 := by
    rw [List.length_take]
    omega
  have bound := bigEndianValue_lt (packet.take 2)
  rw [sized] at bound
  have value : fromNetwork16 (word16.decode (packet.take 2)) =
      UInt16.ofNat (bigEndianValue (packet.take 2)) :=
    PackedLayout.byteSwap_decode_word (packet.take 2) sized
  rw [value]
  exact UInt16.toNat_ofNat_of_lt' bound

namespace SimpleOrderBook

theorem applyPacket_eq (book : SimpleOrderBook) (packet : List UInt8) :
    book.applyPacket packet = book.applyRead (packetMessage? packet) := by
  have wordSize : word16.size = 2 := rfl
  unfold applyPacket packetMessage? packetPayload?
  rw [wordSize]
  by_cases short : packet.length < 2
  · have incomplete :
        ¬ (2 ≤ packet.length ∧ 2 + lengthPrefix packet ≤ packet.length) :=
      fun both => absurd both.1 (by omega)
    rw [if_pos short, if_neg incomplete]
    rfl
  · have prefixed : 2 ≤ packet.length := by omega
    rw [if_neg short]
    simp only [fromNetwork16_decode packet prefixed]
    by_cases truncated : packet.length < 2 + lengthPrefix packet
    · have incomplete :
          ¬ (2 ≤ packet.length ∧ 2 + lengthPrefix packet ≤ packet.length) :=
        fun both => absurd both.2 (by omega)
      rw [if_pos truncated, if_neg incomplete]
      rfl
    · have complete :
          2 ≤ packet.length ∧ 2 + lengthPrefix packet ≤ packet.length :=
        ⟨prefixed, by omega⟩
      rw [if_neg truncated, if_pos complete, Option.bind_some,
        applyNetworkPayload_eq]

/-! ### Applying a message -/

def messageOrderId : Message → UInt32
  | .addOrder message => message.orderId
  | .cancelOrder message => message.orderId
  | .execute message => message.orderId
  | .quote _ => 0

theorem apply_true_iff (book : SimpleOrderBook) (message : Message) :
    (book.apply message).1 = true ↔
      (message.type = .cancelOrder ∨ message.type = .execute →
        messageOrderId message ∈ book.orders) := by
  cases message with
  | addOrder message => simp [apply, applyAddOrder, Message.type]
  | cancelOrder message =>
      simp only [apply, applyCancelOrder, Message.type, messageOrderId,
        true_or, forall_const, ← Finmap.lookup_isSome]
      cases book.orders.lookup message.orderId with
      | none => simp
      | some order => simp
  | execute message =>
      simp only [apply, applyExecute, Message.type, messageOrderId,
        or_true, forall_const, ← Finmap.lookup_isSome]
      cases book.orders.lookup message.orderId with
      | none => simp
      | some order => simp
  | quote message => simp [apply, applyQuote, Message.type]

theorem apply_of_refused (book : SimpleOrderBook) (message : Message)
    (refused : (book.apply message).1 = false) :
    (book.apply message).2 = book := by
  cases message with
  | addOrder message => cases refused
  | cancelOrder message =>
      simp only [apply, applyCancelOrder] at refused ⊢
      cases found : book.orders.lookup message.orderId with
      | none => rfl
      | some order =>
          rw [found] at refused
          cases refused
  | execute message =>
      simp only [apply, applyExecute] at refused ⊢
      cases found : book.orders.lookup message.orderId with
      | none => rfl
      | some order =>
          rw [found] at refused
          cases refused
  | quote message => cases refused

theorem applyRead_of_refused (book : SimpleOrderBook) (read : Option Message)
    (refused : (book.applyRead read).1 = false) :
    (book.applyRead read).2 = book := by
  cases read with
  | none => rfl
  | some message => exact book.apply_of_refused message refused

/-! ### Acceptance -/

def wireSize : MessageType → ℕ
  | .addOrder => 30
  | .cancelOrder => 17
  | .execute => 21
  | .quote => 25

theorem structSize_eq (type : MessageType) :
    type.structSize = wireSize type := by
  cases type <;> rfl

/-- The order id of a cancel or execute packet: four bytes in network order
behind the length, the type byte and the timestamp. -/
def packetOrderId (packet : List UInt8) : UInt32 :=
  UInt32.ofNat (bigEndianValue ((packet.drop 11).take 4))

/-- A complete packet of a known type and of that type's size which, if it
reduces an order, names one that rests. -/
structure Acceptable (book : SimpleOrderBook) (packet : List UInt8) : Prop where
  prefixed : 2 ≤ packet.length
  complete : 2 + lengthPrefix packet ≤ packet.length
  typed : ∃ type : MessageType, packet[2]? = some type.toByte ∧
    lengthPrefix packet = wireSize type ∧
      (type = .cancelOrder ∨ type = .execute →
        packetOrderId packet ∈ book.orders)

theorem bytes_orderId (message : Message)
    (reduces : message.type = .cancelOrder ∨ message.type = .execute) :
    messageOrderId message.fromNetwork =
      UInt32.ofNat (bigEndianValue ((message.bytes.drop 9).take 4)) := by
  have field : ∀ (header : MessageHeader) (timestampNs : UInt64)
      (orderId : UInt32) (rest : List UInt8),
      ((MessageHeader.layout.encode header ++ (word64.encode timestampNs ++
        (word32.encode orderId ++ rest))).drop 9).take 4 =
          word32.encode orderId := by
    intro header timestampNs orderId rest
    have front : (MessageHeader.layout.encode header ++
        word64.encode timestampNs).length = 9 := by
      rw [List.length_append, MessageHeader.layout.encode_length,
        word64.encode_length]
      rfl
    rw [← List.append_assoc, List.drop_left' front,
      List.take_left' (show (word32.encode orderId).length = 4 from
        word32.encode_length orderId)]
  have read : ∀ orderId : UInt32, fromNetwork32 orderId =
      UInt32.ofNat (bigEndianValue (word32.encode orderId)) := fun _ => rfl
  cases message with
  | addOrder message => rcases reduces with impossible | impossible <;>
      cases impossible
  | cancelOrder message =>
      have bytesEq := field message.header message.timestampNs message.orderId
        (word32.encode message.quantity)
      change fromNetwork32 message.orderId = _
      rw [read, ← bytesEq]
      rfl
  | execute message =>
      have bytesEq := field message.header message.timestampNs message.orderId
        (word32.encode message.execQty ++ word32.encode message.execPrice)
      change fromNetwork32 message.orderId = _
      rw [read, ← bytesEq]
      rfl
  | quote message => rcases reduces with impossible | impossible <;>
      cases impossible

theorem packetMessage?_eq_some {packet : List UInt8} {message : Message}
    (read : packetMessage? packet = some message) :
    2 ≤ packet.length ∧ 2 + lengthPrefix packet ≤ packet.length ∧
      message.fromNetwork.bytes =
        (packet.drop 2).take (lengthPrefix packet) ∧
      message.Tagged := by
  rcases Option.bind_eq_some_iff.mp read with ⟨payload, split, readPayload⟩
  rcases Option.map_eq_some_iff.mp readPayload with ⟨inner, struct, rfl⟩
  rcases bytes_of_structMessage? struct with ⟨bytesEq, tagged⟩
  unfold packetPayload? at split
  split at split
  · rename_i complete
    cases split
    refine ⟨complete.1, complete.2, ?_, Message.fromNetwork_tagged tagged⟩
    rw [Message.fromNetwork_fromNetwork, bytesEq]
  · cases split

theorem packetMessage?_fields {packet : List UInt8} {message : Message}
    (read : packetMessage? packet = some message) :
    packet[2]? = some message.type.toByte ∧
      lengthPrefix packet = wireSize message.type ∧
      (message.type = .cancelOrder ∨ message.type = .execute →
        messageOrderId message = packetOrderId packet) := by
  rcases packetMessage?_eq_some read with ⟨_, complete, bytesEq, tagged⟩
  have sized : lengthPrefix packet = wireSize message.type := by
    have lengths := congrArg List.length bytesEq
    rw [Message.bytes_length, Message.fromNetwork_type, List.length_take,
      List.length_drop, structSize_eq] at lengths
    omega
  refine ⟨?_, sized, ?_⟩
  · rcases message.fromNetwork.bytes_header with ⟨fields, headed⟩
    have nonzero : lengthPrefix packet ≠ 0 := by
      rw [sized, ← structSize_eq]
      have smallest := message.type.structSize_bounds.1
      omega
    have first := congrArg List.head? bytesEq
    rw [headed, List.head?_cons, List.head?_take, if_neg nonzero,
      List.head?_drop, Message.fromNetwork_header, tagged] at first
    exact first.symm
  · intro reduces
    have idBytes := bytes_orderId message.fromNetwork (by
      rw [Message.fromNetwork_type]
      exact reduces)
    have inside : min 4 (lengthPrefix packet - 9) = 4 := by
      rw [sized]
      rcases reduces with isCancel | isExecute
      · rw [isCancel]
        rfl
      · rw [isExecute]
        rfl
    rw [Message.fromNetwork_fromNetwork, bytesEq, List.drop_take,
      List.drop_drop, List.take_take, inside] at idBytes
    exact idBytes

/-- A packet can be read exactly when it is complete, of a known type and of
that type's size. -/
theorem packetMessage?_isSome_iff (packet : List UInt8) :
    (packetMessage? packet).isSome ↔
      2 ≤ packet.length ∧ 2 + lengthPrefix packet ≤ packet.length ∧
        ∃ type : MessageType, packet[2]? = some type.toByte ∧
          lengthPrefix packet = wireSize type := by
  constructor
  · intro readable
    rcases Option.isSome_iff_exists.mp readable with ⟨message, read⟩
    rcases packetMessage?_eq_some read with ⟨prefixed, complete, _, _⟩
    rcases packetMessage?_fields read with ⟨typeByte, sized, _⟩
    exact ⟨prefixed, complete, message.type, typeByte, sized⟩
  · rintro ⟨prefixed, complete, type, typeByte, sized⟩
    have nonzero : lengthPrefix packet ≠ 0 := by
      rw [sized, ← structSize_eq]
      have smallest := type.structSize_bounds.1
      omega
    unfold packetMessage? packetPayload?
    rw [if_pos ⟨prefixed, complete⟩, Option.bind_some, Option.isSome_map]
    apply (structMessage?_isSome_iff _).mpr
    refine ⟨type, ?_, ?_⟩
    · rw [List.head?_take, if_neg nonzero, List.head?_drop, typeByte]
    · rw [List.length_take, List.length_drop, structSize_eq, ← sized]
      omega

theorem applyPacket_true_iff (book : SimpleOrderBook) (packet : List UInt8) :
    (book.applyPacket packet).1 = true ↔ book.Acceptable packet := by
  rw [applyPacket_eq]
  constructor
  · intro accepted
    cases read : packetMessage? packet with
    | none =>
        rw [read] at accepted
        cases accepted
    | some message =>
        rw [read] at accepted
        rcases packetMessage?_eq_some read with ⟨prefixed, complete, _, _⟩
        rcases packetMessage?_fields read with ⟨typeByte, sized, idEq⟩
        refine ⟨prefixed, complete, message.type, typeByte, sized, ?_⟩
        intro reduces
        rw [← idEq reduces]
        exact (book.apply_true_iff message).mp accepted reduces
  · rintro ⟨prefixed, complete, type, typeByte, sized, resting⟩
    have readable := (packetMessage?_isSome_iff packet).mpr
      ⟨prefixed, complete, type, typeByte, sized⟩
    rcases Option.isSome_iff_exists.mp readable with ⟨message, read⟩
    rcases packetMessage?_fields read with ⟨typeByte', _, idEq⟩
    have sameType : message.type = type := by
      have sameByte := Option.some.inj (typeByte'.symm.trans typeByte)
      have named := MessageType.ofByte?_toByte message.type
      rw [sameByte, MessageType.ofByte?_toByte] at named
      exact (Option.some.inj named).symm
    rw [read]
    apply (book.apply_true_iff message).mpr
    intro reduces
    rw [idEq reduces]
    exact resting (sameType ▸ reduces)

/-! ### Trailing bytes -/

/-- Two strings that agree up to the end of the announced payload carry the
same message. -/
theorem packetMessage?_congr {packet other : List UInt8}
    (prefixed : 2 ≤ packet.length)
    (complete : 2 + lengthPrefix packet ≤ packet.length)
    (agree : other.take (2 + lengthPrefix packet) =
      packet.take (2 + lengthPrefix packet)) :
    packetMessage? other = packetMessage? packet := by
  have lengths := congrArg List.length agree
  rw [List.length_take, List.length_take] at lengths
  have samePrefix : lengthPrefix other = lengthPrefix packet := by
    have front := congrArg (List.take 2) agree
    rw [List.take_take, List.take_take,
      Nat.min_eq_left (Nat.le_add_right 2 _)] at front
    unfold lengthPrefix
    rw [front]
  have samePayload : (other.drop 2).take (lengthPrefix packet) =
      (packet.drop 2).take (lengthPrefix packet) := by
    have back := congrArg (List.drop 2) agree
    rwa [List.drop_take, List.drop_take, Nat.add_sub_cancel_left] at back
  unfold packetMessage? packetPayload?
  rw [samePrefix, samePayload, if_pos ⟨by omega, by omega⟩,
    if_pos ⟨prefixed, complete⟩]

/-- For every byte string and every book: `applyPacket` accepts exactly the
acceptable packets, changes nothing when it does not accept, and never looks
behind the announced payload. -/
theorem applyPacket_exact (book : SimpleOrderBook) (packet : List UInt8) :
    ((book.applyPacket packet).1 = true ↔ book.Acceptable packet) ∧
      ((book.applyPacket packet).1 = false →
        (book.applyPacket packet).2 = book) ∧
      ∀ other, 2 ≤ packet.length →
        2 + lengthPrefix packet ≤ packet.length →
          other.take (2 + lengthPrefix packet) =
            packet.take (2 + lengthPrefix packet) →
              book.applyPacket other = book.applyPacket packet := by
  refine ⟨applyPacket_true_iff book packet, ?_, ?_⟩
  · intro refused
    rw [applyPacket_eq] at refused ⊢
    exact book.applyRead_of_refused _ refused
  · intro other prefixed complete agree
    rw [applyPacket_eq, applyPacket_eq,
      packetMessage?_congr prefixed complete agree]

end SimpleOrderBook

end Waler
