import P2PFilesystem.NodeInfo

/-!
# Protocol messages on the wire

`networking/messages.rs` and `networking/message_dispatcher.rs`: requests, responses,
their serde_json encoding, and the size check before a datagram is sent. The limit is
computed from the in-memory size of a contact; the lengths below are those of the text.
-/
namespace P2PFilesystem
open JsonText

/-- `size_of::<SocketAddr>()`. -/
def sizeOfSocketAddr : Nat := 32

def maxNodeinfoSerializedSize : Nat := K + sizeOfSocketAddr

def overheadSize : Nat := 128

def maxMessageSize : Nat := overheadSize + K * maxNodeinfoSerializedSize

/-- `Uuid`, the type of request ids. -/
structure Uuid where
  bytes : List UInt8
  length_bytes : bytes.length = 16
  deriving DecidableEq

abbrev RequestId := Uuid

inductive RequestType where
  | ping
  | findNode (nodeId : Key)
  | findValue (chunkId : Key)
  | store (chunkId : Key)
  | getPort (chunkId : Key)
  | getValue (chunkId : Key) (port : UInt16)
  deriving DecidableEq

inductive ResponseType where
  | pong
  | nodes (nodes : List NodeInfo)
  | storeChunkUpdated
  | storeOk
  | portOk (port : UInt16)
  | hasValue (chunkId : Key)
  deriving DecidableEq

structure Request where
  requestType : RequestType
  sender : NodeInfo
  receiver : NodeInfo
  requestId : RequestId
  deriving DecidableEq

structure Response where
  responseType : ResponseType
  sender : NodeInfo
  receiver : NodeInfo
  requestId : RequestId
  deriving DecidableEq

/-- `ResponseType::new_nodes` refuses more than `K` contacts. -/
def ResponseType.newNodes (nodes : List NodeInfo) : Except Text ResponseType :=
  if nodes.length > K then .error "Nodes response contains more than K nodes".toList
  else .ok (.nodes nodes)

/-- The hyphenated form, groups of 8, 4, 4, 4 and 12 digits. -/
def Uuid.display (u : Uuid) : Text :=
  let hex := fun (i n : Nat) => ((u.bytes.drop i).take n).flatMap Key.hexByte
  hex 0 4 ++ '-' :: (hex 4 2 ++ '-' :: (hex 6 2 ++ '-' :: (hex 8 2 ++ '-' :: hex 10 6)))

def Key.json (k : Key) : Json := .str k.toHexString

def NodeInfo.json (n : NodeInfo) : Json :=
  .obj [("id".toList, n.id.json), ("address".toList, .str n.address.display)]

/-- A struct variant of an externally tagged enum. -/
def taggedJson (tag : String) (fields : List (Text × Json)) : Json := .obj [(tag.toList, .obj fields)]

def RequestType.json : RequestType → Json
  | .ping => .str "Ping".toList
  | .findNode k => taggedJson "FindNode" [("node_id".toList, k.json)]
  | .findValue k => taggedJson "FindValue" [("chunk_id".toList, k.json)]
  | .store k => taggedJson "Store" [("chunk_id".toList, k.json)]
  | .getPort k => taggedJson "GetPort" [("chunk_id".toList, k.json)]
  | .getValue k port =>
      taggedJson "GetValue" [("chunk_id".toList, k.json), ("port".toList, .num port.toNat)]

def ResponseType.json : ResponseType → Json
  | .pong => .str "Pong".toList
  | .nodes ns => taggedJson "Nodes" [("nodes".toList, .arr (ns.map NodeInfo.json))]
  | .storeChunkUpdated => .str "StoreChunkUpdated".toList
  | .storeOk => .str "StoreOK".toList
  | .portOk port => taggedJson "PortOK" [("port".toList, .num port.toNat)]
  | .hasValue k => taggedJson "HasValue" [("chunk_id".toList, k.json)]

def Request.json (q : Request) : Json :=
  .obj [("request_type".toList, q.requestType.json), ("sender".toList, q.sender.json),
    ("receiver".toList, q.receiver.json), ("request_id".toList, .str q.requestId.display)]

def Response.json (r : Response) : Json :=
  .obj [("response_type".toList, r.responseType.json), ("sender".toList, r.sender.json),
    ("receiver".toList, r.receiver.json), ("request_id".toList, .str r.requestId.display)]

inductive SendError where
  | messageToSelf
  | tooLarge (size : Nat)
  | socket
  deriving DecidableEq

/-- `MessageDispatcher::send_request`: the datagram handed to the socket, or the refusal. -/
def sendRequest (socketOk : Bool) (request : Request) : Except SendError Text :=
  if request.receiver = request.sender then .error .messageToSelf
  else
    let serialized := render request.json
    if serialized.length > maxMessageSize then .error (.tooLarge serialized.length)
    else if socketOk then .ok serialized else .error .socket

def sendResponse (socketOk : Bool) (response : Response) : Except SendError Text :=
  let serialized := render response.json
  if serialized.length > maxMessageSize then .error (.tooLarge serialized.length)
  else if socketOk then .ok serialized else .error .socket

/-- What `recv_from` leaves of a datagram in a buffer of `MAX_MESSAGE_SIZE` bytes. -/
def recvFrom (datagram : Text) : Text := datagram.take maxMessageSize

inductive Message where
  | request (q : Request)
  | response (r : Response)

def Message.encode : Message → Text
  | .request q => render q.json
  | .response r => render r.json

def Message.send (socketOk : Bool) : Message → Except SendError Text
  | .request q => sendRequest socketOk q
  | .response r => sendResponse socketOk r

/-- Within the limit, never refused for its size, and received in full. -/
def Message.FitsDatagram (m : Message) : Prop :=
  m.encode.length ≤ maxMessageSize ∧ (∀ socketOk size, m.send socketOk ≠ .error (.tooLarge size)) ∧
    recvFrom m.encode = m.encode

def NodeInfo.addressLength (n : NodeInfo) : Nat := n.address.display.length

/-- For a list of contacts: 63 bytes each and the address texts, the envelope's two included. -/
def Message.WithinBudget : Message → Prop
  | .response ⟨.nodes ns, sender, receiver, _⟩ =>
      63 * ns.length + (ns.map NodeInfo.addressLength).sum + sender.addressLength +
        receiver.addressLength ≤ 931
  | _ => True

section Lengths

theorem length_flatMap_hexByte (bs : List UInt8) : (bs.flatMap Key.hexByte).length = 2 * bs.length := by
  induction bs with
  | nil => rfl
  | cons b bs ih =>
      rw [List.flatMap_cons, List.length_append, ih, List.length_cons]
      change 2 + 2 * bs.length = 2 * (bs.length + 1)
      omega

theorem plain_flatMap_hexByte (bs : List UInt8) : Plain (bs.flatMap Key.hexByte) := by
  induction bs with
  | nil => intro c hc; cases hc
  | cons b bs ih =>
      have hb := b.toNat_lt
      rw [List.flatMap_cons]
      refine Plain.append (.cons (escapeChar_digitChar (by omega))
        (.cons (escapeChar_digitChar (by omega)) ?_)) ih
      intro c hc
      cases hc

@[simp] theorem Key.length_json (k : Key) : (render k.json).length = 42 := by
  rw [json, render, toHexString, (plain_flatMap_hexByte _).length_quote, length_flatMap_hexByte,
    k.value.length_bytes]
  rfl

theorem Uuid.length_display (u : Uuid) : u.display.length = 36 := by
  have h := u.length_bytes
  simp only [display, List.length_append, List.length_cons, length_flatMap_hexByte, List.length_take,
    List.length_drop, h]
  omega

theorem Uuid.plain_display (u : Uuid) : Plain u.display := by
  have h : escapeChar '-' = ['-'] := by decide
  simp only [display]
  exact (plain_flatMap_hexByte _).append (.cons h ((plain_flatMap_hexByte _).append (.cons h
    ((plain_flatMap_hexByte _).append (.cons h ((plain_flatMap_hexByte _).append (.cons h
      (plain_flatMap_hexByte _))))))))

@[simp] theorem Uuid.length_quote (u : Uuid) : (quote u.display).length = 38 := by
  rw [u.plain_display.length_quote, u.length_display]

@[simp] theorem NodeInfo.length_json (n : NodeInfo) :
    (render n.json).length = 62 + n.addressLength := by
  have h1 : (quote "id".toList).length = 4 := by decide
  have h2 : (quote "address".toList).length = 9 := by decide
  simp only [json, render, renderFields, List.length_cons, List.length_append, List.length_nil, h1, h2,
    Key.length_json, n.address.plain_display.length_quote, addressLength]
  omega

theorem NodeInfo.addressLength_le (n : NodeInfo) : n.addressLength ≤ 58 := n.address.length_display

theorem length_envelope (tag : String) (body : Json) (sender receiver : NodeInfo) (id : RequestId) :
    (render (.obj [(tag.toList, body), ("sender".toList, sender.json),
      ("receiver".toList, receiver.json), ("request_id".toList, .str id.display)])).length =
      (quote tag.toList).length + (render body).length + sender.addressLength +
        receiver.addressLength + 201 := by
  have h1 : (quote "sender".toList).length = 8 := by decide
  have h2 : (quote "receiver".toList).length = 10 := by decide
  have h3 : (quote "request_id".toList).length = 12 := by decide
  simp only [render, renderFields, List.length_cons, List.length_append, List.length_nil, h1, h2, h3,
    NodeInfo.length_json, Uuid.length_quote]
  omega

theorem length_taggedJson (tag : String) (fields : List (Text × Json)) :
    (render (taggedJson tag fields)).length =
      (quote tag.toList).length + (renderFields fields).length + 5 := by
  simp only [taggedJson, render, renderFields, List.length_cons, List.length_append, List.length_nil]
  omega

theorem length_keyField (name : String) (k : Key) :
    (renderFields [(name.toList, k.json)]).length = (quote name.toList).length + 43 := by
  simp only [renderFields, List.length_append, List.length_cons, Key.length_json]

/-- The largest request type is `GetValue` with a five-digit port. -/
theorem RequestType.length_json (t : RequestType) : (render t.json).length ≤ 81 := by
  cases t with
  | ping => decide
  | findNode k => rw [json, length_taggedJson, length_keyField]; decide
  | findValue k => rw [json, length_taggedJson, length_keyField]; decide
  | store k => rw [json, length_taggedJson, length_keyField]; decide
  | getPort k => rw [json, length_taggedJson, length_keyField]; decide
  | getValue k port =>
      have hp := length_decimal_port port
      have h1 : (quote "chunk_id".toList).length = 10 := by decide
      have h2 : (quote "port".toList).length = 6 := by decide
      have h3 : (quote "GetValue".toList).length = 10 := by decide
      rw [json, length_taggedJson]
      simp only [renderFields, render, List.length_append, List.length_cons, Key.length_json, h1, h2, h3]
      omega

theorem ResponseType.length_nodes_json (ns : List NodeInfo) :
    (render (ResponseType.nodes ns).json).length =
      62 * ns.length + (ns.map NodeInfo.addressLength).sum + (ns.length - 1) + 22 := by
  have h1 : (quote "Nodes".toList).length = 7 := by decide
  have h2 : (quote "nodes".toList).length = 7 := by decide
  have hsum : (ns.map fun n => (render n.json).length).sum =
      62 * ns.length + (ns.map NodeInfo.addressLength).sum := by
    induction ns with
    | nil => rfl
    | cons n ns ih =>
        rw [List.map_cons, List.sum_cons, ih, NodeInfo.length_json, List.map_cons, List.sum_cons,
          List.length_cons]
        omega
  rw [json, length_taggedJson]
  simp only [renderFields, render, List.length_append, List.length_cons, List.length_nil, h1, h2,
    length_renderItems, List.map_map, Function.comp_def, hsum, List.length_map]
  omega

theorem ResponseType.length_json {t : ResponseType} (h : ∀ ns, t ≠ .nodes ns) :
    (render t.json).length ≤ 68 := by
  cases t with
  | pong => decide
  | nodes ns => exact absurd rfl (h ns)
  | storeChunkUpdated => decide
  | storeOk => decide
  | portOk port =>
      have hp := length_decimal_port port
      have h1 : (quote "PortOK".toList).length = 8 := by decide
      have h2 : (quote "port".toList).length = 6 := by decide
      rw [json, length_taggedJson]
      simp only [renderFields, render, List.length_append, List.length_cons, h1, h2]
      omega
  | hasValue k => rw [json, length_taggedJson, length_keyField]; decide

end Lengths

theorem Message.fitsDatagram_iff_length (m : Message) :
    m.FitsDatagram ↔ m.encode.length ≤ maxMessageSize := by
  refine ⟨fun h => h.1, fun h => ⟨h, ?_, List.take_of_length_le h⟩⟩
  intro socketOk size he
  cases m with
  | request q =>
      simp only [send, sendRequest] at he
      split_ifs at he with hself hsize hok
      · cases he
      · exact absurd h (Nat.not_le_of_lt hsize)
      · cases he
  | response r =>
      simp only [send, sendResponse] at he
      split_ifs at he with hsize hok
      · exact absurd h (Nat.not_le_of_lt hsize)
      · cases he

theorem Message.length_encode_le_iff (m : Message) :
    m.encode.length ≤ maxMessageSize ↔ m.WithinBudget := by
  have hmax : maxMessageSize = 1168 := rfl
  rw [hmax]
  cases m with
  | request q =>
      have ht := q.requestType.length_json
      have hs := q.sender.addressLength_le
      have hr := q.receiver.addressLength_le
      have h1 : (quote "request_type".toList).length = 14 := by decide
      have hlen := length_envelope "request_type" q.requestType.json q.sender q.receiver q.requestId
      change (render q.json).length = _ at hlen
      simp only [Message.encode, hlen, h1, Message.WithinBudget, iff_true]
      omega
  | response r =>
      obtain ⟨t, sender, receiver, id⟩ := r
      have hs := sender.addressLength_le
      have hr := receiver.addressLength_le
      have h1 : (quote "response_type".toList).length = 15 := by decide
      have hlen := length_envelope "response_type" t.json sender receiver id
      change (render (Response.json ⟨t, sender, receiver, id⟩)).length = _ at hlen
      simp only [Message.encode, hlen, h1]
      by_cases hn : ∃ ns, t = .nodes ns
      · obtain ⟨ns, rfl⟩ := hn
        rw [ResponseType.length_nodes_json, Message.WithinBudget]
        cases ns with
        | nil => simp only [List.map_nil, List.sum_nil, List.length_nil]; omega
        | cons n ns => simp only [List.length_cons]; omega
      · have ht := ResponseType.length_json (t := t) fun ns h => hn ⟨ns, h⟩
        have hb : Message.WithinBudget (.response ⟨t, sender, receiver, id⟩) := by
          cases t with
          | nodes ns => exact absurd ⟨ns, rfl⟩ hn
          | _ => trivial
        simp only [hb, iff_true]
        omega

/-- Requests and responses without contacts always fit; a list of contacts fits exactly
within the budget left by the encoding. -/
theorem message_fits_iff_withinBudget (m : Message) : m.FitsDatagram ↔ m.WithinBudget :=
  m.fitsDatagram_iff_length.trans m.length_encode_le_iff

/-- A request is refused only for its receiver or by the socket. -/
theorem sendRequest_ok {q : Request} (h : q.receiver ≠ q.sender) : sendRequest true q = .ok (render q.json) := by
  have hlen : (render q.json).length ≤ maxMessageSize := (Message.length_encode_le_iff (.request q)).mpr trivial
  simp only [sendRequest, if_neg h, if_neg (Nat.not_lt_of_le hlen), if_true]

theorem sendResponse_ok {r : Response} (h : (Message.response r).WithinBudget) :
    sendResponse true r = .ok (render r.json) := by
  have hlen : (render r.json).length ≤ maxMessageSize := (Message.length_encode_le_iff (.response r)).mpr h
  simp only [sendResponse, if_neg (Nat.not_lt_of_le hlen), if_true]

def NodeInfo.local (b : UInt8) (port : UInt16) : NodeInfo := ⟨Key.ofTopByte b 0, .localhost port⟩

def zeroRequestId : RequestId := ⟨List.replicate 16 0, rfl⟩

def fullNodesResponse : Response where
  responseType := .nodes ((List.range K).map fun i => .local (UInt8.ofNat (i + 2)) 8081)
  sender := .local 1 8081
  receiver := .local 0 8081
  requestId := zeroRequestId

theorem full_nodes_response_refused :
    ResponseType.newNodes ((List.range K).map fun i => .local (UInt8.ofNat (i + 2)) 8081) =
      .ok fullNodesResponse.responseType ∧
    ¬ (Message.response fullNodesResponse).FitsDatagram := by
  refine ⟨rfl, fun h => ?_⟩
  have hw := (Message.length_encode_le_iff _).mp h.1
  revert hw
  simp only [Message.WithinBudget, fullNodesResponse]
  decide

end P2PFilesystem
