import P2PFilesystem.Messages
import P2PFilesystem.KeyText
import P2PFilesystem.JsonParse

/-!
# Reading messages from the wire

The decoders that are derived for the types of `networking/messages.rs`, and the worker loop,
which tries them on every datagram. A struct is an object with all its fields, among others
or not, or the array of their values; an enum is externally tagged. Requests and responses
differ in the name of one field.
-/
namespace P2PFilesystem
open JsonText

/-- `FromStr` of socket addresses and UUIDs. -/
structure TextParsers where
  socketAddr : Text → Option SocketAddr
  uuid : Text → Option Uuid

section Decoders

/-- A field that is missing or there twice is an error. -/
def getField (name : String) (fields : List (Text × Value)) : Option Value :=
  match fields.filter fun field => String.ofList field.1 = name with
  | [(_, v)] => some v
  | _ => none

/-- The fields of a struct, in an object or as an array in their order. -/
def structFields (names : List String) : Value → Option (List (Text × Value))
  | .obj fields => some fields
  | .arr xs => if xs.length = names.length then some ((names.map String.toList).zip xs) else none
  | _ => none

/-- The tag of an enum value, with the content if it has one. -/
def variant : Value → Option (String × Option Value)
  | .str tag => some (String.ofList tag, none)
  | .obj [(tag, content)] => some (String.ofList tag, some content)
  | _ => none

def unitVariant : Option Value → Option Unit
  | none => some ()
  | some .null => some ()
  | some _ => none

def structVariant (names : List String) (content : Option Value) : Option (List (Text × Value)) :=
  content.bind (structFields names)

def u16FromValue : Value → Option UInt16
  | .num n => if n < 2 ^ 16 then some (UInt16.ofNat n) else none
  | _ => none

def Key.fromValue : Value → Option Key
  | .str hexStr => (Key.fromHexStr hexStr).toOption
  | _ => none

def socketAddrFromValue (P : TextParsers) : Value → Option SocketAddr
  | .str s => P.socketAddr s
  | _ => none

def uuidFromValue (P : TextParsers) : Value → Option Uuid
  | .str s => P.uuid s
  | _ => none

def NodeInfo.fromValue (P : TextParsers) (v : Value) : Option NodeInfo := do
  let fields ← structFields ["id", "address"] v
  let id ← (getField "id" fields).bind Key.fromValue
  let address ← (getField "address" fields).bind (socketAddrFromValue P)
  return ⟨id, address⟩

def nodesFromValue (P : TextParsers) : Value → Option (List NodeInfo)
  | .arr xs => xs.mapM (NodeInfo.fromValue P)
  | _ => none

def RequestType.ofVariant (tag : String) (content : Option Value) : Option RequestType := do
  if tag = "Ping" then
    unitVariant content
    return .ping
  else if tag = "FindNode" then
    let fields ← structVariant ["node_id"] content
    return .findNode (← (getField "node_id" fields).bind Key.fromValue)
  else if tag = "FindValue" then
    let fields ← structVariant ["chunk_id"] content
    return .findValue (← (getField "chunk_id" fields).bind Key.fromValue)
  else if tag = "Store" then
    let fields ← structVariant ["chunk_id"] content
    return .store (← (getField "chunk_id" fields).bind Key.fromValue)
  else if tag = "GetPort" then
    let fields ← structVariant ["chunk_id"] content
    return .getPort (← (getField "chunk_id" fields).bind Key.fromValue)
  else if tag = "GetValue" then
    let fields ← structVariant ["chunk_id", "port"] content
    let chunkId ← (getField "chunk_id" fields).bind Key.fromValue
    return .getValue chunkId (← (getField "port" fields).bind u16FromValue)
  else none

def RequestType.fromValue (v : Value) : Option RequestType := (variant v).bind fun p => ofVariant p.1 p.2

def ResponseType.ofVariant (P : TextParsers) (tag : String) (content : Option Value) : Option ResponseType := do
  if tag = "Pong" then
    unitVariant content
    return .pong
  else if tag = "Nodes" then
    let fields ← structVariant ["nodes"] content
    return .nodes (← (getField "nodes" fields).bind (nodesFromValue P))
  else if tag = "StoreChunkUpdated" then
    unitVariant content
    return .storeChunkUpdated
  else if tag = "StoreOK" then
    unitVariant content
    return .storeOk
  else if tag = "PortOK" then
    let fields ← structVariant ["port"] content
    return .portOk (← (getField "port" fields).bind u16FromValue)
  else if tag = "HasValue" then
    let fields ← structVariant ["chunk_id"] content
    return .hasValue (← (getField "chunk_id" fields).bind Key.fromValue)
  else none

def ResponseType.fromValue (P : TextParsers) (v : Value) : Option ResponseType :=
  (variant v).bind fun p => ofVariant P p.1 p.2

def Request.fromValue (P : TextParsers) (v : Value) : Option Request := do
  let fields ← structFields ["request_type", "sender", "receiver", "request_id"] v
  let requestType ← (getField "request_type" fields).bind RequestType.fromValue
  let sender ← (getField "sender" fields).bind (NodeInfo.fromValue P)
  let receiver ← (getField "receiver" fields).bind (NodeInfo.fromValue P)
  let requestId ← (getField "request_id" fields).bind (uuidFromValue P)
  return ⟨requestType, sender, receiver, requestId⟩

def Response.fromValue (P : TextParsers) (v : Value) : Option Response := do
  let fields ← structFields ["response_type", "sender", "receiver", "request_id"] v
  let responseType ← (getField "response_type" fields).bind (ResponseType.fromValue P)
  let sender ← (getField "sender" fields).bind (NodeInfo.fromValue P)
  let receiver ← (getField "receiver" fields).bind (NodeInfo.fromValue P)
  let requestId ← (getField "request_id" fields).bind (uuidFromValue P)
  return ⟨responseType, sender, receiver, requestId⟩

/-- `serde_json::from_slice`. -/
def Request.fromSlice (P : TextParsers) (data : Text) : Option Request := (parse data).bind (Request.fromValue P)

def Response.fromSlice (P : TextParsers) (data : Text) : Option Response := (parse data).bind (Response.fromValue P)

/-- The handler that the worker loop gives a datagram to, with what it gives it. -/
def dispatch (P : TextParsers) (data : Text) : Option Message :=
  match Response.fromSlice P data with
  | some response => some (.response response)
  | none => match Request.fromSlice P data with
      | some request => some (.request request)
      | none => none

end Decoders

section RoundTrip
variable {P : TextParsers}

/-- The fields of an object that a serializer writes, under the names of the struct. -/
def textFields (fields : List (String × Json)) : List (Text × Json) := fields.map fun field => (field.1.toList, field.2)

theorem valueFields_textFields (fields : List (String × Json)) :
    valueFields (textFields fields) = fields.map fun field => (field.1.toList, field.2.value) := by
  induction fields with
  | nil => rfl
  | cons field fields ih =>
      change (field.1.toList, field.2.value) :: valueFields (textFields fields) = _
      rw [ih]
      rfl

theorem filter_named_eq_nil {name : String} {fields : List (String × Json)} (h : name ∉ fields.map Prod.fst) :
    (valueFields (textFields fields)).filter (fun field => String.ofList field.1 = name) = [] := by
  simp only [valueFields_textFields, List.filter_eq_nil_iff, List.mem_map, decide_eq_true_eq]
  rintro _ ⟨field, hfield, rfl⟩ heq
  rw [String.ofList_toList] at heq
  exact h (List.mem_map.mpr ⟨field, hfield, heq⟩)

theorem getField_eq_none {name : String} {fields : List (String × Json)} (h : name ∉ fields.map Prod.fst) :
    getField name (valueFields (textFields fields)) = none := by
  rw [getField, filter_named_eq_nil h]

/-- Where the names are distinct, each field is read with its own value. -/
theorem getField_eq {name : String} {x : Json} {fields : List (String × Json)} (hnodup : (fields.map Prod.fst).Nodup)
    (h : (name, x) ∈ fields) : getField name (valueFields (textFields fields)) = some x.value := by
  induction fields with
  | nil => cases h
  | cons field fields ih =>
      obtain ⟨hnew, hrest⟩ := List.nodup_cons.mp hnodup
      have hcons : valueFields (textFields (field :: fields)) =
          (field.1.toList, field.2.value) :: valueFields (textFields fields) := rfl
      cases h with
      | head =>
          have hself : String.ofList name.toList = name := String.ofList_toList
          simp only [getField, hcons, List.filter_cons, hself, decide_true, if_true, filter_named_eq_nil hnew]
      | tail _ hmem =>
          have hother : ¬ decide (String.ofList field.1.toList = name) = true := by
            have hne : field.1 ≠ name := fun heq => hnew (heq ▸ List.mem_map.mpr ⟨_, hmem, rfl⟩)
            simp [hne]
          simp only [getField, hcons, List.filter_cons, if_neg hother]
          exact ih hrest hmem

theorem Key.fromValue_json (k : Key) : Key.fromValue k.json.value = some k := by
  change (Key.fromHexStr k.toHexString).toOption = some k
  rw [k.fromHexStr_toHexString]
  rfl

theorem u16FromValue_num (port : UInt16) : u16FromValue (Json.num port.toNat).value = some port := by
  have h : port.toNat < 2 ^ 16 := port.toNat_lt
  change (if port.toNat < 2 ^ 16 then some (UInt16.ofNat port.toNat) else none) = some port
  rw [if_pos h, UInt16.ofNat_toNat]

/-- The reading of a struct variant. -/
theorem variant_taggedJson (tag : String) (fields : List (String × Json)) :
    variant (taggedJson tag (textFields fields)).value = some (tag, some (.obj (valueFields (textFields fields)))) := by
  simp [taggedJson, Json.value, valueFields, variant]

theorem variant_str (tag : String) : variant (Json.str tag.toList).value = some (tag, none) := by
  simp [Json.value, variant]

theorem keyField_json (name : String) (k : Key) :
    (getField name (valueFields (textFields [(name, k.json)]))).bind Key.fromValue = some k := by
  have hnames : ([(name, k.json)].map Prod.fst).Nodup := List.nodup_singleton name
  rw [getField_eq hnames (.head _)]
  exact Key.fromValue_json k

theorem RequestType.fromValue_json (t : RequestType) : RequestType.fromValue t.json.value = some t := by
  cases t with
  | ping =>
      rw [json, fromValue, variant_str, Option.bind_some]
      simp [ofVariant, unitVariant]
  | findNode k =>
      change fromValue (taggedJson "FindNode" (textFields [("node_id", k.json)])).value = _
      rw [fromValue, variant_taggedJson, Option.bind_some]
      simp [ofVariant, structVariant, structFields, keyField_json]
  | findValue k =>
      change fromValue (taggedJson "FindValue" (textFields [("chunk_id", k.json)])).value = _
      rw [fromValue, variant_taggedJson, Option.bind_some]
      simp [ofVariant, structVariant, structFields, keyField_json]
  | store k =>
      change fromValue (taggedJson "Store" (textFields [("chunk_id", k.json)])).value = _
      rw [fromValue, variant_taggedJson, Option.bind_some]
      simp [ofVariant, structVariant, structFields, keyField_json]
  | getPort k =>
      change fromValue (taggedJson "GetPort" (textFields [("chunk_id", k.json)])).value = _
      rw [fromValue, variant_taggedJson, Option.bind_some]
      simp [ofVariant, structVariant, structFields, keyField_json]
  | getValue k port =>
      change fromValue (taggedJson "GetValue" (textFields [("chunk_id", k.json), ("port", .num port.toNat)])).value = _
      have hnames : ([("chunk_id", k.json), ("port", .num port.toNat)].map Prod.fst).Nodup := by simp
      have hkey := getField_eq hnames (.head _)
      have hport := getField_eq hnames (.tail _ (.head _))
      rw [fromValue, variant_taggedJson, Option.bind_some]
      simp [ofVariant, structVariant, structFields, hkey, hport, Key.fromValue_json, u16FromValue_num]

/-- The address of the contact is read back from its text. -/
def NodeInfo.ParsesBack (P : TextParsers) (n : NodeInfo) : Prop := P.socketAddr n.address.display = some n.address

def Uuid.ParsesBack (P : TextParsers) (u : Uuid) : Prop := P.uuid u.display = some u

/-- All contacts of a response type. -/
def ResponseType.contacts : ResponseType → List NodeInfo
  | .nodes ns => ns
  | _ => []

/-- The addresses of the message and its id are read back from their texts. -/
def Message.ParsesBack (P : TextParsers) : Message → Prop
  | .request q => q.sender.ParsesBack P ∧ q.receiver.ParsesBack P ∧ q.requestId.ParsesBack P
  | .response r => r.sender.ParsesBack P ∧ r.receiver.ParsesBack P ∧ r.requestId.ParsesBack P ∧
      ∀ n ∈ r.responseType.contacts, n.ParsesBack P

theorem NodeInfo.fromValue_json {n : NodeInfo} (h : n.ParsesBack P) : NodeInfo.fromValue P n.json.value = some n := by
  change fromValue P (.obj (valueFields (textFields [("id", n.id.json), ("address", .str n.address.display)]))) = _
  have hnames : ([("id", n.id.json), ("address", .str n.address.display)].map Prod.fst).Nodup := by simp
  have hid := getField_eq hnames (.head _)
  have haddress := getField_eq hnames (.tail _ (.head _))
  have hparse : socketAddrFromValue P (Json.str n.address.display).value = some n.address := h
  simp [fromValue, structFields, hid, haddress, Key.fromValue_json, hparse]

theorem nodesFromValue_json {nodes : List NodeInfo} (h : ∀ n ∈ nodes, n.ParsesBack P) :
    nodesFromValue P (Json.arr (nodes.map NodeInfo.json)).value = some nodes := by
  change (valueItems (nodes.map NodeInfo.json)).mapM (NodeInfo.fromValue P) = some nodes
  induction nodes with
  | nil => rfl
  | cons n nodes ih =>
      have hn := NodeInfo.fromValue_json (h n List.mem_cons_self)
      have hnodes := ih fun u hu => h u (List.mem_cons_of_mem n hu)
      simp [valueItems, hn, hnodes]

theorem ResponseType.fromValue_json {t : ResponseType} (h : ∀ n ∈ t.contacts, n.ParsesBack P) :
    ResponseType.fromValue P t.json.value = some t := by
  cases t with
  | pong =>
      rw [json, fromValue, variant_str, Option.bind_some]
      simp [ofVariant, unitVariant]
  | nodes nodes =>
      change fromValue P (taggedJson "Nodes" (textFields [("nodes", .arr (nodes.map NodeInfo.json))])).value = _
      have hnames : ([("nodes", Json.arr (nodes.map NodeInfo.json))].map Prod.fst).Nodup := by simp
      have hnodes := getField_eq hnames (.head _)
      have hread : nodesFromValue P (Json.arr (nodes.map NodeInfo.json)).value = some nodes := nodesFromValue_json h
      rw [fromValue, variant_taggedJson, Option.bind_some]
      simp [ofVariant, structVariant, structFields, hnodes, hread]
  | storeChunkUpdated =>
      rw [json, fromValue, variant_str, Option.bind_some]
      simp [ofVariant, unitVariant]
  | storeOk =>
      rw [json, fromValue, variant_str, Option.bind_some]
      simp [ofVariant, unitVariant]
  | portOk port =>
      change fromValue P (taggedJson "PortOK" (textFields [("port", .num port.toNat)])).value = _
      have hnames : ([("port", Json.num port.toNat)].map Prod.fst).Nodup := by simp
      have hport := getField_eq hnames (.head _)
      rw [fromValue, variant_taggedJson, Option.bind_some]
      simp [ofVariant, structVariant, structFields, hport, u16FromValue_num]
  | hasValue k =>
      change fromValue P (taggedJson "HasValue" (textFields [("chunk_id", k.json)])).value = _
      rw [fromValue, variant_taggedJson, Option.bind_some]
      simp [ofVariant, structVariant, structFields, keyField_json]

/-- The fields that the envelopes of requests and responses share. -/
def envelope (name : String) (type : Json) (sender receiver : NodeInfo) (requestId : RequestId) :
    List (String × Json) :=
  [(name, type), ("sender", sender.json), ("receiver", receiver.json), ("request_id", .str requestId.display)]

theorem Response.fromSlice_request (P : TextParsers) (q : Request) : Response.fromSlice P (render q.json) = none := by
  have hnone : getField "response_type" (valueFields (textFields
      (envelope "request_type" q.requestType.json q.sender q.receiver q.requestId))) = none :=
    getField_eq_none (by simp [envelope])
  rw [fromSlice, parse_render, Option.bind_some]
  change fromValue P (.obj (valueFields (textFields
    (envelope "request_type" q.requestType.json q.sender q.receiver q.requestId)))) = none
  simp [fromValue, structFields, hnone]

/-- Every field of an envelope is read with its own value. -/
theorem getField_envelope (name : String) (h : name ∉ ["sender", "receiver", "request_id"]) (type : Json)
    (sender receiver : NodeInfo) (requestId : RequestId) :
    let fields := valueFields (textFields (envelope name type sender receiver requestId))
    getField name fields = some type.value ∧ getField "sender" fields = some sender.json.value ∧
    getField "receiver" fields = some receiver.json.value ∧
    getField "request_id" fields = some (Json.str requestId.display).value := by
  have hnames : ((envelope name type sender receiver requestId).map Prod.fst).Nodup :=
    List.nodup_cons.mpr ⟨h, show ["sender", "receiver", "request_id"].Nodup by decide⟩
  exact ⟨getField_eq hnames (.head _), getField_eq hnames (.tail _ (.head _)),
    getField_eq hnames (.tail _ (.tail _ (.head _))), getField_eq hnames (.tail _ (.tail _ (.tail _ (.head _))))⟩

theorem Request.fromSlice_render {q : Request} (h : (Message.request q).ParsesBack P) :
    Request.fromSlice P (render q.json) = some q := by
  obtain ⟨hsender, hreceiver, hid⟩ := h
  have hparse : uuidFromValue P (Json.str q.requestId.display).value = some q.requestId := hid
  obtain ⟨htypeField, hsenderField, hreceiverField, hidField⟩ := getField_envelope "request_type" (by decide)
    q.requestType.json q.sender q.receiver q.requestId
  rw [fromSlice, parse_render, Option.bind_some]
  change fromValue P (.obj (valueFields (textFields
    (envelope "request_type" q.requestType.json q.sender q.receiver q.requestId)))) = _
  simp [fromValue, structFields, htypeField, hsenderField, hreceiverField, hidField, RequestType.fromValue_json,
    NodeInfo.fromValue_json hsender, NodeInfo.fromValue_json hreceiver, hparse]

theorem Response.fromSlice_render {r : Response} (h : (Message.response r).ParsesBack P) :
    Response.fromSlice P (render r.json) = some r := by
  obtain ⟨hsender, hreceiver, hid, hcontacts⟩ := h
  have hparse : uuidFromValue P (Json.str r.requestId.display).value = some r.requestId := hid
  obtain ⟨htypeField, hsenderField, hreceiverField, hidField⟩ := getField_envelope "response_type" (by decide)
    r.responseType.json r.sender r.receiver r.requestId
  rw [fromSlice, parse_render, Option.bind_some]
  change fromValue P (.obj (valueFields (textFields
    (envelope "response_type" r.responseType.json r.sender r.receiver r.requestId)))) = _
  simp [fromValue, structFields, htypeField, hsenderField, hreceiverField, hidField,
    ResponseType.fromValue_json hcontacts, NodeInfo.fromValue_json hsender, NodeInfo.fromValue_json hreceiver, hparse]

theorem dispatch_encode {m : Message} (h : m.ParsesBack P) : dispatch P m.encode = some m := by
  cases m with
  | request q => simp [dispatch, Message.encode, Response.fromSlice_request, Request.fromSlice_render h]
  | response r => simp [dispatch, Message.encode, Response.fromSlice_render h]

end RoundTrip

/-- What is sent is the whole encoding, and it is received in full. -/
theorem Message.recvFrom_of_send {m : Message} {socketOk : Bool} {datagram : Text}
    (h : m.send socketOk = .ok datagram) : recvFrom datagram = m.encode := by
  have hsent : datagram = m.encode ∧ ¬ m.encode.length > maxMessageSize := by
    cases m with
    | request q =>
        simp only [send, sendRequest] at h
        split_ifs at h with hself hsize hok
        exact ⟨(Except.ok.inj h).symm, hsize⟩
    | response r =>
        simp only [send, sendResponse] at h
        split_ifs at h with hsize hok
        exact ⟨(Except.ok.inj h).symm, hsize⟩
  rw [recvFrom, hsent.1, List.take_of_length_le (Nat.le_of_not_gt hsent.2)]

/-- A request is no response and is read back as a request, a response is read back as a
response, and the worker loop gives every message that is sent to its handler unchanged. -/
theorem wire_round_trip (P : TextParsers) {m : Message} (h : m.ParsesBack P) :
    (∀ q, m = .request q → Response.fromSlice P m.encode = none ∧ Request.fromSlice P m.encode = some q) ∧
    (∀ r, m = .response r → Response.fromSlice P m.encode = some r) ∧ dispatch P m.encode = some m ∧
    ∀ socketOk datagram, m.send socketOk = .ok datagram → dispatch P (recvFrom datagram) = some m := by
  refine ⟨?_, ?_, dispatch_encode h, ?_⟩
  · rintro q rfl
    exact ⟨Response.fromSlice_request P q, Request.fromSlice_render h⟩
  · rintro r rfl
    exact Response.fromSlice_render h
  · intro socketOk datagram hsend
    rw [Message.recvFrom_of_send hsend]
    exact dispatch_encode h

/-- Decimal digits without a zero in front. -/
def readDecimal (bound : Nat) (s : Text) : Option Nat :=
  if s.all Char.isDigit && !s.isEmpty && (s.head? != some '0' || s.length == 1) && Nat.ofDigitChars 10 s 0 < bound
  then some (Nat.ofDigitChars 10 s 0) else none

/-- Reads an IPv4 socket address, and a hyphenated UUID. -/
def v4Parsers : TextParsers where
  socketAddr := fun s => match s.splitOn ':' with
    | [ip, port] => match (ip.splitOn '.').map (readDecimal 256), readDecimal (2 ^ 16) port with
        | [some a, some b, some c, some d], some port =>
            some (.v4 ⟨UInt8.ofNat a, UInt8.ofNat b, UInt8.ofNat c, UInt8.ofNat d⟩ (UInt16.ofNat port))
        | _, _ => none
    | _ => none
  uuid := fun s => match TextCodec.hexDecode (s.filter (· ≠ '-')) with
    | .ok bytes => if h : (s.splitOn '-').map List.length = [8, 4, 4, 4, 12] ∧ bytes.length = 16
        then some ⟨bytes, h.2⟩ else none
    | .error _ => none

def contactsResponse : Response :=
  ⟨.nodes [.local 1 4001, .local 3 4003], .local 2 4002, .local 1 4001, ⟨List.replicate 16 0xab, rfl⟩⟩

theorem v4Parsers_localhost {port : UInt16} (h : port ∈ [4001, 4002, 4003]) :
    v4Parsers.socketAddr (SocketAddr.localhost port).display = some (.localhost port) := by
  simp only [List.mem_cons, List.not_mem_nil, or_false] at h
  rcases h with rfl | rfl | rfl
  · decide +kernel
  · decide +kernel
  · decide +kernel

theorem v4Parsers_requestId : contactsResponse.requestId.ParsesBack v4Parsers := by
  have h : v4Parsers.uuid contactsResponse.requestId.display = some contactsResponse.requestId := by decide +kernel
  exact h

theorem NodeInfo.local_parsesBack (b : UInt8) {port : UInt16} (h : port ∈ [4001, 4002, 4003]) :
    (NodeInfo.local b port).ParsesBack v4Parsers := v4Parsers_localhost h

theorem contactsResponse_parsesBack : (Message.response contactsResponse).ParsesBack v4Parsers := by
  refine ⟨NodeInfo.local_parsesBack 2 (by decide), NodeInfo.local_parsesBack 1 (by decide), v4Parsers_requestId, ?_⟩
  intro n hn
  have hcontacts : n ∈ [NodeInfo.local 1 4001, NodeInfo.local 3 4003] := hn
  rcases List.mem_pair.mp hcontacts with rfl | rfl
  · exact NodeInfo.local_parsesBack 1 (by decide)
  · exact NodeInfo.local_parsesBack 3 (by decide)

theorem wire_round_trip_contacts : (Message.response contactsResponse).ParsesBack v4Parsers ∧
    dispatch v4Parsers (render contactsResponse.json) = some (.response contactsResponse) :=
  ⟨contactsResponse_parsesBack, (wire_round_trip v4Parsers contactsResponse_parsesBack).2.2.1⟩

end P2PFilesystem
