import P2PFilesystem.WireFormat
import P2PFilesystem.JsonPrefix

/-!
# Configuration and the saved cache

`config.rs` and `cache.rs`: the checks on a configuration file, and the file that a running
node saves of itself. What `save_to_file` writes is read back by `parse_from_file` once it is
written to its end, and not before.
-/
namespace P2PFilesystem
open JsonText

inductive IpAddressType where
  | «public»
  | «local»
  | loopback
  deriving DecidableEq

structure Config where
  beaconNodeAddress : Option SocketAddr
  beaconNodeKey : Option Key
  nodePort : Option UInt16
  ipAddressType : IpAddressType
  cacheFilePath : Option Text
  storagePath : Text

structure Cache where
  key : Key
  skipJoin : Bool
  config : Config
  routingTableNodes : Option (List NodeInfo)

section Decoders

/-- A field of `Option` type may be missing. -/
def getOption {α : Type} (name : String) (read : Value → Option α) (fields : List (Text × Value)) : Option (Option α) :=
  match fields.filter fun field => String.ofList field.1 = name with
  | [] => some none
  | [(_, .null)] => some none
  | [(_, v)] => (read v).map some
  | _ => none

def boolFromValue : Value → Option Bool
  | .bool b => some b
  | _ => none

def textFromValue : Value → Option Text
  | .str s => some s
  | _ => none

/-- `to_lowercase` of a character, where the result is an ASCII letter: the Kelvin sign is the
only one outside ASCII. -/
def toLowercase (c : Char) : Char := if c.toNat = 0x212A then 'k' else c.toLower

def IpAddressType.fromValue : Value → Option IpAddressType
  | .str s =>
      let s := s.map toLowercase
      if s = "public".toList then some .«public»
      else if s = "local".toList then some .local
      else if s = "loopback".toList then some .loopback
      else none
  | _ => none

def Config.fromValue (P : TextParsers) (v : Value) : Option Config := do
  let fields ← structFields ["beacon_node_address", "beacon_node_key", "node_port", "ip_address_type", "cache_file_path",
    "storage_path"] v
  let beaconNodeAddress ← getOption "beacon_node_address" (socketAddrFromValue P) fields
  let beaconNodeKey ← getOption "beacon_node_key" Key.fromValue fields
  let nodePort ← getOption "node_port" u16FromValue fields
  let ipAddressType ← (getField "ip_address_type" fields).bind IpAddressType.fromValue
  let cacheFilePath ← getOption "cache_file_path" textFromValue fields
  let storagePath ← (getField "storage_path" fields).bind textFromValue
  return ⟨beaconNodeAddress, beaconNodeKey, nodePort, ipAddressType, cacheFilePath, storagePath⟩

def Cache.fromValue (P : TextParsers) (v : Value) : Option Cache := do
  let fields ← structFields ["key", "skip_join", "config", "routing_table_nodes"] v
  let key ← (getField "key" fields).bind Key.fromValue
  let skipJoin ← (getField "skip_join" fields).bind boolFromValue
  let config ← (getField "config" fields).bind (Config.fromValue P)
  let routingTableNodes ← getOption "routing_table_nodes" (nodesFromValue P) fields
  return ⟨key, skipJoin, config, routingTableNodes⟩

/-- `Cache::parse_from_file`, of the text of the file. -/
def Cache.parseFromFile (P : TextParsers) (text : Text) : Option Cache := (parse text).bind (Cache.fromValue P)

inductive ConfigError where
  | unreadable
  | storagePath
  | beaconNodeAddressMissing
  | beaconNodeKeyMissing
  deriving DecidableEq

/-- `Config::parse_from_file`, where `config` is what is read of the file and `createDirAll` makes
the storage directory if it does not exist. -/
def Config.parseFromFile (config : Option Config) (storagePathOk : Text → Bool) (skipJoin : Bool)
    (portArg : Option UInt16) : Except ConfigError Config :=
  match config with
  | none => .error .unreadable
  | some config =>
      if ¬ storagePathOk config.storagePath then .error .storagePath
      else if ¬ skipJoin ∧ config.beaconNodeAddress.isNone then .error .beaconNodeAddressMissing
      else if ¬ skipJoin ∧ config.beaconNodeKey.isNone then .error .beaconNodeKeyMissing
      else
        let config := match portArg with
          | some port => { config with nodePort := some port }
          | none => config
        .ok (if config.nodePort.isNone then { config with nodePort := some 0 } else config)

end Decoders

section Encoders

def optionTree {α : Type} (tree : α → Tree) : Option α → Tree
  | none => .null
  | some x => tree x

def Key.tree (k : Key) : Tree := .str k.toHexString

def SocketAddr.tree (a : SocketAddr) : Tree := .str a.display

def structTree (fields : List (String × Tree)) : Tree := .obj (fields.map fun field => (field.1.toList, field.2))

def NodeInfo.tree (n : NodeInfo) : Tree := structTree [("id", n.id.tree), ("address", n.address.tree)]

/-- The derived serializer writes the name of the variant. -/
def IpAddressType.tree : IpAddressType → Tree
  | .«public» => .str "Public".toList
  | .local => .str "Local".toList
  | .loopback => .str "Loopback".toList

def Config.fields (c : Config) : List (String × Tree) :=
  [("beacon_node_address", optionTree SocketAddr.tree c.beaconNodeAddress),
    ("beacon_node_key", optionTree Key.tree c.beaconNodeKey),
    ("node_port", optionTree (fun port : UInt16 => .num port.toNat) c.nodePort),
    ("ip_address_type", c.ipAddressType.tree),
    ("cache_file_path", optionTree .str c.cacheFilePath),
    ("storage_path", .str c.storagePath)]

def Config.tree (c : Config) : Tree := structTree c.fields

def Cache.fields (c : Cache) : List (String × Tree) :=
  [("key", c.key.tree), ("skip_join", .bool c.skipJoin), ("config", c.config.tree),
    ("routing_table_nodes", optionTree (fun nodes => .arr (nodes.map NodeInfo.tree)) c.routingTableNodes)]

def Cache.tree (c : Cache) : Tree := structTree c.fields

/-- `to_writer_pretty`, what `Cache::save_to_file` writes. -/
def Cache.toWriterPretty (c : Cache) : Text := pretty 0 c.tree

end Encoders

section RoundTrip
variable {P : TextParsers}

theorem structTree_value (fields : List (String × Tree)) :
    (structTree fields).value = .obj (fields.map fun field => (field.1.toList, field.2.value)) := by
  have h : treeFields (fields.map fun field => (field.1.toList, field.2)) =
      fields.map fun field => (field.1.toList, field.2.value) := by
    induction fields with
    | nil => rfl
    | cons field fields ih => exact congrArg _ ih
  exact congrArg Value.obj h

/-- Where the names are distinct, one field has the name. -/
theorem filter_structTree {name : String} {x : Tree} {fields : List (String × Tree)}
    (hnodup : (fields.map Prod.fst).Nodup) (h : (name, x) ∈ fields) :
    (fields.map fun field => (field.1.toList, field.2.value)).filter (fun field => String.ofList field.1 = name) =
      [(name.toList, x.value)] := by
  have hname : (fun field : Text × Value => decide (String.ofList field.1 = name)) ∘
      (fun field : String × Tree => (field.1.toList, field.2.value)) = fun field => decide (field.1 = name) := by
    funext field
    simp only [Function.comp_apply, String.ofList_toList]
  have hone : fields.filter (fun field => decide (field.1 = name)) = [(name, x)] := by
    induction fields with
    | nil => cases h
    | cons field fields ih =>
        obtain ⟨hnew, hrest⟩ := List.nodup_cons.mp hnodup
        cases h with
        | head =>
            have hnone : fields.filter (fun field => decide (field.1 = name)) = [] := by
              refine List.filter_eq_nil_iff.mpr fun other hother heq => hnew ?_
              exact List.mem_map.mpr ⟨other, hother, of_decide_eq_true heq⟩
            simp only [List.filter_cons, decide_true, if_true, hnone]
        | tail _ hmem =>
            have hne : field.1 ≠ name := fun heq => hnew (heq ▸ List.mem_map.mpr ⟨_, hmem, rfl⟩)
            rw [List.filter_cons_of_neg (by simpa using hne)]
            exact ih hrest hmem
  rw [List.filter_map, hname, hone]
  rfl

theorem getField_structTree {name : String} {x : Tree} {fields : List (String × Tree)}
    (hnodup : (fields.map Prod.fst).Nodup) (h : (name, x) ∈ fields) :
    getField name (fields.map fun field => (field.1.toList, field.2.value)) = some x.value := by
  rw [getField, filter_structTree hnodup h]

theorem getOption_structTree {α : Type} {name : String} {read : Value → Option α} {tree : α → Tree} {x : Option α}
    {fields : List (String × Tree)} (hnodup : (fields.map Prod.fst).Nodup) (h : (name, optionTree tree x) ∈ fields)
    (hnull : ∀ y, (tree y).value ≠ .null) (hread : ∀ y ∈ x, read (tree y).value = some y) :
    getOption name read (fields.map fun field => (field.1.toList, field.2.value)) = some x := by
  have hfilter := filter_structTree hnodup h
  cases x with
  | none =>
      rw [getOption, hfilter]
      rfl
  | some y =>
      have hvalue : (optionTree tree (some y)).value = (tree y).value := rfl
      rw [getOption, hfilter, hvalue]
      split
      next heq => cases heq
      next heq => exact absurd (Prod.mk.inj (List.cons.inj heq).1).2 (hnull y)
      next heq =>
        cases heq
        rw [hread y rfl]
        rfl
      next hsome => exact (hsome _ _ rfl).elim

/-- The beacon's address and the contacts' are read back from their texts. -/
structure Cache.ParsesBack (P : TextParsers) (c : Cache) : Prop where
  beacon : ∀ a ∈ c.config.beaconNodeAddress, P.socketAddr a.display = some a
  nodes : ∀ nodes ∈ c.routingTableNodes, ∀ n ∈ nodes, n.ParsesBack P

theorem Key.fromValue_tree (k : Key) : Key.fromValue k.tree.value = some k := k.fromValue_json

theorem IpAddressType.fromValue_tree (t : IpAddressType) : IpAddressType.fromValue t.tree.value = some t := by
  cases t with
  | «public» => decide +kernel
  | «local» => decide +kernel
  | loopback => decide +kernel

theorem NodeInfo.fromValue_tree {n : NodeInfo} (h : n.ParsesBack P) : NodeInfo.fromValue P n.tree.value = some n := by
  have hnames : ([("id", n.id.tree), ("address", n.address.tree)].map Prod.fst).Nodup := by simp
  have hid := getField_structTree hnames (.head _)
  have haddress := getField_structTree hnames (.tail _ (.head _))
  have hparse : socketAddrFromValue P n.address.tree.value = some n.address := h
  rw [NodeInfo.tree, structTree_value]
  simp only [fromValue, structFields, hid, haddress, Option.bind_eq_bind, Option.bind_some, Key.fromValue_tree, hparse]
  rfl

theorem nodesFromValue_tree {nodes : List NodeInfo} (h : ∀ n ∈ nodes, n.ParsesBack P) :
    nodesFromValue P (Tree.arr (nodes.map NodeInfo.tree)).value = some nodes := by
  change (treeItems (nodes.map NodeInfo.tree)).mapM (NodeInfo.fromValue P) = some nodes
  induction nodes with
  | nil => rfl
  | cons n nodes ih =>
      have hn := NodeInfo.fromValue_tree (h n List.mem_cons_self)
      have hnodes := ih fun u hu => h u (List.mem_cons_of_mem n hu)
      simp [treeItems, hn, hnodes]

theorem Config.fromValue_tree {c : Config} (h : ∀ a ∈ c.beaconNodeAddress, P.socketAddr a.display = some a) :
    Config.fromValue P c.tree.value = some c := by
  have hnames : (c.fields.map Prod.fst).Nodup := by simp [fields]
  have haddress : getOption "beacon_node_address" (socketAddrFromValue P) _ = some c.beaconNodeAddress :=
    getOption_structTree hnames (.head _) nofun h
  have hkey : getOption "beacon_node_key" Key.fromValue _ = some c.beaconNodeKey :=
    getOption_structTree hnames (.tail _ (.head _)) nofun fun k _ => k.fromValue_tree
  have hport : getOption "node_port" u16FromValue _ = some c.nodePort :=
    getOption_structTree hnames (.tail _ (.tail _ (.head _))) nofun fun port _ => u16FromValue_num port
  have htype := getField_structTree hnames (.tail _ (.tail _ (.tail _ (.head _))))
  have hcache : getOption "cache_file_path" textFromValue _ = some c.cacheFilePath :=
    getOption_structTree hnames (.tail _ (.tail _ (.tail _ (.tail _ (.head _))))) nofun fun _ _ => rfl
  have hstorage := getField_structTree hnames (.tail _ (.tail _ (.tail _ (.tail _ (.tail _ (.head _))))))
  rw [Config.tree, structTree_value, fromValue]
  simp only [structFields, haddress, hkey, hport, htype, hcache, hstorage, Option.bind_eq_bind, Option.bind_some,
    IpAddressType.fromValue_tree]
  rfl

theorem Cache.fromValue_tree {c : Cache} (h : c.ParsesBack P) : Cache.fromValue P c.tree.value = some c := by
  have hnames : (c.fields.map Prod.fst).Nodup := by simp [fields]
  have hkey := getField_structTree hnames (.head _)
  have hskip := getField_structTree hnames (.tail _ (.head _))
  have hconfig := getField_structTree hnames (.tail _ (.tail _ (.head _)))
  have hnodes : getOption "routing_table_nodes" (nodesFromValue P) _ = some c.routingTableNodes :=
    getOption_structTree hnames (.tail _ (.tail _ (.tail _ (.head _)))) nofun fun nodes hmem =>
      nodesFromValue_tree (h.nodes nodes hmem)
  rw [Cache.tree, structTree_value, fromValue]
  simp only [structFields, hkey, hskip, hconfig, hnodes, Option.bind_eq_bind, Option.bind_some, Key.fromValue_tree,
    Config.fromValue_tree h.beacon]
  rfl

theorem Cache.parseFromFile_toWriterPretty {c : Cache} (h : c.ParsesBack P) : parseFromFile P c.toWriterPretty = some c := by
  rw [parseFromFile, toWriterPretty, parse_pretty, Option.bind_some, fromValue_tree h]

/-- The text is that of an object, from its opening bracket to its closing one. -/
theorem Cache.toWriterPretty_eq (c : Cache) : ∃ s, c.toWriterPretty = '\x7b' :: s ++ ['\x7d'] :=
  ⟨prettyFields 1 (c.fields.map fun field => (field.1.toList, field.2)) ++ newline 0, rfl⟩

/-- While the file is written, what has reached it is a part of the text from its start on: it
is no cache until the text is there to its end, and then it is the cache that was saved. -/
theorem Cache.parseFromFile_take {c : Cache} (h : c.ParsesBack P) (n : Nat) :
    parseFromFile P (c.toWriterPretty.take n) = if n < c.toWriterPretty.length then none else some c := by
  split
  next hcut =>
    have hwhole : parse c.toWriterPretty ≠ none := by
      rw [toWriterPretty, parse_pretty]
      exact Option.some_ne_none _
    obtain ⟨s, hs⟩ := c.toWriterPretty_eq
    rw [parseFromFile, parse_take_eq_none hwhole ⟨_, hs⟩ ⟨_, hs⟩ hcut, Option.bind_none]
  next hall =>
    rw [List.take_of_length_le (Nat.le_of_not_lt hall), parseFromFile_toWriterPretty h]

end RoundTrip

end P2PFilesystem
