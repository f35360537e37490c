import P2PFilesystem.Config
import P2PFilesystem.Lookup

/-!
# Starting a node

`main.rs` up to its commands, and `Node::new`. A node is started from a configuration file, or from
the file that an earlier run has saved of itself. A chain of restarts keeps the configuration
and the decision to join; the key of the node is drawn anew every time.
-/
namespace P2PFilesystem
open JsonText

/-- One of the two files is given, never both. -/
structure Arguments where
  config : Option Text
  cache : Option Text
  skipJoin : Bool
  port : Option UInt16
  automaticStorage : Bool

inductive IpAddr where
  | v4 (ip : Ipv4Addr)
  | v6 (ip : Ipv6Addr)
  deriving DecidableEq

def IpAddr.display : IpAddr → Text
  | .v4 ip => ip.display
  | .v6 ip => ip.display

def IpAddr.isIpv4 : IpAddr → Bool
  | .v4 _ => true
  | .v6 _ => false

structure Interface where
  isLoopback : Bool
  ip : IpAddr

/-- What a start finds on its machine and in the network, and the two keys that it draws. -/
structure Machine where
  readFile : Text → Option Text
  fromYaml : Text → Option Value
  createDirAll : Text → Bool
  publicIp : Option IpAddr
  getIfAddrs : Option (List Interface)
  bind : SocketAddr → Option SocketAddr
  joinNetwork : NodeInfo → Except LookupError (List NodeInfo)
  cacheKey : Key
  nodeKey : Key

inductive StartError where
  | cacheFile
  | configFile (e : ConfigError)
  | noFile
  | ipAddress
  | nodePort
  | storageDirectory
  | node
  | beaconNodeKey
  | beaconNodeAddress
  | join (e : LookupError)
  deriving DecidableEq

/-- A node that listens, and the beacon it has joined through. -/
structure Started where
  key : Key
  address : SocketAddr
  storagePath : Text
  beacon : Option NodeInfo
  cacheFilePath : Option Text
  cache : Cache

variable (P : TextParsers) (M : Machine)

/-- `Config::resolve_ip_address`. -/
def IpAddressType.resolve : IpAddressType → Option IpAddr
  | .«public» => M.publicIp
  | .local => M.getIfAddrs.bind fun interfaces =>
      (interfaces.find? fun interface => !interface.isLoopback && interface.ip.isIpv4).map Interface.ip
  | .loopback => some (.v4 ⟨127, 0, 0, 1⟩)

/-- The cache that a run begins with. -/
def loadCache (args : Arguments) : Except StartError Cache :=
  match args.cache, args.config with
  | some path, _ => match (M.readFile path).bind (Cache.parseFromFile P) with
      | some cache => .ok cache
      | none => .error .cacheFile
  | none, some path =>
      match Config.parseFromFile (((M.readFile path).bind M.fromYaml).bind (Config.fromValue P)) M.createDirAll
        args.skipJoin args.port with
      | .ok config => .ok ⟨M.cacheKey, args.skipJoin, config, none⟩
      | .error e => .error (.configFile e)
  | none, none => .error .noFile

/-- `Node::new`, the address of the bound socket. -/
def Node.bindAddress (ip : IpAddr) (port : UInt16) : Option SocketAddr :=
  (P.socketAddr (ip.display ++ ':' :: decimal port.toNat)).bind M.bind

/-- The beacon of the configuration, or nobody where the join is skipped. -/
def Cache.beacon (cache : Cache) : Except StartError (Option NodeInfo) :=
  if cache.skipJoin then .ok none
  else match cache.config.beaconNodeKey, cache.config.beaconNodeAddress with
    | none, _ => .error .beaconNodeKey
    | some _, none => .error .beaconNodeAddress
    | some key, some address => .ok (some ⟨key, address⟩)

def automaticStoragePath (key : Key) : Text := "storage-".toList ++ key.toHexString

def orError {α : Type} (e : StartError) : Option α → Except StartError α
  | some x => .ok x
  | none => .error e

/-- The directory of the configuration, unless one is to be made for the new key. -/
def storageDirectory (args : Arguments) (config : Config) : Except StartError Text :=
  if args.automaticStorage then
    if M.createDirAll (automaticStoragePath M.nodeKey) then .ok (automaticStoragePath M.nodeKey)
    else .error .storageDirectory
  else .ok config.storagePath

/-- A node with no beacon does not join. -/
def joinThrough : Option NodeInfo → Except StartError Unit
  | none => .ok ()
  | some beacon => match M.joinNetwork beacon with
      | .ok _ => .ok ()
      | .error e => .error (.join e)

/-- `main` up to its commands. -/
def start (args : Arguments) : Except StartError Started := do
  let cache ← loadCache P M args
  let ip ← orError .ipAddress (cache.config.ipAddressType.resolve M)
  let port ← orError .nodePort cache.config.nodePort
  let storagePath ← storageDirectory M args cache.config
  let address ← orError .node (Node.bindAddress P M ip port)
  let beacon ← cache.beacon
  joinThrough M beacon
  return ⟨M.nodeKey, address, storagePath, beacon, cache.config.cacheFilePath, cache⟩

/-- What a run writes to its cache file: the saver's with the contacts of the moment, and the one
at shutdown, which may come before the first contacts. -/
inductive Started.Saves (run : Started) : Cache → Prop
  | contacts (nodes : List NodeInfo) : run.Saves { run.cache with routingTableNodes := some nodes }
  | shutdown : run.Saves run.cache

/-- Runs each started, with any other options and on any machine, from a file that the run
before it has saved. -/
inductive Restarts (first : Started) : Started → Prop
  | first : Restarts first first
  | restart {run next : Started} {saved : Cache} {M : Machine} {args : Arguments} {path : Text} :
      Restarts first run → run.Saves saved → saved.ParsesBack P → args.cache = some path →
      M.readFile path = some saved.toWriterPretty → start P M args = .ok next → Restarts first next

section Load
variable {P : TextParsers} {M : Machine} {args : Arguments} {cache : Cache}

/-- The configuration of a run has a port, and a beacon unless the join is skipped. -/
structure Cache.Complete (cache : Cache) : Prop where
  nodePort : cache.config.nodePort.isSome
  beacon : cache.skipJoin = false → cache.config.beaconNodeKey.isSome ∧ cache.config.beaconNodeAddress.isSome

theorem Config.parseFromFile_complete {config : Option Config} {storagePathOk : Text → Bool} {skipJoin : Bool}
    {port : Option UInt16} {c : Config} (h : parseFromFile config storagePathOk skipJoin port = .ok c) :
    c.nodePort.isSome ∧ (skipJoin = false → c.beaconNodeKey.isSome ∧ c.beaconNodeAddress.isSome) := by
  cases config with
  | none => cases h
  | some config =>
      simp only [parseFromFile] at h
      split at h
      · cases h
      split at h
      · cases h
      next haddress =>
        split at h
        · cases h
        next hkey =>
          have hbeacon : skipJoin = false → config.beaconNodeKey.isSome ∧ config.beaconNodeAddress.isSome := by
            intro hskip
            simp only [hskip, Bool.false_eq_true, not_false_eq_true, true_and, Option.isNone_iff_eq_none] at haddress hkey
            exact ⟨Option.isSome_iff_ne_none.mpr hkey, Option.isSome_iff_ne_none.mpr haddress⟩
          cases h
          cases port with
          | some port => exact ⟨rfl, hbeacon⟩
          | none =>
              dsimp only
              split
              · exact ⟨rfl, hbeacon⟩
              next hport => exact ⟨Option.isSome_iff_ne_none.mpr (by simpa using hport), hbeacon⟩

theorem loadCache_complete (hcache : args.cache = none) (h : loadCache P M args = .ok cache) : cache.Complete := by
  unfold loadCache at h
  rw [hcache] at h
  cases hconfig : args.config with
  | none =>
      rw [hconfig] at h
      cases h
  | some path =>
      rw [hconfig] at h
      dsimp only at h
      split at h
      next config hread =>
        cases h
        obtain ⟨hport, hbeacon⟩ := Config.parseFromFile_complete hread
        exact ⟨hport, hbeacon⟩
      · cases h

theorem loadCache_saved {path : Text} {saved : Cache} (hback : saved.ParsesBack P) (hcache : args.cache = some path)
    (hfile : M.readFile path = some saved.toWriterPretty) : loadCache P M args = .ok saved := by
  unfold loadCache
  simp only [hcache, hfile, Option.bind_some, Cache.parseFromFile_toWriterPretty hback]

theorem start_error_of_loadCache {e : StartError} (h : loadCache P M args = .error e) : start P M args = .error e := by
  unfold start
  rw [h]
  rfl

/-- A torn file stops the start. -/
theorem start_torn {path : Text} {saved : Cache} (hback : saved.ParsesBack P) (hcache : args.cache = some path) {n : Nat}
    (hn : n < saved.toWriterPretty.length) (hfile : M.readFile path = some (saved.toWriterPretty.take n)) :
    start P M args = .error .cacheFile := by
  apply start_error_of_loadCache
  unfold loadCache
  simp only [hcache, hfile, Option.bind_some, Cache.parseFromFile_take hback, if_pos hn]

theorem Cache.Complete.beacon_ok (h : cache.Complete) : ∃ beacon, cache.beacon = .ok beacon := by
  unfold Cache.beacon
  split
  · exact ⟨none, rfl⟩
  next hskip =>
    obtain ⟨hkey, haddress⟩ := h.beacon (Bool.eq_false_iff.mpr hskip)
    obtain ⟨key, hkey⟩ := Option.isSome_iff_exists.mp hkey
    obtain ⟨address, haddress⟩ := Option.isSome_iff_exists.mp haddress
    rw [hkey, haddress]
    exact ⟨some ⟨key, address⟩, rfl⟩

theorem bind_ok {α β : Type} {x : Except StartError α} {f : α → Except StartError β} {b : β} (h : (x >>= f) = .ok b) :
    ∃ a, x = .ok a ∧ f a = .ok b := by
  cases x with
  | error e => cases h
  | ok a => exact ⟨a, rfl, h⟩

theorem bind_error {α β : Type} {x : Except StartError α} {f : α → Except StartError β} {e : StartError}
    (h : (x >>= f) = .error e) : x = .error e ∨ ∃ a, x = .ok a ∧ f a = .error e := by
  cases x with
  | error e' =>
      cases h
      exact .inl rfl
  | ok a => exact .inr ⟨a, rfl, h⟩

theorem orError_error {α : Type} {e e' : StartError} {x : Option α} (h : orError e x = .error e') : e' = e ∧ x = none := by
  cases x with
  | none =>
      cases h
      exact ⟨rfl, rfl⟩
  | some x => cases h

/-- A run takes its beacon and the path of its cache file from the cache it has loaded. -/
theorem start_ok {run : Started} (h : start P M args = .ok run) :
    loadCache P M args = .ok run.cache ∧ run.cache.beacon = .ok run.beacon ∧
    run.cacheFilePath = run.cache.config.cacheFilePath := by
  obtain ⟨cache, hload, h⟩ := bind_ok h
  obtain ⟨ip, -, h⟩ := bind_ok h
  obtain ⟨port, -, h⟩ := bind_ok h
  obtain ⟨storagePath, -, h⟩ := bind_ok h
  obtain ⟨address, -, h⟩ := bind_ok h
  obtain ⟨beacon, hbeacon, h⟩ := bind_ok h
  obtain ⟨joined, -, h⟩ := bind_ok h
  cases h
  exact ⟨hload, hbeacon, rfl⟩

theorem storageDirectory_error {config : Config} {e : StartError} (h : storageDirectory M args config = .error e) :
    e = .storageDirectory := by
  unfold storageDirectory at h
  split_ifs at h
  cases h
  rfl

/-- Only a node that is to join can fail at it. -/
theorem joinThrough_error {cache : Cache} {beacon : Option NodeInfo} {e : StartError} (hbeacon : cache.beacon = .ok beacon)
    (h : joinThrough M beacon = .error e) : cache.skipJoin = false ∧ ∃ e', e = .join e' := by
  cases beacon with
  | none => cases h
  | some beacon =>
      refine ⟨?_, ?_⟩
      · by_contra hskip
        rw [Cache.beacon, if_pos (Bool.eq_true_of_not_eq_false hskip)] at hbeacon
        cases hbeacon
      · unfold joinThrough at h
        dsimp only at h
        split at h
        · cases h
        next e' _ =>
          cases h
          exact ⟨e', rfl⟩

/-- What a start can fail of, once it has a complete cache. -/
theorem start_error {e : StartError} (hload : loadCache P M args = .ok cache) (hcomplete : cache.Complete)
    (h : start P M args = .error e) :
    e = .ipAddress ∨ e = .storageDirectory ∨ e = .node ∨ cache.skipJoin = false ∧ ∃ e', e = .join e' := by
  obtain ⟨beacon, hbeacon⟩ := hcomplete.beacon_ok
  obtain h | ⟨_, hcache, h⟩ := bind_error h
  · rw [hload] at h
    cases h
  rw [hload] at hcache
  cases hcache
  obtain h | ⟨ip, -, h⟩ := bind_error h
  · exact .inl (orError_error h).1
  obtain h | ⟨port, -, h⟩ := bind_error h
  · have hport := hcomplete.nodePort
    rw [(orError_error h).2] at hport
    cases hport
  obtain h | ⟨storagePath, -, h⟩ := bind_error h
  · exact .inr (.inl (storageDirectory_error h))
  obtain h | ⟨address, -, h⟩ := bind_error h
  · exact .inr (.inr (.inl (orError_error h).1))
  obtain h | ⟨found, hfound, h⟩ := bind_error h
  · rw [hbeacon] at h
    cases h
  obtain h | ⟨joined, -, h⟩ := bind_error h
  · exact .inr (.inr (.inr (joinThrough_error hfound h)))
  · cases h

end Load

section Chains
variable {P : TextParsers} {first run : Started} {saved : Cache}

/-- Two caches that differ in their contacts only. -/
structure Cache.SameButContacts (c d : Cache) : Prop where
  key : c.key = d.key
  skipJoin : c.skipJoin = d.skipJoin
  config : c.config = d.config

namespace Cache.SameButContacts
variable {c d b : Cache}

theorem trans (h : c.SameButContacts d) (h' : d.SameButContacts b) : c.SameButContacts b :=
  ⟨h.key.trans h'.key, h.skipJoin.trans h'.skipJoin, h.config.trans h'.config⟩

theorem complete (h : c.SameButContacts d) (hd : d.Complete) : c.Complete :=
  ⟨h.config ▸ hd.nodePort, fun hskip => h.config ▸ hd.beacon (h.skipJoin ▸ hskip)⟩

theorem beacon (h : c.SameButContacts d) : c.beacon = d.beacon := by
  simp only [Cache.beacon, h.skipJoin, h.config]

end Cache.SameButContacts

theorem Started.Saves.sameButContacts (h : run.Saves saved) : saved.SameButContacts run.cache := by
  cases h with
  | contacts nodes => exact ⟨rfl, rfl, rfl⟩
  | shutdown => exact ⟨rfl, rfl, rfl⟩

/-- Each restart hands on all but the contacts. -/
theorem Restarts.sameButContacts (h : Restarts P first run) : run.cache.SameButContacts first.cache := by
  induction h with
  | first => exact ⟨rfl, rfl, rfl⟩
  | restart _ hsaves hback hcache hfile hstart ih =>
      have hload := (start_ok hstart).1
      rw [loadCache_saved hback hcache hfile] at hload
      cases hload
      exact hsaves.sameButContacts.trans ih

theorem Restarts.beacon {M : Machine} {args : Arguments} (hstart : start P M args = .ok first) (h : Restarts P first run) :
    run.cache.beacon = .ok run.beacon ∧ run.cacheFilePath = run.cache.config.cacheFilePath := by
  cases h with
  | first => exact (start_ok hstart).2
  | restart _ _ _ _ _ hnext => exact (start_ok hnext).2

/-- However often a node is restarted, it stays with the configuration, the decision to join, the
beacon and the cache file of its first start. A saved file that is whole never stops a restart
itself, and one that is not always does. -/
theorem Restarts.same_network {M₀ : Machine} {args₀ : Arguments} (hstart : start P M₀ args₀ = .ok first)
    (hfresh : args₀.cache = none) (h : Restarts P first run) :
    run.cache.SameButContacts first.cache ∧ run.beacon = first.beacon ∧ run.cacheFilePath = first.cacheFilePath ∧
    ∀ saved M args path, run.Saves saved → saved.ParsesBack P → args.cache = some path →
      (M.readFile path = some saved.toWriterPretty → ∀ e, start P M args = .error e →
        e = .ipAddress ∨ e = .storageDirectory ∨ e = .node ∨ saved.skipJoin = false ∧ ∃ e', e = .join e') ∧
      ∀ n < saved.toWriterPretty.length, M.readFile path = some (saved.toWriterPretty.take n) →
        start P M args = .error .cacheFile := by
  obtain ⟨hload, hbeacon₀, hpath₀⟩ := start_ok hstart
  have hcomplete := loadCache_complete hfresh hload
  have hsame := h.sameButContacts
  obtain ⟨hbeacon, hpath⟩ := h.beacon hstart
  refine ⟨hsame, ?_, ?_, ?_⟩
  · rw [hsame.beacon, hbeacon₀] at hbeacon
    exact (Except.ok.inj hbeacon).symm
  · rw [hpath, hpath₀, hsame.config]
  · intro saved M args path hsaves hback hcache
    have hsaved := hsaves.sameButContacts.trans hsame
    exact ⟨fun hfile e he => start_error (loadCache_saved hback hcache hfile) (hsaved.complete hcomplete) he,
      fun n hn hfile => start_torn hback hcache hn hfile⟩

end Chains

section Sample

def loopbackConfig : Config :=
  ⟨some (.localhost 4002), some (NodeInfo.local 2 4002).id, some 4001, .loopback, some "node.json".toList, "shards".toList⟩

def loopbackCache : Cache := ⟨(NodeInfo.local 3 4003).id, false, loopbackConfig, none⟩

/-- The configuration is in every YAML file, and the cache in every other. -/
def loopbackMachine (file : Text) (b : UInt8) : Machine where
  readFile := fun _ => some file
  fromYaml := fun _ => some loopbackConfig.tree.value
  createDirAll := fun _ => true
  publicIp := none
  getIfAddrs := none
  bind := some
  joinNetwork := fun _ => .ok []
  cacheKey := (NodeInfo.local 3 4003).id
  nodeKey := (NodeInfo.local b 4001).id

def loopbackRun (b : UInt8) : Started :=
  ⟨(NodeInfo.local b 4001).id, .localhost 4001, "shards".toList, some (.local 2 4002), some "node.json".toList, loopbackCache⟩

theorem loopbackConfig_parsesBack : ∀ a ∈ loopbackConfig.beaconNodeAddress, v4Parsers.socketAddr a.display = some a := by
  rintro a ⟨⟩
  exact v4Parsers_localhost (by decide)

theorem loopbackCache_parsesBack : loopbackCache.ParsesBack v4Parsers := ⟨loopbackConfig_parsesBack, nofun⟩

theorem start_loopback {file : Text} {b : UInt8} {args : Arguments} (hstorage : args.automaticStorage = false)
    (hload : loadCache v4Parsers (loopbackMachine file b) args = .ok loopbackCache) :
    start v4Parsers (loopbackMachine file b) args = .ok (loopbackRun b) := by
  have hparse : v4Parsers.socketAddr (SocketAddr.localhost 4001).display = _ := v4Parsers_localhost (by decide)
  have haddress : Node.bindAddress v4Parsers (loopbackMachine file b) (.v4 ⟨127, 0, 0, 1⟩) 4001 = some (.localhost 4001) :=
    congrArg (Option.bind · some) hparse
  have hdirectory : storageDirectory (loopbackMachine file b) args loopbackConfig = .ok "shards".toList := by
    rw [storageDirectory, hstorage]
    rfl
  unfold start
  rw [hload]
  change ((storageDirectory (loopbackMachine file b) args loopbackConfig).bind fun storagePath =>
    (orError .node (Node.bindAddress v4Parsers (loopbackMachine file b) (.v4 ⟨127, 0, 0, 1⟩) 4001)).bind fun address =>
      Except.ok (⟨(loopbackMachine file b).nodeKey, address, storagePath, some (.local 2 4002), some "node.json".toList,
        loopbackCache⟩ : Started)) = _
  rw [haddress, hdirectory]
  rfl

def configArguments : Arguments := ⟨some "node.yaml".toList, none, false, none, false⟩

def cacheArguments : Arguments := ⟨none, some "node.json".toList, true, some 4003, false⟩

theorem start_config : start v4Parsers (loopbackMachine [] 1) configArguments = .ok (loopbackRun 1) := by
  apply start_loopback rfl
  have hread : Config.fromValue v4Parsers loopbackConfig.tree.value = some loopbackConfig :=
    Config.fromValue_tree loopbackConfig_parsesBack
  unfold loadCache
  change (match Config.parseFromFile (Config.fromValue v4Parsers loopbackConfig.tree.value) (fun _ => true) false none with
    | .ok config => Except.ok (⟨(NodeInfo.local 3 4003).id, false, config, none⟩ : Cache)
    | .error e => .error (StartError.configFile e)) = _
  rw [hread]
  rfl

theorem start_cache : start v4Parsers (loopbackMachine loopbackCache.toWriterPretty 4) cacheArguments = .ok (loopbackRun 4) :=
  start_loopback rfl (loadCache_saved loopbackCache_parsesBack rfl rfl)

/-- The second run has another key and joins through the same beacon. -/
theorem same_network_loopback : (loopbackRun 4).key ≠ (loopbackRun 1).key ∧ (loopbackRun 4).beacon = (loopbackRun 1).beacon :=
  ⟨by decide, (Restarts.same_network start_config rfl
    (.restart .first .shutdown loopbackCache_parsesBack rfl rfl start_cache)).2.1⟩

end Sample

end P2PFilesystem
