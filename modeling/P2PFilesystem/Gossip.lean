import P2PFilesystem.Agreement
import P2PFilesystem.NetworkStorer
import P2PFilesystem.WireFormat

/-!
# What nodes hear of each other

The network of all nodes once more, where a node addresses and stores only contacts that it knows:
its beacon, the contacts of its table, and who is named in the responses that its calls got. Nobody
then learns of a node that no chain of beacons connects with it, or of one that does not exist.
-/
namespace P2PFilesystem
open Traces

section Network
variable {ν ι κ : Type*}

inductive Network.Knows (beacon : ν → NodeInfo → Prop) (net : Network ν ι κ) (n : ν) (x : NodeInfo) : Prop
  | table : x ∈ (net.servers n).routingTable.getAllNodeinfos → Knows beacon net n x
  | beacon : beacon n x → Knows beacon net n x
  | listed {c : ι} {d : Delivery} : (c, d) ∈ (net.correlators n).delivered → x ∈ d.response.responseType.contacts →
      Knows beacon net n x
  | answered {c : ι} {d : Delivery} : (c, d) ∈ (net.correlators n).delivered → d.response.sender = x →
      Knows beacon net n x

/-- What the tasks of a node do to it between two messages: they store a contact that it knows,
note the time of a lookup, or change the chunk store. -/
inductive Server.TaskStep (knows : NodeInfo → Prop) : Server → Server → Prop
  | stores {s : Server} {contact : NodeInfo} (ping : PingOutcome) : knows contact →
      TaskStep knows s (s.recordPossibleNeighbour contact ping)
  | looksUp {s : Server} (target : Key) (now : Nat) :
      TaskStep knows s { s with routingTable := (s.routingTable.lookupGetNClosest target alpha now).2 }
  | storage {s : Server} (storage : ShardStorageManager) : TaskStep knows s { s with shardStorageManager := storage }

/-- A request of the node to somebody it knows. -/
structure Network.Addresses (beacon : ν → NodeInfo → Prop) (request : ι → Request) (net : Network ν ι κ) (n : ν) (c : ι) :
    Prop where
  sender_eq : (request c).sender = (net.servers n).nodeInfo
  receiver_known : net.Knows beacon n (request c).receiver

/-- The steps of `NetworkStep` in which nodes name whom they know. -/
inductive GossipStep [DecidableEq ν] [DecidableEq ι] [DecidableEq κ] (home : ι → ν) (request : ι → Request)
    (beacon : ν → NodeInfo → Prop) : Network ν ι κ → NetworkEvent ν ι κ → Network ν ι κ → Prop
  | call {net net' : Network ν ι κ} {n : ν} {e : CorrelatorEvent ι κ} : NetworkStep home request net (.call n e) net' →
      (∀ c, e = .sent c → net.Addresses beacon request n c) → GossipStep home request beacon net (.call n e) net'
  | sendOneWay {net net' : Network ν ι κ} {c : ι} : NetworkStep home request net (.sendOneWay c) net' →
      net.Addresses beacon request (home c) c → GossipStep home request beacon net (.sendOneWay c) net'
  | handle {net net' : Network ν ι κ} {n : ν} {q : Request} {env : HandlerEnv} {socketOk : Bool} :
      NetworkStep home request net (.handle n q env socketOk) net' →
      GossipStep home request beacon net (.handle n q env socketOk) net'
  | changes {net net' : Network ν ι κ} {n : ν} {server : Server} :
      NetworkStep home request net (.changes n server) net' →
      Server.TaskStep (net.Knows beacon n) (net.servers n) server → GossipStep home request beacon net (.changes n server) net'

end Network

namespace Server
variable {s : Server} {request : Request} {r : Response}

theorem handleFindNodeMessage_contacts (hvalid : s.routingTable.Valid) {target : Key}
    (h : (s.handleFindNodeMessage request target).response = some r) :
    r.sender = s.nodeInfo ∧ r.responseType.contacts ⊆ s.routingTable.getAllNodeinfos := by
  unfold handleFindNodeMessage at h
  cases hclosest : s.routingTable.getKClosest target with
  | error =>
      rw [hclosest] at h
      cases h
  | ok nodes =>
      rw [hclosest] at h
      dsimp only at h
      cases hnew : ResponseType.newNodes nodes with
      | error =>
          rw [hnew] at h
          cases h
      | ok type =>
          rw [hnew] at h
          cases h
          obtain ⟨rfl, -⟩ := ResponseType.newNodes_ok hnew
          exact ⟨rfl, (hvalid.getNClosest_subset hclosest).2⟩

/-- A response says who sends it, and lists the sender of the request and contacts of the table at most. -/
theorem handleReceivedRequest_contacts {env : HandlerEnv} (hvalid : s.routingTable.Valid)
    (h : (s.handleReceivedRequest request env).response = some r) :
    request.receiver.id = s.nodeInfo.id ∧ r.sender = s.nodeInfo ∧
    ∀ x ∈ r.responseType.contacts, x ∈ s.routingTable.getAllNodeinfos ∨ x = request.sender := by
  have hsilent : ∀ (s' : Server) type, s'.nodeInfo = s.nodeInfo → type.contacts = [] → r = s'.respond request type →
      r.sender = s.nodeInfo ∧ ∀ x ∈ r.responseType.contacts, x ∈ s.routingTable.getAllNodeinfos ∨ x = request.sender := by
    rintro s' type hnode hempty rfl
    refine ⟨hnode, fun x hx => ?_⟩
    have hmem : x ∈ type.contacts := hx
    rw [hempty] at hmem
    cases hmem
  unfold handleReceivedRequest at h
  split_ifs at h with hid
  refine ⟨not_not.mp hid, ?_⟩
  dsimp only at h
  have hrecorded : (s.recordPossibleNeighbour request.sender env.ping).routingTable.Valid :=
    RoutingTable.storeNodeinfo_valid hvalid _ _
  have hlists : ∀ target, ((s.recordPossibleNeighbour request.sender env.ping).handleFindNodeMessage request target).response =
      some r → r.sender = s.nodeInfo ∧
      ∀ x ∈ r.responseType.contacts, x ∈ s.routingTable.getAllNodeinfos ∨ x = request.sender := by
    intro target hr
    obtain ⟨hsender, hsubset⟩ := handleFindNodeMessage_contacts hrecorded hr
    exact ⟨hsender, fun x hx => hvalid.mem_storeNodeinfo (hsubset hx)⟩
  cases htype : request.requestType with
  | ping =>
      rw [htype] at h
      exact hsilent _ .pong rfl rfl (Option.some.inj h).symm
  | findNode nodeId =>
      rw [htype] at h
      exact hlists nodeId h
  | store chunkId =>
      rw [htype] at h
      obtain ⟨type, hr, hallowed⟩ := handleStoreMessage_response h
      refine hsilent _ type rfl ?_ hr
      cases type with
      | nodes nodes => exact hallowed.elim
      | _ => rfl
  | getPort chunkId =>
      rw [htype] at h
      obtain ⟨type, hr, hallowed⟩ := handleGetPortMessage_response h
      refine hsilent _ type rfl ?_ hr
      cases type with
      | nodes nodes => exact hallowed.elim
      | _ => rfl
  | findValue chunkId =>
      rw [htype] at h
      dsimp only at h
      unfold handleFindValueMessage at h
      split_ifs at h
      · exact hsilent _ _ rfl rfl (Option.some.inj h).symm
      · exact hlists chunkId h
  | getValue chunkId port =>
      rw [htype] at h
      dsimp only at h
      rw [handleGetValue_response] at h
      cases h

end Server

section Component
variable {ν ι κ γ : Type*} (info : ν → NodeInfo) (comp : ν → γ)

/-- A node that exists, in the component of `n`. -/
def InComponent (n : ν) (x : NodeInfo) : Prop := ∃ m, comp m = comp n ∧ x = info m

/-- The response comes from the component of the call it is for, and lists nodes of it. -/
def Told (home : ι → ν) (request : ι → Request) (r : Response) : Prop :=
  ∃ c, (request c).requestId = r.requestId ∧ InComponent info comp (home c) r.sender ∧
    ∀ x ∈ r.responseType.contacts, InComponent info comp (home c) x

structure Gossip [DecidableEq ι] [DecidableEq κ] (home : ι → ν) (request : ι → Request) (net : Network ν ι κ) : Prop where
  nodeInfo_eq : ∀ n, (net.servers n).nodeInfo = info n
  id_eq : ∀ n, (net.servers n).routingTable.id = (info n).id
  valid : ∀ n, (net.servers n).routingTable.Valid
  table : ∀ n, ∀ x ∈ (net.servers n).routingTable.getAllNodeinfos, InComponent info comp n x
  begun : ∀ n c, (net.correlators n).calls c ≠ .idle → home c = n
  requests : ∀ c, .request (request c) ∈ net.wire → (request c).sender = info (home c) ∧
    InComponent info comp (home c) (request c).receiver
  responses : ∀ r, .response r ∈ net.wire → Told info comp home request r
  carried : ∀ n, (net.correlators n).Carries (Told info comp home request)

variable {info comp} [DecidableEq ν] [DecidableEq ι] [DecidableEq κ] {home : ι → ν} {request : ι → Request}
  {beacon : ν → NodeInfo → Prop} {net net' : Network ν ι κ}

omit [DecidableEq ν] in
theorem gossip_start : Gossip info comp home request (Network.start fun n => .started (info n) : Network ν ι κ) := by
  constructor
  · exact fun n => rfl
  · exact fun n => rfl
  · exact fun n => RoutingTable.new_valid _ _
  · intro n x hx
    obtain ⟨b, hb, hnb⟩ := List.mem_flatMap.mp hx
    rw [List.eq_of_mem_replicate hb] at hnb
    cases hnb
  · exact fun n c hc => absurd rfl hc
  · intro c hc
    cases hc
  · intro r hr
    cases hr
  · exact fun n => ⟨fun _ _ => nofun, fun _ _ => nofun⟩

omit [DecidableEq ν] in
/-- Whom a node knows is in its component. -/
theorem Gossip.inComponent (hids : Function.Injective fun c => (request c).requestId)
    (hbeacons : ∀ n x, beacon n x → InComponent info comp n x) (hagree : Agreement request net)
    (h : Gossip info comp home request net) {n : ν} {x : NodeInfo} (hx : net.Knows beacon n x) : InComponent info comp n x := by
  have htold : ∀ {c : ι} {d : Delivery}, (c, d) ∈ (net.correlators n).delivered →
      InComponent info comp n d.response.sender ∧ ∀ y ∈ d.response.responseType.contacts, InComponent info comp n y := by
    intro c d hmem
    obtain ⟨c', hid, hsender, hcontacts⟩ := (h.carried n).2 c d hmem
    have hserved := (hagree.correlates n).sender.served_id hmem
    obtain rfl : c' = c := hids (hid.trans hserved)
    obtain rfl : home c' = n := h.begun n c' ((hagree.correlates n).sender.served_begun (Correlator.mem_served.mpr ⟨d, hmem⟩))
    exact ⟨hsender, hcontacts⟩
  cases hx with
  | table hx => exact h.table n x hx
  | beacon hx => exact hbeacons n x hx
  | listed hmem hx => exact (htold hmem).2 x hx
  | answered hmem hx => exact hx ▸ (htold hmem).1

omit [DecidableEq ν] in
/-- A request goes onto the wire. -/
theorem Gossip.sends (hids : Function.Injective fun c => (request c).requestId) (h : Gossip info comp home request net)
    {c : ι} (hsender : (request c).sender = info (home c)) (hreceiver : InComponent info comp (home c) (request c).receiver) :
    Gossip info comp home request { net with wire := .request (request c) :: net.wire } := by
  refine { h with requests := fun c' hc' => ?_, responses := fun r hr => ?_ }
  · rcases List.mem_cons.mp hc' with heq | hc'
    · obtain rfl : c' = c := hids (congrArg Request.requestId (Message.request.inj heq))
      exact ⟨hsender, hreceiver⟩
    · exact h.requests c' hc'
  · rcases List.mem_cons.mp hr with heq | hr
    · cases heq
    · exact h.responses r hr

omit [DecidableEq ν] in
/-- Only a call that is begun leaves the state it starts in. -/
theorem begun_step {s s' : Correlator ι κ} {e : CorrelatorEvent ι κ} {n : ν}
    (hstep : CorrelatorStep (fun c => (request c).requestId) s e s') (hadds : ∀ c, e = .addRequest c → home c = n)
    (hbegun : ∀ c, s.calls c ≠ .idle → home c = n) : ∀ c, s'.calls c ≠ .idle → home c = n := by
  have hmoves : ∀ {c x}, home c = n → ∀ c', (s.setCall c x).calls c' ≠ .idle → home c' = n := by
    intro c x hc c' hc'
    by_cases hcc : c' = c
    · exact hcc ▸ hc
    · exact hbegun c' (fun hidle => hc' ((Function.update_of_ne hcc ..).trans hidle))
  cases hstep with
  | addRequest => exact hmoves (hadds _ rfl)
  | sent hc => exact hmoves (hbegun _ (by rw [hc]; nofun))
  | sendFails hc => exact hmoves (hbegun _ (by rw [hc]; nofun))
  | removeUnsent hc => exact hmoves (hbegun _ (by rw [hc]; nofun))
  | receives hc => exact hmoves (hbegun _ (by rw [hc]; nofun))
  | senderDropped hc => exact hmoves (hbegun _ (by rw [hc]; nofun))
  | timesOut hc => exact hmoves (hbegun _ (by rw [hc]; nofun))
  | removeTimedOut hc => exact hmoves (hbegun _ (by rw [hc]; nofun))
  | arrives => exact hbegun
  | contains => exact hbegun
  | take => exact hbegun
  | @send k d c hk =>
      have hcalls : (s.deliver c d).calls = s.calls := by
        unfold Correlator.deliver
        split_ifs <;> rfl
      intro c' hc'
      refine hbegun c' fun hidle => hc' ?_
      exact (congrFun hcalls c').trans hidle

theorem Gossip.call (hids : Function.Injective fun c => (request c).requestId)
    (hbeacons : ∀ n x, beacon n x → InComponent info comp n x) (hagree : Agreement request net)
    (h : Gossip info comp home request net) {n : ν} {e : CorrelatorEvent ι κ} {next : Correlator ι κ}
    (hstep : CorrelatorStep (fun c => (request c).requestId) (net.correlators n) e next)
    (hhome : ∀ c, e = .addRequest c → home c = n) (harrives : ∀ k r, e = .arrives k r → .response r ∈ net.wire)
    (haddresses : ∀ c, e = .sent c → net.Addresses beacon request n c) :
    Gossip info comp home request (net.call request n e next) := by
  have hnext : Gossip info comp home request { net with correlators := Function.update net.correlators n next } := by
    refine { h with begun := fun m => ?_, carried := fun m => ?_ }
    · by_cases hm : m = n
      · subst hm
        simp only [Function.update_self]
        exact begun_step hstep hhome (h.begun m)
      · simp only [Function.update_of_ne hm]
        exact h.begun m
    · by_cases hm : m = n
      · subst hm
        simp only [Function.update_self]
        exact (h.carried m).step hstep fun k r he => h.responses r (harrives k r he)
      · simp only [Function.update_of_ne hm]
        exact h.carried m
  unfold Network.call
  cases e with
  | sent c =>
      obtain ⟨hsender, hknown⟩ := haddresses c rfl
      have hbegun : home c = n := by
        cases hstep with
        | sent hc => exact h.begun n c (by rw [hc]; nofun)
      subst hbegun
      exact hnext.sends hids (hsender.trans (h.nodeInfo_eq _)) (h.inComponent hids hbeacons hagree hknown)
  | _ => exact hnext

/-- The node changes in its table at most, by contacts of its component. -/
theorem Gossip.changes (h : Gossip info comp home request net) {n : ν} {server : Server}
    (hnode : server.nodeInfo = (net.servers n).nodeInfo) (hid : server.routingTable.id = (net.servers n).routingTable.id)
    (hvalid : server.routingTable.Valid)
    (htable : ∀ x ∈ server.routingTable.getAllNodeinfos, x ∈ (net.servers n).routingTable.getAllNodeinfos ∨
      InComponent info comp n x) :
    Gossip info comp home request { net with servers := Function.update net.servers n server } := by
  have hserver : ∀ {I : ν → Server → Prop}, (∀ m, I m (net.servers m)) → I n server →
      ∀ m, I m (Function.update net.servers n server m) := by
    intro I hall hn m
    by_cases hm : m = n
    · subst hm
      rw [Function.update_self]
      exact hn
    · rw [Function.update_of_ne hm]
      exact hall m
  refine { h with
    nodeInfo_eq := hserver (I := fun m s => s.nodeInfo = info m) h.nodeInfo_eq (hnode.trans (h.nodeInfo_eq n))
    id_eq := hserver (I := fun m s => s.routingTable.id = (info m).id) h.id_eq (hid.trans (h.id_eq n))
    valid := hserver (I := fun _ s => s.routingTable.Valid) h.valid hvalid
    table := hserver (I := fun m s => ∀ x ∈ s.routingTable.getAllNodeinfos, InComponent info comp m x) h.table ?_ }
  intro x hx
  rcases htable x hx with hx | hx
  · exact h.table n x hx
  · exact hx

/-- The node that a request is meant for learns of its sender, and tells of its own component. -/
theorem Gossip.handle (hinfo : Function.Injective fun n => (info n).id) (hagree : Agreement request net)
    (h : Gossip info comp home request net) {n : ν} {q : Request} (hq : .request q ∈ net.wire) (env : HandlerEnv)
    (socketOk : Bool) : Gossip info comp home request (net.handle n q env socketOk) := by
  obtain ⟨c, rfl⟩ := hagree.requests q hq
  obtain ⟨hsender, m, hm, hreceiver⟩ := h.requests c hq
  -- who is meant by the id is in the component of the caller
  have hmeant : (request c).receiver.id = (net.servers n).nodeInfo.id → comp n = comp (home c) := by
    intro hid
    rw [hreceiver, h.nodeInfo_eq] at hid
    obtain rfl : m = n := hinfo hid
    exact hm
  have hchanged : Gossip info comp home request { net with
      servers := Function.update net.servers n ((net.servers n).handleReceivedRequest (request c) env).server } := by
    refine h.changes ((net.servers n).handleReceivedRequest_keeps (request c) env).node_eq ?_ ?_ ?_
    · rw [Server.routingTable_handleReceivedRequest]
      split_ifs
      · rfl
      · exact RoutingTable.storeNodeinfo_id _ _ _
    · rw [Server.routingTable_handleReceivedRequest]
      split_ifs
      · exact h.valid n
      · exact RoutingTable.storeNodeinfo_valid (h.valid n) _ _
    · rw [Server.routingTable_handleReceivedRequest]
      split_ifs with hid
      · exact fun x hx => .inl hx
      · intro x hx
        refine ((h.valid n).mem_storeNodeinfo hx).imp_right ?_
        rintro rfl
        exact ⟨home c, (hmeant (not_not.mp hid)).symm, hsender⟩
  unfold Network.handle
  dsimp only
  cases hr : ((net.servers n).handleReceivedRequest (request c) env).response with
  | none => exact hchanged
  | some r =>
      dsimp only
      cases sendResponse socketOk r with
      | error => exact hchanged
      | ok datagram =>
          have htold : Told info comp home request r := by
            obtain ⟨hid, hfrom, hlisted⟩ := Server.handleReceivedRequest_contacts (h.valid n) hr
            have hcomp := hmeant hid
            refine ⟨c, (Server.handleReceivedRequest_agreesWith hr).requestId_eq.symm, ⟨n, hcomp, ?_⟩, fun x hx => ?_⟩
            · rw [hfrom, h.nodeInfo_eq]
            · rcases hlisted x hx with hx | rfl
              · obtain ⟨m', hm', rfl⟩ := h.table n x hx
                exact ⟨m', hm'.trans hcomp, rfl⟩
              · exact ⟨home c, rfl, hsender⟩
          refine { hchanged with requests := fun c' hc' => ?_, responses := fun r' hr' => ?_ }
          · rcases List.mem_cons.mp hc' with heq | hc'
            · cases heq
            · exact h.requests c' hc'
          · rcases List.mem_cons.mp hr' with heq | hr'
            · exact Message.response.inj heq ▸ htold
            · exact h.responses r' hr'

theorem Gossip.step (hids : Function.Injective fun c => (request c).requestId) (hinfo : Function.Injective fun n => (info n).id)
    (hbeacons : ∀ n x, beacon n x → InComponent info comp n x) {e : NetworkEvent ν ι κ} (hagree : Agreement request net)
    (h : Gossip info comp home request net) (hstep : GossipStep home request beacon net e net') :
    Gossip info comp home request net' := by
  cases hstep with
  | call hstep haddresses =>
      cases hstep with
      | call hmove hhome _ harrives => exact h.call hids hbeacons hagree hmove hhome harrives haddresses
  | @sendOneWay _ c hstep haddresses =>
      cases hstep
      exact h.sends hids (haddresses.sender_eq.trans (h.nodeInfo_eq _))
        (h.inComponent hids hbeacons hagree haddresses.receiver_known)
  | handle hstep =>
      cases hstep with
      | handle hq => exact h.handle hinfo hagree hq _ _
  | @changes _ n server hstep htask =>
      cases hstep with
      | changes hnode =>
          cases htask with
          | stores ping hknown =>
              refine h.changes hnode (RoutingTable.storeNodeinfo_id _ _ _)
                (RoutingTable.storeNodeinfo_valid (h.valid n) _ _) fun x hx => ?_
              refine ((h.valid n).mem_storeNodeinfo hx).imp_right ?_
              rintro rfl
              exact h.inComponent hids hbeacons hagree hknown
          | looksUp target now =>
              unfold RoutingTable.lookupGetNClosest at hnode ⊢
              split
              · exact h.changes hnode rfl (h.valid n) fun x hx => .inl hx
              next i hidx =>
                obtain ⟨hvalid, hsubset⟩ := (h.valid n).touch i now
                exact h.changes hnode rfl hvalid fun x hx => .inl (hsubset hx)
          | storage m => exact h.changes hnode rfl (h.valid n) fun x hx => .inl hx

theorem GossipStep.networkStep {e : NetworkEvent ν ι κ} (hstep : GossipStep home request beacon net e net') :
    NetworkStep home request net e net' := by
  cases hstep with
  | call hstep => exact hstep
  | sendOneWay hstep => exact hstep
  | handle hstep => exact hstep
  | changes hstep => exact hstep

omit [DecidableEq κ] in
/-- No request is addressed to its sender: the dispatcher refuses such a message. -/
def Network.NoneToSelf (net : Network ν ι κ) : Prop := ∀ q, .request q ∈ net.wire → q.receiver ≠ q.sender

theorem Network.NoneToSelf.step {e : NetworkEvent ν ι κ} (h : net.NoneToSelf) (hstep : NetworkStep home request net e net') :
    net'.NoneToSelf := by
  have hsends : ∀ {c : ι} {datagram : Text}, sendRequest true (request c) = .ok datagram →
      ∀ q, Message.request q ∈ .request (request c) :: net.wire → q.receiver ≠ q.sender := by
    intro c datagram hsent q hq
    rcases List.mem_cons.mp hq with heq | hq
    · cases heq
      intro hself
      rw [sendRequest, if_pos hself] at hsent
      cases hsent
    · exact h q hq
  cases hstep with
  | @call n e next _ _ hsent _ =>
      unfold Network.call
      cases e with
      | sent c =>
          obtain ⟨datagram, hdatagram⟩ := hsent c rfl
          exact hsends hdatagram
      | _ => exact h
  | sendOneWay hsent => exact hsends hsent
  | @handle n q env socketOk _ =>
      unfold Network.handle
      dsimp only
      cases ((net.servers n).handleReceivedRequest q env).response with
      | none => exact h
      | some r =>
          dsimp only
          cases sendResponse socketOk r with
          | error => exact h
          | ok datagram =>
              intro q' hq'
              rcases List.mem_cons.mp hq' with heq | hq'
              · cases heq
              · exact h q' hq'
  | changes => exact h

/-- Let the beacons name nodes of the same component. In every run a node then knows only nodes that
exist and are in its component, its table has none but others of these, and a request on the wire is
from one node to another one of its component. Messages may be lost, doubled, delayed and misdelivered. -/
theorem gossip_in_component (hids : Function.Injective fun c => (request c).requestId)
    (hinfo : Function.Injective fun n => (info n).id) (hbeacons : ∀ n x, beacon n x → ∃ m, comp m = comp n ∧ x = info m)
    {hist : List (Network ν ι κ × NetworkEvent ν ι κ)}
    (hrun : Trace (GossipStep home request beacon) (Network.start fun n => .started (info n)) hist net) :
    (∀ n x, net.Knows beacon n x → ∃ m, comp m = comp n ∧ x = info m) ∧
    (∀ n, ∀ x ∈ (net.servers n).routingTable.getAllNodeinfos, ∃ m, m ≠ n ∧ comp m = comp n ∧ x = info m) ∧
    ∀ q, .request q ∈ net.wire → ∃ n m, n ≠ m ∧ comp m = comp n ∧ q.sender = info n ∧ q.receiver = info m := by
  have hboth : Agreement request net ∧ Gossip info comp home request net :=
    hrun.invariant (I := fun u => Agreement request u ∧ Gossip info comp home request u)
      (fun _ _ _ h hstep => ⟨h.1.step hids hstep.networkStep, h.2.step hids hinfo hbeacons h.1 hstep⟩)
      ⟨agreement_start _, gossip_start⟩
  obtain ⟨hagree, hgossip⟩ := hboth
  have hself : net.NoneToSelf := hrun.invariant (I := Network.NoneToSelf) (fun _ _ _ h hstep => h.step hstep.networkStep) nofun
  refine ⟨fun n x hx => hgossip.inComponent hids hbeacons hagree hx, fun n x hx => ?_, fun q hq => ?_⟩
  · obtain ⟨m, hm, rfl⟩ := hgossip.table n x hx
    refine ⟨m, ?_, hm, rfl⟩
    rintro rfl
    exact (hgossip.valid m).id_ne hx (hgossip.id_eq m).symm
  · obtain ⟨c, rfl⟩ := hagree.requests q hq
    obtain ⟨hsender, m, hm, hreceiver⟩ := hgossip.requests c hq
    refine ⟨home c, m, ?_, hm, hsender, hreceiver⟩
    rintro rfl
    exact hself _ hq (hreceiver.trans hsender.symm)

end Component

/-- The third node has no beacon among the first two. -/
def threeInfos (n : Fin 3) : NodeInfo := if n = 0 then .local 1 4001 else if n = 1 then .local 2 4002 else .local 3 4003

theorem gossip_in_component_ping : Function.Injective (fun n => (threeInfos n).id) ∧
    ∃ (hist : _) (net : Network (Fin 3) Unit Unit),
      Trace (GossipStep (fun _ => 0) (fun _ => pingRequest) fun n x => n = 0 ∧ x = threeInfos 1)
        (Network.start fun n => .started (threeInfos n)) hist net ∧
      threeInfos 0 ∈ (net.servers 1).routingTable.getAllNodeinfos ∧
      ∀ n x, net.Knows (fun n x => n = 0 ∧ x = threeInfos 1) n x →
        ∃ m : Fin 3, (m.val < 2 ↔ n.val < 2) ∧ x = threeInfos m := by
  have hinfo : Function.Injective fun n => (threeInfos n).id := by decide
  have hids : Function.Injective fun _ : Unit => pingRequest.requestId := fun _ _ _ => rfl
  have hbeacons : ∀ (n : Fin 3) x, n = 0 ∧ x = threeInfos 1 →
      ∃ m : Fin 3, decide (m.val < 2) = decide (n.val < 2) ∧ x = threeInfos m := by
    rintro n x ⟨rfl, rfl⟩
    exact ⟨1, rfl, rfl⟩
  have hsent : ∃ datagram, sendRequest true pingRequest = .ok datagram := ⟨_, sendRequest_ok (by decide)⟩
  have hasked : Trace (GossipStep (fun _ => 0) (fun _ => pingRequest) fun n x => n = 0 ∧ x = threeInfos 1)
      (Network.start fun n => .started (threeInfos n) : Network (Fin 3) Unit Unit) _ _ :=
    .next (.next .start (.call (.call (n := 0) (.addRequest (c := ()) rfl) (fun _ _ => rfl) (fun _ => nofun) fun _ _ => nofun)
      fun _ => nofun))
      (.call (.call (n := 0) (.sent (c := ()) rfl) (fun _ => nofun) (fun _ _ => hsent) fun _ _ => nofun)
        fun _ _ => ⟨rfl, .beacon ⟨rfl, rfl⟩⟩)
  have hhandle : ∀ net : Network (Fin 3) Unit Unit, .request pingRequest ∈ net.wire →
      GossipStep (fun _ => 0) (fun _ => pingRequest) (fun n x => n = 0 ∧ x = threeInfos 1) net
        (.handle 1 pingRequest quietEnv true) (net.handle 1 pingRequest quietEnv true) := fun _ hq => .handle (.handle hq)
  have hrun := hasked.next (hhandle _ List.mem_cons_self)
  refine ⟨hinfo, _, _, hrun, ?_, fun n x hx => ?_⟩
  · decide
  · obtain ⟨m, hm, rfl⟩ := (gossip_in_component hids hinfo hbeacons hrun).1 n x hx
    exact ⟨m, decide_eq_decide.mp hm, rfl⟩

end P2PFilesystem
