import Mathlib.Data.List.Infix
import Mathlib.Data.List.Nodup
import TcpipCourse.Lib.Delimited
import TcpipCourse.Lib.Lines
import TcpipCourse.Lib.Span
import TcpipCourse.Common

/-!
# Linux lab 04: the kernel source walkthrough

* `SymbolId`, `symbols`, `edges`, `ingress`, `egress` : the authored index and its call edges;
* `symbolById`, `validatePath`, `formatSourceUrl` : the functions of the lab;
* `lines` : the walks that go on as far as they can; `validatePath_iff` : what each status says of a path, and that
  the accepted ones are the pieces of the lines;
* `formatSourceUrl_capacity` : what a call stores and reports, for every capacity.
-/

namespace TcpipCourse.LinuxL04
open Lib

/-! ## The index -/

inductive SymbolId where
  | netifReceiveSkb
  | netifReceiveSkbOneCore
  | ipRcv
  | nfInetPreRouting
  | ipRcvFinish
  | ipRouteInputNoref
  | ipRouteInputSlow
  | dstInput
  | ipLocalDeliver
  | nfInetLocalIn
  | ipLocalDeliverFinish
  | tcpV4Rcv
  | inetLookupSkb
  | inetLookupEstablished
  | tcpRcvEstablished
  | tcpAck
  | sockSendmsg
  | tcpSendmsg
  | tcpSendmsgLocked
  | tcpWriteXmit
  | tcpTransmitSkb
  | inetQueueXmit
  | ipRouteOutputFlow
  | ipQueueXmit
  | __ipQueueXmit
  | ipLocalOut
  | ipOutput
  | ipFinishOutput
  | __devQueueXmit
  | tcpGetInfo
  deriving DecidableEq, Repr

/-- The value of the enumerator; a caller may pass any other one. -/
def SymbolId.value (id : SymbolId) : Int := id.ctorIdx

structure Symbol where
  id : SymbolId
  key : String
  name : String
  sourcePath : String
  sourceLine : Nat
  description : String
  deriving DecidableEq, Repr

def symbols : List Symbol :=
  [⟨.netifReceiveSkb, "netif_receive_skb", "netif_receive_skb", "net/core/dev.c", 5805,
    "Enter the receive core with one sk_buff."⟩,
   ⟨.netifReceiveSkbOneCore, "__netif_receive_skb_one_core", "__netif_receive_skb_one_core", "net/core/dev.c", 5544,
    "Run the protocol receive path for one packet."⟩,
   ⟨.ipRcv, "ip_rcv", "ip_rcv", "net/ipv4/ip_input.c", 560,
    "Validate an IPv4 packet before the pre-routing hook."⟩,
   ⟨.nfInetPreRouting, "nf_inet_pre_routing", "NF_INET_PRE_ROUTING", "net/ipv4/ip_input.c", 569,
    "Run IPv4 Netfilter pre-routing before the ip_rcv_finish continuation."⟩,
   ⟨.ipRcvFinish, "ip_rcv_finish", "ip_rcv_finish", "net/ipv4/ip_input.c", 435,
    "Continue after pre-routing, route the skb, and dispatch dst_input."⟩,
   ⟨.ipRouteInputNoref, "ip_route_input_noref", "ip_route_input_noref", "net/ipv4/route.c", 2487,
    "Reuse or compute a route for an incoming packet."⟩,
   ⟨.ipRouteInputSlow, "ip_route_input_slow", "ip_route_input_slow", "net/ipv4/route.c", 2223,
    "Perform the uncached IPv4 input route lookup."⟩,
   ⟨.dstInput, "dst_input", "dst_input", "include/net/dst.h", 466,
    "Invoke the route destination input callback, usually ip_local_deliver for local IPv4."⟩,
   ⟨.ipLocalDeliver, "ip_local_deliver", "ip_local_deliver", "net/ipv4/ip_input.c", 242,
    "Reassemble if needed and enter local delivery hooks."⟩,
   ⟨.nfInetLocalIn, "nf_inet_local_in", "NF_INET_LOCAL_IN", "net/ipv4/ip_input.c", 254,
    "Run IPv4 Netfilter local-input before the ip_local_deliver_finish continuation."⟩,
   ⟨.ipLocalDeliverFinish, "ip_local_deliver_finish", "ip_local_deliver_finish", "net/ipv4/ip_input.c", 227,
    "Dispatch a locally delivered datagram to its IP protocol handler."⟩,
   ⟨.tcpV4Rcv, "tcp_v4_rcv", "tcp_v4_rcv", "net/ipv4/tcp_ipv4.c", 1983,
    "Receive and validate an IPv4 TCP segment."⟩,
   ⟨.inetLookupSkb, "__inet_lookup_skb", "__inet_lookup_skb", "include/net/inet_hashtables.h", 492,
    "Select an established or listening socket for an sk_buff."⟩,
   ⟨.inetLookupEstablished, "__inet_lookup_established", "__inet_lookup_established",
    "include/net/inet_hashtables.h", 376, "Search the established transport socket hash."⟩,
   ⟨.tcpRcvEstablished, "tcp_rcv_established", "tcp_rcv_established", "net/ipv4/tcp_input.c", 5882,
    "Process a segment on the TCP established fast or slow path."⟩,
   ⟨.tcpAck, "tcp_ack", "tcp_ack", "net/ipv4/tcp_input.c", 3784,
    "Apply an acknowledgment to TCP sender state."⟩,
   ⟨.sockSendmsg, "sock_sendmsg", "sock_sendmsg", "net/socket.c", 756,
    "Enter protocol sendmsg through the socket layer."⟩,
   ⟨.tcpSendmsg, "tcp_sendmsg", "tcp_sendmsg", "net/ipv4/tcp.c", 1335,
    "Acquire the socket lock for a TCP send request."⟩,
   ⟨.tcpSendmsgLocked, "tcp_sendmsg_locked", "tcp_sendmsg_locked", "net/ipv4/tcp.c", 1037,
    "Queue application bytes into TCP write buffers."⟩,
   ⟨.tcpWriteXmit, "tcp_write_xmit", "tcp_write_xmit", "net/ipv4/tcp_output.c", 2670,
    "Choose queued TCP segments eligible for transmission."⟩,
   ⟨.tcpTransmitSkb, "tcp_transmit_skb", "tcp_transmit_skb", "net/ipv4/tcp_output.c", 1430,
    "Wrap __tcp_transmit_skb, which builds TCP headers and calls queue_xmit."⟩,
   ⟨.inetQueueXmit, "inet_queue_xmit", "icsk_af_ops->queue_xmit", "net/ipv4/tcp_output.c", 1415,
    "Address-family queue_xmit callback; IPv4 sockets use ip_queue_xmit."⟩,
   ⟨.ipRouteOutputFlow, "ip_route_output_flow", "ip_route_output_flow", "net/ipv4/route.c", 2869,
    "Resolve an IPv4 output route for a flow."⟩,
   ⟨.ipQueueXmit, "ip_queue_xmit", "ip_queue_xmit", "net/ipv4/ip_output.c", 545,
    "IPv4 transport queueing callback."⟩,
   ⟨.__ipQueueXmit, "__ip_queue_xmit", "__ip_queue_xmit", "net/ipv4/ip_output.c", 454,
    "Find or reuse a route, build the IPv4 header, and enter local output."⟩,
   ⟨.ipLocalOut, "ip_local_out", "ip_local_out", "net/ipv4/ip_output.c", 121,
    "Run local IPv4 output hooks before dst_output."⟩,
   ⟨.ipOutput, "ip_output", "ip_output", "net/ipv4/ip_output.c", 424,
    "Run post-routing and choose the output device path."⟩,
   ⟨.ipFinishOutput, "ip_finish_output", "ip_finish_output", "net/ipv4/ip_output.c", 314,
    "Apply final IPv4 output handling before neighbor output."⟩,
   ⟨.__devQueueXmit, "__dev_queue_xmit", "__dev_queue_xmit", "net/core/dev.c", 4277,
    "Queue an sk_buff to device traffic control or a driver."⟩,
   ⟨.tcpGetInfo, "tcp_get_info", "tcp_get_info", "net/ipv4/tcp.c", 3699,
    "Bridge internal TCP state to the TCP_INFO observation API."⟩]

def ingress : List SymbolId :=
  [.netifReceiveSkb, .netifReceiveSkbOneCore, .ipRcv, .nfInetPreRouting, .ipRcvFinish, .ipRouteInputNoref,
   .ipRouteInputSlow, .dstInput, .ipLocalDeliver, .nfInetLocalIn, .ipLocalDeliverFinish, .tcpV4Rcv, .inetLookupSkb,
   .inetLookupEstablished, .tcpRcvEstablished, .tcpAck]

def egress : List SymbolId :=
  [.sockSendmsg, .tcpSendmsg, .tcpSendmsgLocked, .tcpWriteXmit, .tcpTransmitSkb, .inetQueueXmit, .ipQueueXmit,
   .__ipQueueXmit, .ipRouteOutputFlow, .ipLocalOut, .ipOutput, .ipFinishOutput, .__devQueueXmit]

def edges : List (SymbolId × SymbolId) :=
  [(.netifReceiveSkb, .netifReceiveSkbOneCore), (.netifReceiveSkbOneCore, .ipRcv), (.ipRcv, .nfInetPreRouting),
   (.nfInetPreRouting, .ipRcvFinish), (.ipRcvFinish, .ipRouteInputNoref), (.ipRouteInputNoref, .ipRouteInputSlow),
   (.ipRouteInputSlow, .dstInput), (.dstInput, .ipLocalDeliver), (.ipLocalDeliver, .nfInetLocalIn),
   (.nfInetLocalIn, .ipLocalDeliverFinish), (.ipLocalDeliverFinish, .tcpV4Rcv), (.tcpV4Rcv, .inetLookupSkb),
   (.inetLookupSkb, .inetLookupEstablished), (.inetLookupEstablished, .tcpRcvEstablished),
   (.tcpRcvEstablished, .tcpAck), (.sockSendmsg, .tcpSendmsg), (.tcpSendmsg, .tcpSendmsgLocked),
   (.tcpSendmsgLocked, .tcpWriteXmit), (.tcpWriteXmit, .tcpTransmitSkb), (.tcpTransmitSkb, .inetQueueXmit),
   (.inetQueueXmit, .ipQueueXmit), (.ipQueueXmit, .__ipQueueXmit), (.__ipQueueXmit, .ipRouteOutputFlow),
   (.ipRouteOutputFlow, .ipLocalOut), (.__ipQueueXmit, .ipLocalOut), (.ipLocalOut, .ipOutput),
   (.ipOutput, .ipFinishOutput), (.ipFinishOutput, .__devQueueXmit)]

/-! ## The functions -/

inductive Status where
  | ok
  | invalidArgument
  | notFound
  | invalidPath
  | capacity
  deriving DecidableEq, Repr

def idInRange (id : Int) : Bool := SymbolId.netifReceiveSkb.value ≤ id && id ≤ SymbolId.tcpGetInfo.value

/-- `*out_symbol`; `none` is `NOT_FOUND`. -/
def symbolById (id : Int) : Option Symbol := if idInRange id then symbols[id.toNat]? else none

/-- The inner loop of `tcpip_linux_l04_validate_path`. -/
def hasEdge (source target : Int) : Bool := edges.any fun edge => edge.1.value = source && edge.2.value = target

/-- The outer loop, from a pair of neighbors on. -/
def edgesHold : List Int → Bool
  | source :: target :: rest => hasEdge source target && edgesHold (target :: rest)
  | _ => true

def validatePath (path : List Int) : Status :=
  if path.length = 0 then .invalidArgument
  else if !path.all idInRange then .notFound
  else if edgesHold path then .ok
  else .invalidPath

def sourceUrl (symbol : Symbol) : Bytes :=
  render (fun c => UInt8.ofNat c.toNat)
    [.literal "https://github.com/torvalds/linux/blob/v6.6/",
     .text (symbol.sourcePath.toList.map fun c => UInt8.ofNat c.toNat),
     .literal "#L", .unsigned 32 symbol.sourceLine]

structure FormatResult where
  status : Status
  output : Bytes
  written : Nat
  deriving DecidableEq, Repr

/-- The first character is cleared in any case; with no capacity there is none. -/
def formatSourceUrl (id : Int) (output : Bytes) : FormatResult :=
  let cleared := overwrite output 0 [0]
  match symbolById id with
  | none => ⟨.notFound, cleared, 0⟩
  | some symbol =>
    let required := (snprintf 0 0 (sourceUrl symbol)).1
    if output.length = 0 ∨ required ≥ output.length then ⟨.capacity, cleared, required⟩
    else ⟨.ok, overwrite cleared 0 (snprintf 0 output.length (sourceUrl symbol)).2, required⟩

/-! ## Paths -/

theorem symbolById_value (id : SymbolId) : ∃ symbol, symbolById id.value = some symbol ∧ symbol.id = id := by
  cases id <;> exact ⟨_, rfl, rfl⟩

theorem SymbolId.value_injective : Function.Injective SymbolId.value := by
  intro id id' h
  obtain ⟨symbol, hsymbol, rfl⟩ := symbolById_value id
  obtain ⟨symbol', hsymbol', rfl⟩ := symbolById_value id'
  rw [h, hsymbol'] at hsymbol
  rw [Option.some.inj hsymbol]

theorem idInRange_iff {id : Int} : idInRange id = true ↔ ∃ symbol : SymbolId, symbol.value = id := by
  constructor
  · intro h
    obtain ⟨hlow, hhigh⟩ := Bool.and_eq_true_iff.mp h
    have hlow : 0 ≤ id := of_decide_eq_true hlow
    have hhigh : id ≤ 29 := of_decide_eq_true hhigh
    have htable : ∀ n : Nat, n < 30 → symbols[n]?.map (fun symbol => symbol.id.value) = some (n : Int) := by decide
    obtain ⟨symbol, -, hvalue⟩ := Option.map_eq_some_iff.mp (htable id.toNat (by omega))
    exact ⟨symbol.id, by rw [hvalue]; omega⟩
  · rintro ⟨symbol, rfl⟩
    cases symbol <;> rfl

/-- The walk of a received packet, that of a packet that is sent, with and without a route at hand, and the symbol that
is on none of them. -/
def lines : List (List SymbolId) :=
  [ingress, egress, egress.erase .ipRouteOutputFlow, [.tcpGetInfo]]

theorem drawn : Drawn edges lines where
  along := by
    have h : ∀ l ∈ lines, l.IsChain fun a b => (a, b) ∈ edges := by decide +kernel
    exact h
  node a := by cases a <;> decide
  enter := by
    have h : ∀ e ∈ edges, ∀ l ∈ lines, ∀ s ∈ l.tails, s.head? = some e.2 → ∃ m ∈ lines, e.1 :: s ∈ m.tails := by
      decide +kernel
    intro e he l hl t ht
    obtain ⟨m, hm, hmem⟩ := h e he l hl (e.2 :: t) ((List.mem_tails _ _).mpr ht) rfl
    exact ⟨m, hm, (List.mem_tails _ _).mp hmem⟩

theorem idInRange_eq_false_iff {id : Int} : idInRange id = false ↔ id < 0 ∨ 29 < id := by
  show (decide (0 ≤ id) && decide (id ≤ 29)) = false ↔ _
  rw [Bool.and_eq_false_iff, decide_eq_false_iff_not, decide_eq_false_iff_not]
  omega

theorem not_all_idInRange_iff {path : List Int} :
    (!path.all idInRange) = true ↔ ∃ id ∈ path, id < 0 ∨ 29 < id := by
  rw [Bool.not_eq_true', List.all_eq_false]
  refine exists_congr fun id => and_congr_right fun _ => ?_
  rw [Bool.not_eq_true, idInRange_eq_false_iff]

theorem all_idInRange_iff {path : List Int} :
    path.all idInRange = true ↔ ∃ p : List SymbolId, path = p.map SymbolId.value := by
  constructor
  · intro h
    induction path with
    | nil => exact ⟨[], rfl⟩
    | cons id path ih =>
      obtain ⟨hid, hrest⟩ := Bool.and_eq_true_iff.mp (List.all_cons ▸ h)
      obtain ⟨symbol, rfl⟩ := idInRange_iff.mp hid
      obtain ⟨p, rfl⟩ := ih hrest
      exact ⟨symbol :: p, rfl⟩
  · rintro ⟨p, rfl⟩
    rw [List.all_map, List.all_eq_true]
    exact fun symbol _ => idInRange_iff.mpr ⟨symbol, rfl⟩

theorem hasEdge_iff {a b : SymbolId} : hasEdge a.value b.value = true ↔ (a, b) ∈ edges := by
  unfold hasEdge
  rw [List.any_eq_true]
  constructor
  · rintro ⟨⟨x, y⟩, hmem, heq⟩
    obtain ⟨hx, hy⟩ := Bool.and_eq_true_iff.mp heq
    rwa [← SymbolId.value_injective (of_decide_eq_true hx), ← SymbolId.value_injective (of_decide_eq_true hy)]
  · intro hmem
    exact ⟨(a, b), hmem, by simp⟩

theorem edgesHold_iff {p : List SymbolId} :
    edgesHold (p.map SymbolId.value) = true ↔ p.IsChain fun a b => (a, b) ∈ edges := by
  induction p with
  | nil => simp [edgesHold]
  | cons a p ih =>
    cases p with
    | nil => simp [edgesHold]
    | cons b p =>
      rw [List.isChain_cons_cons, ← ih, ← hasEdge_iff]
      exact Bool.and_eq_true_iff

theorem validatePath_ok_iff {path : List Int} : validatePath path = .ok ↔
    ∃ p : List SymbolId, path = p.map SymbolId.value ∧ p ≠ [] ∧ ∃ l ∈ lines, p <:+: l := by
  unfold validatePath
  constructor
  · intro h
    split at h
    · cases h
    · next hne =>
      split at h
      · cases h
      · next hrange =>
        split at h
        · next hedges =>
          obtain ⟨p, rfl⟩ := all_idInRange_iff.mp (by simpa using hrange)
          have hp : p ≠ [] := by
            rintro rfl
            exact hne rfl
          exact ⟨p, rfl, hp, (drawn.isChain_iff hp).mp (edgesHold_iff.mp hedges)⟩
        · cases h
  · rintro ⟨p, rfl, hp, hline⟩
    rw [if_neg (by simpa using hp), if_neg (by simp [all_idInRange_iff.mpr ⟨p, rfl⟩]),
      if_pos (edgesHold_iff.mpr ((drawn.isChain_iff hp).mpr hline))]

/-- **Main result.** A path is `NOT_FOUND` exactly for an id outside of the table; and it is accepted exactly when it
is a piece of one of the lines, so no walk comes back to a symbol or is longer than that of a received packet. -/
theorem validatePath_iff (path : List Int) :
    (validatePath path = .invalidArgument ↔ path = []) ∧
    (validatePath path = .notFound ↔ path ≠ [] ∧ ∃ id ∈ path, id < 0 ∨ 29 < id) ∧
    (validatePath path = .ok ↔ ∃ p : List SymbolId, path = p.map SymbolId.value ∧ p ≠ [] ∧ ∃ l ∈ lines, p <:+: l) ∧
    (validatePath path = .ok → path.Nodup ∧ path.length ≤ ingress.length) := by
  refine ⟨?_, ?_, validatePath_ok_iff, ?_⟩
  · unfold validatePath
    rw [← List.length_eq_zero_iff]
    split
    · next hnil => simp [hnil]
    · next hne =>
      simp only [hne, iff_false]
      split
      · simp
      · split <;> simp
  · unfold validatePath
    rw [ne_eq, ← List.length_eq_zero_iff]
    split
    · next hnil => simp [hnil]
    · next hne =>
      simp only [hne, not_false_iff, true_and]
      rw [← not_all_idInRange_iff]
      split
      · next hout => simp [hout]
      · next hin =>
        simp only [hin]
        split <;> simp
  · intro hok
    obtain ⟨p, rfl, -, l, hl, hpiece⟩ := validatePath_ok_iff.mp hok
    have hlines : ∀ l ∈ lines, l.Nodup ∧ l.length ≤ ingress.length := by decide
    obtain ⟨hnodup, hlen⟩ := hlines l hl
    refine ⟨List.Nodup.map SymbolId.value_injective (hnodup.sublist hpiece.sublist), ?_⟩
    rw [List.length_map]
    exact hpiece.length_le.trans hlen

/-! ## Links -/

/-- No two symbols have one link: no path has the character in front of the line, and no two lines are the same. -/
theorem sourceUrl_injective {symbol symbol' : Symbol} (hmem : symbol ∈ symbols) (hmem' : symbol' ∈ symbols)
    (h : sourceUrl symbol = sourceUrl symbol') : symbol = symbol' := by
  have hpaths : ∀ s ∈ symbols, ∀ b ∈ s.sourcePath.toList.map fun c => UInt8.ofNat c.toNat, ¬ b = 35 := by
    decide +kernel
  have hlines : (symbols.map Symbol.sourceLine).Nodup := by decide
  have hmark : ∀ line, ∀ b ∈ (render (fun c => UInt8.ofNat c.toNat) [.literal "#L", .unsigned 32 line]).head?, b = 35 :=
    fun line b hb => (Option.some.inj hb).symm
  have hfrom := List.append_cancel_left h
  obtain ⟨-, hline⟩ := append_inj_of_stop (hpaths symbol hmem) (hpaths symbol' hmem') (hmark symbol.sourceLine)
    (hmark symbol'.sourceLine) hfrom
  have hnumber := List.append_cancel_right (List.append_cancel_left hline)
  exact List.inj_on_of_nodup_map hlines hmem hmem' (unsigned_inj hexDigitValue_digit hnumber)

theorem symbolById_some {id : Int} {symbol : Symbol} (h : symbolById id = some symbol) :
    symbol ∈ symbols ∧ symbol.id.value = id := by
  unfold symbolById at h
  split at h
  · next hrange =>
    obtain ⟨symbolId, rfl⟩ := idInRange_iff.mp hrange
    obtain ⟨symbol', hsymbol, hid⟩ := symbolById_value symbolId
    rw [symbolById, if_pos hrange, h] at hsymbol
    obtain rfl := Option.some.inj hsymbol
    exact ⟨List.mem_of_getElem? h, by rw [hid]⟩
  · cases h

theorem symbolById_eq_none_iff {id : Int} : symbolById id = none ↔ id < 0 ∨ 29 < id := by
  rw [← idInRange_eq_false_iff]
  constructor
  · intro hnone
    apply Bool.eq_false_of_not_eq_true
    intro hrange
    obtain ⟨symbolId, rfl⟩ := idInRange_iff.mp hrange
    obtain ⟨symbol, hsymbol, -⟩ := symbolById_value symbolId
    rw [hnone] at hsymbol
    cases hsymbol
  · intro hrange
    rw [symbolById, hrange]
    rfl

theorem formatSourceUrl_some {id : Int} {symbol : Symbol} (h : symbolById id = some symbol) (output : Bytes) :
    formatSourceUrl id output =
      if (sourceUrl symbol).length < output.length then
        ⟨.ok, sourceUrl symbol ++ 0 :: output.drop ((sourceUrl symbol).length + 1), (sourceUrl symbol).length⟩
      else ⟨.capacity, overwrite output 0 [0], (sourceUrl symbol).length⟩ := by
  unfold formatSourceUrl snprintf
  rw [h]
  dsimp only
  by_cases hfits : (sourceUrl symbol).length < output.length
  · rw [if_pos hfits, if_neg (by omega), List.take_of_length_le (by omega)]
    have hlen : (sourceUrl symbol ++ [0]).length = (sourceUrl symbol).length + 1 := by simp
    rw [overwrite_zero_append _ _ (by rw [length_overwrite]; omega), hlen,
      overwrite_zero_append output [0] (by rw [List.length_singleton]; omega)]
    simp [List.drop_succ_cons]
  · rw [if_neg hfits, if_pos (by omega)]

/-- **Main result.** With room for the link and its `NUL` a call stores it, and reports its length; with less room it
stores no part of it, and reports the length that a second call needs; and a link tells the symbol it was made for. -/
theorem formatSourceUrl_capacity (id : Int) (output : Bytes) :
    let result := formatSourceUrl id output
    (result.status = .notFound ↔ id < 0 ∨ 29 < id) ∧
    (result.status = .ok → ∃ symbol, symbolById id = some symbol ∧
      result.output = sourceUrl symbol ++ 0 :: output.drop (result.written + 1) ∧
      result.written = (sourceUrl symbol).length) ∧
    (result.status ≠ .ok → result.output = overwrite output 0 [0]) ∧
    (result.status = .capacity → output.length ≤ result.written ∧
      ∀ larger : Bytes, result.written < larger.length → (formatSourceUrl id larger).status = .ok) ∧
    (result.status = .ok → ∀ id' output', (formatSourceUrl id' output').status = .ok →
      (formatSourceUrl id' output').output.take (formatSourceUrl id' output').written =
        result.output.take result.written → id' = id) := by
  intro result
  cases hsymbol : symbolById id with
  | none =>
    have hresult : result = ⟨.notFound, overwrite output 0 [0], 0⟩ := by
      show formatSourceUrl id output = _
      rw [formatSourceUrl, hsymbol]
    rw [hresult, ← symbolById_eq_none_iff, hsymbol]
    simp
  | some symbol =>
    have hresult : result = _ := formatSourceUrl_some hsymbol output
    rw [← symbolById_eq_none_iff, hsymbol]
    by_cases hfits : (sourceUrl symbol).length < output.length
    · rw [if_pos hfits] at hresult
      rw [hresult]
      refine ⟨by simp, fun _ => ⟨symbol, rfl, rfl, rfl⟩, by simp, by simp, fun _ id' output' hok htext => ?_⟩
      cases hother : symbolById id' with
      | none => rw [formatSourceUrl, hother] at hok; cases hok
      | some symbol' =>
        rw [formatSourceUrl_some hother] at hok htext
        split at hok
        · next hroom =>
          rw [if_pos hroom, List.take_left, List.take_left] at htext
          obtain ⟨hmem, rfl⟩ := symbolById_some hsymbol
          obtain ⟨hmem', rfl⟩ := symbolById_some hother
          rw [sourceUrl_injective hmem' hmem htext]
        · cases hok
    · rw [if_neg hfits] at hresult
      rw [hresult]
      refine ⟨by simp, by simp, by simp, fun _ => ⟨by simpa using hfits, fun larger hlarger => ?_⟩, by simp⟩
      rw [formatSourceUrl_some hsymbol, if_pos hlarger]

end TcpipCourse.LinuxL04
