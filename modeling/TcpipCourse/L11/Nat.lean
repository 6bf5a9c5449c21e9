import TcpipCourse.Common

/-!
# Lesson 11: the NAT table

The endpoint-dependent NAT of `lessons/11_routing_nat/solution.c`, over storage of any capacity.

* `Mapping`, `Tuple`, `NatState` : the C structures; `NatState.capacity` is the length of the storage;
* `validateMappings` : the check that every operation makes before it looks at the table;
* `natInit`, `natTranslateOutbound`, `natTranslateInbound`, `natExpire` : the four entry points.

A pointer the caller may pass as `NULL` is an `Option`; output pointers and the NAT itself are not null.
-/

namespace TcpipCourse.L11

structure Tuple where
  protocol : UInt8
  sourceIp : Ipv4Address
  destinationIp : Ipv4Address
  sourcePort : UInt16
  destinationPort : UInt16
  deriving DecidableEq

def Tuple.zero : Tuple := ⟨0, #v[0, 0, 0, 0], #v[0, 0, 0, 0], 0, 0⟩

structure Mapping where
  active : UInt8
  protocol : UInt8
  privateIp : Ipv4Address
  remoteIp : Ipv4Address
  privatePort : UInt16
  remotePort : UInt16
  publicPort : UInt16
  lastUsed : UInt64
  deriving DecidableEq

/-- `memset(mapping, 0, sizeof(*mapping))`. -/
def Mapping.zero : Mapping := ⟨0, 0, #v[0, 0, 0, 0], #v[0, 0, 0, 0], 0, 0, 0, 0⟩

/-- `sizeof(tcpip_l11_nat_mapping)`: sixteen bytes of fields and the eight-byte `last_used`. -/
def sizeofMapping : Nat := 24

structure NatState where
  publicIp : Ipv4Address
  firstPort : UInt16
  storage : List Mapping
  deriving DecidableEq

def NatState.capacity (nat : NatState) : Nat := nat.storage.length

/-! ## Checks -/

def natIsValid (nat : NatState) : Bool :=
  nat.firstPort ≠ 0 && nat.capacity ≠ 0

def protocolIsSupported (protocol : UInt8) : Bool :=
  protocol = 6 || protocol = 17

def tupleIsValid (tuple : Tuple) : Bool :=
  protocolIsSupported tuple.protocol && tuple.sourcePort ≠ 0 && tuple.destinationPort ≠ 0

def mappingIsValid (nat : NatState) (mapping : Mapping) : Bool :=
  if mapping.active = 0 then true
  else mapping.active = 1 && protocolIsSupported mapping.protocol && mapping.privatePort ≠ 0 &&
    mapping.remotePort ≠ 0 && nat.firstPort ≤ mapping.publicPort

def mappingsHaveSameOutboundKey (left right : Mapping) : Bool :=
  left.protocol = right.protocol && left.privatePort = right.privatePort &&
    left.remotePort = right.remotePort && left.privateIp = right.privateIp &&
    left.remoteIp = right.remoteIp

/-- The outer loop of `tcpip_l11_validate_mappings`; `previous` is the part of the table already
passed, which the inner loop scans. -/
def validateFrom (nat : NatState) : List Mapping → List Mapping → Status
  | _, [] => .ok
  | previous, mapping :: rest =>
    if !mappingIsValid nat mapping then .malformed
    else if mapping.active = 0 then validateFrom nat (previous ++ [mapping]) rest
    else if previous.any fun p => p.active ≠ 0 &&
        (p.publicPort = mapping.publicPort || mappingsHaveSameOutboundKey p mapping) then .malformed
    else validateFrom nat (previous ++ [mapping]) rest

def validateMappings (nat : NatState) : Status := validateFrom nat [] nat.storage

/-! ## Initialization -/

/-- On an error the caller's NAT and storage stay as they are. -/
def natInit (firstPort : UInt16) (publicIp : Ipv4Address) (storage : List Mapping) :
    Except Status NatState :=
  if firstPort = 0 || storage.length = 0 then .error .invalidArgument
  else if storage.length > sizeMax / sizeofMapping then .error .capacity
  else .ok ⟨publicIp, firstPort, List.replicate storage.length Mapping.zero⟩

/-! ## Outbound translation -/

def mappingMatchesOutbound (mapping : Mapping) (tuple : Tuple) : Bool :=
  mapping.active ≠ 0 && mapping.protocol = tuple.protocol && mapping.privatePort = tuple.sourcePort &&
    mapping.remotePort = tuple.destinationPort && mapping.privateIp = tuple.sourceIp &&
    mapping.remoteIp = tuple.destinationIp

def portInUse (nat : NatState) (port : UInt16) : Bool :=
  nat.storage.any fun mapping => mapping.active ≠ 0 && mapping.publicPort = port

/-- The first port from `first_port` to `UINT16_MAX` that no active mapping uses. -/
def findAvailablePort (nat : NatState) : Option UInt16 :=
  ((List.range' nat.firstPort.toNat (uint16Max + 1 - nat.firstPort.toNat)).map UInt16.ofNat).find?
    fun port => !portInUse nat port

/-- The scan of `tcpip_l11_nat_translate_outbound`: the index of the first mapping that matches, and
the first free index seen before it. `none` stands for `SIZE_MAX`. -/
def scanOutbound (tuple : Tuple) : List Mapping → Nat → Option Nat → Option Nat × Option Nat
  | [], _, free => (none, free)
  | mapping :: rest, index, free =>
    if mappingMatchesOutbound mapping tuple then (some index, free)
    else if free = none && mapping.active = 0 then scanOutbound tuple rest (index + 1) (some index)
    else scanOutbound tuple rest (index + 1) free

/-- `if (now > mapping->last_used) { mapping->last_used = now; }` -/
def Mapping.touch (mapping : Mapping) (now : UInt64) : Mapping :=
  if now > mapping.lastUsed then { mapping with lastUsed := now } else mapping

def Mapping.ofTuple (tuple : Tuple) (publicPort : UInt16) (now : UInt64) : Mapping where
  active := 1
  protocol := tuple.protocol
  privateIp := tuple.sourceIp
  remoteIp := tuple.destinationIp
  privatePort := tuple.sourcePort
  remotePort := tuple.destinationPort
  publicPort := publicPort
  lastUsed := now

def NatState.mappingAt (nat : NatState) (index : Nat) : Mapping := nat.storage.getD index Mapping.zero

def NatState.store (nat : NatState) (index : Nat) (mapping : Mapping) : NatState :=
  { nat with storage := nat.storage.set index mapping }

/-- The status, the translated tuple and the NAT afterwards. -/
structure Reply where
  status : Status
  out : Tuple
  nat : NatState
  deriving DecidableEq

/-- An early return: `out` was zeroed on entry and the table is untouched. -/
def Reply.fail (nat : NatState) (status : Status) : Reply := ⟨status, Tuple.zero, nat⟩

def natTranslateOutbound (nat : NatState) (now : UInt64) (tuple : Option Tuple) : Reply :=
  match tuple with
  | none => .fail nat .invalidArgument
  | some input =>
    if !natIsValid nat then .fail nat .invalidArgument
    else if !tupleIsValid input then .fail nat .malformed
    else if validateMappings nat ≠ .ok then .fail nat (validateMappings nat)
    else match scanOutbound input nat.storage 0 none with
      | (some mappingIndex, _) =>
        let mapping := nat.mappingAt mappingIndex
        ⟨.ok, { input with sourceIp := nat.publicIp, sourcePort := mapping.publicPort },
          nat.store mappingIndex (mapping.touch now)⟩
      | (none, none) => .fail nat .capacity
      | (none, some freeIndex) =>
        match findAvailablePort nat with
        | none => .fail nat .capacity
        | some publicPort =>
          ⟨.ok, { input with sourceIp := nat.publicIp, sourcePort := publicPort },
            nat.store freeIndex (.ofTuple input publicPort now)⟩

/-! ## Inbound translation -/

def mappingMatchesInbound (mapping : Mapping) (tuple : Tuple) : Bool :=
  mapping.active ≠ 0 && mapping.protocol = tuple.protocol &&
    mapping.publicPort = tuple.destinationPort && mapping.remotePort = tuple.sourcePort &&
    mapping.remoteIp = tuple.sourceIp

def natTranslateInbound (nat : NatState) (now : UInt64) (tuple : Option Tuple) : Reply :=
  match tuple with
  | none => .fail nat .invalidArgument
  | some input =>
    if !natIsValid nat then .fail nat .invalidArgument
    else if !tupleIsValid input then .fail nat .malformed
    else if input.destinationIp ≠ nat.publicIp then .fail nat .truncated
    else if validateMappings nat ≠ .ok then .fail nat (validateMappings nat)
    else match nat.storage.findIdx? fun mapping => mappingMatchesInbound mapping input with
      | none => .fail nat .truncated
      | some mappingIndex =>
        let mapping := nat.mappingAt mappingIndex
        ⟨.ok, { input with destinationIp := mapping.privateIp, destinationPort := mapping.privatePort },
          nat.store mappingIndex (mapping.touch now)⟩

/-! ## Expiry -/

/-- The condition under which `tcpip_l11_nat_expire` clears a mapping. -/
def mappingExpires (now idle : UInt64) (mapping : Mapping) : Bool :=
  mapping.active ≠ 0 && mapping.lastUsed ≤ now && idle ≤ now - mapping.lastUsed

/-- The status, `*count` and the NAT afterwards. -/
structure ExpireReply where
  status : Status
  count : Nat
  nat : NatState
  deriving DecidableEq

def natExpire (nat : NatState) (now idle : UInt64) : ExpireReply :=
  if !natIsValid nat then ⟨.invalidArgument, 0, nat⟩
  else if validateMappings nat ≠ .ok then ⟨validateMappings nat, 0, nat⟩
  else ⟨.ok, nat.storage.countP (mappingExpires now idle),
    { nat with storage := nat.storage.map fun mapping =>
        if mappingExpires now idle mapping then Mapping.zero else mapping }⟩

end TcpipCourse.L11
