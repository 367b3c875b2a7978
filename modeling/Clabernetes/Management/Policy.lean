import Clabernetes.Base.Prefix
import Clabernetes.DevicePlan.Types
import Clabernetes.Links.Api

/-!
# Management policies and addresses

`controllers/node/directmanagement.go`: the address pools of a management policy, the addresses that
Nodes declare, and the address that a seed and an attempt hash to. Go's standard library is a
parameter: the text of addresses, SHA-256 and lower-casing.
-/

namespace Clabernetes.Management

open Base DevicePlan Links Std

structure Library extends AddrText where
  sha256 : String → BitVec 256
  toLower : String → String

structure ManagementPolicy where
  disabled : Bool := false
  ipv4Subnet : String := ""
  ipv4Gw : String := ""
  ipv4Range : String := ""
  ipv6Subnet : String := ""
  ipv6Gw : String := ""
  ipv6Range : String := ""

/-- What is read of a Node. A nil component is `none`. -/
structure ManagedNode where
  uid : String
  namespaceName : String := ""
  mgmtIPv4 : String := ""
  mgmtIPv6 : String := ""
  networkMode : String := ""
  aliases : List String := []
  componentSlots : List (Option String) := []
  dns : Option DNSConfig := none

/-- The Nodes of a namespace by name. The API server admits no empty name and none with a NUL. -/
structure NodeSet where
  byName : GoMap String ManagedNode
  name_ne_empty : ∀ (name : String) (node : ManagedNode), byName[name]? = some node → name ≠ ""
  nul_notMem_name : ∀ (name : String) (node : ManagedNode), byName[name]? = some node →
    '\x00' ∉ name.toList

def controllerInputBehavior : String := "controller-input"

def directManagementError (field message : String) : Error where
  code := .errorInvalidInput
  field := "nodeProfile.mgmt." ++ field
  behavior := controllerInputBehavior
  message := message

def directNodeManagementError (name : String) (node : ManagedNode) (field message : String) :
    Error where
  code := .errorInvalidInput
  nodeID := node.uid
  field := "nodes." ++ name ++ ".spec." ++ field
  behavior := controllerInputBehavior
  message := message

def defaultManagementIPv4Subnet : String := "172.20.20.0/24"

def lastPrefixAddress : Prefix → Addr
  | .v4 ip bits _ =>
    .v4 (foldFrom (networkAddress ip bits) bits fun value bit => value ||| byteMask 32 bit)
  | .v6 ip bits _ =>
    .v6 (foldFrom (networkAddress ip bits) bits fun value bit => value ||| byteMask 128 bit) ""

structure ManagementRanges (ipv4 : Bool) where
  network : Prefix
  allocation : Prefix
  network_is4 : network.addr.is4 = ipv4
  inside : ∀ a, allocation.contains a = true → network.contains a = true

/-- `:18-23`; `none` is a pool that is not enabled. -/
abbrev DirectManagementPool (ipv4 : Bool) := Option (ManagementRanges ipv4)

section

variable (lib : Library)

def firstUsableManagementAddress (subnet : String) : Except String String :=
  match lib.parsePrefix subnet with
  | none => .error "management subnet is invalid"
  | some network => .ok (lib.addrString network.masked.addr.next)

def defaultGateway (field subnet gateway : String) : Except Error String :=
  if gateway = "" then
    match firstUsableManagementAddress lib subnet with
    | .error err => .error (directManagementError field err)
    | .ok gateway => .ok gateway
  else .ok gateway

def applyDefaultManagementPolicy (settings : ManagementPolicy) : Except Error ManagementPolicy :=
  let ipv4Subnet :=
    if settings.ipv4Subnet = "" then defaultManagementIPv4Subnet else settings.ipv4Subnet
  match defaultGateway lib "ipv4-subnet" ipv4Subnet settings.ipv4Gw with
  | .error err => .error err
  | .ok ipv4Gw =>
    if settings.ipv6Subnet = "" then .ok { settings with ipv4Subnet, ipv4Gw }
    else
      match defaultGateway lib "ipv6-subnet" settings.ipv6Subnet settings.ipv6Gw with
      | .error err => .error err
      | .ok ipv6Gw => .ok { settings with ipv4Subnet, ipv4Gw, ipv6Gw }

def newDirectManagementPool (subnet addressRange : String) (ipv4 : Bool) :
    Except String (DirectManagementPool ipv4) :=
  if subnet = "" then
    if addressRange ≠ "" then .error "management range requires a subnet" else .ok none
  else
    match lib.parsePrefix subnet with
    | none => .error "management subnet is invalid"
    | some network =>
      if hnetwork : network.masked.addr.is4 = ipv4 then
        if addressRange = "" then
          .ok (some
            { network := network.masked, allocation := network.masked, network_is4 := hnetwork
              inside := fun _ h => h })
        else
          match lib.parsePrefix addressRange with
          | none => .error "management range is invalid"
          | some allocation =>
            if allocation.addr.is4 ≠ ipv4 then .error "management range is invalid"
            else if h : network.masked.bits ≤ allocation.masked.bits ∧
                network.masked.contains allocation.masked.addr = true ∧
                network.masked.contains (lastPrefixAddress allocation.masked) = true then
              .ok (some
                { network := network.masked, allocation := allocation.masked
                  network_is4 := hnetwork
                  inside := fun _ ha => Prefix.contains_of_contains_addr h.1 h.2.1 ha })
            else .error "management range is outside its subnet"
      else .error "management subnet is invalid"

def parseLooseManagementAddress (raw : String) (ipv4 : Bool) : Except String Addr :=
  match lib.parsePrefix raw with
  | some declared =>
    if declared.addr.is4 ≠ ipv4 then .error "management address has the wrong family"
    else .ok declared.addr
  | none =>
    match lib.parseAddr raw with
    | none => .error "management address is invalid"
    | some address =>
      if address.is4 ≠ ipv4 then .error "management address is invalid" else .ok address

def prefixFromString (address : Addr) (bits : Nat) : String :=
  match Prefix.of address bits with
  | none => "invalid Prefix"
  | some given => lib.prefixString given

def normalizeDirectManagementAddress {ipv4 : Bool} (raw : String)
    (pool : DirectManagementPool ipv4) : Except String String :=
  if raw = "" then .ok ""
  else
    match lib.parsePrefix raw with
    | some declared =>
      if declared.addr.is4 ≠ ipv4 then .error "management address has the wrong family"
      else if pool.any fun ranges =>
          declared.bits != ranges.network.bits || !ranges.network.contains declared.addr then
        .error "management address is outside its declared subnet"
      else .ok (lib.prefixString declared)
    | none =>
      match lib.parseAddr raw with
      | none => .error "management address is invalid"
      | some address =>
        if address.is4 ≠ ipv4 then .error "management address is invalid"
        else
          match pool with
          | none => .error "management address without a prefix requires a matching subnet"
          | some ranges =>
            if !ranges.network.contains address then
              .error "management address without a prefix requires a matching subnet"
            else .ok (prefixFromString lib address ranges.network.bits)

def validateDirectManagementGateway (raw source : String) (ipv4 : Bool) : Except String Unit :=
  if raw = "" then .ok ()
  else
    match lib.parsePrefix source with
    | none => .error "management gateway requires a same-family source address"
    | some link =>
      if link.addr.is4 ≠ ipv4 then
        .error "management gateway requires a same-family source address"
      else
        match lib.parseAddr raw with
        | none => .error "management gateway is invalid or off-link"
        | some gateway =>
          if gateway.is4 ≠ ipv4 ∨ link.contains gateway = false then
            .error "management gateway is invalid or off-link"
          else .ok ()

def usableManagementAddress {ipv4 : Bool} (ranges : ManagementRanges ipv4)
    (address gateway : Addr) : Bool :=
  address.isValid && address != ranges.allocation.masked.addr && address != gateway &&
    !(ipv4 && address == lastPrefixAddress ranges.allocation)

def validateDirectManagementHostAddress {ipv4 : Bool} (raw : String)
    (pool : DirectManagementPool ipv4) (gateway : String) : Except String Unit :=
  match pool with
  | none => .ok ()
  | some ranges =>
    if raw = "" then .ok ()
    else
      match lib.parsePrefix raw with
      | none => .error "management address is invalid"
      | some given =>
        let gatewayAddress := if gateway = "" then .zero else (lib.parseAddr gateway).getD .zero
        if !usableManagementAddress ranges given.addr gatewayAddress then
          .error "management address is a reserved subnet address"
        else .ok ()

def directManagementAddressIdentity (raw : String) : String :=
  match lib.parsePrefix raw with
  | none => ""
  | some given => lib.addrString given.addr

def copyHashBit {w : Nat} (destination : BitVec w) (digest : BitVec 256)
    (destinationBit digestBit : Nat) : BitVec w :=
  if digest &&& byteMask 256 digestBit ≠ 0 then destination ||| byteMask w destinationBit
  else destination &&& ~~~byteMask w destinationBit

def hashedPrefixAddress (range : Prefix) (seed : String) (attempt : Nat) : Addr :=
  let digest := lib.sha256 (seed ++ "\x00" ++ Nat.repr attempt)
  match range with
  | .v4 ip bits _ =>
    .v4 (foldFrom (networkAddress ip bits) bits fun value bit =>
      copyHashBit value digest bit (bit - bits))
  | .v6 ip bits _ =>
    .v6 (foldFrom (networkAddress ip bits) bits fun value bit =>
      copyHashBit value digest bit (bit - bits)) ""

variable {w : Nat} {value : BitVec w} {digest : BitVec 256}

theorem copyHashBit_eq {i j : Nat} (hw : 8 ∣ w) (hi : i < w) (hj : j < 256) :
    copyHashBit value digest i j = setBit value i (digest.getMsbD j) := by
  have hlt : 256 - 1 - j < 256 := by omega
  have hbit : digest &&& byteMask 256 j ≠ 0 ↔ digest.getMsbD j = true := by
    rw [byteMask_eq (by decide) hj]
    simp [BitVec.and_twoPow, BitVec.getMsbD_eq_getLsbD, hj, ← BitVec.toNat_inj,
      BitVec.toNat_twoPow_of_lt hlt]
  rw [copyHashBit, setBit, byteMask_eq hw hi]
  simp only [hbit]

/-- The bits of the digest, the most significant first, follow those of the prefix. -/
theorem foldFrom_copyHashBit {bits : Nat} (hw : 8 ∣ w) (hle : w ≤ 256) :
    foldFrom value bits (fun value bit => copyHashBit value digest bit (bit - bits)) =
      fillFrom value bits fun bit => digest.getMsbD (bit - bits) :=
  foldFrom_eq_fillFrom value fun _ _ hi => copyHashBit_eq hw hi (by omega)

end

end Clabernetes.Management
