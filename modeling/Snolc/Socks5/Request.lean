import Snolc.Lib.Text

/-! Addresses, requests and datagram headers of the SOCKS5 adapter as they stand on the wire. -/

namespace Snolc.Socks5

abbrev Bytes := List UInt8

/-- A fixed number of bytes. -/
def Octets (count : Nat) : Type :=
  { bytes : Bytes // bytes.length = count }

instance (count : Nat) : DecidableEq (Octets count) :=
  inferInstanceAs (DecidableEq { bytes : Bytes // bytes.length = count })

variable (input : Bytes)

/-- The bytes between two offsets, if the input reaches that far. -/
def slice (start stop : Nat) : Option Bytes :=
  if start ≤ stop ∧ stop ≤ input.length then some ((input.take stop).drop start) else none

/-- A fixed number of bytes from an offset on, if the input reaches that far. -/
def octets (count : Nat) (input : Bytes) (start : Nat) : Option (Octets count) :=
  match slice input start (start + count) with
  | none => none
  | some bytes => if exact : bytes.length = count then some ⟨bytes, exact⟩ else none

/-- A sixteen-bit number from two bytes in network order. -/
def u16OfBe (bytes : Octets 2) : UInt16 :=
  match bytes.val with
  | high :: low :: _ => UInt16.ofNat (high.toNat * 256 + low.toNat)
  | _ => 0

/-- A sixteen-bit number as two bytes in network order. -/
def u16ToBe (value : UInt16) : Bytes :=
  [UInt8.ofNat (value.toNat / 256), UInt8.ofNat value.toNat]

inductive Command
  | connect
  | udpAssociate
  deriving DecidableEq

inductive Address
  | ipv4 (octets : Octets 4)
  | ipv6 (octets : Octets 16)
  | domain (name : String)
  deriving DecidableEq

structure Request where
  command : Command
  address : Address
  port : UInt16
  deriving DecidableEq

structure UdpPacket where
  address : Address
  port : UInt16
  payload : Bytes
  deriving DecidableEq

inductive ParseError
  | incomplete
  | protocol
  | command
  | bindUnsupported
  | fragmentUnsupported
  | address
  | port
  | trailingBytes
  deriving DecidableEq, Repr

/-- One label of a domain name. -/
def validLabel (label : List Char) : Bool :=
  !label.isEmpty && label.length ≤ 63 && label.head? ≠ some '-' && label.getLast? ≠ some '-' &&
    label.all fun c => c.isAlphanum || c = '-'

/-- Domain names in plain text. -/
def validDomain (domain : String) : Bool :=
  domain.utf8ByteSize ≤ 253 && isAscii domain && (domain.toList.splitOn '.').all validLabel

/-- The address at the front of the input, by its type, and where it ends. -/
def parseHost (kind : UInt8) (input : Bytes) : Except ParseError (Address × Nat) :=
  match kind.toNat with
  | 1 =>
    match octets 4 input 1 with
    | none => .error .incomplete
    | some bytes => .ok (.ipv4 bytes, 5)
  | 4 =>
    match octets 16 input 1 with
    | none => .error .incomplete
    | some bytes => .ok (.ipv6 bytes, 17)
  | 3 =>
    match input[1]? with
    | none => .error .incomplete
    | some length =>
      if length = 0 then .error .address
      else
        match slice input 2 (2 + length.toNat) with
        | none => .error .incomplete
        | some bytes =>
          match fromUtf8 bytes with
          | none => .error .address
          | some domain =>
            if validDomain domain then .ok (.domain domain, 2 + length.toNat) else .error .address
  | _ => .error .address

/-- The address and port at the front of the input, and where they end. -/
def parseAddress (allowZeroPort : Bool) : Except ParseError (Address × UInt16 × Nat) :=
  match input[0]? with
  | none => .error .incomplete
  | some kind =>
    match parseHost kind input with
    | .error fault => .error fault
    | .ok (address, offset) =>
      match octets 2 input offset with
      | none => .error .incomplete
      | some bytes =>
        let port := u16OfBe bytes
        if port = 0 ∧ !allowZeroPort then .error .port else .ok (address, port, offset + 2)

/-- The command byte of a request. -/
def parseCommand (code : UInt8) : Except ParseError Command :=
  match code.toNat with
  | 1 => .ok .connect
  | 2 => .error .bindUnsupported
  | 3 => .ok .udpAssociate
  | _ => .error .command

/-- A whole request. -/
def parseRequest : Except ParseError Request :=
  match input with
  | version :: code :: reserved :: rest =>
    if input.length < 4 ∨ version ≠ 5 ∨ reserved ≠ 0 then .error .protocol
    else
      match parseCommand code with
      | .error fault => .error fault
      | .ok command =>
        match parseAddress rest (command = .udpAssociate) with
        | .error fault => .error fault
        | .ok (address, port, consumed) =>
          if consumed + 3 ≠ input.length then .error .trailingBytes
          else .ok { command, address, port }
  | _ => .error .protocol

/-- The header of a datagram and the payload after it. -/
def parseUdp : Except ParseError UdpPacket :=
  match input with
  | first :: second :: fragment :: rest =>
    if input.length < 4 ∨ first ≠ 0 ∨ second ≠ 0 then .error .protocol
    else if fragment ≠ 0 then .error .fragmentUnsupported
    else
      match parseAddress rest false with
      | .error fault => .error fault
      | .ok (address, port, consumed) =>
        .ok { address, port, payload := input.drop (3 + consumed) }
  | _ => .error .protocol

/-- How long a request is, once its first bytes say so. -/
def requestLength : Option Nat :=
  match input[3]? with
  | none => none
  | some kind =>
    match kind.toNat with
    | 1 => some 10
    | 4 => some 22
    | 3 => (input[4]?).map fun length => 7 + length.toNat
    | _ => some 4

/-- The header in front of the payload of a datagram, unless the domain name is too long for it. -/
def encodeUdpHeader (address : Address) (port : UInt16) : Option Bytes :=
  match address with
  | .ipv4 bytes => some ([0, 0, 0, 1] ++ bytes.val ++ u16ToBe port)
  | .ipv6 bytes => some ([0, 0, 0, 4] ++ bytes.val ++ u16ToBe port)
  | .domain name =>
    if name.utf8ByteSize ≤ 255 then
      some ([0, 0, 0, 3, UInt8.ofNat name.utf8ByteSize] ++ toUtf8 name ++ u16ToBe port)
    else none

/-- The address of a socket. -/
inductive SocketAddr
  | v4 (ip : Octets 4) (port : UInt16)
  | v6 (ip : Octets 16) (port : UInt16) (flowinfo scope : UInt32)
  deriving DecidableEq

/-- The answer to a request without a bound address. -/
def socksResponse (reply : UInt8) : Bytes :=
  [5, reply, 0, 1, 0, 0, 0, 0, 0, 0]

/-- The answer to a request that names the bound address. -/
def socksBoundResponse : SocketAddr → Bytes
  | .v4 ip port => [5, 0, 0, 1] ++ ip.val ++ u16ToBe port
  | .v6 ip port _ _ => [5, 0, 0, 4] ++ ip.val ++ u16ToBe port

end Snolc.Socks5
