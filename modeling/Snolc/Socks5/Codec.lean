import Mathlib.Data.List.Basic
import Snolc.Lib.Utf8
import Snolc.Socks5.Request

/-! What the parsers of addresses, requests and datagrams accept, and that headers read back. -/

namespace Snolc.Socks5

variable {input rest : Bytes} {start count : Nat}

theorem slice_eq_some {bytes : Bytes} : slice input start (start + count) = some bytes ↔
      ∃ front back, input = front ++ bytes ++ back ∧ front.length = start ∧
        bytes.length = count := by
  rw [slice, Option.ite_none_right_eq_some, Option.some.injEq]
  constructor
  · rintro ⟨⟨_, reaches⟩, rfl⟩
    refine ⟨input.take start, input.drop (start + count), ?_, by simp; omega, by simp; omega⟩
    rw [List.drop_take, Nat.add_sub_cancel_left, List.append_assoc, ← List.drop_drop,
      List.take_append_drop, List.take_append_drop]
  · rintro ⟨front, back, rfl, rfl, rfl⟩
    refine ⟨by simp, ?_⟩
    rw [List.drop_take, Nat.add_sub_cancel_left, List.append_assoc, List.drop_left, List.take_left]

theorem octets_eq_some {found : Octets count} : octets count input start = some found ↔
      ∃ front back, input = front ++ found.val ++ back ∧ front.length = start := by
  constructor
  · intro read
    unfold octets at read
    split at read
    · cases read
    next bytes sliced =>
    split at read
    · cases read
      obtain ⟨front, back, whole, starts, _⟩ := slice_eq_some.mp sliced
      exact ⟨front, back, whole, starts⟩
    · cases read
  · rintro ⟨front, back, whole, starts⟩
    rw [octets, slice_eq_some.mpr ⟨front, back, whole, starts, found.property⟩]
    exact dif_pos found.property

theorem octets_isSome (long : start + count ≤ input.length) :
    ∃ found : Octets count, octets count input start = some found :=
  ⟨⟨(input.drop start).take count, by simp; omega⟩,
    octets_eq_some.mpr ⟨input.take start, input.drop (start + count), by
      rw [List.append_assoc, ← List.drop_drop, List.take_append_drop, List.take_append_drop],
      by simp; omega⟩⟩

@[simp] theorem u16ToBe_length (value : UInt16) : (u16ToBe value).length = 2 := rfl

theorem u16OfBe_toBe (value : UInt16) : u16OfBe ⟨u16ToBe value, rfl⟩ = value := by
  have small := value.toNat_lt
  rw [← UInt16.toNat_inj]
  simp [u16OfBe, u16ToBe]
  omega

theorem u16ToBe_ofBe (bytes : Octets 2) : u16ToBe (u16OfBe bytes) = bytes.val := by
  obtain ⟨bytes, two⟩ := bytes
  match bytes, two with
  | [high, low], _ =>
    have top := high.toNat_lt
    have bottom := low.toNat_lt
    simp only [u16OfBe, u16ToBe, List.cons.injEq, and_true, ← UInt8.toNat_inj]
    simp
    omega

namespace Address

/-- Domain names that the parser accepts. -/
def Valid : Address → Prop
  | domain name => validDomain name = true
  | _ => True

/-- An address as it stands on the wire. -/
def wire : Address → Bytes
  | ipv4 octets => 1 :: octets.val
  | ipv6 octets => 4 :: octets.val
  | domain name => 3 :: UInt8.ofNat name.utf8ByteSize :: toUtf8 name

end Address

theorem validDomain_size {name : String} (valid : validDomain name = true) :
    0 < name.utf8ByteSize ∧ name.utf8ByteSize ≤ 253 := by
  simp only [validDomain, Bool.and_eq_true, decide_eq_true_eq] at valid
  obtain ⟨⟨short, _⟩, labels⟩ := valid
  refine ⟨Nat.pos_of_ne_zero fun empty => ?_, short⟩
  rw [String.utf8ByteSize_eq_zero_iff.mp empty] at labels
  revert labels
  decide

variable {kind version code reserved : UInt8}

theorem cons_prefix_iff {first : UInt8} (starts : input[0]? = some first) : kind :: rest <+: input ↔
      kind = first ∧ ∃ front back, input = front ++ rest ++ back ∧ front.length = 1 := by
  constructor
  · rintro ⟨back, rfl⟩
    exact ⟨by simpa using starts, [kind], back, rfl, rfl⟩
  · rintro ⟨rfl, front, back, rfl, one⟩
    obtain ⟨only, rfl⟩ := List.length_eq_one_iff.mp one
    cases starts
    exact ⟨back, rfl⟩

variable {address : Address}

/-- The parser of an address accepts what an address is on the wire, and stops behind it. -/
theorem parseHost_ok_iff {offset : Nat}
    (first : input[0]? = some kind) : parseHost kind input = .ok (address, offset) ↔
      address.Valid ∧ offset = address.wire.length ∧ address.wire <+: input := by
  constructor
  · intro parsed
    unfold parseHost at parsed
    split at parsed
    · next isV4 =>
      split at parsed
      · cases parsed
      next octets found =>
      cases parsed
      have kind4 : 1 = kind := UInt8.toNat_inj.mp isV4.symm
      exact ⟨trivial, by simp [Address.wire, octets.property],
        (cons_prefix_iff first).mpr ⟨kind4, octets_eq_some.mp found⟩⟩
    · next isV6 =>
      split at parsed
      · cases parsed
      next octets found =>
      cases parsed
      have kind6 : 4 = kind := UInt8.toNat_inj.mp isV6.symm
      exact ⟨trivial, by simp [Address.wire, octets.property],
        (cons_prefix_iff first).mpr ⟨kind6, octets_eq_some.mp found⟩⟩
    · next isName =>
      split at parsed
      · cases parsed
      next length second =>
      split at parsed
      · cases parsed
      split at parsed
      · cases parsed
      next bytes sliced =>
      split at parsed
      · cases parsed
      next domain decoded =>
      split at parsed
      · next valid =>
        cases parsed
        obtain ⟨front, back, rfl, two, size⟩ := slice_eq_some.mp sliced
        obtain ⟨_, _, rfl⟩ := List.length_eq_two.mp two
        cases first
        cases second
        -- The name has the bytes that were counted.
        cases fromUtf8_eq_some decoded
        have bytes : domain.utf8ByteSize = length.toNat := size
        refine ⟨valid, by simp [Address.wire, size]; omega, back, ?_⟩
        have kind3 : 3 = kind := UInt8.toNat_inj.mp isName.symm
        rw [Address.wire, bytes, UInt8.ofNat_toNat, kind3]
        rfl
      · cases parsed
    · cases parsed
  · rintro ⟨valid, rfl, back, rfl⟩
    cases address with
    | ipv4 bytes =>
      have read : octets 4 (1 :: (bytes.val ++ back)) 1 = some bytes :=
        octets_eq_some.mpr ⟨[1], back, rfl, rfl⟩
      cases first
      simp [parseHost, read, Address.wire, bytes.property]
    | ipv6 bytes =>
      have read : octets 16 (4 :: (bytes.val ++ back)) 1 = some bytes :=
        octets_eq_some.mpr ⟨[4], back, rfl, rfl⟩
      cases first
      simp [parseHost, read, Address.wire, bytes.property]
    | domain name =>
      obtain ⟨some_, short⟩ := validDomain_size valid
      have length : (UInt8.ofNat name.utf8ByteSize).toNat = name.utf8ByteSize := by
        simp; omega
      have positive : UInt8.ofNat name.utf8ByteSize ≠ 0 := by
        intro zero
        simp [zero] at length
        omega
      have second : (Address.wire (.domain name) ++ back)[1]? =
        some (UInt8.ofNat name.utf8ByteSize) := rfl
      have read : slice (Address.wire (.domain name) ++ back) 2 (2 + name.utf8ByteSize) =
          some (toUtf8 name) :=
        slice_eq_some.mpr ⟨[3, UInt8.ofNat name.utf8ByteSize], back, rfl, rfl, rfl⟩
      have whole : (Address.wire (.domain name)).length = 2 + name.utf8ByteSize :=
        Nat.add_comm (toUtf8 name).length 2
      cases first
      rw [Address.Valid] at valid
      simp [parseHost, second, positive, length, read, valid, whole]

/-- The parser of an address with a port accepts both, and a zero port where it is allowed. -/
theorem parseAddress_ok_iff {allowZeroPort : Bool} {port : UInt16} {consumed : Nat} :
    parseAddress input allowZeroPort = .ok (address, port, consumed) ↔
      address.Valid ∧ (port = 0 → allowZeroPort = true) ∧
        consumed = (address.wire ++ u16ToBe port).length ∧
        address.wire ++ u16ToBe port <+: input := by
  constructor
  · intro parsed
    unfold parseAddress at parsed
    split at parsed
    · cases parsed
    next kind first =>
    split at parsed
    · cases parsed
    next found offset host =>
    split at parsed
    · cases parsed
    next bytes read =>
    dsimp only at parsed
    split at parsed
    · cases parsed
    next usable =>
    cases parsed
    obtain ⟨valid, rfl, back, rfl⟩ := (parseHost_ok_iff first).mp host
    obtain ⟨front, rest, whole, same⟩ := octets_eq_some.mp read
    -- The port stands right behind the address.
    rw [List.append_assoc] at whole
    obtain ⟨rfl, rfl⟩ := List.append_inj whole same.symm
    refine ⟨valid, ?_, by simp, rest, ?_⟩
    · intro zero
      simpa [zero] using usable
    · rw [u16ToBe_ofBe, List.append_assoc]
  · rintro ⟨valid, usable, rfl, rest, rfl⟩
    obtain ⟨kind, tail, starts⟩ : ∃ kind tail, address.wire = kind :: tail := by
      cases address <;> exact ⟨_, _, rfl⟩
    have first : (address.wire ++ u16ToBe port ++ rest)[0]? = some kind := by simp [starts]
    have host := (parseHost_ok_iff first).mpr ⟨valid, rfl, u16ToBe port ++ rest, by simp⟩
    have read : octets 2 (address.wire ++ u16ToBe port ++ rest) address.wire.length =
        some ⟨u16ToBe port, rfl⟩ :=
      octets_eq_some.mpr ⟨address.wire, rest, rfl, rfl⟩
    simp only [parseAddress, first, host, read, u16OfBe_toBe]
    rw [if_neg (by simpa using usable)]
    simp

theorem drop_header (header back : Bytes) (first second third : UInt8) :
    (first :: second :: third :: (header ++ back)).drop (3 + header.length) = back := by
  rw [Nat.add_comm]
  exact List.drop_left

theorem parseUdp_ok_iff {packet : UdpPacket} : parseUdp input = .ok packet ↔
      packet.address.Valid ∧ packet.port ≠ 0 ∧
        input = 0 :: 0 :: 0 ::
          (packet.address.wire ++ u16ToBe packet.port ++ packet.payload) := by
  constructor
  · intro parsed
    unfold parseUdp at parsed
    split at parsed
    · next first second fragment rest =>
      split at parsed
      · cases parsed
      next zeros =>
      split at parsed
      · cases parsed
      next whole =>
      split at parsed
      · cases parsed
      next address port consumed read =>
      cases parsed
      obtain ⟨valid, usable, rfl, back, rfl⟩ := parseAddress_ok_iff.mp read
      simp only [not_or, not_not] at zeros whole
      obtain ⟨_, rfl, rfl⟩ := zeros
      subst whole
      refine ⟨valid, fun zero => by simpa using usable zero, ?_⟩
      simp only [drop_header]
    · cases parsed
  · rintro ⟨valid, usable, rfl⟩
    have read : parseAddress (packet.address.wire ++ u16ToBe packet.port ++ packet.payload) false =
        .ok (packet.address, packet.port, (packet.address.wire ++ u16ToBe packet.port).length) :=
      parseAddress_ok_iff.mpr ⟨valid, fun zero => absurd zero usable, rfl, packet.payload, rfl⟩
    simp only [parseUdp, read, drop_header]
    rw [if_neg (by simp; omega), if_neg (by simp)]

theorem encodeUdpHeader_valid (valid : address.Valid) (port : UInt16) :
    encodeUdpHeader address port = some (0 :: 0 :: 0 :: (address.wire ++ u16ToBe port)) := by
  cases address with
  | domain =>
    have short := (validDomain_size valid).2
    rw [encodeUdpHeader, if_pos (by omega)]
    rfl
  | _ => rfl

/-- The host of a request leaves room for a port, as the length of the request says. -/
theorem parseHost_delimited (known : kind ∈ [1, 3, 4])
    (delimited : requestLength (version :: code :: reserved :: kind :: rest) =
      some (rest.length + 4)) : match parseHost kind (kind :: rest) with
    | .error fault => fault = .address | .ok (_, offset) => offset + 2 = rest.length + 1 := by
  simp only [List.mem_cons, List.not_mem_nil, or_false] at known
  rcases known with rfl | rfl | rfl
  · have size : 10 = rest.length + 4 := Option.some.inj delimited
    obtain ⟨host, read⟩ : ∃ host, octets 4 (1 :: rest) 1 = some host :=
      octets_isSome (by simp only [List.length_cons]; omega)
    simp only [parseHost, read]
    change 5 + 2 = _
    omega
  · cases rest with
    | nil => cases delimited
    | cons length rest =>
      have size : 7 + length.toNat = rest.length + 1 + 4 := Option.some.inj delimited
      have read : slice (3 :: length :: rest) 2 (2 + length.toNat) =
          some (rest.take length.toNat) :=
        slice_eq_some.mpr ⟨[3, length], rest.drop length.toNat, by simp, rfl, by simp; omega⟩
      have second : (3 :: length :: rest)[1]? = some length := rfl
      unfold parseHost
      simp only [second, read]
      by_cases zero : length = 0
      · simp [zero]
      simp only [if_neg zero]
      cases fromUtf8 (rest.take length.toNat) with
      | none => simp
      | some domain =>
        by_cases valid : validDomain domain = true
        · simp only [valid, if_true]
          change 2 + length.toNat + 2 = rest.length + 1 + 1
          omega
        · simp [valid]
  · have size : 22 = rest.length + 4 := Option.some.inj delimited
    obtain ⟨host, read⟩ : ∃ host, octets 16 (4 :: rest) 1 = some host :=
      octets_isSome (by simp only [List.length_cons]; omega)
    simp only [parseHost, read]
    change 17 + 2 = _
    omega

theorem parseAddress_delimited (known : kind ∈ [1, 3, 4])
    (delimited : requestLength (version :: code :: reserved :: kind :: rest) =
      some (rest.length + 4)) (allowZeroPort : Bool) :
    match parseAddress (kind :: rest) allowZeroPort with
    | .error fault => fault = .address ∨ fault = .port
    | .ok (_, _, consumed) => consumed = rest.length + 1 := by
  have host := parseHost_delimited known delimited
  simp only [parseAddress, List.getElem?_cons_zero]
  cases parsed : parseHost kind (kind :: rest) with
  | error => exact .inl (by simpa [parsed] using host)
  | ok found =>
    obtain ⟨address, offset⟩ := found
    rw [parsed] at host
    obtain ⟨port, read⟩ : ∃ port, octets 2 (kind :: rest) offset = some port :=
      octets_isSome (Nat.le_of_eq host)
    simp only [read]
    split
    · next fails =>
      split at fails <;> cases fails
      exact .inr rfl
    · next fits =>
      split at fits <;> cases fits
      exact host

theorem parseRequest_delimited {body : Bytes} (delimited : requestLength body = some body.length)
    (fourth : body[3]? = some kind) (known : kind ∈ [1, 3, 4]) :
    parseRequest body ≠ .error .incomplete ∧ parseRequest body ≠ .error .trailingBytes := by
  match body, fourth with
  | version :: code :: reserved :: kind :: rest, rfl =>
    simp only [parseRequest]
    split
    · simp
    cases accepted : parseCommand code with
    | error =>
      unfold parseCommand at accepted
      split at accepted <;> cases accepted <;> simp
    | ok command =>
      have address := parseAddress_delimited known delimited (decide (command = .udpAssociate))
      dsimp only
      cases parsed : parseAddress (kind :: rest) (decide (command = .udpAssociate)) with
      | error =>
        rw [parsed] at address
        rcases address with rfl | rfl <;> simp
      | ok found =>
        obtain ⟨_, _, consumed⟩ := found
        rw [parsed] at address
        cases address
        simp

/--
The codec of datagram headers is a bijection on valid packets.
A header followed by any payload reads back, and whatever is accepted is the header of what was
read, followed by its payload.
-/
theorem udpHeader_bijective :
    (∀ (address : Address) (port : UInt16) (payload : Bytes), address.Valid → port ≠ 0 →
      ∃ header, encodeUdpHeader address port = some header ∧
        parseUdp (header ++ payload) = .ok { address, port, payload }) ∧
    ∀ (input : Bytes) (packet : UdpPacket), parseUdp input = .ok packet →
      packet.address.Valid ∧ packet.port ≠ 0 ∧
      (encodeUdpHeader packet.address packet.port).map (· ++ packet.payload) = some input := by
  constructor
  · intro address port payload valid usable
    exact ⟨_, encodeUdpHeader_valid valid port, parseUdp_ok_iff.mpr ⟨valid, usable, rfl⟩⟩
  · intro input packet parsed
    obtain ⟨valid, usable, rfl⟩ := parseUdp_ok_iff.mp parsed
    exact ⟨valid, usable, by rw [encodeUdpHeader_valid valid]; rfl⟩

end Snolc.Socks5
