import Snolc.Policy.Config
import Snolc.Policy.Records

/-! Classification of the first bytes of a flow. -/

namespace Snolc.Policy

/-- What the first bytes of a flow show. -/
inductive Observed
  | tls (sni : Option String)
  | http (host : Option String)
  | ssh
  | quic
  | unknown
  deriving DecidableEq, Repr

/-- Whether more bytes are needed before a flow is classified. -/
inductive Classification
  | needMore
  | complete (observed : Observed)
  deriving DecidableEq, Repr

/-- A classification that gave up for lack of bytes. -/
def incomplete (complete : Bool) : Classification :=
  if complete then .complete .unknown else .needMore

variable (input : Bytes)

/-- A big-endian sixteen-bit number. -/
def beU16 (offset : Nat) : Option Nat :=
  match input.drop offset with
  | high :: low :: _ => some (high.toNat * 256 + low.toNat)
  | _ => none

/-- A big-endian twenty-four-bit number. -/
def beU24 (offset : Nat) : Option Nat :=
  match input.drop offset with
  | high :: middle :: low :: _ => some (high.toNat * 65536 + middle.toNat * 256 + low.toNat)
  | _ => none

/-- The bytes of a range, if the input has them. -/
def slice (start stop : Nat) : Option Bytes :=
  if start ≤ stop ∧ stop ≤ input.length then some ((input.take stop).drop start) else none

/-- The first host name in a list of server names. -/
def parseSniNames (extension : Bytes) : Nat → Nat → Option String
  | 0, _ => none
  | fuel + 1, offset =>
    if offset + 3 ≤ extension.length then do
      let kind ← extension[offset]?
      let length ← beU16 extension (offset + 1)
      let name ← slice extension (offset + 3) (offset + 3 + length)
      if kind = 0 then
        let name := asciiLower (← fromUtf8 name)
        if validDomain name then some name else none
      else parseSniNames extension fuel (offset + 3 + length)
    else none

/-- The server name of a TLS extension. -/
def parseSni (extension : Bytes) : Option String := do
  let listLength ← beU16 extension 0
  if listLength + 2 ≠ extension.length then none
  else parseSniNames extension extension.length 2

/-- Walk the extensions of a client hello to the server name. -/
def findSni (hello : Bytes) (extensionsEnd : Nat) : Nat → Nat → Option String
  | 0, _ => none
  | fuel + 1, offset =>
    if offset + 4 ≤ extensionsEnd then
      let kind := (beU16 hello offset).getD 65535
      let length := (beU16 hello (offset + 2)).getD 0
      match slice hello (offset + 4) (offset + 4 + length) with
      | none => none
      | some extension =>
        if kind = 0 then parseSni extension
        else findSni hello extensionsEnd fuel (offset + 4 + length)
    else none

/-- The server name of a client hello, if it can be reached. -/
def helloSni (hello : Bytes) : Option String := do
  let sessionLength ← hello[34]?
  let offset := 35 + sessionLength.toNat
  let cipherLength ← beU16 hello offset
  let offset := offset + 2 + cipherLength
  let compressionLength ← hello[offset]?
  let offset := offset + 1 + compressionLength.toNat
  let extensionsLength ← beU16 hello offset
  let extensionsEnd := offset + 2 + extensionsLength
  if extensionsEnd ≤ hello.length then findSni hello extensionsEnd hello.length (offset + 2)
  else none

/-- Classify a TLS record. -/
def classifyTls (complete : Bool) : Classification :=
  match beU16 input 3 with
  | none => incomplete complete
  | some recordLength =>
    if input.length < 5 + recordLength then incomplete complete
    else
      let record := (input.take (5 + recordLength)).drop 5
      if record.head? ≠ some 1 then .complete (.tls none)
      else
        match beU24 record 1 with
        | none => .complete (.tls none)
        | some handshakeLength =>
          if handshakeLength + 4 > record.length then .complete (.tls none)
          else .complete (.tls (helloSni ((record.take (4 + handshakeLength)).drop 4)))

/-- The position at which a pattern first occurs. -/
def position (pattern : Bytes) : Bytes → Option Nat
  | [] => if pattern.isEmpty then some 0 else none
  | byte :: rest =>
    if pattern.isPrefixOf (byte :: rest) then some 0 else (position pattern rest).map (· + 1)

def headerLines : List Char → List Char → List String
  | line, '\r' :: '\n' :: rest => String.ofList line.reverse :: headerLines [] rest
  | line, c :: rest => headerLines (c :: line) rest
  | line, [] => [String.ofList line.reverse]

/-- The characters Unicode counts as white space. -/
def isBlank (c : Char) : Bool :=
  let code := c.toNat
  9 ≤ code && code ≤ 13 || code = 32 || code = 0x85 || code = 0xA0 || code = 0x1680
    || 0x2000 ≤ code && code ≤ 0x200A || code = 0x2028 || code = 0x2029 || code = 0x202F
    || code = 0x205F || code = 0x3000

/-- Text without the blanks around it. -/
def trimBlanks (text : String) : String :=
  String.ofList (((text.toList.dropWhile isBlank).reverse.dropWhile isBlank).reverse)

/-- A host header without its port, in lower case. -/
def normalizeHost (value : String) : Option String := do
  let host ←
    if value.toList.head? = some '[' then
      (splitOnce ']' value).map fun parts =>
        String.ofList (parts.1.toList.dropWhile (· = '['))
    else some (String.ofList (value.toList.takeWhile (· ≠ ':')))
  let host := asciiLower host
  if validDomain host then some host else none

def hostOfLine (line : String) : Option String := do
  let (name, value) ← splitOnce ':' line
  if eqIgnoreAsciiCase name "host" then normalizeHost (trimBlanks value) else none

/-- Classify an HTTP request head. -/
def classifyHttp (complete : Bool) : Classification :=
  match position [13, 10, 13, 10] input with
  | none => incomplete complete
  | some stop =>
    match fromUtf8 (input.take (stop + 4)) with
    | none => .complete .unknown
    | some header =>
      match headerLines [] header.toList with
      | [] => .complete .unknown
      | request :: lines =>
        if " HTTP/1.0".toList.isSuffixOf request.toList ∨
            " HTTP/1.1".toList.isSuffixOf request.toList then
          .complete (.http (lines.findSome? hostOfLine))
        else .complete .unknown

/-- Whether the bytes may begin a request line. -/
def looksLikeHttp : Bool :=
  ["GET ", "POST ", "PUT ", "HEAD ", "DELETE ", "OPTIONS ", "PATCH ", "TRACE ", "CONNECT "].any
    fun method =>
      input.isPrefixOf (toUtf8 method) || (toUtf8 method).isPrefixOf input

/-- Classify the first bytes of a stream. -/
def classifyTcp (complete : Bool) : Classification :=
  if (toUtf8 "SSH-").isPrefixOf input then
    if (position [13, 10] input).isSome then .complete .ssh
    else incomplete complete
  else if input.head? = some 0x16 then classifyTls input complete
  else if looksLikeHttp input then classifyHttp input complete
  else if complete ∨ input.length ≥ 8 then .complete .unknown
  else .needMore

/-- Classify the first datagram. -/
def classifyUdp : Observed :=
  if input.head?.any (fun byte => byte.toNat / 64 = 3) then .quic else .unknown

theorem classifyTcp_complete : classifyTcp input true ≠ .needMore := by
  have gaveUp : incomplete true ≠ .needMore := by simp [incomplete]
  unfold classifyTcp
  split
  · split <;> simp [incomplete]
  split
  · simp only [classifyTls]
    repeat' split
    all_goals first | exact gaveUp | simp
  · split
    · simp only [classifyHttp]
      repeat' split
      all_goals first | exact gaveUp | simp
    · simp

end Snolc.Policy
