import Mathlib
import Snolc.Lib.Utf8
import Snolc.Policy.Sniff

/-! Encoding of a client hello, and the server name that is found in it. -/

namespace Snolc.Policy

open List Option

section LowerCase

theorem toLower_cases (c : Char) : c.toLower = c ∨
    65 ≤ c.toNat ∧ c.toNat ≤ 90 ∧ c.toLower = Char.ofNat (c.toNat + 32) := by
  by_cases upper : c.isUpper
  · refine .inr ?_
    have bounds : 65 ≤ c.toNat ∧ c.toNat ≤ 90 := by
      simpa [Char.isUpper, UInt32.le_iff_toNat_le] using upper
    exact ⟨bounds.1, bounds.2, Char.toLower_eq_of_isUpper upper⟩
  · exact .inl (Char.toLower_eq_of_not_isUpper upper)

theorem toNat_toLower_upper {c : Char} (small : c.toNat ≤ 90) :
    (Char.ofNat (c.toNat + 32)).toNat = c.toNat + 32 :=
  toNat_ofNat_valid (.inl (by omega))

theorem toLower_eq_iff {c d : Char} (plain : d.toNat < 65) : c.toLower = d ↔ c = d := by
  rcases toLower_cases c with same | ⟨low, high, same⟩
  · rw [same]
  rw [same]
  have lower := toNat_toLower_upper high
  constructor
  · rintro rfl
    omega
  · rintro rfl
    omega

theorem utf8Size_toLower (c : Char) : c.toLower.utf8Size = c.utf8Size := by
  rcases toLower_cases c with same | ⟨low, high, same⟩
  · rw [same]
  have lower := toNat_toLower_upper high
  have one : ∀ d : Char, d.toNat ≤ 127 → d.utf8Size = 1 := by
    intro d small
    rw [Char.utf8Size_eq_one_iff, UInt32.le_iff_toNat_le]
    exact small
  rw [same, one c (by omega), one _ (by omega)]

theorem utf8Len_toLower (chars : List Char) :
    String.utf8Len (chars.map Char.toLower) = String.utf8Len chars := by
  induction chars with
  | nil => rfl
  | cons c chars ih => simp [ih, utf8Size_toLower]

theorem isAlphanum_toLower (c : Char) : c.toLower.isAlphanum = c.isAlphanum := by
  have digit : c.toLower.isDigit = c.isDigit := by
    rcases toLower_cases c with same | ⟨low, high, same⟩
    · rw [same]
    have lower := toNat_toLower_upper high
    rw [same, Bool.eq_iff_iff]
    simp only [Char.isDigit, ge_iff_le, Bool.and_eq_true, decide_eq_true_eq,
      UInt32.le_iff_toNat_le]
    show (48 ≤ (Char.ofNat (c.toNat + 32)).toNat ∧ (Char.ofNat (c.toNat + 32)).toNat ≤ 57) ↔
      48 ≤ c.toNat ∧ c.toNat ≤ 57
    -- Neither a capital letter nor its small one is a digit.
    omega
  simp [Char.isAlphanum, digit]

theorem splitOn_toLower (chars : List Char) :
    (chars.map Char.toLower).splitOn '.' = (chars.splitOn '.').map (List.map Char.toLower) := by
  induction chars with
  | nil => rfl
  | cons c chars ih =>
    simp only [List.splitOn] at ih
    simp only [List.splitOn, map_cons, splitOnP_cons_eq_if_modifyHead, beq_iff_eq,
      toLower_eq_iff (show ('.' : Char).toNat < 65 by decide), ih]
    split
    · rfl
    · cases chars.splitOnP (· == '.') <;> rfl

theorem validLabel_toLower (label : List Char) :
    validLabel (label.map Char.toLower) = validLabel label := by
  have dash : ∀ c : Char, c.toLower = '-' ↔ c = '-' := fun c => toLower_eq_iff (by decide)
  simp [validLabel, isAlphanum_toLower, dash, Function.comp_def]

theorem validDomain_asciiLower (domain : String) :
    validDomain (asciiLower domain) = validDomain domain := by
  have size : (asciiLower domain).utf8ByteSize = domain.utf8ByteSize := by
    conv_rhs => rw [← String.ofList_toList (s := domain)]
    rw [asciiLower, String.utf8ByteSize_ofList, String.utf8ByteSize_ofList, utf8Len_toLower]
  have ascii : isAscii (asciiLower domain) = isAscii domain := by
    simp only [isAscii, asciiLower, String.toList_ofList, List.all_map]
    congr 1
    funext c
    rcases toLower_cases c with same | ⟨low, high, same⟩
    · simp [same]
    have lower := toNat_toLower_upper high
    simp only [Function.comp_apply, same, lower]
    rw [decide_eq_decide]
    omega
  unfold validDomain
  rw [ascii]
  simp only [String.isEmpty, size]
  simp [asciiLower, splitOn_toLower, Function.comp_def, validLabel_toLower]

end LowerCase

/-- A number in two bytes. -/
def toU16 (value : Nat) : Bytes :=
  [UInt8.ofNat (value / 256), UInt8.ofNat value]

/-- A number in three bytes. -/
def toU24 (value : Nat) : Bytes :=
  [UInt8.ofNat (value / 65536), UInt8.ofNat (value / 256), UInt8.ofNat value]

/-- Bytes behind their length in one byte. -/
def sized8 (data : Bytes) : Bytes :=
  UInt8.ofNat data.length :: data

/-- Bytes behind their length in two bytes. -/
def sized16 (data : Bytes) : Bytes :=
  toU16 data.length ++ data

/-- Bytes behind their length in three bytes. -/
def sized24 (data : Bytes) : Bytes :=
  toU24 data.length ++ data

/-- One entry of a list of server names. -/
structure ServerName where
  kind : UInt8
  name : Bytes
  name_lt : name.length < 65536

/-- An entry as bytes. -/
def ServerName.encode (entry : ServerName) : Bytes :=
  entry.kind :: sized16 entry.name

/-- One extension of a client hello. -/
structure Extension where
  kind : Nat
  data : Bytes
  kind_lt : kind < 65536
  data_lt : data.length < 65536

def Extension.encode (extension : Extension) : Bytes :=
  toU16 extension.kind ++ sized16 extension.data

/-- A client hello whose fields have lengths that their encodings can hold. -/
structure ClientHello where
  version : Bytes
  random : Bytes
  sessionId : Bytes
  cipherSuites : Bytes
  compressionMethods : Bytes
  extensions : List Extension
  version_length : version.length = 2
  random_length : random.length = 32
  sessionId_lt : sessionId.length < 256
  cipherSuites_lt : cipherSuites.length < 65536
  compressionMethods_lt : compressionMethods.length < 256
  extensions_lt : (extensions.flatMap Extension.encode).length < 65536

def ClientHello.encode (hello : ClientHello) : Bytes :=
  hello.version ++ (hello.random ++ (sized8 hello.sessionId ++ (sized16 hello.cipherSuites ++
    (sized8 hello.compressionMethods ++ sized16 (hello.extensions.flatMap Extension.encode)))))

/-- A record with a client hello at its front; other messages may follow in the same record. -/
structure HelloRecord where
  version : Bytes
  hello : ClientHello
  following : Bytes
  version_length : version.length = 2
  body_lt : 4 + hello.encode.length + following.length < 65536

variable (record : HelloRecord)

/-- The handshake messages of a record. -/
def HelloRecord.body : Bytes :=
  1 :: sized24 record.hello.encode ++ record.following

def HelloRecord.encode : Bytes :=
  0x16 :: record.version ++ sized16 record.body

section Reading

variable {input data rest : Bytes} {offset value : Nat}

theorem toU16_length (value : Nat) : (toU16 value).length = 2 := rfl

theorem sized16_length (data : Bytes) : (sized16 data).length = 2 + data.length := by
  simp [sized16, toU16_length]

theorem drop_more (here : input.drop offset = data ++ rest) :
    input.drop (offset + data.length) = rest := by
  rw [← drop_drop, here, drop_left]

theorem beU16_here (here : input.drop offset = toU16 value ++ rest) (small : value < 65536) :
    beU16 input offset = some value := by
  rw [beU16, here]
  show some ((UInt8.ofNat (value / 256)).toNat * 256 + (UInt8.ofNat value).toNat) = some value
  rw [UInt8.toNat_ofNat', UInt8.toNat_ofNat']
  congr 1
  omega

theorem beU24_here (here : input.drop offset = toU24 value ++ rest) (small : value < 16777216) :
    beU24 input offset = some value := by
  rw [beU24, here]
  show some ((UInt8.ofNat (value / 65536)).toNat * 65536 + (UInt8.ofNat (value / 256)).toNat * 256 +
    (UInt8.ofNat value).toNat) = some value
  rw [UInt8.toNat_ofNat', UInt8.toNat_ofNat', UInt8.toNat_ofNat']
  congr 1
  omega

theorem getElem?_here {byte : UInt8} (here : input.drop offset = byte :: rest) :
    input[offset]? = some byte := by
  rw [← List.head?_drop, here, List.head?_cons]

theorem slice_here (here : input.drop offset = data ++ rest) (inside : offset ≤ input.length) :
    slice input offset (offset + data.length) = some data := by
  have long : input.length - offset = data.length + rest.length := by
    rw [← length_drop, here, length_append]
  rw [slice, if_pos ⟨by omega, by omega⟩, drop_take, here, Nat.add_sub_cancel_left,
    take_left]

theorem sized16_here (here : input.drop offset = sized16 data ++ rest)
    (small : data.length < 65536) :
    beU16 input offset = some data.length ∧ input.drop (offset + 2) = data ++ rest := by
  rw [sized16, append_assoc] at here
  exact ⟨beU16_here here small, drop_more here⟩

theorem sized8_here (here : input.drop offset = sized8 data ++ rest)
    (small : data.length < 256) :
    input[offset]? = some (UInt8.ofNat data.length) ∧
      (UInt8.ofNat data.length).toNat = data.length ∧
      input.drop (offset + 1) = data ++ rest := by
  have byte : input.drop offset = [UInt8.ofNat data.length] ++ (data ++ rest) := here
  refine ⟨getElem?_here here, ?_, drop_more byte⟩
  rw [UInt8.toNat_ofNat']
  omega

end Reading

section Walks

variable {input rest : Bytes} {offset : Nat}

theorem ServerName.encode_length (entry : ServerName) :
    entry.encode.length = 3 + entry.name.length := by
  simp [ServerName.encode, sized16_length]
  omega

theorem Extension.encode_length (extension : Extension) :
    extension.encode.length = 4 + extension.data.length := by
  simp [Extension.encode, sized16_length, toU16_length]
  omega

theorem length_le_flatMap {α : Type} (items : List α) (encode : α → Bytes)
    (nonempty : ∀ item, 0 < (encode item).length) :
    items.length ≤ (items.flatMap encode).length := by
  induction items with
  | nil => exact Nat.zero_le _
  | cons item =>
    have one := nonempty item
    rw [flatMap_cons, length_append, length_cons]
    omega

theorem parseSniNames_entry {entry : ServerName} (fuel : Nat)
    (here : input.drop offset = entry.encode ++ rest) :
    parseSniNames input (fuel + 1) offset =
      if entry.kind = 0 then
        (fromUtf8 entry.name).bind fun name =>
          if validDomain (asciiLower name) then some (asciiLower name) else none
      else parseSniNames input fuel (offset + entry.encode.length) := by
  have long : input.length - offset = 3 + entry.name.length + rest.length := by
    rw [← length_drop, here, length_append, entry.encode_length]
  have byte : input.drop offset = [entry.kind] ++ (sized16 entry.name ++ rest) := here
  obtain ⟨length, text⟩ := sized16_here (drop_more byte) entry.name_lt
  rw [length_singleton] at length text
  have read := slice_here text (by omega)
  rw [parseSniNames, if_pos (by omega), getElem?_here byte, entry.encode_length, ← Nat.add_assoc]
  simp only [bind_eq_bind, bind_some, length]
  rw [show offset + 3 = offset + 1 + 2 from rfl, read]
  simp only [bind_some]

variable {fuel extensionsEnd : Nat} {host : ServerName}

theorem parseSniNames_host {others : List ServerName} {name : String}
    (other : ∀ entry ∈ others, entry.kind ≠ 0) (kind : host.kind = 0)
    (named : host.name = toUtf8 name) (valid : validDomain name = true)
    (here : input.drop offset = others.flatMap ServerName.encode ++ (host.encode ++ rest))
    (enough : others.length < fuel) : parseSniNames input fuel offset = some (asciiLower name) := by
  obtain ⟨fuel, rfl⟩ : ∃ less, fuel = less + 1 := ⟨fuel - 1, by omega⟩
  -- The induction is on the entries before the host name.
  induction others generalizing offset fuel with
  | nil =>
    rw [parseSniNames_entry fuel here, if_pos kind, named, fromUtf8_toUtf8, bind_some,
      validDomain_asciiLower, if_pos valid]
  | cons entry others ih =>
    rw [length_cons] at enough
    rw [flatMap_cons, append_assoc] at here
    obtain ⟨less, rfl⟩ : ∃ less, fuel = less + 1 := ⟨fuel - 1, by omega⟩
    rw [parseSniNames_entry (less + 1) here, if_neg (other entry mem_cons_self)]
    exact ih (fun later among => other later (mem_cons_of_mem entry among)) (drop_more here)
      less (by omega)

theorem parseSni_host {others more : List ServerName} {name : String}
    (other : ∀ entry ∈ others, entry.kind ≠ 0) (kind : host.kind = 0)
    (named : host.name = toUtf8 name) (valid : validDomain name = true)
    (small : ((others ++ host :: more).flatMap ServerName.encode).length < 65536) :
    parseSni (sized16 ((others ++ host :: more).flatMap ServerName.encode)) =
      some (asciiLower name) := by
  have parts : (others ++ host :: more).flatMap ServerName.encode =
      others.flatMap ServerName.encode ++ (host.encode ++ more.flatMap ServerName.encode) := by
    rw [flatMap_append, flatMap_cons]
  have few := length_le_flatMap others ServerName.encode fun entry => by
    rw [entry.encode_length]
    omega
  have total := congrArg List.length parts
  rw [length_append] at total
  generalize (others ++ host :: more).flatMap ServerName.encode = names at small parts total ⊢
  have start : (sized16 names).drop 0 = sized16 names ++ [] := by simp
  obtain ⟨length, text⟩ := sized16_here start small
  rw [append_nil] at text
  rw [parseSni, length, bind_eq_bind, bind_some, sized16_length,
    if_neg (by omega)]
  exact parseSniNames_host other kind named valid (text.trans parts) (by omega)

theorem findSni_extension {extension : Extension} (fuel : Nat)
    (here : input.drop offset = extension.encode ++ rest) (inBlock : offset + 4 ≤ extensionsEnd) :
    findSni input extensionsEnd (fuel + 1) offset =
      if extension.kind = 0 then parseSni extension.data
      else findSni input extensionsEnd fuel (offset + extension.encode.length) := by
  have long : input.length - offset = 4 + extension.data.length + rest.length := by
    rw [← length_drop, here, length_append, extension.encode_length]
  have fields : input.drop offset =
      toU16 extension.kind ++ (sized16 extension.data ++ rest) := by
    rw [here, Extension.encode, append_assoc]
  obtain ⟨length, data⟩ := sized16_here (drop_more fields) extension.data_lt
  rw [toU16_length] at length data
  have read := slice_here data (by omega)
  rw [findSni, if_pos inBlock, beU16_here fields extension.kind_lt, length,
    extension.encode_length, ← Nat.add_assoc]
  dsimp only [getD_some]
  rw [show offset + 4 = offset + 2 + 2 from rfl, read]

theorem findSni_server {before : List Extension} {server : Extension}
    (other : ∀ extension ∈ before, extension.kind ≠ 0) (kind : server.kind = 0)
    (here : input.drop offset = before.flatMap Extension.encode ++ (server.encode ++ rest))
    (inBlock : offset + (before.flatMap Extension.encode).length + 4 ≤ extensionsEnd)
    (enough : before.length < fuel) :
    findSni input extensionsEnd fuel offset = parseSni server.data := by
  obtain ⟨fuel, rfl⟩ : ∃ less, fuel = less + 1 := ⟨fuel - 1, by omega⟩
  -- The induction is on the extensions before the server name.
  induction before generalizing offset fuel with
  | nil => rw [findSni_extension fuel here inBlock, if_pos kind]
  | cons extension before ih =>
    rw [flatMap_cons, append_assoc] at here
    rw [flatMap_cons, length_append] at inBlock
    rw [length_cons] at enough
    obtain ⟨less, rfl⟩ : ∃ less, fuel = less + 1 := ⟨fuel - 1, by omega⟩
    rw [findSni_extension (less + 1) here (by omega),
      if_neg (other extension mem_cons_self)]
    exact ih (fun later among => other later (mem_cons_of_mem extension among))
      (drop_more here) (by omega) less (by omega)

end Walks

theorem ClientHello.encode_length (hello : ClientHello) :
    hello.encode.length = 35 + hello.sessionId.length + 2 + hello.cipherSuites.length + 1 +
      hello.compressionMethods.length + 2 +
      (hello.extensions.flatMap Extension.encode).length := by
  simp only [ClientHello.encode, sized8, sized16_length, length_append, length_cons,
    hello.version_length, hello.random_length]
  omega

theorem helloSni_encode (hello : ClientHello) : ∃ offset,
    hello.encode.drop offset = hello.extensions.flatMap Extension.encode ∧
      offset + (hello.extensions.flatMap Extension.encode).length = hello.encode.length ∧
      helloSni hello.encode =
        findSni hello.encode hello.encode.length hello.encode.length offset := by
  have version : hello.encode.drop 0 = hello.version ++ _ := rfl
  have random := drop_more version
  have session := drop_more random
  rw [hello.version_length, hello.random_length] at session
  -- Each field that is read says where the next one begins.
  obtain ⟨sessionByte, sessionLength, session⟩ := sized8_here session hello.sessionId_lt
  obtain ⟨cipherLength, ciphers⟩ := sized16_here (drop_more session) hello.cipherSuites_lt
  obtain ⟨compressionByte, compressionLength, compression⟩ :=
    sized8_here (drop_more ciphers) hello.compressionMethods_lt
  have block := drop_more compression
  rw [← append_nil (sized16 (hello.extensions.flatMap Extension.encode))] at block
  obtain ⟨blockLength, extensions⟩ := sized16_here block hello.extensions_lt
  rw [append_nil] at extensions
  have whole := hello.encode_length
  refine ⟨_, extensions, by omega, ?_⟩
  simp only [Nat.zero_add, Nat.reduceAdd] at sessionByte cipherLength compressionByte blockLength
  unfold helloSni
  simp only [sessionByte, sessionLength, cipherLength, compressionByte, compressionLength,
    blockLength, bind_eq_bind, bind_some, Nat.zero_add, Nat.reduceAdd]
  rw [← whole, if_pos le_rfl]

/-- A record with a whole client hello is classified by the server name of the hello. -/
theorem classifyTcp_encode (rest : Bytes) (complete : Bool) :
    classifyTcp (record.encode ++ rest) complete =
      .complete (.tls (helloSni record.hello.encode)) := by
  have bodyLength : record.body.length = 4 + record.hello.encode.length +
      record.following.length := by
    simp only [HelloRecord.body, sized24, toU24, length_append, length_cons,
      length_nil]
    omega
  have fits := record.body_lt
  have whole : (record.encode ++ rest).drop 0 =
      (0x16 :: record.version) ++ (sized16 record.body ++ rest) := by
    simp [HelloRecord.encode]
  have sized := drop_more whole
  rw [length_cons, record.version_length] at sized
  obtain ⟨recordLength, body⟩ := sized16_here sized (by omega)
  simp only [Nat.zero_add, Nat.reduceAdd] at recordLength body
  have long : record.body.length + rest.length = (record.encode ++ rest).length - 5 := by
    rw [← length_drop, body, length_append]
  have isRecord : (record.encode ++ rest).head? = some 0x16 := rfl
  have notSsh : (toUtf8 "SSH-").isPrefixOf (record.encode ++ rest) = false := rfl
  generalize record.encode ++ rest = input at recordLength body isRecord notSsh long
  rw [classifyTcp, notSsh, if_neg Bool.false_ne_true, if_pos isRecord, classifyTls, recordLength]
  dsimp only
  have cut : (input.take (5 + record.body.length)).drop 5 = record.body := by
    rw [drop_take, body, Nat.add_sub_cancel_left, take_left]
  rw [if_neg (by omega), cut]
  -- The message is a client hello, whose length has three bytes.
  have message : record.body.drop 1 =
      toU24 record.hello.encode.length ++ (record.hello.encode ++ record.following) := by
    simp [HelloRecord.body, sized24]
  rw [if_neg (by simp [HelloRecord.body]), beU24_here message (by omega)]
  dsimp only
  have hello : (record.body.take (4 + record.hello.encode.length)).drop 4 =
      record.hello.encode := by
    rw [drop_take, Nat.add_sub_cancel_left]
    exact (congrArg (List.take _) (drop_more message)).trans (take_left ..)
  rw [if_neg (by omega), hello]

/--
The first host name in the first server name extension of a client hello is reported in lower case.
Other extensions and entries of other kinds may come before it, and any bytes after the record.
-/
theorem clientHello_reported {before after : List Extension}
    {server : Extension} {others more : List ServerName} {host : ServerName} {name : String}
    (extensions : record.hello.extensions = before ++ server :: after)
    (first : ∀ extension ∈ before, extension.kind ≠ 0) (serverKind : server.kind = 0)
    (data : server.data = sized16 ((others ++ host :: more).flatMap ServerName.encode))
    (firstHost : ∀ entry ∈ others, entry.kind ≠ 0) (hostKind : host.kind = 0)
    (named : host.name = toUtf8 name) (valid : validDomain name = true)
    (rest : Bytes) (complete : Bool) : classifyTcp (record.encode ++ rest) complete =
      .complete (.tls (some (asciiLower name))) := by
  obtain ⟨offset, here, ends, walk⟩ := helloSni_encode record.hello
  have parts : (before ++ server :: after).flatMap Extension.encode =
      before.flatMap Extension.encode ++ (server.encode ++ after.flatMap Extension.encode) := by
    rw [flatMap_append, flatMap_cons]
  have few := length_le_flatMap before Extension.encode fun extension => by
    rw [extension.encode_length]
    omega
  have total := congrArg List.length parts
  rw [length_append, length_append, server.encode_length] at total
  rw [extensions] at here ends
  rw [parts] at here
  rw [classifyTcp_encode, walk, findSni_server first serverKind here (by omega) (by omega), data,
    parseSni_host firstHost hostKind named valid ?_]
  have fits := server.data_lt
  rw [data, sized16_length] at fits
  omega

/-- A list of an entry of another kind and the host name `A.b`. -/
def mixedNames : List ServerName :=
  [⟨7, [1, 2], by decide⟩, ⟨0, toUtf8 "A.b", by decide⟩]

/-- The extension with those names, behind another one. -/
def mixedExtensions : List Extension :=
  [⟨10, [0, 2, 0, 29], by decide, by decide⟩,
    ⟨0, sized16 (mixedNames.flatMap ServerName.encode), by decide, by decide +kernel⟩]

/-- A record with a client hello of those extensions. -/
def mixedRecord : HelloRecord where
  version := [3, 1]
  hello :=
    { version := [3, 3], random := List.replicate 32 0, sessionId := [5], cipherSuites := [19, 1],
      compressionMethods := [0], extensions := mixedExtensions, version_length := rfl,
      random_length := rfl, sessionId_lt := by decide, cipherSuites_lt := by decide,
      compressionMethods_lt := by decide, extensions_lt := by decide +kernel }
  following := []
  version_length := rfl
  body_lt := by decide +kernel

/-- The name is found behind the other extension and the other entry. -/
theorem clientHello_reported_mixed :
    classifyTcp (mixedRecord.encode ++ [1, 2, 3]) false =
      .complete (.tls (some (asciiLower "A.b"))) :=
  @clientHello_reported mixedRecord [mixedExtensions[0]] [] mixedExtensions[1] [mixedNames[0]] []
    mixedNames[1] "A.b" rfl (by decide) rfl rfl (by decide) rfl rfl (by decide +kernel) [1, 2, 3]
    false

end Snolc.Policy
