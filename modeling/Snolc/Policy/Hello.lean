import Mathlib
import Snolc.Policy.Sniff

/-! The server name of a client hello and the place it is read from. -/

namespace Snolc.Policy

def clientHello (bytes : Bytes) : Option Bytes := do
  let recordLength ← beU16 bytes 3
  let record := (bytes.take (5 + recordLength)).drop 5
  let handshakeLength ← beU24 record 1
  return (record.take (4 + handshakeLength)).drop 4

/-- Where the extensions of a client hello begin and end. -/
def extensionBlock (hello : Bytes) : Option (Nat × Nat) := do
  let sessionLength ← hello[34]?
  let offset := 35 + sessionLength.toNat
  let cipherLength ← beU16 hello offset
  let offset := offset + 2 + cipherLength
  let compressionLength ← hello[offset]?
  let offset := offset + 1 + compressionLength.toNat
  let extensionsLength ← beU16 hello offset
  return (offset + 2, offset + 2 + extensionsLength)

/-- Where the walk over the extensions finds the server name. -/
def serverNameRange (hello : Bytes) (extensionsEnd : Nat) : Nat → Nat → Option (Nat × Nat)
  | 0, _ => none
  | fuel + 1, offset =>
    if offset + 4 ≤ extensionsEnd then
      let length := (beU16 hello (offset + 2)).getD 0
      if hello.length < offset + 4 + length then none
      else if (beU16 hello offset).getD 65535 = 0 then some (offset + 4, offset + 4 + length)
      else serverNameRange hello extensionsEnd fuel (offset + 4 + length)
    else none

variable {name : String} {bytes extension : Bytes} {count first last offset : Nat}

section Location

variable {hello : Bytes} {extensionsEnd fuel offset start stop : Nat}

theorem findSni_eq : findSni hello extensionsEnd fuel offset =
    (serverNameRange hello extensionsEnd fuel offset).bind fun range =>
      (slice hello range.1 range.2).bind parseSni := by
  induction fuel generalizing offset with
  | zero => rfl
  | succ fuel ih =>
    unfold findSni serverNameRange
    split
    · dsimp only
      by_cases outside : hello.length < offset + 4 + (beU16 hello (offset + 2)).getD 0
      · -- The extension reaches past the hello.
        rw [if_pos outside]
        simp [slice, Nat.not_le.mpr outside]
      · rw [if_neg outside]
        have inside : slice hello (offset + 4) (offset + 4 + (beU16 hello (offset + 2)).getD 0) =
            some ((hello.take (offset + 4 + (beU16 hello (offset + 2)).getD 0)).drop
              (offset + 4)) := by
          rw [slice, if_pos ⟨by omega, by omega⟩]
        rw [inside]
        dsimp only
        split
        · simp [inside]
        · exact ih
    · rfl

theorem helloSni_eq : helloSni hello =
    (extensionBlock hello).bind fun block =>
      if block.2 ≤ hello.length then findSni hello block.2 hello.length block.1 else none := by
  unfold helloSni extensionBlock
  simp only [Option.bind_eq_bind, Option.bind_assoc]
  rfl

theorem serverNameRange_bounds
    (found : serverNameRange hello extensionsEnd fuel offset = some (start, stop)) :
    offset + 4 ≤ start ∧ start ≤ stop ∧ stop ≤ hello.length ∧ start ≤ extensionsEnd := by
  induction fuel generalizing offset with
  | zero => cases found
  | succ fuel ih =>
    simp only [serverNameRange] at found
    split at found
    · next inBlock =>
      split at found
      · cases found
      next inside =>
      split at found
      · cases found
        omega
      · have later := ih found
        omega
    · cases found

theorem serverNameRange_fuel (other : Nat) (enough : extensionsEnd ≤ offset + fuel)
    (also : extensionsEnd ≤ offset + other) :
    serverNameRange hello extensionsEnd fuel offset =
      serverNameRange hello extensionsEnd other offset := by
  induction fuel generalizing offset other with
  | zero =>
    -- The block is used up, so the walk stops at once.
    cases other with
    | zero => rfl
    | succ =>
      unfold serverNameRange
      rw [if_neg (by omega)]
  | succ fuel ih =>
    cases other with
    | zero =>
      unfold serverNameRange
      rw [if_neg (by omega)]
    | succ other =>
      have next : serverNameRange hello extensionsEnd fuel
          (offset + 4 + (beU16 hello (offset + 2)).getD 0) =
        serverNameRange hello extensionsEnd other
          (offset + 4 + (beU16 hello (offset + 2)).getD 0) := ih other (by omega) (by omega)
      simp only [serverNameRange, next]

theorem beU16_take {offset : Nat} (inside : offset + 2 ≤ count) :
    beU16 (bytes.take count) offset = beU16 bytes offset := by
  unfold beU16
  rw [List.drop_take]
  obtain ⟨more, same⟩ : ∃ more, count - offset = more + 2 := ⟨count - offset - 2, by omega⟩
  rw [same]
  cases bytes.drop offset with
  | nil => rfl
  | cons high rest =>
    cases rest with
    | nil | cons => rfl

theorem extensionBlock_take (count : Nat)
    (block : extensionBlock hello = some (first, last)) (inside : first ≤ count) :
    extensionBlock (hello.take count) = some (first, last) := by
  unfold extensionBlock at block ⊢
  simp only [Option.bind_eq_bind, Option.bind_eq_some_iff, Option.pure_def, Option.some.injEq,
    Prod.mk.injEq] at block ⊢
  obtain ⟨session, here, cipher, ciphers, compression, there, length, lengths, rfl, rfl⟩ := block
  refine ⟨session, ?_, cipher, ?_, compression, ?_, length, ?_, rfl, rfl⟩
  · rw [List.getElem?_take_of_lt (by omega), here]
  · rw [beU16_take (by omega), ciphers]
  · rw [List.getElem?_take_of_lt (by omega), there]
  · rw [beU16_take (by omega), lengths]

/-- In a hello that is cut at the end of its block, only names inside the block are found. -/
theorem serverNameRange_take (fits : extensionsEnd ≤ hello.length) :
    serverNameRange (hello.take extensionsEnd) extensionsEnd fuel offset = some (start, stop) ↔
      serverNameRange hello extensionsEnd fuel offset = some (start, stop) ∧
        stop ≤ extensionsEnd := by
  -- The induction is on the steps of the walk.
  induction fuel generalizing offset with
  | zero => simp [serverNameRange]
  | succ fuel ih =>
    simp only [serverNameRange, List.length_take, Nat.min_eq_left fits]
    by_cases inBlock : offset + 4 ≤ extensionsEnd
    · rw [if_pos inBlock, if_pos inBlock, beU16_take (by omega), beU16_take (by omega)]
      by_cases whole : extensionsEnd < offset + 4 + (beU16 hello (offset + 2)).getD 0
      · -- The extension reaches past the block, so the walk over the whole hello stops behind it.
        rw [if_pos whole]
        constructor
        · intro found
          cases found
        · rintro ⟨found, before⟩
          split at found
          · cases found
          split at found
          · cases found
            omega
          · have bounds := serverNameRange_bounds found
            omega
      · have inside : ¬ hello.length < offset + 4 + (beU16 hello (offset + 2)).getD 0 := by omega
        rw [if_neg whole, if_neg inside]
        split
        · constructor
          · intro found
            refine ⟨found, ?_⟩
            cases found
            omega
          · exact fun found => found.1
        · exact ih
    · rw [if_neg inBlock, if_neg inBlock]
      simp

theorem slice_take (inside : stop ≤ count) (fits : count ≤ hello.length) :
    slice (hello.take count) start stop = slice hello start stop := by
  unfold slice
  rw [List.take_take, Nat.min_eq_left inside, List.length_take, Nat.min_eq_left fits]
  congr 1
  simp only [inside, and_true, eq_iff_iff, iff_self_and]
  omega

theorem helloSni_range (reported : helloSni hello = some name) :
    ∃ first last start stop, extensionBlock hello = some (first, last) ∧ last ≤ hello.length ∧
      serverNameRange hello last hello.length first = some (start, stop) ∧
      (slice hello start stop).bind parseSni = some name := by
  rw [helloSni_eq] at reported
  obtain ⟨⟨first, last⟩, block, walked⟩ := Option.bind_eq_some_iff.mp reported
  split at walked
  · next fits =>
    rw [findSni_eq] at walked
    obtain ⟨⟨start, stop⟩, found, read⟩ := Option.bind_eq_some_iff.mp walked
    exact ⟨first, last, start, stop, block, fits, found, read⟩
  · cases walked

theorem range_inside_iff
    (block : extensionBlock hello = some (first, last)) (fits : last ≤ hello.length)
    (found : serverNameRange hello last hello.length first = some (start, stop))
    (read : (slice hello start stop).bind parseSni = some name) :
    stop ≤ last ↔ (helloSni (hello.take last)).isSome := by
  have cut : (hello.take last).length = last := by rw [List.length_take, Nat.min_eq_left fits]
  have bounds := serverNameRange_bounds found
  have same := extensionBlock_take last block (by omega)
  constructor
  · intro inside
    have again : serverNameRange (hello.take last) last last first = some (start, stop) := by
      rw [serverNameRange_fuel hello.length (by omega) (by omega)]
      exact (serverNameRange_take fits).mpr ⟨found, inside⟩
    rw [helloSni_eq, same, Option.bind_some, if_pos cut.ge, findSni_eq, cut, again,
      Option.bind_some, slice_take inside fits, read, Option.isSome_some]
  · intro reported
    obtain ⟨other, reported⟩ := Option.isSome_iff_exists.mp reported
    obtain ⟨begins, ends, start', stop', there, _, again, _⟩ := helloSni_range reported
    rw [same, Option.some.injEq, Prod.mk.injEq] at there
    obtain ⟨rfl, rfl⟩ := there
    rw [cut, serverNameRange_fuel hello.length (by omega) (by omega),
      serverNameRange_take fits, found] at again
    obtain ⟨range, inside⟩ := again
    cases range
    exact inside

end Location

theorem asciiLower_idem (text : String) : asciiLower (asciiLower text) = asciiLower text := by
  unfold asciiLower
  rw [String.toList_ofList, List.map_map]
  congr 2
  funext c
  exact Char.toLower_toLower_eq_toLower c

theorem parseSniNames_valid {fuel : Nat} (read : parseSniNames extension fuel offset = some name) :
    validDomain name = true ∧ asciiLower name = name := by
  induction fuel generalizing offset with
  | zero => cases read
  | succ fuel ih =>
    simp only [parseSniNames] at read
    split at read
    · simp only [Option.bind_eq_bind, Option.bind_eq_some_iff] at read
      obtain ⟨kind, _, length, _, entry, _, rest⟩ := read
      split at rest
      · -- The entry is a host name: it is put in lower case and then checked.
        obtain ⟨text, _, checked⟩ := Option.bind_eq_some_iff.mp rest
        split at checked
        · next valid =>
          cases checked
          exact ⟨valid, asciiLower_idem text⟩
        · cases checked
      · exact ih rest
    · cases read

theorem parseSni_valid
    (read : parseSni extension = some name) : validDomain name = true ∧ asciiLower name = name := by
  obtain ⟨length, _, rest⟩ := Option.bind_eq_some_iff.mp read
  split at rest
  · cases rest
  · exact parseSniNames_valid rest

theorem classifyTcp_hello {complete : Bool}
    (reported : classifyTcp bytes complete = .complete (.tls (some name))) :
    ∃ hello, clientHello bytes = some hello ∧ helloSni hello = some name := by
  have gaveUp : incomplete complete ≠ .complete (.tls (some name)) := by
    cases complete <;> simp [incomplete]
  unfold classifyTcp at reported
  split at reported
  · split at reported
    · cases reported
    · exact absurd reported gaveUp
  · split at reported
    · simp only [classifyTls] at reported
      split at reported
      · exact absurd reported gaveUp
      next recordLength hasLength =>
      split at reported
      · exact absurd reported gaveUp
      split at reported
      · cases reported
      split at reported
      · cases reported
      next handshakeLength hasHandshake =>
      split at reported
      · cases reported
      · rw [Classification.complete.injEq, Observed.tls.injEq] at reported
        exact ⟨_, by simp [clientHello, hasLength, hasHandshake], reported⟩
    · split at reported
      · -- A request reports a host, never a server name.
        simp only [classifyHttp] at reported
        repeat' split at reported
        all_goals first | exact absurd reported gaveUp | cases reported
      · split at reported <;> cases reported

/--
A reported server name is a valid domain in lower case, read from the extension that the walk found.
That extension ends inside the block exactly when the hello still has a name once all bytes behind
its block are cut off.
-/
theorem reportedSni_inside {complete : Bool}
    (reported : classifyTcp bytes complete = .complete (.tls (some name))) :
    validDomain name = true ∧ asciiLower name = name ∧
      ∃ hello first last start stop, clientHello bytes = some hello ∧
        extensionBlock hello = some (first, last) ∧
        serverNameRange hello last hello.length first = some (start, stop) ∧
        (slice hello start stop).bind parseSni = some name ∧
        (stop ≤ last ↔ (helloSni (hello.take last)).isSome) := by
  obtain ⟨hello, holds, found⟩ := classifyTcp_hello reported
  obtain ⟨first, last, start, stop, block, fits, range, read⟩ := helloSni_range found
  obtain ⟨extension, _, parsed⟩ := Option.bind_eq_some_iff.mp read
  obtain ⟨valid, lower⟩ := parseSni_valid parsed
  exact ⟨valid, lower, hello, first, last, start, stop, holds, block, range, read,
    range_inside_iff block fits range read⟩

/-- A client hello for the server `a.b` that declares a block of so many bytes. -/
def helloDeclaring (block : UInt8) : Bytes :=
  [0x16, 3, 1, 0, 59, 1, 0, 0, 55, 3, 3] ++ List.replicate 32 0 ++
    [0, 0, 2, 0x13, 1, 1, 0, 0, block, 0, 0, 0, 8, 0, 6, 0, 0, 3, 97, 46, 98]

/-- The extension of a block of twelve bytes is found inside it. -/
theorem reportedSni_inside_whole :
    classifyTcp (helloDeclaring 12) false = .complete (.tls (some "a.b")) ∧
      validDomain "a.b" = true ∧ asciiLower "a.b" = "a.b" ∧
      ∃ hello first last start stop, clientHello (helloDeclaring 12) = some hello ∧
        extensionBlock hello = some (first, last) ∧
        serverNameRange hello last hello.length first = some (start, stop) ∧
        (slice hello start stop).bind parseSni = some "a.b" ∧
        (stop ≤ last ↔ (helloSni (hello.take last)).isSome) :=
  have reported : classifyTcp (helloDeclaring 12) false = .complete (.tls (some "a.b")) := by
    decide +kernel
  ⟨reported, reportedSni_inside reported⟩

set_option maxRecDepth 100000 in
/-- A block of four bytes holds only the header of the extension whose name is reported. -/
theorem reportedSni_outside :
    classifyTcp (helloDeclaring 4) false = .complete (.tls (some "a.b")) ∧
      ∃ hello, clientHello (helloDeclaring 4) = some hello ∧
        extensionBlock hello = some (43, 47) ∧
        serverNameRange hello 47 hello.length 43 = some (47, 55) ∧
        (slice hello 47 55).bind parseSni = some "a.b" := by
  refine ⟨by decide +kernel, _, rfl, ?_⟩
  decide +kernel

end Snolc.Policy
