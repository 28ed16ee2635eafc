import Snolc.Lib.Utf8
import Snolc.Noise.Record

/-! Keys that are read from text. -/

namespace Snolc.Noise

open List

/-- The value of a hexadecimal digit. -/
def hexValue (c : Char) : Option Nat :=
  if '0' ≤ c ∧ c ≤ '9' then some (c.toNat - 48)
  else if 'a' ≤ c ∧ c ≤ 'f' then some (c.toNat - 97 + 10)
  else if 'A' ≤ c ∧ c ≤ 'F' then some (c.toNat - 65 + 10)
  else none

/-- A hexadecimal number that continues another one and fits a byte. -/
def hexNumber : Nat → List Char → Option Nat
  | value, [] => some value
  | value, c :: text =>
    match hexValue c with
    | none => none
    | some digit => if value * 16 + digit ≤ 255 then hexNumber (value * 16 + digit) text else none

/-- A byte in hexadecimal, with an optional plus sign. -/
def parseHex (text : List Char) : Option UInt8 :=
  let digits := if text.head? = some '+' then text.tail else text
  if digits.isEmpty then none else (hexNumber 0 digits).map UInt8.ofNat

/-- A text without its first bytes, unless they cut a character. -/
def dropBytes : Nat → List Char → Option (List Char)
  | 0, text => some text
  | _ + 1, [] => none
  | count + 1, c :: text =>
    if c.utf8Size ≤ count + 1 then dropBytes (count + 1 - c.utf8Size) text else none

/-- The first bytes of a text, unless they cut a character. -/
def takeBytes : Nat → List Char → Option (List Char)
  | 0, _ => some []
  | _ + 1, [] => none
  | count + 1, c :: text =>
    if c.utf8Size ≤ count + 1 then (takeBytes (count + 1 - c.utf8Size) text).map (c :: ·) else none

/-- The pair of bytes at an index of a text; to cut a character is a panic. -/
def pairAt (text : List Char) (index : Nat) : Option (List Char) :=
  (dropBytes (index * 2) text).bind (takeBytes 2)

/-- The bytes at some indices, or why there are none; nothing comes of a panic. -/
def keyBytes (text : List Char) : List Nat → Option (Except String Bytes)
  | [] => some (.ok [])
  | index :: indices =>
    match pairAt text index with
    | none => none
    | some pair =>
      match parseHex pair with
      | none => some (.error "key is not hexadecimal")
      | some byte => (keyBytes text indices).map (·.map (byte :: ·))

/-- A key of thirty-two bytes. -/
def decodeHex (input : String) : Option (Except String Bytes) :=
  if (toUtf8 input).length ≠ 64 then some (.error "key must contain 32 bytes")
  else keyBytes input.toList (List.range 32)

/-- The digit at a position. -/
def digitAt (text : List Char) (position : Nat) : Nat :=
  ((text[position]?).bind hexValue).getD 0

/-- The byte that a pair of digits spells. -/
def pairValue (text : List Char) (index : Nat) : UInt8 :=
  UInt8.ofNat (digitAt text (index * 2) * 16 + digitAt text (index * 2 + 1))

/-- Sixty-four hexadecimal digits and the bytes their pairs spell. -/
def SpellsKey (text : List Char) (key : Bytes) : Prop :=
  text.length = 64 ∧ (∀ c ∈ text, (hexValue c).isSome) ∧ key = (List.range 32).map (pairValue text)

/-- The decoding of a text neither panics nor reads anything else than the key it spells. -/
def ReadExactly (input : String) : Prop :=
  decodeHex input ≠ none ∧ ∀ key, decodeHex input = some (.ok key) ↔ SpellsKey input.toList key

/-- Two characters that the number parser takes for a byte: it lets a plus sign stand in front. -/
def takesPair (first second : Char) : Bool :=
  (first = '+' || (hexValue first).isSome) && (hexValue second).isSome

/-- The pairs at the front of a text that pass for bytes, and the text behind them. -/
def frontPairs : List Char → List (Char × Char) × List Char
  | first :: second :: text =>
    if takesPair first second then
      ((first, second) :: (frontPairs text).1, (frontPairs text).2)
    else ([], first :: second :: text)
  | text => ([], text)

/-- The first two bytes of a text end inside a character. -/
def cutsCharacter : List Char → Bool
  | [] => false
  | first :: text =>
    2 < first.utf8Size || first.utf8Size = 1 && text.head?.any (1 < ·.utf8Size)

/-- The byte that a pair passes for. -/
def pairByte (pair : Char × Char) : UInt8 :=
  UInt8.ofNat ((hexValue pair.1).getD 0 * 16 + (hexValue pair.2).getD 0)

/-- The number of bytes of a text. -/
def byteCount (text : List Char) : Nat :=
  (text.map Char.utf8Size).sum

/-- What comes of a text, by the pairs at its front. -/
def keyOutcome (text : List Char) : Option (Except String Bytes) :=
  match frontPairs text with
  | (pairs, []) => some (.ok (pairs.map pairByte))
  | (_, rest) => if cutsCharacter rest then none else some (.error "key is not hexadecimal")

theorem hexValue_bounds {c : Char} {value : Nat} (digit : hexValue c = some value) :
    value < 16 ∧ c.toNat < 128 := by
  have upper {d : Char} (below : c ≤ d) : c.toNat ≤ d.toNat := below
  unfold hexValue at digit
  repeat' split at digit
  all_goals cases digit
  all_goals
    next range =>
      have bound := upper range.2
      simp only [Char.reduceToNat] at bound
      omega

/-- A digit is a single byte. -/
theorem utf8Size_digit {c : Char} (digit : (hexValue c).isSome) : c.utf8Size = 1 := by
  obtain ⟨value, found⟩ := Option.isSome_iff_exists.mp digit
  have small := (hexValue_bounds found).2
  exact Char.utf8Size_eq_one_iff.mpr (UInt32.le_iff_toNat_le.mpr (Nat.le_of_lt_succ small))

theorem hexNumber_pair (first second : Char) :
    hexNumber 0 [first, second] = (hexValue first).bind fun high =>
      (hexValue second).map fun low => high * 16 + low := by
  cases high : hexValue first with
  | none => simp [hexNumber, high]
  | some value =>
    have small := (hexValue_bounds high).1
    cases low : hexValue second with
    | none => simp [hexNumber, high, low]
    | some digit =>
      have tiny := (hexValue_bounds low).1
      simp only [hexNumber, high, low, Nat.zero_mul, Nat.zero_add, Option.bind_some,
        Option.map_some]
      rw [if_pos (by omega), if_pos (by omega)]

/-- A pair is a byte exactly when it passes for one. -/
theorem parseHex_pair (first second : Char) : parseHex [first, second] =
    if takesPair first second then some (pairByte (first, second)) else none := by
  by_cases signed : first = '+'
  · subst signed
    have plain : hexValue '+' = none := by decide
    cases low : hexValue second with
    | none => simp [parseHex, hexNumber, takesPair, low]
    | some digit =>
      have tiny := (hexValue_bounds low).1
      have fits : digit ≤ 255 := by omega
      simp [parseHex, hexNumber, takesPair, pairByte, low, plain, fits]
  · have unsigned : some first ≠ some '+' := by simpa using signed
    simp only [parseHex, List.head?_cons, unsigned, if_false, isEmpty_cons,
      Bool.false_eq_true, hexNumber_pair, takesPair, signed, decide_false, Bool.false_or, pairByte]
    cases hexValue first <;> cases hexValue second <;> rfl

/-- No character of several bytes is a digit or a plus sign. -/
theorem parseHex_wide {c : Char} (wide : c.utf8Size ≠ 1) : parseHex [c] = none := by
  have other : hexValue c = none := by
    cases digit : hexValue c with
    | none => rfl
    | some value => exact absurd (utf8Size_digit (by simp [digit])) wide
  have unsigned : c ≠ '+' := by
    rintro rfl
    exact wide rfl
  simp [parseHex, hexNumber, other, unsigned]

/-- Bytes are dropped in one go or in two. -/
theorem dropBytes_add {count more : Nat} {text rest : List Char}
    (dropped : dropBytes count text = some rest) :
    dropBytes (count + more) text = dropBytes more rest := by
  fun_induction dropBytes count text with
  | case1 text =>
    cases dropped
    rw [Nat.zero_add]
  | case2 => cases dropped
  | case3 count c text fits ih =>
    rw [← ih dropped, show count + 1 + more = count + more + 1 by omega, dropBytes,
      if_pos (by omega),
      show count + more + 1 - c.utf8Size = count + 1 - c.utf8Size + more by omega]
  | case4 => cases dropped

/-- A text that starts with no pair is cut, or is refused. -/
theorem keyOutcome_stop {first : Char} {rest : List Char}
    (other : ∀ second ∈ rest.head?, takesPair first second = false) :
    keyOutcome (first :: rest) = if cutsCharacter (first :: rest) then none
      else some (.error "key is not hexadecimal") := by
  cases rest with
  | nil => rfl
  | cons second rest => simp [keyOutcome, frontPairs, other second rfl]

theorem keyOutcome_pair {first second : Char} {rest : List Char}
    (takes : takesPair first second = true) : keyOutcome (first :: second :: rest) =
      (keyOutcome rest).map (·.map (pairByte (first, second) :: ·)) := by
  rw [keyOutcome, frontPairs, if_pos takes, keyOutcome]
  obtain ⟨pairs, behind⟩ := frontPairs rest
  cases behind with
  | nil => rfl
  | cons c behind =>
    dsimp only
    split <;> rfl

/-- A character of several bytes stands in no pair. -/
theorem takesPair_wide {first second : Char} (takes : takesPair first second = true) :
    first.utf8Size = 1 ∧ second.utf8Size = 1 := by
  obtain ⟨front, digit⟩ := Bool.and_eq_true_iff.mp takes
  refine ⟨?_, utf8Size_digit digit⟩
  rcases Bool.or_eq_true_iff.mp front with signed | digit
  · rw [of_decide_eq_true signed]
    rfl
  · exact utf8Size_digit digit

/-- The rounds over a text of that many pairs of bytes find the pairs at its front. -/
theorem keyBytes_outcome {text rest : List Char} {start count : Nat}
    (dropped : dropBytes (start * 2) text = some rest) (size : byteCount rest = count * 2) :
    keyBytes text (List.range' start count) = keyOutcome rest := by
  -- One pair is sliced off in each round, so the induction is on how many are left.
  induction count generalizing start rest with
  | zero =>
    cases rest with
    | nil => rfl
    | cons c rest =>
      have := c.utf8Size_pos
      simp only [byteCount, map_cons, sum_cons] at size
      omega
  | succ count ih =>
    cases rest with
    | nil => simp [byteCount] at size
    | cons first rest =>
    simp only [byteCount, map_cons, sum_cons] at size
    have positive := first.utf8Size_pos
    rw [List.range'_succ, keyBytes, pairAt, dropped, Option.bind_some, takeBytes]
    by_cases single : first.utf8Size = 1
    · cases rest with
      | nil => simp only [map_nil, sum_nil] at size; omega
      | cons second rest =>
      have also_positive := second.utf8Size_pos
      simp only [map_cons, sum_cons] at size
      by_cases also_single : second.utf8Size = 1
      · have pair : takeBytes 1 (second :: rest) = some [second] := by
          simp [takeBytes, also_single]
        simp only [single, Nat.reduceAdd, Nat.reduceLeDiff, if_true, Nat.reduceSub, pair,
          Option.map_some, parseHex_pair]
        cases takes : takesPair first second with
        | false =>
          rw [keyOutcome_stop (by simp [takes])]
          simp [cutsCharacter, single, also_single]
        | true =>
          have next : dropBytes ((start + 1) * 2) text = some rest := by
            rw [Nat.add_mul, dropBytes_add dropped]
            simp [dropBytes, single, also_single]
          rw [keyOutcome_pair takes, ← ih next (by rw [byteCount]; omega)]
          rfl
      · -- The second character begins in this pair and ends behind it.
        have stop : takeBytes 1 (second :: rest) = none := by
          simp only [takeBytes, ite_eq_right_iff]
          omega
        rw [keyOutcome_stop (by simpa using fun takes => also_single (takesPair_wide takes).2)]
        simp [single, stop, cutsCharacter, show 1 < second.utf8Size by omega]
    · rw [keyOutcome_stop (by
        simpa using fun second _ takes => single (takesPair_wide takes).1)]
      by_cases double : first.utf8Size = 2
      · simp [double, takeBytes, parseHex_wide single, cutsCharacter]
      · have wide : 2 < first.utf8Size := by omega
        simp [cutsCharacter, wide, show ¬ first.utf8Size ≤ 2 by omega]

theorem byteCount_eq (text : String) : (toUtf8 text).length = byteCount text.toList := by
  rw [toUtf8_eq, length_flatMap, byteCount]
  simp only [String.length_utf8EncodeChar]

/-- A key is decoded from a text of sixty-four bytes, and comes of the pairs at its front. -/
theorem decodeHex_outcome (input : String) : decodeHex input =
    if byteCount input.toList = 64 then keyOutcome input.toList
    else some (.error "key must contain 32 bytes") := by
  rw [decodeHex, byteCount_eq, ite_not, range_eq_range']
  refine ite_congr rfl (fun size => keyBytes_outcome ?_ size) fun _ => rfl
  rw [Nat.zero_mul, dropBytes]

/-- The pairs at the front and what is behind them are the text, and no pair begins behind. -/
theorem frontPairs_spec (text : List Char) : ∃ pairs rest, frontPairs text = (pairs, rest) ∧
    text = pairs.flatMap (fun pair => [pair.1, pair.2]) ++ rest ∧
    (∀ pair ∈ pairs, takesPair pair.1 pair.2 = true) ∧
    ∀ first second behind, rest = first :: second :: behind → takesPair first second = false := by
  fun_induction frontPairs text with
  | case1 first second text takes ih =>
    obtain ⟨pairs, rest, found, rfl, taken, stop⟩ := ih
    exact ⟨_, _, rfl, by simp [found], by simpa [found, takes] using taken, by rwa [found]⟩
  | case2 first second text other =>
    refine ⟨_, _, rfl, rfl, by simp, ?_⟩
    rintro _ _ _ ⟨⟩
    simpa using other
  | case3 text short =>
    exact ⟨_, _, rfl, rfl, by simp, fun first second behind eq => (short _ _ _ eq).elim⟩

/-- The bytes of the pairs are found in the text by position. -/
theorem map_pairByte (pairs : List (Char × Char)) : pairs.map pairByte =
    (List.range pairs.length).map (pairValue (pairs.flatMap fun pair => [pair.1, pair.2])) := by
  induction pairs with
  | nil => rfl
  | cons pair pairs ih =>
    rw [length_cons, range_succ_eq_map, map_cons, map_cons, map_map, ih]
    refine congrArg _ (map_congr_left fun index _ => ?_)
    simp [pairValue, digitAt, Nat.succ_mul]

theorem byteCount_digits {text : List Char} (digits : ∀ c ∈ text, (hexValue c).isSome) :
    byteCount text = text.length := by
  rw [byteCount, map_congr_left fun c member => utf8Size_digit (digits c member)]
  simp

section Pairs

variable {pairs : List (Char × Char)} (taken : ∀ pair ∈ pairs, takesPair pair.1 pair.2 = true)
include taken

theorem byteCount_pairs :
    byteCount (pairs.flatMap fun pair => [pair.1, pair.2]) = pairs.length * 2 := by
  induction pairs with
  | nil => rfl
  | cons pair pairs ih =>
    obtain ⟨takes, others⟩ := forall_mem_cons.mp taken
    obtain ⟨first, second⟩ := takesPair_wide takes
    have rest := ih others
    simp only [byteCount, flatMap_cons, cons_append, nil_append, map_cons,
      sum_cons, length_cons] at rest ⊢
    omega

/-- Thirty-two pairs that pass for bytes spell those bytes unless a plus sign is among them. -/
theorem spellsKey_pairs (many : pairs.length = 32) (key : Bytes) :
    SpellsKey (pairs.flatMap fun pair => [pair.1, pair.2]) key ↔
      (∀ pair ∈ pairs, pair.1 ≠ '+') ∧ pairs.map pairByte = key := by
  rw [SpellsKey, map_pairByte, many]
  constructor
  · rintro ⟨_, digits, rfl⟩
    refine ⟨fun pair member signed => ?_, rfl⟩
    have digit := digits pair.1 (mem_flatMap.mpr ⟨pair, member, by simp⟩)
    rw [signed] at digit
    revert digit
    decide
  · rintro ⟨unsigned, rfl⟩
    refine ⟨by simp [many], fun c member => ?_, rfl⟩
    obtain ⟨pair, there, either⟩ := mem_flatMap.mp member
    have takes := taken pair there
    simp only [takesPair, unsigned pair there, decide_false, Bool.false_or,
      Bool.and_eq_true] at takes
    rcases mem_pair.mp either with rfl | rfl
    · exact takes.1
    · exact takes.2

end Pairs

/-- Thirty-two pairs. -/
def pairs (pair : String) : String :=
  String.join (List.replicate 32 pair)

end Snolc.Noise
