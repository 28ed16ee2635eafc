/-! Text helpers over characters and bytes: splitting, decimal numbers and UTF-8. -/

namespace Snolc

/-- Split a text at the first occurrence of a separator. -/
def splitOnce (separator : Char) (text : String) : Option (String × String) :=
  match text.toList.span (· ≠ separator) with
  | (before, _ :: after) => some (String.ofList before, String.ofList after)
  | _ => none

/-- The value of a nonempty list of decimal digits. -/
def decimalValue (digits : List Char) : Option Nat :=
  if digits.isEmpty || !digits.all Char.isDigit then none
  else some (digits.foldl (fun value digit => value * 10 + (digit.toNat - '0'.toNat)) 0)

/-- An eight-bit decimal number, with an optional plus sign. -/
def parseU8 (text : String) : Option Nat :=
  let digits := match text.toList with
    | '+' :: rest => rest
    | all => all
  (decimalValue digits).filter (· ≤ 255)

/-- Whether every character is in the seven-bit range. -/
def isAscii (text : String) : Bool :=
  text.toList.all fun c => c.toNat < 128

/-- A letter in lower case, other characters unchanged. -/
def asciiLower (text : String) : String :=
  String.ofList (text.toList.map Char.toLower)

/-- Equality of texts up to the case of letters. -/
def eqIgnoreAsciiCase (a b : String) : Bool :=
  asciiLower a = asciiLower b

/-- One continuation byte of a multibyte character. -/
def continuation (byte : UInt8) : Option Nat :=
  if byte.toNat / 64 = 2 then some (byte.toNat % 64) else none

/-- Characters of a byte string in UTF-8, refusing overlong forms, surrogates and stray bytes. -/
def decodeUtf8 : List UInt8 → Option (List Char)
  | [] => some []
  | first :: rest =>
    let lead := first.toNat
    if lead < 0x80 then (decodeUtf8 rest).map (Char.ofNat lead :: ·)
    else
      match rest with
      | second :: rest2 =>
        match continuation second with
        | none => none
        | some b =>
          if lead / 32 = 6 then
            let code := lead % 32 * 64 + b
            if code < 0x80 then none
            else (decodeUtf8 rest2).map (Char.ofNat code :: ·)
          else
            match rest2 with
            | third :: rest3 =>
              match continuation third with
              | none => none
              | some c =>
                if lead / 16 = 14 then
                  let code := (lead % 16 * 64 + b) * 64 + c
                  if code < 0x800 ∨ 0xD800 ≤ code ∧ code ≤ 0xDFFF then none
                  else (decodeUtf8 rest3).map (Char.ofNat code :: ·)
                else
                  match rest3 with
                  | fourth :: rest4 =>
                    match continuation fourth with
                    | none => none
                    | some d =>
                      let code := ((lead % 8 * 64 + b) * 64 + c) * 64 + d
                      if lead / 8 ≠ 30 ∨ code < 0x10000 ∨ code > 0x10FFFF then none
                      else (decodeUtf8 rest4).map (Char.ofNat code :: ·)
                  | [] => none
            | [] => none
      | [] => none

/-- The text of a byte string, if it is UTF-8. -/
def fromUtf8 (bytes : List UInt8) : Option String :=
  (decodeUtf8 bytes).map String.ofList

/-- The UTF-8 bytes of a text. -/
def toUtf8 (text : String) : List UInt8 :=
  text.toByteArray.data.toList

end Snolc
