/-!
UTF-8: texts as byte sequences and back. Decoding either gives the characters or names the first
bytes that begin no character, with their position and what is wrong with them.
-/

namespace ImportRedirect.Text.Utf8

inductive Defect where
  | badStart
  | badContinuation
  | truncated
  deriving DecidableEq, Repr

/-- The bytes from `start` up to `stop` are no character; `first` is the byte at `start`. -/
structure DecodeError where
  start : Nat
  stop : Nat
  first : UInt8
  defect : Defect
  deriving DecidableEq, Repr

def Defect.message : Defect → String
  | .badStart => "invalid start byte"
  | .badContinuation => "invalid continuation byte"
  | .truncated => "unexpected end of data"

private def hexDigit (n : Nat) : Char := "0123456789abcdef".toList.getD n '0'

def hexByte (b : UInt8) : String :=
  String.ofList [hexDigit (b.toNat / 16), hexDigit (b.toNat % 16)]

def DecodeError.message (e : DecodeError) : String :=
  let place :=
    if e.stop = e.start + 1 then s!"byte 0x{hexByte e.first} in position {e.start}"
    else s!"bytes in position {e.start}-{e.stop - 1}"
  s!"'utf-8' codec can't decode {place}: {e.defect.message}"

def encodeChars (characters : List Char) : List UInt8 := characters.flatMap String.utf8EncodeChar

def encode (text : String) : List UInt8 := encodeChars text.toList

def isContinuation (b : UInt8) : Bool := 0x80 ≤ b && b ≤ 0xBF

/-- The second byte of a three-byte character: some lead bytes allow only part of the range, so that
no character has two forms and no surrogate has one. -/
def secondOfThree (lead b : UInt8) : Bool :=
  isContinuation b && !(if b < 0xA0 then lead == 0xE0 else lead == 0xED)

def secondOfFour (lead b : UInt8) : Bool :=
  isContinuation b && !(if b < 0x90 then lead == 0xF0 else lead == 0xF4)

/-- The character whose code point has the given groups of six bits below a leading group. -/
def assemble (lead : Nat) (tail : List UInt8) : Char :=
  Char.ofNat (tail.foldl (fun point b => point * 64 + b.toNat % 64) lead)

/-- Decodes the bytes from position `offset` on, with the characters before them held last first. -/
def decodeFrom (offset : Nat) (done : List Char) : List UInt8 → Except DecodeError (List Char)
  | [] => .ok done.reverse
  | b :: rest =>
    let fail (length : Nat) (defect : Defect) : Except DecodeError (List Char) :=
      .error ⟨offset, offset + length, b, defect⟩
    if b < 0x80 then decodeFrom (offset + 1) (Char.ofNat b.toNat :: done) rest
    else if b < 0xC2 then fail 1 .badStart
    else if b < 0xE0 then
      match rest with
      | [] => fail 1 .truncated
      | c :: rest =>
        if isContinuation c then decodeFrom (offset + 2) (assemble (b.toNat % 32) [c] :: done) rest
        else fail 1 .badContinuation
    else if b < 0xF0 then
      match rest with
      | [] => fail 1 .truncated
      | c :: rest =>
        if !secondOfThree b c then fail 1 .badContinuation
        else
          match rest with
          | [] => fail 2 .truncated
          | d :: rest =>
            if isContinuation d then
              decodeFrom (offset + 3) (assemble (b.toNat % 16) [c, d] :: done) rest
            else fail 2 .badContinuation
    else if b < 0xF5 then
      match rest with
      | [] => fail 1 .truncated
      | c :: rest =>
        if !secondOfFour b c then fail 1 .badContinuation
        else
          match rest with
          | [] => fail 2 .truncated
          | d :: rest =>
            if !isContinuation d then fail 2 .badContinuation
            else
              match rest with
              | [] => fail 3 .truncated
              | e :: rest =>
                if isContinuation e then
                  decodeFrom (offset + 4) (assemble (b.toNat % 8) [c, d, e] :: done) rest
                else fail 3 .badContinuation
    else fail 1 .badStart

def decode (bytes : List UInt8) : Except DecodeError String :=
  (decodeFrom 0 [] bytes).map String.ofList

end ImportRedirect.Text.Utf8
