import RtcBase.ByteBuffer.ByteOrder

/-! Hexadecimal text, as `string_encode.cpp` writes and reads it. Text and data are lists of bytes, as
the source's `char` buffers are. A buffer is the memory behind its pointer, `none` for a null pointer,
and `buflen` what the caller says of its length. A function is `none` when it leaves that memory, and
otherwise has what it returns and the memory after it.
-/

namespace RtcBase.StringEncode

open Library ByteBuffer

/-- The code of an ASCII character. -/
def ascii (ch : Char) : Byte := BitVec.ofNat 8 ch.toNat

/-- `HEX`. -/
def hex : List Byte := "0123456789abcdef".toList.map ascii

/-- `hex_encode` of a value from 0 to 15. -/
def hexEncode (val : Byte) : Byte := if val < 16 then hex.getD val.toNat 0 else ascii '!'

/-- `hex_decode` of a character; `none` is a character that it refuses. A code from 128 on is refused
whether `char` has a sign or not.
-/
def hexDecode (ch : Byte) : Option Byte :=
  if ascii '0' ≤ ch ∧ ch ≤ ascii '9' then some (ch - ascii '0')
  else if ascii 'A' ≤ ch ∧ ch ≤ ascii 'Z' then some (ch - ascii 'A' + 10)
  else if ascii 'a' ≤ ch ∧ ch ≤ ascii 'z' then some (ch - ascii 'a' + 10)
  else none

-----------------------------------------------------------------------------------------
-- The encoder
-----------------------------------------------------------------------------------------

/-- The loop of `hex_encode_with_delimiter` from the source byte at hand on, and the terminator
behind it.
-/
def hexEncodeLoop (delimiter : Byte) (buffer : List Byte) (bufpos : Nat)
    : List Byte → Option (Nat × List Byte)
  | [] => do
      let buffer ← writeMemory buffer bufpos [0]
      return (bufpos, buffer)
  | ch :: rest => do
      let buffer ← writeMemory buffer bufpos [hexEncode ((ch >>> 4) &&& 0xF#8)]
      let buffer ← writeMemory buffer (bufpos + 1) [hexEncode (ch &&& 0xF#8)]
      -- no delimiter after the last byte
      if delimiter ≠ 0 ∧ rest ≠ [] then
        let buffer ← writeMemory buffer (bufpos + 2) [delimiter]
        hexEncodeLoop delimiter buffer (bufpos + 3) rest
      else hexEncodeLoop delimiter buffer (bufpos + 2) rest

/-- The space that the encoder asks for, for sources of less than `2 ^ 64 / 3` bytes, whose triple is a
`size_t`.
-/
def encodeNeeded (srclen : Nat) (delimiter : Byte) : Nat :=
  if delimiter ≠ 0 then srclen * 3 else srclen * 2 + 1

/-- `hex_encode_with_delimiter` into a buffer. -/
def hexEncodeWithDelimiter (buffer : Option (List Byte)) (buflen : Nat) (source : List Byte)
    (delimiter : Byte)
    : Option (Nat × List Byte) :=
  match buffer with
  | none => some (0, [])
  | some buffer =>
      if buflen = 0 then some (0, buffer)
      else if buflen < encodeNeeded source.length delimiter then some (0, buffer)
      else hexEncodeLoop delimiter buffer 0 source

/-- `hex_encode_with_delimiter` to a `std::string`, through an array on the stack. -/
def hexEncodeText (host : Host) (source : List Byte) (delimiter : Byte) : Option (List Byte) := do
  let kBufferSize := source.length * 3
  let (length, buffer) ←
    hexEncodeWithDelimiter (some (host.newChars kBufferSize)) kBufferSize source delimiter
  if source.length ≠ 0 ∧ length = 0 then return []
  else readMemory buffer 0 length

-----------------------------------------------------------------------------------------
-- The decoder
-----------------------------------------------------------------------------------------

/-- The loop of `hex_decode_with_delimiter` from the source character at hand on. A delimiter is
looked for where at least two characters follow the pair.
-/
def hexDecodeLoop (delimiter : Byte) (buffer : List Byte) (bufpos : Nat)
    : List Byte → Option (Nat × List Byte)
  | [] => some (bufpos, buffer)
  | [_] => some (0, buffer)
  | c1 :: c2 :: rest =>
      match hexDecode c1, hexDecode c2 with
      | some h1, some h2 =>
          (writeMemory buffer bufpos [(h1 <<< 4) ||| h2]).bind fun buffer =>
            if delimiter ≠ 0 then
              match rest with
              | ch :: next :: rest =>
                  if ch ≠ delimiter then some (0, buffer)
                  else hexDecodeLoop delimiter buffer (bufpos + 1) (next :: rest)
              | [ch] => hexDecodeLoop delimiter buffer (bufpos + 1) [ch]
              | [] => hexDecodeLoop delimiter buffer (bufpos + 1) []
            else hexDecodeLoop delimiter buffer (bufpos + 1) rest
      | _, _ => some (0, buffer)

/-- The space that the decoder asks for. -/
def decodeNeeded (srclen : Nat) (delimiter : Byte) : Nat :=
  if delimiter ≠ 0 then (srclen + 1) / 3 else srclen / 2

/-- `hex_decode_with_delimiter` into a buffer. -/
def hexDecodeWithDelimiter (cbuffer : Option (List Byte)) (buflen : Nat) (source : List Byte)
    (delimiter : Byte)
    : Option (Nat × List Byte) :=
  match cbuffer with
  | none => some (0, [])
  | some bbuffer =>
      if buflen = 0 then some (0, bbuffer)
      else if buflen < decodeNeeded source.length delimiter then some (0, bbuffer)
      else hexDecodeLoop delimiter bbuffer 0 source

end RtcBase.StringEncode
