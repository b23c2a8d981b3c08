import PoolTreasury.Cell.Basic
import PoolTreasury.Encoding.Base64
import PoolTreasury.Encoding.Text

/-! # Internal addresses

An address is a workchain number and a 32-byte account hash. Its raw text is
`workchain:hex`. The user-friendly text is 48 base64 symbols of 36 bytes: a flag byte,
the workchain, the hash, and a CRC-16/XMODEM checksum of the first 34 bytes, high byte
first.
-/

namespace PoolTreasury

structure MsgAddress where
  workchain : Int8
  hash : List UInt8
deriving DecidableEq, Repr

/-- One byte's step of CRC-16/XMODEM: polynomial `0x1021`, no reflection. -/
def crc16Byte (crc : Nat) (b : UInt8) : Nat :=
  (List.range 8).foldl (fun c _ =>
    if c &&& 0x8000 ≠ 0 then ((c <<< 1) ^^^ 0x1021) % 65536 else (c <<< 1) % 65536)
    ((crc ^^^ (b.toNat <<< 8)) % 65536)

def crc16 (bytes : List UInt8) : Nat := bytes.foldl crc16Byte 0

/-- The checksum of a friendly address's first 34 bytes, high byte first. -/
def crcBytes (bytes : List UInt8) : List UInt8 :=
  let sum := crc16 bytes
  [(sum / 256).toUInt8, (sum % 256).toUInt8]

namespace MsgAddress

def render (a : MsgAddress) : String := toString a.workchain.toInt ++ ":" ++ hexOfBytes a.hash

/-- The bytes of friendly text, read with the URL-safe alphabet and then the standard one. -/
def friendlyBytes? (text : String) : Except CellError (List UInt8) :=
  let raw := text.toUTF8.toList
  match base64Decode .urlSafe raw with
  | .ok b => .ok b
  | .error _ => match base64Decode .standard raw with
    | .ok b => .ok b
    | .error _ => .error (.invalidAddress text)

/-- The friendly form: 36 bytes, the last two the checksum of the others. -/
def ofFriendly? (text : String) : Except CellError MsgAddress := do
  let bytes ← friendlyBytes? text
  if bytes.length ≠ 36 then throw (.invalidAddress text)
  if bytes.drop 34 ≠ crcBytes (bytes.take 34) then
    throw (.invalidAddress (text ++ " (bad checksum)"))
  pure { workchain := (bytes.getD 1 0).toInt8, hash := (bytes.drop 2).take 32 }

/-- Reads the raw form `workchain:hex` when the text has a colon, the friendly form otherwise. -/
def parse (s : String) : Except CellError MsgAddress :=
  let t := trimWhite s
  match t.toList.splitOn ':' with
  | [_] => ofFriendly? t
  | wc :: rest =>
    match parseInt8? (String.ofList wc), bytesOfHex? (String.intercalate ":" (rest.map String.ofList)) with
    | some w, some hash => if hash.length = 32 then .ok ⟨w, hash⟩ else .error (.invalidAddress t)
    | _, _ => .error (.invalidAddress t)
  | [] => ofFriendly? t

end MsgAddress

end PoolTreasury
