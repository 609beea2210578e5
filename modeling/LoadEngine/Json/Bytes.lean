import LoadEngine.Json.Text

/-!
Byte strings as values: a text stands for its encoding, `hex` for the bytes of pairs of digits,
`repeat` for a byte string over and over again, and `concat` for byte strings one after the other.
-/

namespace LoadEngine.Json

def hexBytes : List Char → Option (List UInt8)
  | [] => some []
  | [_] => none
  | a :: b :: rest => do
    let high ← hexDigit? a
    let low ← hexDigit? b
    let bytes ← hexBytes rest
    some (UInt8.ofNat (16 * high + low) :: bytes)

mutual

def asBytes : Json → Option (List UInt8)
  | .str s => some s.toUTF8.toList
  | .obj [("hex", .str s)] => hexBytes s.toList
  | .obj [("repeat", .arr [part, .int n])] =>
    (asBytes part).map fun bytes => (List.replicate n.toNat bytes).flatten
  | .obj [("concat", .arr parts)] => asJoined parts
  | _ => none

def asJoined : List Json → Option (List UInt8)
  | [] => some []
  | part :: rest => do
    let bytes ← asBytes part
    let more ← asJoined rest
    some (bytes ++ more)

end

end LoadEngine.Json
