import BeaconApi.Text.Percent
import BeaconApi.Text.Split

namespace BeaconApi.Form

/-- The text that an encoded name or value stands for. -/
def decodeText (bytes : List UInt8) : String :=
  Utf8.decodeLossy (Percent.decode (bytes.map fun byte => if byte = 0x2b then 0x20 else byte))

/-- The name and value of one piece. -/
def decodePiece (piece : List UInt8) : String × String :=
  (decodeText (piece.takeWhile (· != 0x3d)), decodeText ((piece.dropWhile (· != 0x3d)).drop 1))

/-- The pairs of a query string, in order. -/
def decode (query : String) : List (String × String) :=
  ((Text.split 0x26 (Utf8.encode query)).filter (!·.isEmpty)).map decodePiece

end BeaconApi.Form
