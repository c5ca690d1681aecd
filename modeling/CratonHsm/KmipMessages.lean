import CratonHsm.KmipOperations
import CratonHsm.KmipTtlv

/-!
# KMIP batch items

How `server.rs` writes the batch item of a response: the status, the reason, the message, the
ids, the object type and the attributes, each under its tag.
-/

namespace CratonHsm
open PrefixFreeCode List

/-- The tags of a batch item; `attr` is the tag `Attribute`. -/
inductive KmipTag where
  | uniqueIdentifier | objectType | attr | attributeName | attributeValue | batchItem
  | resultStatus | resultReason | resultMessage
  deriving DecidableEq

/-- The number on the wire. -/
def KmipTag.toU32 : KmipTag → UInt32
  | uniqueIdentifier => 0x420094
  | objectType => 0x420057
  | attr => 0x420008
  | attributeName => 0x42000A
  | attributeValue => 0x42000B
  | batchItem => 0x42000D
  | resultStatus => 0x42007F
  | resultReason => 0x420080
  | resultMessage => 0x420081

/-- The number on the wire. -/
def KmipResultStatus.toU32 : KmipResultStatus → UInt32
  | success => 0
  | operationFailed => 1
  | operationPending => 2
  | operationUndone => 3

/-- The number on the wire. -/
def KmipResultReason.toU32 : KmipResultReason → UInt32
  | itemNotFound => 1
  | notAuthorized => 3
  | permissionDenied => 4
  | objectNotFound => 5
  | cryptographicFailure => 11
  | invalidMessage => 15
  | invalidField => 19
  | operationNotSupported => 20
  | generalFailure => 0x100

/-! ## Reading -/

namespace TtlvItem

/-- The tag of an item. -/
def tag : TtlvItem → UInt32
  | .mk t _ => t

/-- The item carries this tag. -/
def hasTag (item : TtlvItem) (t : KmipTag) : Bool := item.tag = t.toU32

end TtlvItem

/-! ## Writing -/

/-- The value of an attribute on the wire. -/
def KmipAttributeValue.toTtlv : KmipAttributeValue → TtlvValue
  | .text s => .textString s
  | .integer v => .integer v
  | .longInteger v => .longInteger v
  | .enum v => .enumeration v
  | .bytes b => .byteString b
  | .boolean v => .boolean v

/-- An attribute as an item. -/
def encodeAttribute (a : KmipAttribute) : TtlvItem :=
  .mk KmipTag.attr.toU32 (.struct [
    .mk KmipTag.attributeName.toU32 (.textString a.name),
    .mk KmipTag.attributeValue.toU32 a.value.toTtlv])

/-- The children of the batch item for a response; the key material is not written. -/
def batchChildren (r : KmipResponse) : List TtlvItem :=
  [.mk KmipTag.resultStatus.toU32 (.enumeration r.status.toU32)] ++
    (r.reason.map fun v => TtlvItem.mk KmipTag.resultReason.toU32 (.enumeration v.toU32)).toList ++
    (r.message.map fun m => TtlvItem.mk KmipTag.resultMessage.toU32 (.textString m)).toList ++
    (r.uniqueId.map fun u => TtlvItem.mk KmipTag.uniqueIdentifier.toU32 (.textString u)).toList ++
    (r.objectType.map fun t =>
      TtlvItem.mk KmipTag.objectType.toU32 (.enumeration t.toU32)).toList ++
    r.locatedIds.map (fun u => TtlvItem.mk KmipTag.uniqueIdentifier.toU32 (.textString u)) ++
    r.attributes.map encodeAttribute

/-- `encode_one_batch_item`. -/
def encodeOneBatchItem (r : KmipResponse) : TtlvItem :=
  .mk KmipTag.batchItem.toU32 (.struct (batchChildren r))

/-! ## What a response shows of its answer -/

/-- Two answers with one batch item are the same answer. -/
def ReadBack (r r' : KmipResponse) : Prop := encodeOneBatchItem r = encodeOneBatchItem r' → r = r'

theorem eq_of_items {α : Type} {f : α → TtlvItem} (hf : ∀ a b, f a = f b → a = b) {o o' : Option α}
    (h : o.toList.map f = o'.toList.map f) : o = o' := by
  cases o <;> cases o' <;> simp_all
  exact hf _ _ h

theorem encodeAttribute_injective : Function.Injective encodeAttribute := by
  rintro ⟨name, value⟩ ⟨name', value'⟩ h
  simp only [encodeAttribute, TtlvItem.mk.injEq, TtlvValue.struct.injEq, List.cons.injEq,
    TtlvValue.textString.injEq] at h
  obtain ⟨-, ⟨-, rfl⟩, ⟨-, hvalue⟩, -⟩ := h
  cases value <;> cases value' <;> cases hvalue <;> rfl

/-- A batch item shows all of an answer but the key material, which is not written, and whether
there is a `unique_id`, which shares its tag with the located ids. -/
theorem eq_of_encodeOneBatchItem {r r' : KmipResponse} (hkey : r.keyMaterial = r'.keyMaterial)
    (hid : r.uniqueId.isSome = r'.uniqueId.isSome)
    (h : encodeOneBatchItem r = encodeOneBatchItem r') : r = r' := by
  obtain ⟨-, hc⟩ := TtlvItem.mk.inj h
  -- the children under a tag are the same
  have htag (t : KmipTag) := congrArg (List.filter (·.hasTag t)) (TtlvValue.struct.inj hc)
  have hs := htag .resultStatus
  have hr := htag .resultReason
  have hm := htag .resultMessage
  have hu := htag .uniqueIdentifier
  have ho := htag .objectType
  have ha := htag .attr
  simp [batchChildren, Option.toList_map, filter_map, Function.comp_def, TtlvItem.hasTag,
    TtlvItem.tag, KmipTag.toU32, encodeAttribute, filter_true, filter_false]
    at hs hr hm hu ho ha
  have hstatus : r.status = r'.status := by
    revert hs
    cases r.status <;> cases r'.status <;> decide
  have hreason := eq_of_items (fun a b hab => by
    cases a <;> cases b <;> first | rfl | cases hab) hr
  have htype := eq_of_items (fun a b hab => by
    cases a <;> cases b <;> first | rfl | cases hab) ho
  have hmessage := eq_of_items (fun a b hab => by cases hab; rfl) hm
  have hattrs := map_injective_iff.mpr encodeAttribute_injective ha
  rw [← map_append, ← map_append] at hu
  have hids := append_inj (map_injective_iff.mpr (fun a b hab => by cases hab; rfl) hu)
    (by cases hr : r.uniqueId <;> cases hr' : r'.uniqueId <;> simp_all)
  have huid : r.uniqueId = r'.uniqueId := by simpa using congrArg List.head? hids.1
  cases r
  cases r'
  simp_all

/-- **A response shows its answer** exactly if the two items differ, or both answers have the same
key material and both have a `unique_id` or neither has one. -/
theorem readBack_iff (r r' : KmipResponse) :
    ReadBack r r' ↔ encodeOneBatchItem r ≠ encodeOneBatchItem r' ∨
      r.keyMaterial = r'.keyMaterial ∧ r.uniqueId.isSome = r'.uniqueId.isSome := by
  constructor
  · intro hread
    by_cases h : encodeOneBatchItem r = encodeOneBatchItem r'
    · rw [hread h]
      exact .inr ⟨rfl, rfl⟩
    · exact .inl h
  · rintro (hne | ⟨hkey, hid⟩) h
    · exact absurd h hne
    · exact eq_of_encodeOneBatchItem hkey hid h

/-- Two keys that `Get` answers look alike to the client. -/
theorem key_material_not_written :
    ¬ ReadBack { KmipResponse.success "k1" with keyMaterial := some [1] }
      { KmipResponse.success "k1" with keyMaterial := some [2] } := by
  intro h
  exact absurd (h rfl) (by decide)

end CratonHsm
