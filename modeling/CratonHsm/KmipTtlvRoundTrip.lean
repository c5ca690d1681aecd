import CratonHsm.KmipTtlv

/-!
# The TTLV round trip

The encoder only appends: an item adds the same bytes behind whatever was written before.
Of these bytes we show, by induction over the tree, that they fill whole 8-byte blocks and
that the decoder reads the item back from them with anything behind.
-/

namespace CratonHsm
open PrefixFreeCode List

/-! ## Lengths -/

theorem le_paddedLen (len : Nat) : len ≤ paddedLen len := by
  unfold paddedLen
  omega

@[simp] theorem ttlvHeader_length (tag : UInt32) (typ : TtlvType) (len : Nat) :
    (ttlvHeader tag typ len).length = 8 := by
  simp [ttlvHeader]

@[simp] theorem ttlvPadding_length (len : Nat) :
    (ttlvPadding len).length = paddedLen len - len := by
  simp [ttlvPadding]

/-! ## The budget -/

/-- The limits of `decode_ttlv`, as far as the recursion reads them. -/
def DecodeCx.Default (cx : DecodeCx) : Prop :=
  cx.limits.maxItems = maxTtlvItems ∧ cx.limits.maxBytes = usizeMax

variable {cx : DecodeCx} {tag : UInt32} {typ : TtlvType} {value : TtlvValue}
  {children : List TtlvItem}

/-- The default budget is never exceeded: the counter saturates at it. -/
theorem DecodeCx.Default.charge (h : cx.Default) (n : Nat) :
    ∃ cx' : DecodeCx, cx'.Default ∧ cx.charge n = .ok cx' := by
  refine ⟨{ cx with bytesConsumed := min (cx.bytesConsumed + n) usizeMax }, h, ?_⟩
  have hle : ¬ cx.limits.maxBytes < min (cx.bytesConsumed + n) usizeMax := by
    rw [h.2]
    exact Nat.not_lt.mpr (Nat.min_le_right _ _)
  simp only [DecodeCx.charge, hle, if_false]

/-! ## One header -/

/-- The decoder on an encoded header. -/
theorem decodeTtlvInner_header (htag : tag.toNat < 2 ^ 24) (typ : TtlvType) {len : Nat}
    (hlen : len ≤ maxTtlvValueSize) (depth : Nat) (body : Bytes) (hcx : cx.Default) :
    ∃ cx' : DecodeCx, cx'.Default ∧
      decodeTtlvInner (depth + 1) (ttlvHeader tag typ len ++ body) cx =
        decodeValue (decodeTtlvInner depth) tag typ len body cx' := by
  obtain ⟨cx', hcx', hcharge⟩ := hcx.charge 8
  refine ⟨cx', hcx', ?_⟩
  have htag' : ofBigEndian (bigEndian 3 tag.toNat) = tag.toNat :=
    ofBigEndian_bigEndian (Nat.lt_of_lt_of_eq htag (by decide))
  have hlen' : ofBigEndian (bigEndian 4 len) = len :=
    ofBigEndian_bigEndian (Nat.lt_of_le_of_lt hlen (by decide))
  -- the three fields of the header, byte by byte
  simp only [bigEndian] at htag' hlen'
  simp only [ttlvHeader, bigEndian, cons_append, nil_append, decodeTtlvInner, htag',
    hlen', TtlvType.fromU8_toU8, hcharge, UInt32.ofNat_toNat]
  rw [if_neg (Nat.not_lt.mpr hlen)]

/-! ## Values without children -/

/-- Bytes `code` of an item: whole blocks, from which the decoder reads the item. -/
structure Codes (code : Bytes) (item : TtlvItem) : Prop where
  dvd : 8 ∣ code.length
  pos : 0 < code.length
  decode : item.InLimits → ∀ depth, item.depth ≤ depth → ∀ rest cx, DecodeCx.Default cx →
    ∃ cx' : DecodeCx, cx'.Default ∧
      decodeTtlvInner depth (code ++ rest) cx = .ok ((item, code.length), cx')

theorem decodeScalar_ok (tag : UInt32) {body : Bytes} {padded : Nat} (hcx : cx.Default)
    (hbody : padded ≤ body.length) (value : TtlvValue) :
    ∃ cx' : DecodeCx, cx'.Default ∧
      decodeScalar tag body padded cx (.ok value) = .ok ((.mk tag value, 8 + padded), cx') := by
  obtain ⟨cx', hcx', hcharge⟩ := hcx.charge padded
  refine ⟨cx', hcx', ?_⟩
  simp only [decodeScalar, chargeBody, if_neg (Nat.not_lt.mpr hbody), hcharge]

/-- A value of `padded` bytes that the decoder's arm reads back. -/
theorem codes_scalar (padded : Nat) {len : Nat} {body : Bytes}
    (hlen : len ≤ maxTtlvValueSize) (hbody : body.length = padded) (hdvd : 8 ∣ padded)
    (hlimits : (TtlvItem.mk tag value).InLimits → tag.toNat < 2 ^ 24)
    (hdepth : (TtlvItem.mk tag value).depth = 1)
    (hread : ∀ decode rest cx, decodeValue decode tag typ len (body ++ rest) cx = decodeScalar tag
      (body ++ rest) padded cx (.ok value)) :
    Codes (ttlvHeader tag typ len ++ body) (.mk tag value) where
  dvd := by
    rw [length_append, ttlvHeader_length, hbody]
    exact Nat.dvd_add (Nat.dvd_refl 8) hdvd
  pos := by
    rw [length_append, ttlvHeader_length]
    omega
  decode hin depth hle rest cx hcx := by
    obtain ⟨d, rfl⟩ : ∃ d, depth = d + 1 := ⟨depth - 1, by omega⟩
    obtain ⟨cx₁, hcx₁, hheader⟩ :=
      decodeTtlvInner_header (hlimits hin) typ hlen d (body ++ rest) hcx
    obtain ⟨cx₂, hcx₂, hscalar⟩ := decodeScalar_ok tag hcx₁
      (show padded ≤ (body ++ rest).length by rw [length_append, hbody]; omega) value
    refine ⟨cx₂, hcx₂, ?_⟩
    rw [append_assoc, hheader, hread, hscalar, length_append, ttlvHeader_length, hbody]

theorem paddedLen_four : paddedLen 4 = 8 := by decide

/-- A number of `len` bytes, padded to eight. -/
theorem codes_number (len : Nat) {n : Nat} (hlen : len ≤ 8)
    (hn : n < 256 ^ len) (hlimits : (TtlvItem.mk tag value).InLimits → tag.toNat < 2 ^ 24)
    (hdepth : (TtlvItem.mk tag value).depth = 1)
    (hread : ∀ decode body cx, ofBigEndian (body.take len) = n → decodeValue decode tag typ len
      body cx = decodeScalar tag body 8 cx (.ok value)) :
    Codes (ttlvHeader tag typ len ++ (bigEndian len n ++ List.replicate (8 - len) 0))
      (.mk tag value) := by
  refine codes_scalar 8 (hlen.trans (by decide)) (by simp; omega) (by decide) hlimits hdepth
    fun decode rest cx => hread decode _ cx ?_
  rw [append_assoc, take_left' (bigEndian_length len _), ofBigEndian_bigEndian hn]

theorem codes_boolean (tag : UInt32) (v : Bool) :
    Codes (ttlvHeader tag .boolean 8 ++ (List.replicate 7 0 ++ [if v then 1 else 0]))
      (.mk tag (.boolean v)) :=
  codes_scalar 8 (by decide) (by simp) (by decide) id rfl fun decode rest cx => by
    cases v <;> simp [decodeValue]

/-- The three values of variable length; `value` is what the decoder makes of the bytes. -/
theorem codes_bytes {bytes : Bytes} (hlen : bytes.length ≤ maxTtlvValueSize)
    (hlimits : (TtlvItem.mk tag value).InLimits → tag.toNat < 2 ^ 24)
    (hdepth : (TtlvItem.mk tag value).depth = 1)
    (hread : ∀ decode body cx, body.take bytes.length = bytes → decodeValue decode tag typ
      bytes.length body cx = decodeScalar tag body (paddedLen bytes.length) cx (.ok value)) :
    Codes (ttlvHeader tag typ bytes.length ++ (bytes ++ ttlvPadding bytes.length))
      (.mk tag value) := by
  have hpad := le_paddedLen bytes.length
  refine codes_scalar (paddedLen bytes.length) hlen (by simp; omega) (Nat.dvd_mul_left 8 _)
    hlimits hdepth
    fun decode rest cx => hread decode _ cx ?_
  rw [append_assoc, take_left]

theorem decodeText_asBytes (s : String) : decodeText (asBytes s) = .ok (.textString s) := by
  have hback : (⟨(asBytes s).toArray⟩ : ByteArray) = s.toByteArray := by
    apply ByteArray.ext
    simp [asBytes]
  have hvalid : String.fromUTF8? s.toByteArray = some s := by
    simp only [String.fromUTF8?, s.isValidUTF8, dite_true]
    rfl
  rw [decodeText, hback, hvalid]

/-- What a successful `encodeBytes` wrote. -/
theorem encodeBytes_ok {bytes out out' : Bytes} (h : encodeBytes tag typ bytes out = .ok out') :
    bytes.length ≤ maxTtlvValueSize ∧
    out' = out ++ (ttlvHeader tag typ bytes.length ++ (bytes ++ ttlvPadding bytes.length)) := by
  unfold encodeBytes at h
  split at h
  · cases h
  rename_i hle
  cases h
  exact ⟨Nat.not_lt.mp hle, rfl⟩

/-! ## Structures -/

/-- Bytes of a list of children: the decoding loop reads all of them. -/
structure CodesChildren (code : Bytes) (children : List TtlvItem) : Prop where
  dvd : 8 ∣ code.length
  decode : ChildrenInLimits children → ∀ depth, childrenDepth children ≤ depth →
    ∀ fuel, code.length ≤ fuel → ∀ earlier, earlier.length + children.length ≤ maxTtlvItems →
    ∀ cx, DecodeCx.Default cx → ∃ cx' : DecodeCx, cx'.Default ∧
      decodeChildren (decodeTtlvInner depth) fuel code earlier cx = .ok (earlier ++ children, cx')

theorem codesChildren_nil : CodesChildren [] [] where
  dvd := Nat.dvd_zero 8
  decode _ _ _ fuel _ earlier _ cx hcx := by
    refine ⟨cx, hcx, ?_⟩
    cases fuel <;> simp [decodeChildren]

theorem codesChildren_cons {code codes : Bytes} {child : TtlvItem}
    (h : Codes code child) (hs : CodesChildren codes children) :
    CodesChildren (code ++ codes) (child :: children) where
  dvd := by
    rw [length_append]
    exact Nat.dvd_add h.dvd hs.dvd
  decode hin depth hdepth fuel hfuel earlier hitems cx hcx := by
    obtain ⟨hchild, hchildren⟩ := hin
    simp only [childrenDepth] at hdepth
    rw [length_append] at hfuel
    rw [length_cons] at hitems
    have hpos := h.pos
    obtain ⟨fuel, rfl⟩ : ∃ f, fuel = f + 1 := ⟨fuel - 1, by omega⟩
    obtain ⟨b, tail, htail⟩ : ∃ b tail, code ++ codes = b :: tail :=
      exists_cons_of_length_pos (by rw [length_append]; omega)
    obtain ⟨cx₁, hcx₁, hfirst⟩ := h.decode hchild depth (by omega) codes cx hcx
    obtain ⟨cx₂, hcx₂, hrest⟩ := hs.decode hchildren depth (by omega) fuel (by omega)
      (earlier ++ [child]) (by rw [length_append, length_singleton]; omega) cx₁ hcx₁
    refine ⟨cx₂, hcx₂, ?_⟩
    -- one turn of the loop
    rw [htail] at hfirst ⊢
    have hitem : ¬ cx.limits.maxItems ≤ earlier.length := by
      rw [hcx.1]
      omega
    simp only [decodeChildren, hitem, if_false, hfirst]
    rw [← htail, drop_left, hrest, append_assoc, singleton_append]

theorem codes_struct {code : Bytes}
    (hlen : code.length ≤ maxTtlvValueSize) (h : CodesChildren code children) :
    Codes (ttlvHeader tag .struct code.length ++ code) (.mk tag (.struct children)) where
  dvd := by
    rw [length_append, ttlvHeader_length]
    exact Nat.dvd_add (Nat.dvd_refl 8) h.dvd
  pos := by
    rw [length_append, ttlvHeader_length]
    omega
  decode hin depth hle rest cx hcx := by
    obtain ⟨htag, hitems, hchildren⟩ := hin
    simp only [TtlvItem.depth] at hle
    obtain ⟨d, rfl⟩ : ∃ d, depth = d + 1 := ⟨depth - 1, by omega⟩
    obtain ⟨cx₁, hcx₁, hheader⟩ := decodeTtlvInner_header htag .struct hlen d (code ++ rest) hcx
    obtain ⟨cx₂, hcx₂, hloop⟩ := h.decode hchildren d (by omega) code.length (Nat.le_refl _) []
      (by simpa using hitems) cx₁ hcx₁
    refine ⟨cx₂, hcx₂, ?_⟩
    have henough : ¬ (code ++ rest).length < code.length := by
      rw [length_append]
      omega
    rw [append_assoc, hheader]
    simp only [decodeValue, henough, if_false, take_left, hloop, nil_append]
    rw [length_append, ttlvHeader_length]

/-- The length goes into the placeholder and nowhere else. -/
theorem overwrite_header (out code : Bytes) (tag : UInt32) (len : Nat) :
    overwrite (out ++ ttlvHeader tag .struct 0 ++ code) (out.length + 4) (bigEndian 4 len) =
      out ++ (ttlvHeader tag .struct len ++ code) := by
  have hsplit : out ++ ttlvHeader tag .struct 0 ++ code =
      (out ++ (bigEndian 3 tag.toNat ++ [TtlvType.struct.toU8])) ++ bigEndian 4 0 ++ code := by
    simp only [ttlvHeader, append_assoc]
  have hpos : (out ++ (bigEndian 3 tag.toNat ++ [TtlvType.struct.toU8])).length =
      out.length + 4 := by
    simp
  rw [hsplit, ← hpos, overwrite_append _ _ _ _ (by simp)]
  simp only [ttlvHeader, append_assoc]

/-! ## The induction over the tree -/

mutual
/-- What `encode_ttlv_into` appends codes the item. -/
theorem encodeTtlvInto_codes : ∀ (item : TtlvItem) {out out' : Bytes},
    encodeTtlvInto item out = .ok out' → ∃ code, out' = out ++ code ∧ Codes code item
  | .mk tag (.struct children), out, out', h => by
    simp only [encodeTtlvInto] at h
    rcases hc : encodeChildren children (out ++ ttlvHeader tag .struct 0) with _ | filled
    · rw [hc] at h
      cases h
    obtain ⟨code, rfl, hcode⟩ := encodeChildren_codes children hc
    have hinner : (out ++ ttlvHeader tag .struct 0 ++ code).length -
        (out ++ ttlvHeader tag .struct 0).length = code.length := by
      rw [length_append, Nat.add_sub_cancel_left]
    rw [hc] at h
    simp only [hinner, overwrite_header] at h
    by_cases hlen : maxTtlvValueSize < code.length
    · rw [if_pos hlen] at h
      cases h
    · rw [if_neg hlen] at h
      cases h
      exact ⟨_, rfl, codes_struct (Nat.not_lt.mp hlen) hcode⟩
  | .mk tag (.integer v), out, out', h => by
    cases h
    exact ⟨_, rfl, codes_number 4 (by decide) v.toBitVec.isLt id rfl fun _ _ _ hread => by
      rw [decodeValue, paddedLen_four, hread]
      simp⟩
  | .mk tag (.longInteger v), out, out', h | .mk tag (.dateTime v), out, out', h => by
    cases h
    exact ⟨_, rfl, codes_number 8 (by decide) v.toBitVec.isLt id rfl fun _ _ _ hread => by
      rw [decodeValue, hread]
      simp⟩
  | .mk tag (.bigInteger bytes), out, out', h | .mk tag (.byteString bytes), out, out', h => by
    obtain ⟨hlen, rfl⟩ := encodeBytes_ok h
    exact ⟨_, rfl, codes_bytes hlen id rfl fun _ _ _ htake => by rw [decodeValue, htake]⟩
  | .mk tag (.enumeration v), out, out', h => by
    cases h
    exact ⟨_, rfl, codes_number 4 (by decide) v.toNat_lt id rfl fun _ _ _ hread => by
      rw [decodeValue, paddedLen_four, hread]
      simp⟩
  | .mk tag (.boolean v), out, out', h => by
    cases h
    exact ⟨_, rfl, codes_boolean tag v⟩
  | .mk tag (.textString s), out, out', h => by
    obtain ⟨hlen, rfl⟩ := encodeBytes_ok h
    exact ⟨_, rfl, codes_bytes hlen id rfl fun _ _ _ htake => by
      rw [decodeValue, htake, decodeText_asBytes]⟩

theorem encodeChildren_codes : ∀ (children : List TtlvItem) {out out' : Bytes},
    encodeChildren children out = .ok out' →
      ∃ code, out' = out ++ code ∧ CodesChildren code children
  | [], out, out', h => by
    cases h
    exact ⟨[], (append_nil _).symm, codesChildren_nil⟩
  | child :: children, out, out', h => by
    simp only [encodeChildren] at h
    cases hc : encodeTtlvInto child out with
    | error e =>
      rw [hc] at h
      cases h
    | ok mid =>
      rw [hc] at h
      obtain ⟨code, rfl, hcode⟩ := encodeTtlvInto_codes child hc
      obtain ⟨codes, rfl, hcodes⟩ := encodeChildren_codes children h
      exact ⟨code ++ codes, append_assoc _ _ _, codesChildren_cons hcode hcodes⟩
end

/-- **TTLV round trip**: an encoding fills whole blocks, and the decoder reads the item back
from it and reports its length, whatever follows. -/
theorem decodeTtlv_encodeTtlv {item : TtlvItem} {b : Bytes} (hlimits : item.InLimits)
    (hdepth : item.depth ≤ maxTtlvDepth) (h : encodeTtlv item = .ok b) :
    8 ∣ b.length ∧ ∀ rest, decodeTtlv (b ++ rest) = .ok (item, b.length) := by
  obtain ⟨code, rfl, hcode⟩ := encodeTtlvInto_codes item h
  refine ⟨hcode.dvd, fun rest => ?_⟩
  obtain ⟨cx, -, hdecode⟩ := hcode.decode hlimits maxTtlvDepth hdepth rest { limits := {} }
    ⟨rfl, rfl⟩
  have htop : ({} : TtlvLimits).maxDepth = maxTtlvDepth := rfl
  rw [decodeTtlv, decodeTtlvWithLimits, htop, hdecode]
  rfl

/-- A text inside two structures. -/
def nestedStructures : TtlvItem :=
  .mk 0x420078 (.struct [.mk 0x420008 (.struct [.mk 0x42000A (.textString "nested")])])

theorem decodeTtlv_encodeTtlv_nested :
    ∃ b, encodeTtlv nestedStructures = .ok b ∧ b.length = 32 ∧
      decodeTtlv (b ++ [1, 2, 3]) = .ok (nestedStructures, 32) := by
  refine ⟨_, rfl, by decide +kernel, ?_⟩
  have hlimits : nestedStructures.InLimits := by
    simp only [nestedStructures, TtlvItem.InLimits, ChildrenInLimits]
    decide
  exact (decodeTtlv_encodeTtlv hlimits (by decide) rfl).2 [1, 2, 3]

end CratonHsm
