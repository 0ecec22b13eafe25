import Gosrt.Proofs.HandshakeCodec

/-!
# `Gosrt.Proofs.ExtensionLocality`: what the decoding of an extension depends on

The loop of `CIFHandshake.Unmarshal` gives each extension the whole rest of the message. All but one
take no more than their own length of it. Key material is decoded as far as its own fixed fields
say, and this can be more than the length of the extension. Then its keys are completed from the
extension after it.

`Reaches` says where the loop comes to, and with which fields. An extension is `Local` if it is
decoded in the same way wherever the loop comes to it after the same fixed part. This is so exactly
if it is `SelfContained` (`decodedLocally_iff`).
-/

set_option autoImplicit false

namespace Gosrt

open Lib

/-- An extension: its type and its bytes. The header holds the number of words. -/
structure Extension where
  extensionType : CtrlSubType
  body : Bytes
  words : body.length % 4 = 0
  short : body.length < 4 * 2 ^ 16

namespace Extension

/-- The extension with its header. -/
def bytes (e : Extension) : Bytes := CIFHandshake.marshalExtension e.extensionType e.body

theorem bytes_ne_nil (e : Extension) (rest : Bytes) : e.bytes ++ rest ≠ [] :=
  List.cons_ne_nil _ _

/-- The header says where the extension ends. -/
theorem bytes_append_inj {e e' : Extension} {rest rest' : Bytes}
    (h : e.bytes ++ rest = e'.bytes ++ rest') : e = e' ∧ rest = rest' := by
  obtain ⟨extensionType, body, hwords, hshort⟩ := e
  obtain ⟨extensionType', body', hwords', hshort'⟩ := e'
  simp only [bytes, CIFHandshake.marshalExtension, List.append_assoc] at h
  obtain ⟨htype, h⟩ := List.append_inj h rfl
  obtain ⟨hlen, h⟩ := List.append_inj h rfl
  -- The header has the length in words. Whole words, and not too many: nothing is lost.
  have hcount := congrArg UInt16.toNat (be16_inj hlen)
  rw [UInt16.toNat_ofNat', UInt16.toNat_ofNat'] at hcount
  obtain ⟨rfl, rfl⟩ := List.append_inj h (by omega)
  obtain rfl := be16_inj htype
  exact ⟨rfl, rfl⟩

/-- Key material that has all the bytes that it says it has. -/
def SelfContained (e : Extension) : Prop :=
  e.extensionType = CtrlSubType.kmreq ∨ e.extensionType = CtrlSubType.kmrsp →
    CIFKeyMaterialExtension.announced e.body ≤ e.body.length

/-- The fields that an extension sets. -/
inductive Effect where
  | hs (srtHS : CIFHandshakeExtension)
  | km (srtKM : CIFKeyMaterialExtension) (encryptionField : UInt16)
  | sid (streamId : Bytes)
  | congestion (congestionCtl : Bytes)
  | skip

/-- Set the fields. -/
def Effect.apply : Effect → CIFHandshake → CIFHandshake
  | .hs srtHS, c => { c with hasHS := true, srtHS := some srtHS }
  | .km srtKM encryptionField, c =>
    { c with hasKM := true, srtKM := some srtKM, encryptionField := encryptionField }
  | .sid streamId, c => { c with hasSID := true, streamId := streamId }
  | .congestion congestionCtl, c =>
    { c with hasCongestionCtl := true, congestionCtl := congestionCtl }
  | .skip, c => c

end Extension

namespace CIFHandshake

/-- One round of the loop: an extension, and what comes after it. -/
def decode (s : CIFHandshake) (e : Extension) (rest : Bytes) : Go CIFHandshake :=
  s.unmarshalExtension e.extensionType e.body.length (e.body ++ rest)

/-- In `Unmarshal` of the data the loop comes to this rest of it, with these fields. -/
inductive Reaches (c : CIFHandshake) (data : Bytes) : CIFHandshake → Bytes → Prop where
  | start {h : CIFHandshake} (header : c.unmarshalHeader data = .ok h)
      (conclusion : h.handshakeType = HandshakeType.conclusion) (extended : h.extensionField ≠ 0)
      (more : 48 < data.length) (known : knownEncryptionField h.encryptionField = true) :
      Reaches c data h (data.drop 48)
  | next {s s' : CIFHandshake} {e : Extension} {rest : Bytes}
      (before : Reaches c data s (e.bytes ++ rest)) (accepted : s.decode e rest = .ok s')
      (more : rest ≠ []) : Reaches c data s' rest

end CIFHandshake

/-- Wherever the loop comes to the extension after this fixed part, it accepts it and sets the same
fields. -/
def Extension.Local (e : Extension) (fixed : Bytes) : Prop :=
  ∃ effect : Effect, ∀ (c : CIFHandshake) (pivot : Bytes) (s : CIFHandshake) (rest : Bytes),
    c.Reaches (fixed ++ pivot) s (e.bytes ++ rest) → s.decode e rest = .ok (effect.apply s)

namespace CIFHandshake

/-- Each extension of the message is local. The loop also comes to it with the same fields when
something else comes after it. -/
def DecodedLocally (c : CIFHandshake) (data : Bytes) : Prop :=
  ∀ (e : Extension) (s : CIFHandshake) (rest : Bytes), c.Reaches data s (e.bytes ++ rest) →
    e.Local (data.take 48) ∧
    ∃ front, data = front ++ (e.bytes ++ rest) ∧
      ∀ rest', c.Reaches (front ++ (e.bytes ++ rest')) s (e.bytes ++ rest')

/-! ### The loop -/

/-- The loop decodes the extension in front and goes on behind it. -/
theorem unmarshalExtensions_append (s : CIFHandshake) (e : Extension) (rest : Bytes) :
    s.unmarshalExtensions (e.bytes ++ rest) = s.decode e rest >>= (decodeRest · rest) := by
  have hwords := e.words
  have hshort := e.short
  have hlen : e.body.length = 4 * (e.body.length / 4) := by omega
  have hloop := decodeRest_append s e.extensionType e.body rest hlen (by omega)
  exact (if_neg (e.bytes_ne_nil rest)).symm.trans hloop

/-- The loop goes on from where it comes to. -/
theorem Reaches.unmarshal_eq {c s : CIFHandshake} {data pivot : Bytes}
    (h : c.Reaches data s pivot) : c.unmarshal data = s.unmarshalExtensions pivot := by
  induction h with
  | start header conclusion extended more known =>
    -- The checks between the fixed part and the loop, in the order of the source.
    unfold unmarshal
    rw [if_neg (by omega), header, ok_bind, if_neg (by rw [conclusion]; decide),
      if_neg (not_not.mpr conclusion), if_neg extended, if_neg (by omega),
      if_neg (by rw [known]; decide), sliceFrom_eq (by omega)]
    rfl
  | next before accepted more ih =>
    rw [ih, unmarshalExtensions_append, accepted, ok_bind]
    exact if_neg more

/-- In a message that is decoded, each extension is accepted. -/
theorem Reaches.accepted {c s result : CIFHandshake} {data rest : Bytes} {e : Extension}
    (hparsed : c.unmarshal data = .ok result) (h : c.Reaches data s (e.bytes ++ rest)) :
    ∃ s', s.decode e rest = .ok s' := by
  rw [h.unmarshal_eq, unmarshalExtensions_append] at hparsed
  obtain ⟨s', hs', -⟩ := bind_eq_ok_iff.mp hparsed
  exact ⟨s', hs'⟩

/-! ### The fixed part -/

/-- The fixed fields are those of the first 48 bytes. -/
theorem unmarshalHeader_take (c : CIFHandshake) {data : Bytes} (h : 48 ≤ data.length)
    (rest : Bytes) : c.unmarshalHeader (data.take 48 ++ rest) = c.unmarshalHeader data := by
  have hfixed : (data.take 48).length = 48 := List.length_take_of_le h
  have hread : ∀ tail, c.unmarshalHeader (data.take 48 ++ tail)
      = c.unmarshalHeader (data.take 48) := by
    intro tail
    -- The reads of the source, field by field. None of them goes past byte 48.
    unfold unmarshalHeader
    rw [uint32_append (by omega), uint16_append (by omega), uint16_append (by omega),
      uint32_append (by omega), uint32_append (by omega), uint32_append (by omega),
      uint32_append (by omega), uint32_append (by omega), uint32_append (by omega),
      slice_append (by omega)]
  rw [hread rest, ← hread (data.drop 48), List.take_append_drop]

/-- The encryption field that key material leaves. The default is AES-128. -/
def keyField (encryptionField : UInt16) : UInt16 :=
  if encryptionField = 0 then 2 else encryptionField

theorem keyField_encryptionFieldAfter (encryptionField : UInt16) (extensionType : CtrlSubType) :
    keyField (encryptionFieldAfter encryptionField extensionType) = keyField encryptionField := by
  unfold encryptionFieldAfter
  split
  · rename_i h
    rw [h.2]
    rfl
  · rfl

section
variable {c s : CIFHandshake} {data pivot : Bytes}

/-- The loop starts with the same fields, whatever it is that comes after the fixed part. -/
theorem Reaches.of_header (header : c.unmarshalHeader data = .ok s)
    (conclusion : s.handshakeType = HandshakeType.conclusion) (extended : s.extensionField ≠ 0)
    (more : 48 < data.length) (known : knownEncryptionField s.encryptionField = true)
    (pivot' : Bytes) (hpivot : pivot' ≠ []) : c.Reaches (data.take 48 ++ pivot') s pivot' := by
  have hfixed : (data.take 48).length = 48 := List.length_take_of_le (Nat.le_of_lt more)
  have hpos := List.length_pos_iff.mpr hpivot
  have hstart : c.Reaches (data.take 48 ++ pivot') s ((data.take 48 ++ pivot').drop 48) :=
    .start ((unmarshalHeader_take c (Nat.le_of_lt more) pivot').trans header) conclusion
      extended (by rw [List.length_append]; omega) known
  rwa [List.drop_left' hfixed] at hstart

theorem Reaches.length_lt (h : c.Reaches data s pivot) : 48 < data.length := by
  induction h with
  | start header conclusion extended more known => exact more
  | next before accepted more ih => exact ih

/-- Where the loop was, another loop can start. -/
theorem Reaches.restart (h : c.Reaches data s pivot) :
    ∃ start : CIFHandshake, knownEncryptionField start.encryptionField = true ∧
      ∀ pivot' ≠ [], c.Reaches (data.take 48 ++ pivot') start pivot' := by
  induction h with
  | @start start header conclusion extended more known =>
    exact ⟨start, known, Reaches.of_header header conclusion extended more known⟩
  | next before accepted more ih => exact ih

/-- No extension changes what key material makes of the encryption field. -/
theorem Reaches.keyField_eq (h : c.Reaches data s pivot) :
    knownEncryptionField s.encryptionField = true ∧
      ∃ field, uint16 data 4 = some field ∧ keyField s.encryptionField = keyField field := by
  induction h with
  | start header conclusion extended more known =>
    obtain ⟨start, hstart, hfield, -⟩ := unmarshalHeader_spec c data (Nat.le_of_lt more)
    rw [header] at hstart
    cases hstart
    exact ⟨known, _, hfield, rfl⟩
  | @next s s' e rest before accepted more ih =>
    obtain ⟨hknown, field, hfield, heq⟩ := ih
    have hlen : e.body.length ≤ (e.body ++ rest).length := by
      rw [List.length_append]
      omega
    have hout := unmarshalExtension_outcome s e.extensionType hlen hknown
    rw [show s.unmarshalExtension e.extensionType e.body.length (e.body ++ rest) = .ok s' from
      accepted] at hout
    cases hout with
    | accepted _ _ hafter =>
      -- Key material may have replaced 0 by the default.
      rw [hafter, keyField_encryptionFieldAfter]
      exact ⟨known_encryptionFieldAfter _ hknown, field, hfield, heq⟩

end

/-! ### One extension -/

/-- The handshake extension takes twelve bytes. -/
theorem unmarshal_hs_append {body : Bytes} (h : body.length = 12) :
    ∃ hs, ∀ rest, CIFHandshakeExtension.unmarshal (body ++ rest) = .ok hs := by
  obtain ⟨hs, hhs⟩ := CIFHandshakeExtension.unmarshal_ok body (by omega)
  refine ⟨hs, fun rest => ?_⟩
  rw [← hhs]
  unfold CIFHandshakeExtension.unmarshal
  rw [if_neg (by rw [List.length_append]; omega), if_neg (by omega), uint32_append (by omega),
    uint32_append (by omega), uint16_append (by omega), uint16_append (by omega)]

section
variable {s s' : CIFHandshake} {e : Extension} {rest : Bytes}

/-- A string extension takes its own length. -/
theorem unmarshalString_append {limit : Nat} {store : Bytes → CIFHandshake}
    (h : unmarshalString limit e.extensionType e.body.length (e.body ++ rest) store = .ok s') :
    ∃ text, ∀ (rest' : Bytes) (store' : Bytes → CIFHandshake),
      unmarshalString limit e.extensionType e.body.length (e.body ++ rest') store'
        = .ok (store' text) := by
  unfold unmarshalString at h
  obtain ⟨hlen, h⟩ := check_eq_ok_iff.mp h
  obtain ⟨swapped, hswapped, -⟩ := bind_eq_ok_iff.mp h
  rw [orPanic_eq_ok_iff, swapWords_append _ _ _ (by omega)] at hswapped
  refine ⟨trimZeros swapped, fun rest' store' => ?_⟩
  unfold unmarshalString
  rw [if_neg (by rw [List.length_append] at hlen ⊢; omega), swapWords_append _ _ _ (by omega),
    hswapped]
  rfl

/-- Key material that is self-contained takes its own bytes. -/
theorem unmarshalKM_append (hself : CIFKeyMaterialExtension.announced e.body ≤ e.body.length)
    (h : s.unmarshalKM e.extensionType e.body.length (e.body ++ rest) = .ok s') :
    ∃ km, ∀ (s₂ : CIFHandshake) (rest₂ : Bytes),
      keyField s₂.encryptionField = keyField s.encryptionField →
      s₂.unmarshalKM e.extensionType e.body.length (e.body ++ rest₂)
        = .ok ((Extension.Effect.km km (keyField s.encryptionField)).apply s₂) := by
  unfold unmarshalKM at h
  obtain ⟨-, h⟩ := check_eq_ok_iff.mp h
  obtain ⟨km, hkm, h⟩ := bind_eq_ok_iff.mp h
  obtain ⟨_, hcheck, -⟩ := bind_eq_ok_iff.mp h
  rw [wrap_eq_ok_iff] at hkm
  refine ⟨km, fun s₂ rest₂ hfield => ?_⟩
  -- The key length is checked against the field after the default, which is the same for both.
  unfold unmarshalKM
  rw [if_neg (by rw [List.length_append]; omega),
    CIFKeyMaterialExtension.unmarshal_append_of_announced hkm hself rest₂]
  show (checkKeyLength (keyField s₂.encryptionField) km.kLen >>= fun _ => .ok
    { s₂ with hasKM := true, srtKM := some km, encryptionField := keyField s₂.encryptionField }) = _
  rw [hfield, show checkKeyLength (keyField s.encryptionField) km.kLen = .ok () from hcheck]
  rfl

/-- A self-contained extension that is accepted has one effect. -/
theorem decode_effect (h : s.decode e rest = .ok s') (hself : e.SelfContained) :
    ∃ effect : Extension.Effect, ∀ (s₂ : CIFHandshake) (rest₂ : Bytes),
      keyField s₂.encryptionField = keyField s.encryptionField →
      s₂.decode e rest₂ = .ok (effect.apply s₂) := by
  unfold decode unmarshalExtension at h ⊢
  -- The cases of the source. Key material is the only one that reads a field set before.
  by_cases hHS : e.extensionType = CtrlSubType.hsreq ∨ e.extensionType = CtrlSubType.hsrsp
  · simp only [if_pos hHS] at h ⊢
    unfold unmarshalHS at h ⊢
    obtain ⟨hlen, -⟩ := check_eq_ok_iff.mp h
    obtain ⟨hs, hhs⟩ := unmarshal_hs_append (show e.body.length = 12 by omega)
    refine ⟨.hs hs, fun s₂ rest₂ _ => ?_⟩
    rw [if_neg (by rw [List.length_append] at hlen ⊢; omega), hhs rest₂]
    rfl
  simp only [if_neg hHS] at h ⊢
  by_cases hKM : e.extensionType = CtrlSubType.kmreq ∨ e.extensionType = CtrlSubType.kmrsp
  · simp only [if_pos hKM] at h ⊢
    obtain ⟨km, hkm⟩ := unmarshalKM_append (hself hKM) h
    exact ⟨_, hkm⟩
  simp only [if_neg hKM] at h ⊢
  by_cases hSID : e.extensionType = CtrlSubType.sid
  · simp only [if_pos hSID] at h ⊢
    obtain ⟨text, htext⟩ := unmarshalString_append h
    exact ⟨.sid text, fun s₂ rest₂ _ => htext rest₂ _⟩
  simp only [if_neg hSID] at h ⊢
  by_cases hCC : e.extensionType = CtrlSubType.congestion
  · simp only [if_pos hCC] at h ⊢
    obtain ⟨text, htext⟩ := unmarshalString_append h
    exact ⟨.congestion text, fun s₂ rest₂ _ => htext rest₂ _⟩
  · -- An extension of another type is stepped over.
    refine ⟨.skip, fun s₂ rest₂ _ => ?_⟩
    rw [if_neg hCC, if_neg (by rw [List.length_append]; omega)]
    rfl

/-- An extension that is accepted with nothing after it is self-contained. The error message of four
bytes is not accepted, as it has no key length. -/
theorem selfContained_of_decode (hknown : knownEncryptionField s.encryptionField = true)
    (h : s.decode e [] = .ok s') : e.SelfContained := by
  intro hKM
  have hHS : ¬(e.extensionType = CtrlSubType.hsreq ∨ e.extensionType = CtrlSubType.hsrsp) := by
    rcases hKM with h | h <;> rw [h] <;> decide
  have hout := unmarshalExtension_outcome s e.extensionType (Nat.le_refl e.body.length) hknown
  unfold decode at h
  rw [List.append_nil] at h
  rw [h] at hout
  cases hout with
  | accepted _ hacc _ =>
    unfold AcceptedExtension at hacc
    rw [if_neg hHS, if_pos hKM] at hacc
    obtain ⟨km, hkm, hkLen⟩ := hacc
    rcases CIFKeyMaterialExtension.unmarshal_ok_cases hkm with ⟨-, error, rfl⟩ | ⟨-, hstart, hsize⟩
    · -- The key length is that of a known encryption field.
      exfalso
      unfold encryptionFieldAfter at hkLen
      simp only [knownEncryptionField, Bool.or_eq_true, beq_iff_eq] at hknown
      rcases hknown with ((hf | hf) | hf) | hf <;> simp [hf, hKM] at hkLen
    · rw [hsize]
      exact hstart.length_le

end

/-! ### The message -/

/-- Where all extensions are self-contained, the loop comes to each place with the same fields,
whatever it is that comes after. -/
theorem Reaches.replace {c s : CIFHandshake} {data pivot : Bytes} (h : c.Reaches data s pivot)
    (hself : ∀ (e : Extension) (s : CIFHandshake) (rest : Bytes),
      c.Reaches data s (e.bytes ++ rest) → e.SelfContained) :
    ∃ front, data = front ++ pivot ∧
      ∀ pivot' ≠ [], c.Reaches (front ++ pivot') s pivot' := by
  induction h with
  | @start start header conclusion extended more known =>
    refine ⟨data.take 48, (List.take_append_drop 48 data).symm, ?_⟩
    exact Reaches.of_header header conclusion extended more known
  | @next s s' e rest before accepted more ih =>
    obtain ⟨front, hdata, hfront⟩ := ih
    refine ⟨front ++ e.bytes, by rw [hdata, List.append_assoc], fun rest' hrest' => ?_⟩
    -- The extension has the same effect before the other rest.
    obtain ⟨effect, heffect⟩ := decode_effect accepted (hself e s rest before)
    have hsame : s' = effect.apply s := Except.ok.inj (accepted.symm.trans (heffect s rest rfl))
    rw [List.append_assoc, hsame]
    exact (hfront _ (e.bytes_ne_nil rest')).next (heffect s rest' rfl) hrest'

/-- In a message that is decoded, each extension is decoded from the fixed part and its own bytes,
exactly if all key material has the bytes that it says it has. -/
theorem decodedLocally_iff (c : CIFHandshake) (data : Bytes) (result : CIFHandshake)
    (hparsed : c.unmarshal data = .ok result) :
    c.DecodedLocally data ↔
      ∀ (e : Extension) (s : CIFHandshake) (rest : Bytes),
        c.Reaches data s (e.bytes ++ rest) → e.SelfContained := by
  constructor
  · intro h e s rest hreach
    obtain ⟨⟨effect, heffect⟩, -⟩ := h e s rest hreach
    obtain ⟨start, hknown, hstart⟩ := hreach.restart
    -- The message with this extension alone.
    exact selfContained_of_decode hknown
      (heffect c (e.bytes ++ []) start [] (hstart _ (e.bytes_ne_nil [])))
  · intro hself e s rest hreach
    obtain ⟨s', hs'⟩ := hreach.accepted hparsed
    obtain ⟨effect, heffect⟩ := decode_effect hs' (hself e s rest hreach)
    refine ⟨⟨effect, fun c₂ pivot s₂ rest₂ hreach₂ => heffect s₂ rest₂ ?_⟩, ?_⟩
    · -- Both start with the encryption field of the fixed part.
      obtain ⟨-, field, hfield, heq⟩ := hreach.keyField_eq
      obtain ⟨-, field₂, hfield₂, heq₂⟩ := hreach₂.keyField_eq
      have hfixed : (data.take 48).length = 48 :=
        List.length_take_of_le (Nat.le_of_lt hreach.length_lt)
      rw [← List.take_append_drop 48 data, uint16_append (by omega)] at hfield
      rw [uint16_append (by omega), hfield] at hfield₂
      cases hfield₂
      rw [heq₂, heq]
    · obtain ⟨front, hdata, hfront⟩ := hreach.replace hself
      exact ⟨front, hdata, fun rest' => hfront _ (e.bytes_ne_nil rest')⟩

/-- A CONCLUSION up to the extensions, with the encryption field for AES-128. -/
def fixedPart : Bytes :=
  [0, 0, 0, 5, 0, 2, 0, 2] ++ List.replicate 12 0 ++ [0xFF, 0xFF, 0xFF, 0xFF] ++
    List.replicate 24 0

/-- Key material without a salt, for one key. It takes 40 bytes. -/
def keyMaterial : Bytes :=
  [0x12, 0x20, 0x29, 1, 0, 0, 0, 0, 2, 0, 2, 0, 0, 0, 0, 4] ++ List.replicate 24 7

/-- Of the key material only 36 bytes are in the extension. The last bytes of the wrapped key are
the header of the next extension, be it the stream id or another one. Without a next extension the
key material is rejected. -/
theorem cutKeyMaterial_decoded :
    let cut := fixedPart ++ [0, 3, 0, 9] ++ keyMaterial.take 36
    (unmarshal {} (cut ++ [0, 5, 0, 1, 65, 66, 67, 68])).toOption.map
        (fun c => c.srtKM.map fun km => km.wrap.drop 20) = some (some [0, 5, 0, 1]) ∧
    (unmarshal {} (cut ++ [0, 6, 0, 0])).toOption.map
        (fun c => c.srtKM.map fun km => km.wrap.drop 20) = some (some [0, 6, 0, 0]) ∧
    (unmarshal {} cut).toOption = none := by
  decide +kernel

/-- The whole key material as an extension. -/
def wholeExtension : Extension := ⟨CtrlSubType.kmreq, keyMaterial, by decide, by decide⟩

/-- Key material that is whole in its extension is decoded from the extension. -/
theorem decodedLocally_iff_whole :
    DecodedLocally {} (fixedPart ++ (wholeExtension.bytes ++ [])) := by
  have hsome : (unmarshal {}
      (fixedPart ++ (wholeExtension.bytes ++ []))).toOption.isSome = true := by
    decide +kernel
  obtain ⟨result, hresult⟩ := Option.isSome_iff_exists.mp hsome
  -- There is one extension, so the loop is at its start.
  have hplace : ∀ s pivot, Reaches {} (fixedPart ++ (wholeExtension.bytes ++ [])) s pivot →
      pivot = wholeExtension.bytes ++ [] := by
    intro s pivot h
    induction h with
    | start => rfl
    | next before accepted more ih =>
      exact absurd (Extension.bytes_append_inj ih).2 more
  refine (decodedLocally_iff {} _ result (eq_ok_of_toOption hresult)).mpr ?_
  intro e s rest hreach
  obtain ⟨rfl, -⟩ := Extension.bytes_append_inj (hplace s _ hreach)
  intro _
  decide +kernel

end CIFHandshake

end Gosrt
