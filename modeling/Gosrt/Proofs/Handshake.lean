import Gosrt.Spec.Handshake

/-!
# `Gosrt.Proofs.Handshake`: when decoding a handshake panics

Every read of `CIFHandshake.Unmarshal` is guarded by a length check but one: the loop over
the extensions reads a header of four bytes without looking how many are left. The loop goes
on as long as any byte is left, so it panics when one to three bytes follow an extension
that it has accepted, or the fixed fields.

`StrayBytes` says this about the bytes alone: whole extensions that are accepted, and after
them one to three bytes. `unmarshalExtensions_panic_iff` is the loop, by induction on the
number of bytes left, and `unmarshal_noPanic_iff` the whole function.
-/

set_option autoImplicit false

namespace Gosrt

open Lib

/-- A read of one byte inside the slice is safe. -/
theorem noPanic_getElem? {data : Bytes} {i : Nat} (h : i < data.length) :
    NoPanic (orPanic data[i]?) :=
  noPanic_orPanic (by simp [h])

namespace CIFKeyMaterialExtension

theorem unmarshalWrap_noPanic (c : CIFKeyMaterialExtension) (data : Bytes) {offset : Nat}
    (h : offset ≤ data.length) : NoPanic (c.unmarshalWrap data offset) := by
  unfold unmarshalWrap
  rw [sliceFrom_eq h]
  exact noPanic_check fun _ => noPanic_pure _

theorem unmarshalKeys_noPanic (c : CIFKeyMaterialExtension) (data : Bytes)
    (h : 16 ≤ data.length) : NoPanic (c.unmarshalKeys data) := by
  unfold unmarshalKeys
  refine noPanic_ite (fun _ => ?_) fun _ => ?_
  · refine noPanic_check fun _ => ?_
    rw [sliceFrom_eq h]
    refine noPanic_check fun hsalt => unmarshalWrap_noPanic _ data ?_
    rw [List.length_drop] at hsalt
    omega
  · exact unmarshalWrap_noPanic c data h

/-- Decoding key material never panics. -/
theorem unmarshal_noPanic (c : CIFKeyMaterialExtension) (data : Bytes) :
    NoPanic (c.unmarshal data) := by
  unfold unmarshal
  refine noPanic_ite (fun h4 => ?_) fun _ => ?_
  · refine noPanic_bind (noPanic_orPanic (uint32LE_isSome _ _ (by omega))) fun error _ => ?_
    exact noPanic_check fun _ => noPanic_pure _
  refine noPanic_check fun hlen => ?_
  refine noPanic_bind (noPanic_getElem? (by omega)) fun b0 _ => ?_
  refine noPanic_check fun _ => noPanic_check fun _ => noPanic_check fun _ => ?_
  refine noPanic_bind (noPanic_orPanic (uint16_isSome _ _ (by omega))) fun sign _ => ?_
  refine noPanic_check fun _ => ?_
  refine noPanic_bind (noPanic_getElem? (by omega)) fun b3 _ => ?_
  refine noPanic_check fun _ => ?_
  refine noPanic_bind (noPanic_orPanic (uint32_isSome _ _ (by omega))) fun keki _ => ?_
  refine noPanic_check fun _ => ?_
  refine noPanic_bind (noPanic_getElem? (by omega)) fun cipher _ => ?_
  refine noPanic_bind (noPanic_getElem? (by omega)) fun authentication _ => ?_
  refine noPanic_bind (noPanic_getElem? (by omega)) fun streamEncapsulation _ => ?_
  refine noPanic_check fun _ => ?_
  refine noPanic_bind (noPanic_getElem? (by omega)) fun resv2 _ => ?_
  refine noPanic_bind (noPanic_orPanic (uint16_isSome _ _ (by omega))) fun resv3 _ => ?_
  refine noPanic_bind (noPanic_getElem? (by omega)) fun b14 _ => ?_
  refine noPanic_bind (noPanic_getElem? (by omega)) fun b15 _ => ?_
  exact noPanic_check fun _ => unmarshalKeys_noPanic _ data (by omega)

end CIFKeyMaterialExtension

/-- Decoding the handshake extension never panics, and succeeds on twelve bytes. -/
theorem CIFHandshakeExtension.unmarshal_ok (data : Bytes) (h : 12 ≤ data.length) :
    ∃ hs, CIFHandshakeExtension.unmarshal data = .ok hs := by
  obtain ⟨version, hversion⟩ := Option.isSome_iff_exists.mp
    (uint32_isSome data 0 (by omega))
  obtain ⟨flags, hflags⟩ := Option.isSome_iff_exists.mp
    (uint32_isSome data 4 (by omega))
  obtain ⟨recv, hrecv⟩ := Option.isSome_iff_exists.mp
    (uint16_isSome data 8 (by omega))
  obtain ⟨send, hsend⟩ := Option.isSome_iff_exists.mp
    (uint16_isSome data 10 (by omega))
  unfold CIFHandshakeExtension.unmarshal
  rw [if_neg (by omega), hversion, hflags, hrecv, hsend]
  exact ⟨_, rfl⟩

namespace CIFHandshake

variable {c c' : CIFHandshake} {extensionType : CtrlSubType} {extensionLength : Nat} {rest : Bytes}

/-! ### One extension -/

/-- The encryption field after an extension: key material sets the default. -/
def encryptionFieldAfter (encryptionField : UInt16) (extensionType : CtrlSubType) : UInt16 :=
  if (extensionType = CtrlSubType.kmreq ∨ extensionType = CtrlSubType.kmrsp) ∧
    encryptionField = 0 then 2 else encryptionField

/-- The extension is one that the loop accepts, given that its bytes are there: the
handshake extension has its length, the key material decodes and its key length belongs to
the encryption field, a string is short enough. Everything else is skipped. -/
def AcceptedExtension (encryptionField : UInt16) (extensionType : CtrlSubType)
    (extensionLength : Nat) (rest : Bytes) : Prop :=
  if extensionType = CtrlSubType.hsreq ∨ extensionType = CtrlSubType.hsrsp then
    extensionLength = 12
  else if extensionType = CtrlSubType.kmreq ∨ extensionType = CtrlSubType.kmrsp then
    ∃ km, CIFKeyMaterialExtension.unmarshal {} rest = .ok km ∧
      km.kLen = 8 * encryptionFieldAfter encryptionField extensionType
  else if extensionType = CtrlSubType.sid then extensionLength ≤ 512
  else if extensionType = CtrlSubType.congestion then extensionLength ≤ 4
  else True

/-- What one round of the loop does on an extension whose bytes are there. -/
inductive ExtensionOutcome (c : CIFHandshake) (extensionType : CtrlSubType)
    (extensionLength : Nat) (rest : Bytes) : Go CIFHandshake → Prop where
  | accepted (c' : CIFHandshake)
      (hacc : AcceptedExtension c.encryptionField extensionType extensionLength rest)
      (hfield : c'.encryptionField = encryptionFieldAfter c.encryptionField extensionType) :
      ExtensionOutcome c extensionType extensionLength rest (.ok c')
  | refused (message : String)
      (hacc : ¬AcceptedExtension c.encryptionField extensionType extensionLength rest) :
      ExtensionOutcome c extensionType extensionLength rest (.error (.error message))

/-- None of the outcomes is a panic. -/
theorem ExtensionOutcome.noPanic {result : Go CIFHandshake}
    (h : ExtensionOutcome c extensionType extensionLength rest result) : NoPanic result := by
  cases h with
  | accepted c' _ _ => exact noPanic_ok c'
  | refused message _ => exact noPanic_err message

/-- A known encryption field stays known. -/
theorem known_encryptionFieldAfter {encryptionField : UInt16} (extensionType : CtrlSubType)
    (h : knownEncryptionField encryptionField = true) :
    knownEncryptionField (encryptionFieldAfter encryptionField extensionType) = true := by
  unfold encryptionFieldAfter
  split
  · rfl
  · exact h

/-- The key length check passes exactly on the length that belongs to the field. -/
theorem checkKeyLength_cases {field : UInt16} (kLen : UInt16)
    (h : field = 2 ∨ field = 3 ∨ field = 4) :
    (kLen = 8 * field ∧ checkKeyLength field kLen = .ok ()) ∨
    (kLen ≠ 8 * field ∧ ∃ message, checkKeyLength field kLen = .error (.error message)) := by
  unfold checkKeyLength
  dsimp only
  rcases h with rfl | rfl | rfl
  · by_cases hk : kLen = 16
    · exact Or.inl ⟨hk, by simp [hk]⟩
    · rw [if_pos ⟨rfl, hk⟩]
      exact Or.inr ⟨hk, _, rfl⟩
  · by_cases hk : kLen = 24
    · exact Or.inl ⟨hk, by simp [hk]⟩
    · rw [if_neg (fun h => absurd h.1 (by decide)), if_pos ⟨rfl, hk⟩]
      exact Or.inr ⟨hk, _, rfl⟩
  · by_cases hk : kLen = 32
    · exact Or.inl ⟨hk, by simp [hk]⟩
    · rw [if_neg (fun h => absurd h.1 (by decide)), if_neg (fun h => absurd h.1 (by decide)),
        if_pos ⟨rfl, hk⟩]
      exact Or.inr ⟨hk, _, rfl⟩

/-- Key material is accepted where it decodes and its key length belongs to the encryption
field. -/
theorem unmarshalKM_outcome (c : CIFHandshake) (hlen : extensionLength ≤ rest.length)
    (hknown : knownEncryptionField c.encryptionField = true)
    (hHS : ¬(extensionType = CtrlSubType.hsreq ∨ extensionType = CtrlSubType.hsrsp))
    (hKM : extensionType = CtrlSubType.kmreq ∨ extensionType = CtrlSubType.kmrsp) :
    ExtensionOutcome c extensionType extensionLength rest
      (c.unmarshalKM extensionType extensionLength rest) := by
  have hafter : encryptionFieldAfter c.encryptionField extensionType
      = if c.encryptionField = 0 then 2 else c.encryptionField := by
    unfold encryptionFieldAfter
    simp only [hKM, true_and]
  have hacc : AcceptedExtension c.encryptionField extensionType extensionLength rest ↔
      ∃ km, CIFKeyMaterialExtension.unmarshal {} rest = .ok km ∧
        km.kLen = 8 * encryptionFieldAfter c.encryptionField extensionType := by
    unfold AcceptedExtension
    rw [if_neg hHS, if_pos hKM]
  -- An encryption field of zero is read as AES-128 here, so a known one is never zero below.
  have hfield : encryptionFieldAfter c.encryptionField extensionType = 2 ∨
      encryptionFieldAfter c.encryptionField extensionType = 3 ∨
      encryptionFieldAfter c.encryptionField extensionType = 4 := by
    rw [hafter]
    simp only [knownEncryptionField, Bool.or_eq_true, beq_iff_eq] at hknown
    rcases hknown with ((h | h) | h) | h <;> simp [h]
  unfold unmarshalKM
  rw [if_neg (by omega), ← hafter]
  cases hkm : CIFKeyMaterialExtension.unmarshal {} rest with
  | error e =>
    cases e with
    | panic => exact absurd hkm (CIFKeyMaterialExtension.unmarshal_noPanic {} rest)
    | error message =>
      refine .refused _ fun h => ?_
      obtain ⟨km, hok, -⟩ := hacc.mp h
      rw [hkm] at hok
      cases hok
  | ok km =>
    -- The extension decodes, so only the key length check is left.
    show ExtensionOutcome c extensionType extensionLength rest
      (checkKeyLength (encryptionFieldAfter c.encryptionField extensionType) km.kLen >>= fun _ =>
        .ok { c with
          hasKM := true
          srtKM := some km
          encryptionField := encryptionFieldAfter c.encryptionField extensionType })
    rcases checkKeyLength_cases km.kLen hfield with ⟨hk, hres⟩ | ⟨hk, message, hres⟩
    · rw [hres]
      exact .accepted _ (hacc.mpr ⟨km, hkm, hk⟩) rfl
    · rw [hres]
      refine .refused message fun h => ?_
      obtain ⟨km', hok, hk'⟩ := hacc.mp h
      rw [hkm] at hok
      cases hok
      exact hk hk'

/-- The handshake extension is accepted where its length is right. -/
theorem unmarshalHS_outcome (c : CIFHandshake) (hlen : extensionLength ≤ rest.length)
    (hHS : extensionType = CtrlSubType.hsreq ∨ extensionType = CtrlSubType.hsrsp) :
    ExtensionOutcome c extensionType extensionLength rest
      (c.unmarshalHS extensionType extensionLength rest) := by
  have hacc : AcceptedExtension c.encryptionField extensionType extensionLength rest ↔
      extensionLength = 12 := by
    unfold AcceptedExtension
    rw [if_pos hHS]
  have hafter : encryptionFieldAfter c.encryptionField extensionType = c.encryptionField := by
    unfold encryptionFieldAfter
    rcases hHS with rfl | rfl <;> exact if_neg fun h => absurd h.1 (by decide)
  unfold unmarshalHS
  by_cases h12 : extensionLength = 12
  · rw [if_neg (by omega)]
    obtain ⟨hs, hok⟩ := CIFHandshakeExtension.unmarshal_ok rest (by omega)
    rw [hok]
    exact .accepted _ (hacc.mpr h12) hafter.symm
  · rw [if_pos (Or.inl h12)]
    exact .refused _ fun h => h12 (hacc.mp h)

/-- A string extension is accepted up to its limit. -/
theorem unmarshalString_outcome {limit : Nat} {store : Bytes → CIFHandshake}
    (hlen : extensionLength ≤ rest.length)
    (hacc : AcceptedExtension c.encryptionField extensionType extensionLength rest ↔
      extensionLength ≤ limit)
    (hstore : ∀ s, (store s).encryptionField
      = encryptionFieldAfter c.encryptionField extensionType) :
    ExtensionOutcome c extensionType extensionLength rest
      (unmarshalString limit extensionType extensionLength rest store) := by
  unfold unmarshalString
  by_cases hlimit : extensionLength ≤ limit
  · obtain ⟨s, hs⟩ := Option.isSome_iff_exists.mp
      (swapWords_isSome (extensionLength / 4) rest (by omega))
    rw [if_neg (by omega), hs]
    exact .accepted _ (hacc.mpr hlimit) (hstore _)
  · rw [if_pos (by omega)]
    exact .refused _ fun h => hlimit (hacc.mp h)

/-- One round of the loop accepts what `AcceptedExtension` says and refuses all else. It
never panics. -/
theorem unmarshalExtension_outcome (c : CIFHandshake) (extensionType : CtrlSubType)
    (hlen : extensionLength ≤ rest.length)
    (hknown : knownEncryptionField c.encryptionField = true) :
    ExtensionOutcome c extensionType extensionLength rest
      (c.unmarshalExtension extensionType extensionLength rest) := by
  unfold unmarshalExtension
  by_cases hHS : extensionType = CtrlSubType.hsreq ∨ extensionType = CtrlSubType.hsrsp
  · rw [if_pos hHS]
    exact unmarshalHS_outcome c hlen hHS
  rw [if_neg hHS]
  by_cases hKM : extensionType = CtrlSubType.kmreq ∨ extensionType = CtrlSubType.kmrsp
  · rw [if_pos hKM]
    exact unmarshalKM_outcome c hlen hknown hHS hKM
  rw [if_neg hKM]
  -- The other extensions leave the encryption field alone.
  have hafter : encryptionFieldAfter c.encryptionField extensionType = c.encryptionField := by
    unfold encryptionFieldAfter
    rw [if_neg fun h => hKM h.1]
  by_cases hSID : extensionType = CtrlSubType.sid
  · have hacc : AcceptedExtension c.encryptionField extensionType extensionLength rest ↔
        extensionLength ≤ 512 := by
      unfold AcceptedExtension
      rw [if_neg hHS, if_neg hKM, if_pos hSID]
    rw [if_pos hSID]
    exact unmarshalString_outcome hlen hacc (fun _ => hafter.symm)
  rw [if_neg hSID]
  by_cases hCC : extensionType = CtrlSubType.congestion
  · have hacc : AcceptedExtension c.encryptionField extensionType extensionLength rest ↔
        extensionLength ≤ 4 := by
      unfold AcceptedExtension
      rw [if_neg hHS, if_neg hKM, if_neg hSID, if_pos hCC]
    rw [if_pos hCC]
    exact unmarshalString_outcome hlen hacc (fun _ => hafter.symm)
  · rw [if_neg hCC, if_neg (by omega)]
    refine .accepted c ?_ hafter.symm
    unfold AcceptedExtension
    rw [if_neg hHS, if_neg hKM, if_neg hSID, if_neg hCC]
    trivial

/-- Each kind of extension checks its length first. -/
theorem unmarshalExtension_short (c : CIFHandshake) (extensionType : CtrlSubType)
    (hshort : rest.length < extensionLength) :
    c.unmarshalExtension extensionType extensionLength rest
      = invalidLength extensionType extensionLength := by
  unfold unmarshalExtension unmarshalHS unmarshalKM unmarshalString
  simp only [hshort, or_true, if_true, ite_self]

/-- One round of the loop never panics, also where bytes are missing. -/
theorem unmarshalExtension_noPanic (c : CIFHandshake) (extensionType : CtrlSubType)
    (extensionLength : Nat) (rest : Bytes)
    (hknown : knownEncryptionField c.encryptionField = true) :
    NoPanic (c.unmarshalExtension extensionType extensionLength rest) := by
  by_cases hlen : extensionLength ≤ rest.length
  · exact (unmarshalExtension_outcome c _ hlen hknown).noPanic
  · rw [unmarshalExtension_short c extensionType (Nat.lt_of_not_le hlen)]
    exact noPanic_err _

/-- The extension is key material. -/
def IsKeyMaterial (extensionType : CtrlSubType) : Prop :=
  extensionType = CtrlSubType.kmreq ∨ extensionType = CtrlSubType.kmrsp

/-- What one round of the loop can set. -/
inductive ExtensionCase (c : CIFHandshake) (extensionType : CtrlSubType) (rest : Bytes) :
    CIFHandshake → Prop where
  | hs (hother : ¬IsKeyMaterial extensionType) (srtHS : CIFHandshakeExtension) :
      ExtensionCase c extensionType rest { c with hasHS := true, srtHS := some srtHS }
  | km (hkm : IsKeyMaterial extensionType) (km : CIFKeyMaterialExtension)
      (hok : CIFKeyMaterialExtension.unmarshal {} rest = .ok km) (encryptionField : UInt16) :
      ExtensionCase c extensionType rest
        { c with hasKM := true, srtKM := some km, encryptionField := encryptionField }
  | other (hother : ¬IsKeyMaterial extensionType) (hasSID hasCongestionCtl : Bool)
      (streamId congestionCtl : Bytes) :
      ExtensionCase c extensionType rest
        { c with
          hasSID := hasSID, streamId := streamId, hasCongestionCtl := hasCongestionCtl,
          congestionCtl := congestionCtl }

/-- A decoded extension is one of these cases. -/
theorem unmarshalExtension_cases
    (h : c.unmarshalExtension extensionType extensionLength rest = .ok c') :
    ExtensionCase c extensionType rest c' := by
  unfold unmarshalExtension at h
  split at h
  · rename_i htype
    have hother : ¬IsKeyMaterial extensionType := by
      unfold IsKeyMaterial
      rcases htype with rfl | rfl <;> decide
    unfold unmarshalHS at h
    split at h
    · cases h
    · obtain ⟨srtHS, -, h⟩ := bind_eq_ok_iff.mp h
      cases h
      exact .hs hother srtHS
  split at h
  · rename_i htype
    unfold unmarshalKM at h
    split at h
    · cases h
    · obtain ⟨km, hok, h⟩ := bind_eq_ok_iff.mp h
      obtain ⟨_, -, h⟩ := bind_eq_ok_iff.mp h
      cases h
      exact .km htype km (wrap_eq_ok_iff.mp hok) _
  rename_i hother
  split at h
  · unfold unmarshalString at h
    split at h
    · cases h
    · obtain ⟨s, -, h⟩ := bind_eq_ok_iff.mp h
      cases h
      exact .other hother _ _ _ _
  split at h
  · unfold unmarshalString at h
    split at h
    · cases h
    · obtain ⟨s, -, h⟩ := bind_eq_ok_iff.mp h
      cases h
      exact .other hother _ _ _ _
  split at h
  · cases h
  · cases h
    exact .other hother c.hasSID c.hasCongestionCtl c.streamId c.congestionCtl

/-! ### The loop -/

/-- The loop keeps what each round keeps. -/
theorem unmarshalExtensions_keeps {P : CIFHandshake → Prop}
    (hextension : ∀ {c c' : CIFHandshake} {extensionType : CtrlSubType} {rest : Bytes},
      P c → ExtensionCase c extensionType rest c' → P c')
    {pivot : Bytes} (h : P c) (hok : c.unmarshalExtensions pivot = .ok c') :
    P c' := by
  fun_induction unmarshalExtensions c pivot with
  | case1 => cases hok
  | case2 c t0 t1 l0 l1 pivot extensionLength c₁ hext hmore ih =>
    exact ih (hextension h (unmarshalExtension_cases hext)) hok
  | case3 c t0 t1 l0 l1 pivot extensionLength c₁ hext hlast =>
    cases hok
    exact hextension h (unmarshalExtension_cases hext)
  | case4 => cases hok

/-- Whole extensions that the loop accepts, and after them one to three bytes. -/
inductive StrayBytes : UInt16 → Bytes → Prop where
  | tail (encryptionField : UInt16) (rest : Bytes) (h0 : 0 < rest.length)
      (h4 : rest.length < 4) : StrayBytes encryptionField rest
  | extension (encryptionField : UInt16) (t0 t1 l0 l1 : UInt8) (rest : Bytes)
      (hacc : AcceptedExtension encryptionField (uint16OfBytes t0 t1)
        ((uint16OfBytes l0 l1).toNat * 4) rest)
      (hmore : (uint16OfBytes l0 l1).toNat * 4 < rest.length)
      (h : StrayBytes (encryptionFieldAfter encryptionField (uint16OfBytes t0 t1))
        (rest.drop ((uint16OfBytes l0 l1).toNat * 4))) :
      StrayBytes encryptionField (t0 :: t1 :: l0 :: l1 :: rest)

/-- A round of the loop, unfolded. -/
theorem unmarshalExtensions_cons (c : CIFHandshake) (t0 t1 l0 l1 : UInt8) (rest : Bytes) :
    c.unmarshalExtensions (t0 :: t1 :: l0 :: l1 :: rest) =
      c.unmarshalExtension (uint16OfBytes t0 t1) ((uint16OfBytes l0 l1).toNat * 4) rest >>=
        fun c' =>
          if rest.length > (uint16OfBytes l0 l1).toNat * 4 then
            c'.unmarshalExtensions (rest.drop ((uint16OfBytes l0 l1).toNat * 4))
          else .ok c' := by
  rw [unmarshalExtensions]
  cases c.unmarshalExtension (uint16OfBytes t0 t1) ((uint16OfBytes l0 l1).toNat * 4) rest with
  | ok c' => rfl
  | error e => rfl

/-- The loop on less than a header. -/
theorem unmarshalExtensions_short (c : CIFHandshake) {pivot : Bytes} (h : pivot.length < 4) :
    c.unmarshalExtensions pivot = .error .panic := by
  match pivot with
  | [] | [_] | [_, _] | [_, _, _] => rw [unmarshalExtensions]; simp
  | _ :: _ :: _ :: _ :: _ => simp at h; omega

/-- The loop panics exactly on stray bytes. Induction on the bytes left: a round consumes
at least its header. -/
theorem unmarshalExtensions_panic_iff (c : CIFHandshake) (pivot : Bytes)
    (h0 : 0 < pivot.length) (hknown : knownEncryptionField c.encryptionField = true) :
    c.unmarshalExtensions pivot = .error .panic ↔ StrayBytes c.encryptionField pivot := by
  induction hn : pivot.length using Nat.strong_induction_on generalizing c pivot with
  | _ n ih =>
  subst hn
  by_cases h4 : pivot.length < 4
  · rw [unmarshalExtensions_short c h4]
    exact ⟨fun _ => .tail _ _ h0 h4, fun _ => rfl⟩
  obtain ⟨t0, t1, l0, l1, rest, rfl⟩ := exists_four_cons (l := pivot) (by omega)
  rw [unmarshalExtensions_cons]
  by_cases hmore : (uint16OfBytes l0 l1).toNat * 4 < rest.length
  · have hout := unmarshalExtension_outcome c (uint16OfBytes t0 t1)
      (Nat.le_of_lt hmore) hknown
    generalize c.unmarshalExtension (uint16OfBytes t0 t1) ((uint16OfBytes l0 l1).toNat * 4) rest
      = result at hout
    cases hout with
    | refused message hacc =>
      constructor
      · intro h
        cases h
      · intro h
        cases h with
        | tail _ _ _ h4' => exact absurd h4' h4
        | extension _ _ _ _ _ _ hacc' => exact absurd hacc' hacc
    | accepted c' hacc hfield =>
      have ih' := ih _ (by simp only [List.length_drop, List.length_cons]; omega) c'
        (rest.drop ((uint16OfBytes l0 l1).toNat * 4)) (by rw [List.length_drop]; omega)
        (by rw [hfield]; exact known_encryptionFieldAfter _ hknown) rfl
      show (if rest.length > (uint16OfBytes l0 l1).toNat * 4 then
          c'.unmarshalExtensions (rest.drop ((uint16OfBytes l0 l1).toNat * 4))
        else .ok c') = .error .panic ↔ _
      rw [if_pos hmore, ih', hfield]
      constructor
      · intro h
        exact .extension _ _ _ _ _ _ hacc hmore h
      · intro h
        cases h with
        | tail _ _ _ h4' => exact absurd h4' h4
        | extension _ _ _ _ _ _ _ _ h' => exact h'
  · -- The last extension: nothing is read after it.
    have hsafe := unmarshalExtension_noPanic c (uint16OfBytes t0 t1)
      ((uint16OfBytes l0 l1).toNat * 4) rest hknown
    constructor
    · intro h
      refine absurd h (noPanic_bind hsafe fun c' _ => ?_)
      rw [if_neg hmore]
      exact noPanic_ok c'
    · intro h
      cases h with
      | tail _ _ _ h4' => exact absurd h4' h4
      | extension _ _ _ _ _ _ _ hmore' => exact absurd hmore' hmore

/-! ### The whole message -/

/-- The fixed fields decode where 48 bytes are there. These are the three that decide what
happens to the extensions. -/
theorem unmarshalHeader_spec (c : CIFHandshake) (data : Bytes) (h : 48 ≤ data.length) :
    ∃ c', c.unmarshalHeader data = .ok c' ∧ uint16 data 4 = some c'.encryptionField ∧
      uint16 data 6 = some c'.extensionField ∧ uint32 data 20 = some c'.handshakeType := by
  have word32 : ∀ i, i + 4 ≤ 48 → ∃ x, uint32 data i = some x := fun i hi =>
    Option.isSome_iff_exists.mp (uint32_isSome _ _ (by omega))
  obtain ⟨version, h0⟩ := word32 0 (by omega)
  obtain ⟨encryption, h4⟩ := Option.isSome_iff_exists.mp
    (uint16_isSome data 4 (by omega))
  obtain ⟨extension, h6⟩ := Option.isSome_iff_exists.mp
    (uint16_isSome data 6 (by omega))
  obtain ⟨sequence, h8⟩ := word32 8 (by omega)
  obtain ⟨mtu, h12⟩ := word32 12 (by omega)
  obtain ⟨flow, h16⟩ := word32 16 (by omega)
  obtain ⟨type, h20⟩ := word32 20 (by omega)
  obtain ⟨socket, h24⟩ := word32 24 (by omega)
  obtain ⟨cookie, h28⟩ := word32 28 (by omega)
  obtain ⟨peer, h32⟩ := Option.isSome_iff_exists.mp
    (slice_isSome data 32 h)
  unfold unmarshalHeader
  rw [h0, h4, h6, h8, h12, h16, h20, h24, h28, h32]
  exact ⟨_, rfl, rfl, rfl, rfl⟩

/-- The fixed part sets nothing that an extension sets, other than the encryption field. -/
theorem unmarshalHeader_extensions {data : Bytes} (h : c.unmarshalHeader data = .ok c') :
    c'.isRequest = c.isRequest ∧ c'.hasHS = c.hasHS ∧ c'.srtHS = c.srtHS ∧ c'.hasKM = c.hasKM ∧
      c'.srtKM = c.srtKM := by
  unfold unmarshalHeader at h
  iterate 10
    obtain ⟨_, -, h⟩ := bind_eq_ok_iff.mp h
  cases h
  exact ⟨rfl, rfl, rfl, rfl, rfl⟩

/-- What is decoded is the fixed part, and in a CONCLUSION what the loop makes of it. -/
theorem unmarshal_parts {data : Bytes} (h : c.unmarshal data = .ok c') :
    ∃ c₁, c.unmarshalHeader data = .ok c₁ ∧
      (c' = c₁ ∨ c₁.unmarshalExtensions (data.drop 48) = .ok c') := by
  unfold unmarshal at h
  split at h
  · cases h
  obtain ⟨c₁, hheader, h⟩ := bind_eq_ok_iff.mp h
  refine ⟨c₁, hheader, ?_⟩
  split at h
  · cases h
    exact Or.inl rfl
  split at h
  · cases h
    exact Or.inl rfl
  split at h
  · cases h
    exact Or.inl rfl
  split at h
  · cases h
    exact Or.inl rfl
  split at h
  · cases h
  obtain ⟨pivot, hpivot, h⟩ := bind_eq_ok_iff.mp h
  rw [← eq_drop_of_sliceFrom (orPanic_eq_ok_iff.mp hpivot)]
  exact Or.inr h

/-- A CONCLUSION with extensions that end in stray bytes: the fixed fields, accepted
extensions, and one to three bytes. -/
def StrayMessage (data : Bytes) : Prop :=
  48 < data.length ∧ uint32 data 20 = some HandshakeType.conclusion ∧
    ∃ encryptionField extensionField, uint16 data 4 = some encryptionField ∧
      uint16 data 6 = some extensionField ∧ extensionField ≠ 0 ∧
      knownEncryptionField encryptionField = true ∧ StrayBytes encryptionField (data.drop 48)

/-- Decoding a handshake ends with a value or an error, without a read out of range, exactly
on the inputs that are not stray messages. -/
theorem unmarshal_noPanic_iff (c : CIFHandshake) (data : Bytes) :
    NoPanic (c.unmarshal data) ↔ ¬StrayMessage data := by
  unfold NoPanic
  rw [not_iff_not]
  unfold unmarshal
  by_cases h48 : data.length < 48
  · rw [if_pos h48]
    constructor
    · intro h
      cases h
    · intro h
      exact absurd h.1 (by omega)
  rw [if_neg h48]
  obtain ⟨c', hok, h4, h6, h20⟩ := unmarshalHeader_spec c data (by omega)
  -- The fields of `StrayMessage` are those of the decoded header.
  have hstray : StrayMessage data ↔ 48 < data.length ∧
      c'.handshakeType = HandshakeType.conclusion ∧ c'.extensionField ≠ 0 ∧
      knownEncryptionField c'.encryptionField = true ∧
      StrayBytes c'.encryptionField (data.drop 48) := by
    unfold StrayMessage
    rw [h4, h6, h20]
    simp only [Option.some.injEq, exists_eq_left', exists_and_left]
  rw [hok, hstray]
  show (if c'.handshakeType = HandshakeType.induction then (.ok c' : Go CIFHandshake)
    else if c'.handshakeType ≠ HandshakeType.conclusion then .ok c'
    else if c'.extensionField = 0 then .ok c'
    else if data.length ≤ 48 then .ok c'
    else if !knownEncryptionField c'.encryptionField then
      Go.err ("invalid encryption field value (" ++ toString c'.encryptionField ++ ")")
    else orPanic (sliceFrom data 48) >>= c'.unmarshalExtensions) = .error .panic ↔ _
  by_cases htype : c'.handshakeType = HandshakeType.conclusion
  swap
  · -- Not a CONCLUSION: the extensions are not looked at.
    refine iff_of_false ?_ fun h => htype h.2.1
    rw [if_pos htype, ite_self]
    exact noPanic_ok c'
  rw [if_neg (by rw [htype]; decide), if_neg (not_not.mpr htype)]
  by_cases hext : c'.extensionField = 0
  · rw [if_pos hext]
    exact iff_of_false (noPanic_ok c') fun h => h.2.2.1 hext
  rw [if_neg hext]
  by_cases hlen : data.length ≤ 48
  · rw [if_pos hlen]
    exact iff_of_false (noPanic_ok c') fun h => absurd h.1 (by omega)
  rw [if_neg hlen]
  by_cases hknown : knownEncryptionField c'.encryptionField = true
  swap
  · rw [if_pos (by simpa using hknown)]
    exact iff_of_false (noPanic_err _) fun h => hknown h.2.2.2.1
  rw [if_neg (by simpa using hknown), sliceFrom_eq (by omega)]
  have hloop := unmarshalExtensions_panic_iff c' (data.drop 48)
    (by rw [List.length_drop]; omega) hknown
  constructor
  · intro h
    exact ⟨by omega, htype, hext, hknown, hloop.mp h⟩
  · intro h
    exact hloop.mpr h.2.2.2.2

/-- A CONCLUSION with a whole handshake extension and one more byte. -/
def strayConclusion : Bytes :=
  [0, 0, 0, 5, 0, 0, 0, 1] ++ List.replicate 12 0 ++ [0xFF, 0xFF, 0xFF, 0xFF] ++
    List.replicate 24 0 ++ [0, 1, 0, 3] ++ List.replicate 12 0 ++ [0]

/-- Decoding `strayConclusion` panics in the second round of the loop. -/
theorem unmarshal_strayConclusion :
    CIFHandshake.unmarshal {} strayConclusion = .error .panic := by
  decide +kernel

end CIFHandshake

end Gosrt
