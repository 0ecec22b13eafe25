import Gosrt.Lib.Signed
import Gosrt.Spec.ConfigQuery

/-!
# `Gosrt.Proofs.ConfigQuery`: which configurations survive a query string

* `get_setEntries`: a block of `MarshalQuery` decides what is found under its key, because no two
  blocks have the same key.
* `unmarshalQuery_marshalQuery_iff`: the configurations that come back on top of the default one.
  `QueryCodec.firstTexts` shows that the law of a codec can be met.
-/

set_option autoImplicit false

namespace Gosrt

open Lib

/-! ### Conversions -/

/-- A written integer is read back. -/
theorem parseInt_formatInt (i : Int64) : parseInt (formatInt i) = some i := by
  have hrange : -2 ^ 63 ≤ i.toInt ∧ i.toInt < 2 ^ 63 := ⟨i.le_toInt, i.toInt_lt⟩
  simp only [parseInt, formatInt, Decimal.readInt_intText, Option.bind_eq_bind, Option.bind_some,
    if_pos hrange, Int64.ofInt_toInt]

/-- A written number that fits the width is read back. -/
theorem parseUint_text {bits n : Nat} (h : n < 2 ^ bits) :
    parseUint bits (Decimal.text n) = some n := by
  simp only [parseUint, Decimal.read_text, Option.bind_eq_bind, Option.bind_some, if_pos h]

/-- A `uint32` is written in the same way through `int64` as through `uint64`. -/
theorem formatInt_toInt64 (x : UInt32) :
    formatInt x.toUInt64.toInt64 = formatUint x.toUInt64 := by
  have hx := x.toNat_lt
  have hnonneg : 0 ≤ x.toUInt64.toInt64 := by
    rw [nonneg_iff_toNat, UInt64.toUInt64_toInt64, UInt32.toNat_toUInt64]
    omega
  rw [formatInt, toInt_of_nonneg hnonneg, UInt64.toUInt64_toInt64, Decimal.intText_natCast,
    formatUint]

/-- A written switch is read back. -/
theorem parseSwitch_formatBool (b : Bool) :
    FullConfig.parseSwitch (formatBool b) = some b := by
  cases b <;> decide

theorem formatBool_ne_nil (b : Bool) : formatBool b ≠ [] := by
  cases b <;> decide

/-- Milliseconds and back keeps a duration exactly if nothing was cut off. -/
theorem milliseconds_mul_eq_iff (d : Duration) :
    d.milliseconds * 1000000 = d ↔ (1000000 : Int) ∣ d.toInt := by
  have hlow := d.le_toInt
  have hhigh := d.toInt_lt
  have hdiv : d.milliseconds.toInt = d.toInt.tdiv 1000000 :=
    Int64.toInt_div_of_ne_right d 1000000 (by decide)
  -- The quotient is cut off towards zero, so the product stays between zero and `d`.
  have hcut : d.toInt.tdiv 1000000 = if 0 ≤ d.toInt then d.toInt / 1000000
      else -(-d.toInt / 1000000) := by
    split
    · rw [Int.tdiv_eq_ediv_of_nonneg (by assumption)]
    · rw [← Int.tdiv_eq_ediv_of_nonneg (by omega), Int.neg_tdiv, neg_neg]
  have hmul : (d.milliseconds * 1000000).toInt = d.toInt.tdiv 1000000 * 1000000 := by
    have hmillion : (1000000 : Int64).toInt = 1000000 := rfl
    rw [Int64.toInt_mul, hdiv, hmillion]
    exact Int.bmod_eq_of_le (by split at hcut <;> omega) (by split at hcut <;> omega)
  rw [← Int64.toInt_inj, hmul, hcut]
  split <;> omega

/-! ### What is found under a key -/

namespace Values

variable {v : Values} {key key' text : Bytes}

theorem get_eq : v.get key = ((v.lookup key).getD []).headD [] := by
  unfold get
  rcases v.lookup key with _ | _ | ⟨text, texts⟩ <;> rfl

theorem get_set : (v.set key text).get key = text := by
  simp [get, set, AList.lookup_insert]

theorem get_set_of_ne (h : key ≠ key') : (v.set key' text).get key = v.get key := by
  simp [get, set, AList.lookup_insert_ne h]

end Values

/-! ### A codec -/

namespace QueryCodec

/-- A string with an end: a mark before each byte and another one after the last. -/
def writeString (s : Bytes) : Bytes := s.flatMap (fun b => [1, b]) ++ [0]

/-- The strings of a text. The second argument is what was read of the first of them. -/
def readStrings : Bytes → Bytes → List Bytes
  | 0 :: rest, s => s :: readStrings rest []
  | 1 :: b :: rest, s => readStrings rest (s ++ [b])
  | _, _ => []

/-- The text of one string ends where the next one starts. -/
theorem readStrings_writeString (s rest read : Bytes) :
    readStrings (writeString s ++ rest) read = (read ++ s) :: readStrings rest [] := by
  induction s generalizing read with
  | nil => simp [writeString, readStrings]
  | cons b s ih =>
    have hnext := ih (read ++ [b])
    simp only [writeString, List.flatMap_cons, List.append_assoc, List.cons_append,
      List.nil_append, readStrings] at hnext ⊢
    exact hnext

theorem readStrings_flatMap (strings : List Bytes) :
    readStrings (strings.flatMap writeString) [] = strings := by
  induction strings with
  | nil => rfl
  | cons s strings ih => rw [List.flatMap_cons, readStrings_writeString, ih, List.nil_append]

/-- Keys and texts in turn. -/
def ofStrings : List Bytes → Values
  | key :: text :: rest => (ofStrings rest).set key text
  | _ => ∅

/-- Reading a key from the written pairs gives the first value of the key. -/
theorem get_ofStrings (entries : List (Sigma fun _ : Bytes => List Bytes)) (key : Bytes) :
    (ofStrings (entries.flatMap fun e => [e.1, e.2.headD []])).get key =
      ((entries.dlookup key).getD []).headD [] := by
  induction entries with
  | nil => rfl
  | cons e entries ih =>
    obtain ⟨key', texts⟩ := e
    simp only [List.flatMap_cons, List.cons_append, List.nil_append, ofStrings]
    by_cases hkey : key = key'
    · subst hkey
      rw [Values.get_set, List.dlookup_cons_eq, Option.getD_some]
    · rw [Values.get_set_of_ne hkey, ih, List.dlookup_cons_ne _ _ hkey]

/-- A codec that keeps the first text of each key. -/
def firstTexts : QueryCodec where
  encode v := (v.entries.flatMap fun e => [e.1, e.2.headD []]).flatMap writeString
  parseQuery query := .ok (ofStrings (readStrings query []))
  parseQuery_encode v := by
    refine ⟨_, rfl, fun key => ?_⟩
    rw [readStrings_flatMap, get_ofStrings, Values.get_eq]
    rfl

end QueryCodec

namespace FullConfig

section
variable {q : Values} {blocks : List (String × Option Bytes)}

/-- One block. -/
theorem setEntries_cons (block : String × Option Bytes) :
    setEntries q (block :: blocks) = setEntries (setEntries q [block]) blocks := rfl

theorem get_setEntries_singleton_of_ne {key : Bytes} {block : String × Option Bytes}
    (h : key ≠ goString block.1) : (setEntries q [block]).get key = q.get key := by
  obtain ⟨key', text⟩ := block
  cases text with
  | none => rfl
  | some text => exact Values.get_set_of_ne h

/-- Blocks with other keys leave a key as it is. -/
theorem get_setEntries_of_not_mem {key : Bytes}
    (h : key ∉ blocks.map fun block => goString block.1) :
    (setEntries q blocks).get key = q.get key := by
  induction blocks generalizing q with
  | nil => rfl
  | cons block blocks ih =>
    simp only [List.map_cons, List.mem_cons, not_or] at h
    rw [setEntries_cons, ih h.2, get_setEntries_singleton_of_ne h.1]

/-- With keys that are all different, a block decides what is found under its key. -/
theorem get_setEntries (hnodup : (blocks.map fun block => goString block.1).Nodup)
    {block : String × Option Bytes} (hmem : block ∈ blocks) (hq : q.get (goString block.1) = []) :
    (setEntries q blocks).get (goString block.1) = block.2.getD [] := by
  induction blocks generalizing q with
  | nil => cases hmem
  | cons head blocks ih =>
    rw [List.map_cons, List.nodup_cons] at hnodup
    rw [setEntries_cons]
    rcases List.mem_cons.mp hmem with rfl | htail
    -- The block itself: nothing after it touches its key.
    · rw [get_setEntries_of_not_mem hnodup.1]
      obtain ⟨key, text⟩ := block
      cases text with
      | none => exact hq
      | some text => exact Values.get_set
    -- A block further down: the key is still unset when it is reached.
    · refine ih hnodup.2 htail ?_
      rw [get_setEntries_singleton_of_ne, hq]
      intro heq
      exact hnodup.1 (heq ▸ List.mem_map_of_mem htail)

end

/-! ### One field -/

/-- The values have what a block of `MarshalQuery` has set. -/
def Written (v : Values) (block : String × Option Bytes) : Prop :=
  v.get (goString block.1) = block.2.getD []

section
variable {v : Values} {key : String} {text : Bytes}

/-- What reading a field gives after its block was written. A missing block or an empty text leaves
the old value. -/
theorem readField_of_written {α : Type} {convert : Bytes → Option α} {old : α} {condition : Bool}
    (h : Written v (entry condition key text)) :
    readField v key convert old =
      if condition = true ∧ text ≠ [] then (convert text).getD old else old := by
  have hget : v.get (goString key) = if condition then text else [] := by
    cases condition <;> exact h
  unfold readField
  rw [hget]
  cases condition with
  | false => simp
  | true => simp [List.length_eq_zero_iff]

/-- A field that is written in full if it is not the default. -/
theorem readField_eq_self {α : Type} [BEq α] [LawfulBEq α] {convert : Bytes → Option α} {x old : α}
    (hconvert : convert text = some x) (hne : text ≠ [])
    (h : Written v (entry (x != old) key text)) : readField v key convert old = x := by
  rw [readField_of_written h, hconvert]
  by_cases hx : x = old
  · simp [hx]
  · simp [hx, hne]

theorem readBool_of_written {x old : Bool} (h : Written v (entry (x != old) key (formatBool x))) :
    readBool v key old = x :=
  readField_eq_self (parseSwitch_formatBool x) (formatBool_ne_nil x) h

theorem readInt_of_written {x old : Int64} (h : Written v (entry (x != old) key (formatInt x))) :
    readInt v key old = x :=
  readField_eq_self (parseInt_formatInt x) (Decimal.intText_ne_nil _) h

theorem readUint32_of_written {x old : UInt32}
    (h : Written v (entry (x != old) key (formatUint x.toUInt64))) :
    readUint32 v key old = x := by
  have hne : formatUint x.toUInt64 ≠ [] := Decimal.text_ne_nil _
  have hparse : parseUint 32 (formatUint x.toUInt64) = some x.toNat := parseUint_text x.toNat_lt
  refine readField_eq_self ?_ hne h
  rw [hparse, Option.map_some, UInt32.ofNat_toNat]

theorem readUint32_of_written_int {x old : UInt32}
    (h : Written v (entry (x != old) key (formatInt x.toUInt64.toInt64))) :
    readUint32 v key old = x := by
  rw [formatInt_toInt64] at h
  exact readUint32_of_written h

/-- A duration that is not the default is cut to milliseconds. -/
theorem readDuration_of_written {x old : Duration}
    (h : Written v (entry (x != old) key (formatInt x.milliseconds))) :
    readDuration v key old = x ↔ x = old ∨ (1000000 : Int) ∣ x.toInt := by
  have hne : formatInt x.milliseconds ≠ [] := Decimal.intText_ne_nil _
  rw [readDuration, readField_of_written h, parseInt_formatInt, ← milliseconds_mul_eq_iff]
  by_cases hx : x = old
  · simp [hx]
  · simp [hx, hne]

/-- An empty string that is not the default is not read. -/
theorem readString_of_written {x old : Bytes} (h : Written v (entry (x != old) key x)) :
    readString v key old = x ↔ x = old ∨ x ≠ [] := by
  rw [readString, readField_of_written h]
  by_cases hx : x = old
  · simp [hx]
  · by_cases hempty : x = []
    · simp only [hempty, ne_eq, not_true_eq_false, and_false, if_false, or_false]
      exact eq_comm
    · simp [hx, hempty]

/-- The default is the empty string. -/
theorem readString_of_written_length {x : Bytes} (h : Written v (entry (x.length != 0) key x)) :
    readString v key [] = x := by
  rw [readString, readField_of_written h]
  by_cases hempty : x = []
  · simp [hempty]
  · simp [hempty]

/-- A field that is only written with a passphrase. -/
theorem readUint64_of_written {passphrase : Bytes} {x old : UInt64}
    (h : Written v (entry (passphrase.length != 0 && x != old) key (formatUint x))) :
    readUint64 v key old = x ↔ (passphrase = [] → x = old) := by
  have hne : formatUint x ≠ [] := Decimal.text_ne_nil _
  have hparse : parseUint 64 (formatUint x) = some x.toNat := parseUint_text x.toNat_lt
  rw [readUint64, readField_of_written h, hparse]
  by_cases hpass : passphrase = []
  · simp [hpass, eq_comm]
  · by_cases hx : x = old
    · simp [hx]
    · simp [hpass, hx, hne]

end

/-! ### The whole configuration -/

variable {Logger Control : Type}

/-- No key is used for two fields. -/
theorem nodup_keys (c : FullConfig Logger Control) :
    (c.entries.map fun block => goString block.1).Nodup := by
  -- The keys are the same for every configuration.
  show ((defaultConfig : FullConfig Unit Unit).entries.map fun block => goString block.1).Nodup
  decide

/-- The parsed query has what every block has set. -/
theorem exists_parseQuery_marshalQuery (codec : QueryCodec) (c : FullConfig Logger Control) :
    ∃ v, codec.parseQuery (c.marshalQuery codec) = .ok v ∧
      ∀ (key : String) {text : Option Bytes}, c.entries.lookup key = some text →
        Written v (key, text) := by
  obtain ⟨v, hparse, hget⟩ := codec.parseQuery_encode (setEntries ∅ c.entries)
  refine ⟨v, hparse, fun key text hlookup => ?_⟩
  obtain ⟨before, after, heq, -⟩ := List.lookup_eq_some_iff.mp hlookup
  have hmem : (key, text) ∈ c.entries := by
    rw [heq]
    exact List.mem_append_right before List.mem_cons_self
  exact (hget _).trans (get_setEntries (nodup_keys c) hmem rfl)

/-- The configurations that a query string can carry. -/
structure Representable (c : FullConfig Logger Control) : Prop where
  minVersion : c.minVersion = srtVersion
  allowPeerIpChange : c.allowPeerIpChange = false
  logger : c.logger = none
  listenerControl : c.listenerControl = none
  congestion : c.congestion ≠ []
  transmissionType : c.transmissionType ≠ []
  /-- Each duration is the default or has whole milliseconds. -/
  durations : ∀ duration ∈ [connectionTimeout, groupStabilityTimeout, latency, peerIdleTimeout,
      peerLatency, receiverLatency, sendDropDelay],
    duration c = duration defaultConfig ∨ (1000000 : Int) ∣ (duration c).toInt
  /-- Without a passphrase the numbers for the keys are not written. -/
  keys : c.passphrase = [] →
    c.kmPreAnnounce = (defaultConfig : FullConfig Logger Control).kmPreAnnounce ∧
      c.kmRefreshRate = (defaultConfig : FullConfig Logger Control).kmRefreshRate

theorem live_ne_nil : goString "live" ≠ [] := by decide

section
variable {c : FullConfig Logger Control} {v : Values}
  (hblock : ∀ (key : String) {text : Option Bytes}, c.entries.lookup key = some text →
    Written v (key, text))
include hblock

/-- What comes back as it was is representable. -/
theorem representable_of_readValues_eq (h : defaultConfig.readValues v = c) :
    c.Representable where
  minVersion := (congrArg minVersion h).symm
  allowPeerIpChange := (congrArg allowPeerIpChange h).symm
  logger := (congrArg logger h).symm
  listenerControl := (congrArg listenerControl h).symm
  -- The default of both strings is not empty, so an empty one differs and is not read.
  congestion := by
    have hread := readString_of_written (hblock "congestion" rfl)
    rcases hread.mp (congrArg congestion h) with heq | hne
    · rw [heq]
      exact live_ne_nil
    · exact hne
  transmissionType := by
    have hread := readString_of_written (hblock "transtype" rfl)
    rcases hread.mp (congrArg transmissionType h) with heq | hne
    · rw [heq]
      exact live_ne_nil
    · exact hne
  durations := by
    simp only [List.forall_mem_cons, List.not_mem_nil, false_imp_iff, implies_true, and_true]
    exact ⟨(readDuration_of_written (hblock "conntimeo" rfl)).mp (congrArg connectionTimeout h),
      (readDuration_of_written (hblock "groupstabtimeo" rfl)).mp
        (congrArg groupStabilityTimeout h),
      (readDuration_of_written (hblock "latency" rfl)).mp (congrArg latency h),
      (readDuration_of_written (hblock "peeridletimeo" rfl)).mp (congrArg peerIdleTimeout h),
      (readDuration_of_written (hblock "peerlatency" rfl)).mp (congrArg peerLatency h),
      (readDuration_of_written (hblock "rcvlatency" rfl)).mp (congrArg receiverLatency h),
      (readDuration_of_written (hblock "snddropdelay" rfl)).mp (congrArg sendDropDelay h)⟩
  keys hpass :=
    ⟨(readUint64_of_written (hblock "kmpreannounce" rfl)).mp (congrArg kmPreAnnounce h) hpass,
      (readUint64_of_written (hblock "kmrefreshrate" rfl)).mp (congrArg kmRefreshRate h) hpass⟩

/-- A representable configuration comes back, field by field. -/
theorem readValues_eq_of_representable (h : c.Representable) :
    defaultConfig.readValues v = c := by
  have hdurations := h.durations
  simp only [List.forall_mem_cons, List.not_mem_nil, false_imp_iff, implies_true, and_true]
    at hdurations
  obtain ⟨hconnection, hgroup, hlatency, hidle, hpeer, hreceiver, hdrop⟩ := hdurations
  have hfilter : c.packetFilter = [] ∨ c.packetFilter ≠ [] := eq_or_ne _ _
  exact FullConfig.ext
    ((readString_of_written (hblock "congestion" rfl)).mpr (Or.inr h.congestion))
    ((readDuration_of_written (hblock "conntimeo" rfl)).mpr hconnection)
    (readBool_of_written (hblock "drifttracer" rfl))
    (readBool_of_written (hblock "enforcedencryption" rfl))
    (readUint32_of_written (hblock "fc" rfl))
    (readBool_of_written (hblock "groupconnect" rfl))
    ((readDuration_of_written (hblock "groupstabtimeo" rfl)).mpr hgroup)
    (readInt_of_written (hblock "inputbw" rfl))
    (readInt_of_written (hblock "iptos" rfl))
    (readInt_of_written (hblock "ipttl" rfl))
    (readInt_of_written (hblock "ipv6only" rfl))
    ((readUint64_of_written (hblock "kmpreannounce" rfl)).mpr fun hpass => (h.keys hpass).1)
    ((readUint64_of_written (hblock "kmrefreshrate" rfl)).mpr fun hpass => (h.keys hpass).2)
    ((readDuration_of_written (hblock "latency" rfl)).mpr hlatency)
    (readUint32_of_written_int (hblock "lossmaxttl" rfl))
    (readInt_of_written (hblock "maxbw" rfl))
    (readBool_of_written (hblock "messageapi" rfl))
    (readInt_of_written (hblock "mininputbw" rfl))
    h.minVersion.symm
    (readUint32_of_written (hblock "mss" rfl))
    (readBool_of_written (hblock "nakreport" rfl))
    (readInt_of_written (hblock "oheadbw" rfl))
    ((readString_of_written (hblock "packetfilter" rfl)).mpr hfilter)
    (readString_of_written_length (hblock "passphrase" rfl))
    (readUint32_of_written (hblock "payloadsize" rfl))
    (readInt_of_written (hblock "pbkeylen" rfl))
    ((readDuration_of_written (hblock "peeridletimeo" rfl)).mpr hidle)
    ((readDuration_of_written (hblock "peerlatency" rfl)).mpr hpeer)
    (readUint32_of_written_int (hblock "rcvbuf" rfl))
    ((readDuration_of_written (hblock "rcvlatency" rfl)).mpr hreceiver)
    (readUint32_of_written_int (hblock "sndbuf" rfl))
    ((readDuration_of_written (hblock "snddropdelay" rfl)).mpr hdrop)
    (readString_of_written_length (hblock "streamid" rfl))
    (readBool_of_written (hblock "tlpktdrop" rfl))
    ((readString_of_written (hblock "transtype" rfl)).mpr (Or.inr h.transmissionType))
    (readBool_of_written (hblock "tsbpdmode" rfl))
    h.logger.symm
    h.listenerControl.symm
    h.allowPeerIpChange.symm

end

/-- A configuration comes back on top of the default one exactly if a query string can carry it. -/
theorem unmarshalQuery_marshalQuery_iff (codec : QueryCodec) (c : FullConfig Logger Control) :
    unmarshalQuery codec defaultConfig (c.marshalQuery codec) = .ok c ↔ c.Representable := by
  obtain ⟨v, hparse, hblock⟩ := exists_parseQuery_marshalQuery codec c
  have hresult : unmarshalQuery codec defaultConfig (c.marshalQuery codec) =
      .ok ((defaultConfig : FullConfig Logger Control).readValues v) := by
    rw [unmarshalQuery, hparse]
    rfl
  rw [hresult, Except.ok.injEq]
  exact ⟨representable_of_readValues_eq hblock, readValues_eq_of_representable hblock⟩

/-- An encrypted stream with a latency and a refresh rate of its own. -/
def encryptedStream : FullConfig Unit Unit where
  passphrase := goString "correct horse"
  kmRefreshRate := 100000
  latency := 200000000
  streamId := goString "publish/live"
  maxBW := 2500000
  lossMaxTTL := 16

/-- This stream comes back from its query string. -/
theorem encryptedStream_roundTrip :
    unmarshalQuery QueryCodec.firstTexts defaultConfig
      (encryptedStream.marshalQuery QueryCodec.firstTexts) = .ok encryptedStream :=
  (unmarshalQuery_marshalQuery_iff QueryCodec.firstTexts encryptedStream).mpr
    { minVersion := rfl
      allowPeerIpChange := rfl
      logger := rfl
      listenerControl := rfl
      congestion := by decide
      transmissionType := by decide
      durations := by simp [encryptedStream, defaultConfig]
      keys := by decide }

end FullConfig

-- The defaults of both structures are the same.
example : (defaultConfig.full : FullConfig Unit Unit) = FullConfig.defaultConfig := rfl

end Gosrt
