import Gosrt.Lib.Index
import Gosrt.Proofs.Connection
import Gosrt.Spec.AckNumbers

/-!
# `Gosrt.Proofs.AckNumbers`: when the map has the outstanding ACKs

The numbers are issued by a counter that goes from `2^32 - 1` to 1, so what is outstanding is the
end of the sequence of all numbers (`Issued`). A new number is none of them as long as they are
fewer than the counter has values. So the map always has the new one.

`handleACKACK` removes all numbers that are smaller than the one it gets. It compares them as plain
integers, and it also does so for a number that it does not know. This is right exactly if the
numbers compare as they were issued (`tracks_settle_iff`).
-/

set_option autoImplicit false

namespace Gosrt

open Lib

/-- What is left of `ackNumbers` after an ACKACK: the numbers that are not smaller. -/
theorem Connection.lookup_discardBelow (m : AList fun _ : UInt32 => Int) (n i : UInt32) :
    (discardBelow m n).lookup i = if i < n then none else m.lookup i := by
  unfold discardBelow
  rw [lookup_foldl_erase]
  by_cases hlt : i < n
  · rw [if_pos hlt]
    split
    · rfl
    · rename_i hmem
      -- A key that is not in the map has no entry.
      rw [AList.lookup_eq_none, AList.mem_keys]
      intro hkey
      exact hmem (List.mem_filter.mpr ⟨hkey, by simpa using hlt⟩)
  · rw [if_neg hlt, if_neg]
    intro hmem
    exact hlt (by simpa using (List.mem_filter.mp hmem).2)

namespace Acking

/-! ### The numbers -/

/-- The number of the ACK with index `j`, from 0. -/
def number (j : Nat) : UInt32 := UInt32.ofNat (1 + j % (2 ^ 32 - 1))

theorem toNat_number (j : Nat) : (number j).toNat = 1 + j % (2 ^ 32 - 1) := by
  unfold number
  rw [UInt32.toNat_ofNat_of_lt']
  have hmod := Nat.mod_lt j (show 2 ^ 32 - 1 > 0 by decide)
  show 1 + j % (2 ^ 32 - 1) < 2 ^ 32
  omega

/-- Two ACKs have the same number only if they are at least a whole round apart. -/
theorem number_ne {i j : Nat} (hlt : i < j) (hclose : j - i < 2 ^ 32 - 1) :
    number i ≠ number j := by
  intro heq
  have hnat := congrArg UInt32.toNat heq
  rw [toNat_number, toNat_number] at hnat
  omega

/-- The counter with a value. -/
def ackNumber (value : UInt32) : Number := { Number.new 1 maxTimestamp with value := value }

theorem val_ackNumber (value : UInt32) : (ackNumber value).val = value := rfl

/-- `nextACKNumber` counts to the highest timestamp and then comes to zero. -/
theorem inc_ackNumber (value : UInt32) : (ackNumber value).inc =
    if value = maxTimestamp then ackNumber 0 else ackNumber (value + 1) := by
  unfold Number.inc
  by_cases hlast : value = maxTimestamp
  · rw [if_pos hlast]
    exact if_pos (beq_iff_eq.mpr hlast)
  · rw [if_neg hlast]
    exact if_neg (by rw [beq_iff_eq]; exact hlast)

/-- What `sendACK` does to the counter. -/
theorem ackNumber_succ (total : Nat) :
    (if (ackNumber (number total)).inc.val = 0 then (ackNumber (number total)).inc.inc
      else (ackNumber (number total)).inc) = ackNumber (number (total + 1)) := by
  have hnumber := toNat_number total
  have hnext := toNat_number (total + 1)
  have hmax : maxTimestamp.toNat = 2 ^ 32 - 1 := rfl
  rw [inc_ackNumber]
  by_cases hlast : number total = maxTimestamp
  · -- The counter is at its end: 0 is left out, and 1 comes next.
    have hone : number (total + 1) = 1 := by
      rw [hlast, hmax] at hnumber
      apply UInt32.toNat_inj.mp
      rw [hnext, show (1 : UInt32).toNat = 1 from rfl]
      omega
    rw [if_pos hlast, val_ackNumber, if_pos rfl, hone]
    rfl
  · have hne : (number total).toNat ≠ maxTimestamp.toNat := fun h => hlast (UInt32.toNat_inj.mp h)
    have hsucc : number total + 1 = number (total + 1) := by
      apply UInt32.toNat_inj.mp
      rw [UInt32.toNat_add, hnext, hnumber, show (1 : UInt32).toNat = 1 from rfl]
      omega
    have hpos : number (total + 1) ≠ 0 := by
      intro hzero
      rw [hzero, show (0 : UInt32).toNat = 0 from rfl] at hnext
      omega
    rw [if_neg hlast, hsucc, val_ackNumber, if_neg hpos]

/-- What is outstanding is the end of the sequence of all numbers that were issued. -/
structure Issued (s : Acking) : Prop where
  sequence : ∃ total, s.connection.nextACKNumber = ackNumber (number total) ∧
    s.outstanding.map Prod.fst <:+ (List.range total).map number
  nodup : (s.outstanding.map Prod.fst).Nodup

theorem issued_init (config : SrtConnConfig) : (init config).Issued :=
  ⟨⟨0, rfl, List.suffix_refl []⟩, List.nodup_nil⟩

/-- An element of the end of a sequence, by its index. -/
theorem exists_of_mem_suffix {total : Nat} {l : List UInt32}
    (h : l <:+ (List.range total).map number) {n : UInt32} (hn : n ∈ l) :
    ∃ j, j < total ∧ total - j ≤ l.length ∧ n = number j := by
  obtain ⟨front, hfront⟩ := h
  obtain ⟨k, hk, rfl⟩ := List.getElem_of_mem hn
  have hlen := congrArg List.length hfront
  rw [List.length_append, List.length_map, List.length_range] at hlen
  refine ⟨front.length + k, by omega, by omega, ?_⟩
  have hget : (front ++ l)[front.length + k]? = some l[k] := by
    rw [List.getElem?_append_right (Nat.le_add_right _ _), Nat.add_sub_cancel_left]
    exact List.getElem?_eq_getElem hk
  rw [hfront, List.getElem?_map, List.getElem?_range (by omega)] at hget
  exact (Option.some.inj hget).symm

/-- The next number is not outstanding. -/
theorem Issued.next_notMem {s : Acking} (h : s.Issued) (hbound : s.outstanding.length < 2 ^ 31) :
    s.connection.nextACKNumber.val ∉ s.outstanding.map Prod.fst := by
  obtain ⟨total, hnext, hsuffix⟩ := h.sequence
  intro hmem
  obtain ⟨j, hj, hclose, heq⟩ := exists_of_mem_suffix hsuffix hmem
  rw [List.length_map] at hclose
  rw [hnext] at heq
  exact number_ne hj (by omega) heq.symm

/-! ### The list -/

section
variable {n : UInt32} {outstanding : List (UInt32 × Int)}

/-- The list cut at a number. -/
theorem exists_cut_at (h : n ∈ outstanding.map Prod.fst) :
    ∃ sent, outstanding = before n outstanding ++ (n, sent) :: after n outstanding := by
  unfold before after
  induction outstanding with
  | nil => cases h
  | cons x outstanding ih =>
    by_cases hx : x.1 = n
    · refine ⟨x.2, ?_⟩
      rw [List.takeWhile_cons_of_neg (by simp [hx]), List.dropWhile_cons_of_neg (by simp [hx]),
        ← hx]
      rfl
    · obtain ⟨sent, hcut⟩ := ih ((List.mem_cons.mp h).resolve_left fun heq => hx heq.symm)
      refine ⟨sent, ?_⟩
      rw [List.takeWhile_cons_of_pos (by simp [hx]), List.dropWhile_cons_of_pos (by simp [hx]),
        List.cons_append, ← hcut]

theorem fst_ne_of_mem_before {x : UInt32 × Int} (h : x ∈ before n outstanding) : x.1 ≠ n := by
  have hx := List.mem_takeWhile_imp h
  simpa using hx

theorem after_suffix (n : UInt32) (outstanding : List (UInt32 × Int)) :
    after n outstanding <:+ outstanding :=
  (List.tail_suffix _).trans (List.dropWhile_suffix _)

theorem settle_suffix (n : UInt32) (outstanding : List (UInt32 × Int)) :
    settle n outstanding <:+ outstanding := by
  unfold settle
  split
  · exact after_suffix n outstanding
  · exact List.suffix_refl _

/-- The greater numbers are the later ones exactly if the numbers compare in the order of their
issue. -/
theorem greater_iff_after (hnodup : (outstanding.map Prod.fst).Nodup)
    (hmem : n ∈ outstanding.map Prod.fst) :
    (∀ x : UInt32 × Int, n < x.1 ∧ x ∈ outstanding ↔ x ∈ after n outstanding) ↔
      (∀ x ∈ before n outstanding, x.1 < n) ∧ ∀ x ∈ after n outstanding, n < x.1 := by
  obtain ⟨sent, hcut⟩ := exists_cut_at hmem
  have hsplit (x : UInt32 × Int) : x ∈ outstanding ↔
      x ∈ before n outstanding ∨ x = (n, sent) ∨ x ∈ after n outstanding := by
    rw [← List.mem_cons, ← List.mem_append, ← hcut]
  constructor
  · intro h
    refine ⟨fun x hx => ?_, fun x hx => ((h x).mpr hx).1⟩
    -- An earlier one is not a later one, so it is not greater.
    have hnotAfter : x ∉ after n outstanding := by
      rw [hcut, List.map_append, List.map_cons] at hnodup
      intro hafter
      exact (List.nodup_append.mp hnodup).2.2 x.1 (List.mem_map_of_mem hx) x.1
        (List.mem_cons_of_mem _ (List.mem_map_of_mem hafter)) rfl
    have hle : ¬ n < x.1 := fun hlt => hnotAfter ((h x).mp ⟨hlt, (hsplit x).mpr (Or.inl hx)⟩)
    exact UInt32.lt_of_le_of_ne (UInt32.not_lt.mp hle) (fst_ne_of_mem_before hx)
  · rintro ⟨hbefore, hafter⟩ x
    rw [hsplit]
    constructor
    · rintro ⟨hlt, hx | rfl | hx⟩
      · exact absurd (hbefore x hx) (UInt32.lt_asymm hlt)
      · exact absurd hlt (UInt32.lt_irrefl n)
      · exact hx
    · intro hx
      exact ⟨hafter x hx, Or.inr (Or.inr hx)⟩

/-- With different numbers, an entry is the one that a search finds. -/
theorem sentAt_eq_some_iff (hnodup : (outstanding.map Prod.fst).Nodup) {sent : Int} :
    sentAt n outstanding = some sent ↔ (n, sent) ∈ outstanding := by
  induction outstanding with
  | nil => simp [sentAt]
  | cons x outstanding ih =>
    obtain ⟨hx, hnodup⟩ := List.nodup_cons.mp hnodup
    unfold sentAt at ih ⊢
    rw [List.mem_cons]
    by_cases heq : x.1 = n
    · rw [List.find?_cons_of_pos (by simp [heq])]
      subst heq
      constructor
      · intro h
        cases h
        exact Or.inl rfl
      · rintro (h | h)
        · rw [← h]
          rfl
        · exact absurd (List.mem_map_of_mem h) hx
    · rw [List.find?_cons_of_neg (by simp [heq]), ih hnodup]
      refine ⟨Or.inr, fun h => h.resolve_left fun hcons => heq ?_⟩
      rw [← hcons]

end

/-! ### The steps -/

section
variable {s : Acking}

/-- A new number is none of the outstanding ones, so the map gets an entry more. -/
theorem tracks_sendACK (hissued : s.Issued) (htracks : s.Tracks)
    (hbound : s.outstanding.length < 2 ^ 31) (now : Int) {s' : Acking}
    (hs' : step s (.sendACK now) = some s') : s'.Issued ∧ s'.Tracks := by
  have hnew := hissued.next_notMem hbound
  obtain ⟨total, hnext, hsuffix⟩ := hissued.sequence
  cases hs'
  refine ⟨⟨⟨total + 1, ?_, ?_⟩, ?_⟩, ?_⟩
  · show (if s.connection.nextACKNumber.inc.val = 0 then s.connection.nextACKNumber.inc.inc
      else s.connection.nextACKNumber.inc) = _
    rw [hnext]
    exact ackNumber_succ total
  · rw [List.map_append, List.range_succ, List.map_append, hnext]
    obtain ⟨front, hfront⟩ := hsuffix
    exact ⟨front, by rw [← hfront, List.append_assoc]; rfl⟩
  · rw [List.map_append]
    exact List.nodup_append.mpr ⟨hissued.nodup, List.nodup_singleton _, by
      rintro a ha b hb rfl
      rw [List.map_cons, List.map_nil, List.mem_singleton] at hb
      rw [hb] at ha
      exact hnew ha⟩
  · intro number sent
    show (s.connection.ackNumbers.insert s.connection.nextACKNumber.val now).lookup number
      = some sent ↔ (number, sent) ∈ s.outstanding ++ [(s.connection.nextACKNumber.val, now)]
    rw [List.mem_append, List.mem_singleton, Prod.mk.injEq]
    by_cases heq : number = s.connection.nextACKNumber.val
    · rw [heq, AList.lookup_insert]
      constructor
      · intro h
        cases h
        exact Or.inr ⟨rfl, rfl⟩
      · rintro (hmem | ⟨-, rfl⟩)
        · exact absurd (List.mem_map_of_mem hmem) hnew
        · rfl
    · rw [AList.lookup_insert_ne heq, htracks]
      exact ⟨Or.inl, fun h => h.resolve_right fun hboth => heq hboth.1⟩

/-- What is outstanding after an ACKACK is again the end of the sequence. -/
theorem issued_receive (hissued : s.Issued) (p : Packet) (now : Int) {s' : Acking}
    (hs' : step s (.receive p now) = some s') : s'.Issued := by
  obtain ⟨total, hnext, hsuffix⟩ := hissued.sequence
  cases hs'
  have hsettled : (settle p.header.typeSpecific s.outstanding).map Prod.fst
      <:+ s.outstanding.map Prod.fst :=
    (settle_suffix p.header.typeSpecific s.outstanding).map Prod.fst
  refine ⟨⟨total, ?_, hsettled.trans hsuffix⟩, hissued.nodup.sublist hsettled.sublist⟩
  show (s.connection.handleACKACK p now).1.nextACKNumber = _
  unfold Connection.handleACKACK
  dsimp only
  split
  · exact hnext
  · exact hnext

/-- Both branches of `handleACKACK` leave the numbers that are greater than that of the ACKACK. -/
theorem lookup_handleACKACK (p : Packet) (now : Int) (i : UInt32) :
    (s.connection.handleACKACK p now).1.ackNumbers.lookup i
      = if i ≤ p.header.typeSpecific then none else s.connection.ackNumbers.lookup i := by
  have hle : i ≤ p.header.typeSpecific ↔ i < p.header.typeSpecific ∨ i = p.header.typeSpecific := by
    rw [UInt32.le_iff_toNat_le, UInt32.lt_iff_toNat_lt, ← UInt32.toNat_inj]
    exact Nat.le_iff_lt_or_eq
  unfold Connection.handleACKACK
  dsimp only
  split
  · rw [Connection.lookup_discardBelow]
    by_cases heq : i = p.header.typeSpecific
    · rw [if_pos (hle.mpr (Or.inr heq)), heq, AList.lookup_erase, ite_self]
    · rw [AList.lookup_erase_ne heq]
      exact if_congr (by rw [hle, or_iff_left heq]) rfl rfl
  · rename_i hnone
    rw [Connection.lookup_discardBelow]
    by_cases heq : i = p.header.typeSpecific
    · -- The number is unknown, so there was nothing to remove.
      rw [if_pos (hle.mpr (Or.inr heq)), heq, hnone, ite_self]
    · exact if_congr (by rw [hle, or_iff_left heq]) rfl rfl

/-- In a map that was right, what is left is right if the greater numbers are the later ones. -/
theorem tracks_settle_iff (hissued : s.Issued) (htracks : s.Tracks) (p : Packet) (now : Int) :
    (∀ s', step s (.receive p now) = some s' → s'.Tracks) ↔ s.Compares (.receive p now) := by
  have hleft : (∀ s', step s (.receive p now) = some s' → s'.Tracks) ↔
      ∀ x : UInt32 × Int, p.header.typeSpecific < x.1 ∧ x ∈ s.outstanding ↔
        x ∈ settle p.header.typeSpecific s.outstanding := by
    have hlookup (i : UInt32) (sent : Int) :
        (s.connection.handleACKACK p now).1.ackNumbers.lookup i = some sent ↔
          p.header.typeSpecific < i ∧ (i, sent) ∈ s.outstanding := by
      rw [lookup_handleACKACK, ← htracks, ← UInt32.not_le]
      split <;> simp [*]
    constructor
    · intro h x
      exact (hlookup x.1 x.2).symm.trans (h _ rfl x.1 x.2)
    · intro h s' hs' i sent
      cases hs'
      exact (hlookup i sent).trans (h (i, sent))
  rw [hleft]
  unfold Compares settle
  dsimp only
  split
  · rename_i hmem
    exact greater_iff_after hissued.nodup hmem
  · constructor
    · intro h x hx
      exact ((h x).mpr hx).1
    · intro h x
      exact ⟨And.right, fun hx => ⟨h x hx, hx⟩⟩

/-- The sample is the right one. -/
theorem samples_handleACKACK (hissued : s.Issued) (htracks : s.Tracks) (p : Packet) (now : Int) :
    s.SamplesRightly (.receive p now) := by
  have hsent : sentAt p.header.typeSpecific s.outstanding
      = s.connection.ackNumbers.lookup p.header.typeSpecific := by
    apply Option.ext
    intro sent
    rw [sentAt_eq_some_iff hissued.nodup, htracks]
  unfold SamplesRightly
  dsimp only
  rw [hsent]
  unfold Connection.handleACKACK
  dsimp only
  split
  · rename_i sent hsome
    rw [hsome]
    rfl
  · rename_i hnone
    rw [hnone]
    rfl

/-- The step is right exactly if the numbers compare in the order of their issue. -/
theorem bookkeeps_iff_compares (hissued : s.Issued) (htracks : s.Tracks) (e : Event)
    (hbound : s.Bounded e) : s.Bookkeeps e ↔ s.Compares e := by
  unfold Bookkeeps
  cases e with
  | sendACK now =>
    refine ⟨fun _ => trivial, fun _ => ⟨fun s' hs' => ?_, trivial⟩⟩
    exact (tracks_sendACK hissued htracks hbound now hs').2
  | receive p now =>
    rw [tracks_settle_iff hissued htracks p now]
    exact and_iff_left (samples_handleACKACK hissued htracks p now)

end

/-! ### Runs -/

/-- The history of a connection with fewer than `2^31` outstanding ACKs is right exactly if the
numbers compare in the order of their issue at each ACKACK. -/
theorem bookkeeps_iff (config : SrtConnConfig) (events : List Event)
    (hbound : RunMeets step Bounded (init config) events) :
    RunMeets step Bookkeeps (init config) events ↔ RunMeets step Compares (init config) events := by
  refine runMeets_congr_of (fun s => s.Issued ∧ s.Tracks) ?_ ?_ hbound ⟨issued_init config, ?_⟩
  · rintro s e hb ⟨hissued, htracks⟩
    exact bookkeeps_iff_compares hissued htracks e hb
  · rintro s e s' hb hright ⟨hissued, htracks⟩ hs'
    refine ⟨?_, hright.1 s' hs'⟩
    cases e with
    | sendACK now => exact (tracks_sendACK hissued htracks hb now hs').1
    | receive p now => exact issued_receive hissued p now hs'
  · intro number sent
    show (∅ : AList fun _ : UInt32 => Int).lookup number = some sent ↔ (number, sent) ∈ []
    simp

/-- An ACKACK that arrives 10 ns after the start, for the number `n`. -/
def sampleACKACK (n : UInt32) : Event :=
  .receive ((Connection.new (Sample.connConfig 4 2)).ackackPacket n 0) 10

/-- Two ACKs, and the answer to the second one. -/
theorem bookkeeps_answered :
    RunMeets step Bookkeeps (init (Sample.connConfig 4 2))
      [.sendACK 0, .sendACK 5, sampleACKACK 2] := by
  exact (bookkeeps_iff (Sample.connConfig 4 2) [.sendACK 0, .sendACK 5, sampleACKACK 2]
    (by decide)).mpr (by decide)

/-- One ACK with the number 1. An ACKACK for the number 5, which was not issued, removes it. -/
theorem unknown_purges :
    RunMeets step Bounded (init (Sample.connConfig 4 2)) [.sendACK 0, sampleACKACK 5] ∧
      ¬RunMeets step Bookkeeps (init (Sample.connConfig 4 2)) [.sendACK 0, sampleACKACK 5] := by
  refine ⟨by decide, fun h => ?_⟩
  have htracks := (h.2 _ rfl).1.1 _ rfl 1 0
  exact absurd (htracks.mpr (by decide)) (by decide)

end Acking

end Gosrt
