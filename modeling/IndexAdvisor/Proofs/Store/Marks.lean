import IndexAdvisor.Proofs.Text.Ascii
import IndexAdvisor.Proofs.Text.Breaks
import Mathlib.Data.List.Induction

/-!
# The marks of sealed lines

A line is opened if the number in front of it is the checksum of the rest. The number is read with
digits of either case and with a plus sign in place of a zero in front, so a payload can be opened
from other lines than its sealed one: from those with another spelling of the same number, and from
no others.
-/

set_option autoImplicit false

namespace IndexAdvisor.Text

/-! ## Digits -/

theorem toNat_hexDigit_lt {v : Nat} (hv : v < 16) : (hexDigit v).toNat < 128 := by
  have hdigits : ∀ v : Fin 16, (hexDigit v.val).toNat < 128 := by decide
  exact hdigits ⟨v, hv⟩

/-- Digits count the same in either case, and nothing else is a digit. -/
theorem hexValue?_eq_some_iff {c : Char} {v : Nat} :
    hexValue? c = some v ↔ v < 16 ∧ c.toLower = hexDigit v := by
  by_cases hc : c.toNat < 128
  · have hvalue := forall_ascii
      (P := fun c => ∀ v ∈ hexValue? c, v < 16 ∧ c.toLower = hexDigit v) (by decide +kernel) hc
    have hdigit := forall_ascii
      (P := fun c => ∀ v : Fin 16, c.toLower = hexDigit v.val → hexValue? c = some v.val)
      (by decide +kernel) hc
    exact ⟨fun h => hvalue v h, fun ⟨hv, hlower⟩ => hdigit ⟨v, hv⟩ hlower⟩
  · have habove {d : Char} (hd : d.toNat < 128) : ¬c ≤ d := fun hle => by
      have hle : c.toNat ≤ d.toNat := hle
      omega
    have hnone : hexValue? c = none := by
      rw [hexValue?, if_neg fun h => habove (by decide) h.2, if_neg fun h => habove (by decide) h.2,
        if_neg fun h => habove (by decide) h.2]
    rw [hnone, toLower_of_not_ascii (by omega)]
    refine iff_of_false (by simp) ?_
    rintro ⟨hv, rfl⟩
    exact hc (toNat_hexDigit_lt hv)

theorem ofHexDigits?_concat (cs : List Char) (c : Char) : ofHexDigits? (cs ++ [c]) =
    (ofHexDigits? cs).bind fun n => (hexValue? c).map fun v => 16 * n + v := by
  rw [ofHexDigits?, List.foldlM_append, ← ofHexDigits?]
  simp

/-- **A number is read from its digits**, in either case, and from nothing else. -/
theorem ofHexDigits?_eq_some_iff {cs : List Char} {n : Nat} : ofHexDigits? cs = some n ↔
    n < 16 ^ cs.length ∧ cs.map Char.toLower = hexDigits cs.length n := by
  induction cs using List.reverseRecOn generalizing n with
  | nil =>
      show some 0 = some n ↔ n < 1 ∧ [] = []
      simp [eq_comm]
  | append_singleton cs c ih =>
      have hpow : 16 ^ (cs.length + 1) = 16 * 16 ^ cs.length := Nat.pow_succ'
      rw [ofHexDigits?_concat, Option.bind_eq_some_iff, List.length_append, List.length_singleton,
        hpow, hexDigits, List.map_append, List.map_singleton]
      simp only [ih, Option.map_eq_some_iff, hexValue?_eq_some_iff]
      -- the last digit is what a division by 16 leaves, those before it are the quotient
      constructor
      · rintro ⟨m, ⟨hm, hfront⟩, v, ⟨hv, hlast⟩, rfl⟩
        have hquotient : (16 * m + v) / 16 = m := by omega
        have hremainder : (16 * m + v) % 16 = v := by omega
        rw [hquotient, hremainder, hfront, hlast]
        exact ⟨by omega, rfl⟩
      · rintro ⟨hn, hdigits⟩
        obtain ⟨hfront, hlast⟩ := List.append_inj' hdigits rfl
        exact ⟨n / 16, ⟨by omega, hfront⟩, n % 16,
          ⟨Nat.mod_lt n (by decide), (List.cons.inj hlast).1⟩, by omega⟩

end IndexAdvisor.Text

namespace IndexAdvisor.Store

open IndexAdvisor.Text

/-! ## Marks -/

/-- A mark without a sign: a plus sign in front stands for a zero. -/
def unsigned : List Char → List Char
  | '+' :: ds => '0' :: ds
  | ds => ds

/-- The mark spells the number of a checksum, with letters of either case. -/
def Spells (mark : List Char) (r : UInt32) : Prop :=
  (unsigned mark).map Char.toLower = hexDigits 8 r.toNat

instance (mark : List Char) (r : UInt32) : Decidable (Spells mark r) :=
  inferInstanceAs (Decidable (_ = _))

theorem length_unsigned (mark : List Char) : (unsigned mark).length = mark.length := by
  unfold unsigned
  split <;> rfl

theorem unsigned_of_head? {mark : List Char} (h : mark.head? ≠ some '+') :
    unsigned mark = mark := by
  unfold unsigned
  split
  · exact absurd rfl h
  · rfl

/-- The number of a mark is that of its digits. -/
theorem sealNumber?_eq (mark : List Char) :
    sealNumber? mark = if mark.length = 8 then ofHexDigits? (unsigned mark) else none := by
  by_cases hplus : mark.head? = some '+'
  · obtain ⟨ds, rfl⟩ := List.head?_eq_some_iff.mp hplus
    rfl
  · rw [unsigned_of_head? hplus]
    cases mark with
    | nil => rfl
    | cons c ds =>
        have hc : c ≠ '+' := fun hc => hplus (congrArg some hc)
        simp [sealNumber?, hc]

theorem sealNumber?_eq_some_iff {mark : List Char} {r : UInt32} :
    sealNumber? mark = some r.toNat ↔ Spells mark r := by
  rw [sealNumber?_eq, Spells]
  constructor
  · intro h
    split at h
    · rename_i hlength
      rw [ofHexDigits?_eq_some_iff, length_unsigned, hlength] at h
      exact h.2
    · cases h
  · intro h
    have hlength : mark.length = 8 := by
      rw [← length_unsigned, ← List.length_map Char.toLower, h, length_hexDigits]
    rw [if_pos hlength, ofHexDigits?_eq_some_iff, length_unsigned, hlength]
    exact ⟨r.toNat_lt, h⟩

namespace Spells

variable {mark : List Char} {r : UInt32}

theorem length_eq (h : Spells mark r) : mark.length = 8 := by
  rw [← length_unsigned, ← List.length_map Char.toLower, show _ = _ from h, length_hexDigits]

/-- The characters of a mark are digits, or the sign in front. -/
theorem eq_plus_or_exists_of_mem (h : Spells mark r) {c : Char} (hc : c ∈ mark) :
    c = '+' ∨ ∃ v, v < 16 ∧ c.toLower = hexDigit v := by
  have hmem : c = '+' ∨ c ∈ unsigned mark := by
    unfold unsigned
    split
    · exact (List.mem_cons.mp hc).imp_right (List.mem_cons_of_mem '0')
    · exact Or.inr hc
  refine hmem.imp_right fun hmem => ?_
  exact mem_hexDigits (h ▸ List.mem_map_of_mem hmem)

/-- A mark is ASCII and holds nothing that is blank. -/
theorem of_mem (h : Spells mark r) {c : Char} (hc : c ∈ mark) :
    c.toNat < 128 ∧ 0x20 < c.toNat ∧ isBlank c = false := by
  rcases h.eq_plus_or_exists_of_mem hc with rfl | ⟨v, hv, hlower⟩
  · decide
  · have hascii : c.toNat < 128 := ascii_of_toLower (hlower ▸ toNat_hexDigit_lt hv)
    have hdigits := forall_ascii (P := fun c => ∀ v : Fin 16, c.toLower = hexDigit v.val →
      c.toNat < 128 ∧ 0x20 < c.toNat ∧ isBlank c = false) (by decide +kernel) hascii
    exact hdigits ⟨v, hv⟩ hlower

theorem space_notMem (h : Spells mark r) : ' ' ∉ mark := fun hc =>
  absurd (h.of_mem hc).2.1 (by decide)

end Spells

/-- The digits of a checksum spell it. -/
theorem spells_hexDigits (r : UInt32) : Spells (hexDigits 8 r.toNat) r :=
  sealNumber?_eq_some_iff.mp (sealNumber?_hexDigits r)

/-- **A payload is opened from the spellings of its checksum** in front of it, and from no other
line. -/
theorem opened?_eq_some_iff {line payload : List Char} : opened? line = some payload ↔
    ∃ mark, Spells mark (checksum (Utf8.encode payload)) ∧ line = mark ++ ' ' :: payload := by
  simp only [opened?, bind, Option.bind_eq_some_iff]
  constructor
  · rintro ⟨⟨mark, rest⟩, hsplit, n, hn, hif⟩
    dsimp only at hn hif
    split at hif
    · rename_i hsum
      cases hif
      rw [hsum] at hn
      exact ⟨mark, sealNumber?_eq_some_iff.mp hn, eq_append_of_splitAtFirst? hsplit⟩
    · cases hif
  · rintro ⟨mark, hmark, rfl⟩
    exact ⟨_, splitAtFirst?_append hmark.space_notMem payload, _,
      sealNumber?_eq_some_iff.mpr hmark, if_pos rfl⟩

/-- A mark without a sign and without capitals has no other spelling. -/
theorem Spells.eq_hexDigits {mark : List Char} {r : UInt32} (h : Spells mark r)
    (hplain : ∀ c ∈ mark, c ≠ '+' ∧ c.isUpper = false) : mark = hexDigits 8 r.toNat := by
  have hunsigned : unsigned mark = mark :=
    unsigned_of_head? fun hhead => (hplain '+' (List.mem_of_head? hhead)).1 rfl
  have hlower : mark.map Char.toLower = mark := by
    refine (List.map_congr_left fun c hc => ?_).trans (List.map_id mark)
    by_cases hascii : c.toNat < 128
    · exact forall_ascii (P := fun c => c.isUpper = false → c.toLower = c) (by decide +kernel)
        hascii (hplain c hc).2
    · exact toLower_of_not_ascii (by omega)
  rw [← show _ = _ from h, hunsigned, hlower]

theorem plain_of_mem_hexDigits {n k : Nat} {c : Char} (hc : c ∈ hexDigits n k) :
    c ≠ '+' ∧ c.isUpper = false := by
  have hdigits : ∀ v : Fin 16, hexDigit v.val ≠ '+' ∧ (hexDigit v.val).isUpper = false := by decide
  obtain ⟨v, hv, rfl⟩ := mem_hexDigits hc
  exact hdigits ⟨v, hv⟩

/-- **The sealed line** is the one of these lines with neither a sign nor capitals in front. -/
theorem eq_sealed_iff {line payload : List Char} : line = sealed payload ↔
    opened? line = some payload ∧ ∀ c ∈ line.take 8, c ≠ '+' ∧ c.isUpper = false := by
  constructor
  · rintro rfl
    refine ⟨opened?_sealed payload, ?_⟩
    rw [sealed, List.take_left' (length_hexDigits 8 _)]
    exact fun c hc => plain_of_mem_hexDigits hc
  · rintro ⟨hopened, hplain⟩
    obtain ⟨mark, hmark, rfl⟩ := opened?_eq_some_iff.mp hopened
    rw [List.take_left' hmark.length_eq] at hplain
    rw [sealed, hmark.eq_hexDigits hplain]

/-! ## Other spellings of one digit -/

section Digits

variable {r : UInt32} {i : Nat} {c : Char}

theorem map_toLower_hexDigits (n k : Nat) : (hexDigits n k).map Char.toLower = hexDigits n k := by
  have hdigits : ∀ v : Fin 16, (hexDigit v.val).toLower = hexDigit v.val := by decide
  refine (List.map_congr_left fun c hc => ?_).trans (List.map_id _)
  obtain ⟨v, hv, rfl⟩ := mem_hexDigits hc
  exact hdigits ⟨v, hv⟩

/-- **One digit is spelled in another way** by its capital, and a zero in front by a plus sign. -/
theorem spells_set_iff (hi : i < (hexDigits 8 r.toNat).length) :
    Spells ((hexDigits 8 r.toNat).set i c) r ↔
      c.toLower = (hexDigits 8 r.toNat)[i] ∨
        i = 0 ∧ c = '+' ∧ (hexDigits 8 r.toNat)[i] = '0' := by
  have hplain {d : Char} (hd : d ∈ hexDigits 8 r.toNat) : d ≠ '+' := (plain_of_mem_hexDigits hd).1
  have hlower := map_toLower_hexDigits 8 r.toNat
  rw [Spells]
  generalize hexDigits 8 r.toNat = ds at hi hplain hlower
  -- a plus sign in front is read as a zero, so it stands apart from the digits
  by_cases hsign : i = 0 ∧ c = '+'
  · obtain ⟨rfl, rfl⟩ := hsign
    cases ds with
    | nil => cases hi
    | cons d ds =>
        have hd : d ≠ '+' := hplain List.mem_cons_self
        show '0' :: ds.map Char.toLower = d :: ds ↔ '+' = d ∨ 0 = 0 ∧ '+' = '+' ∧ d = '0'
        rw [(List.cons.inj hlower).2]
        simp [hd.symm, eq_comm]
  · have hhead : (ds.set i c).head? ≠ some '+' := by
      cases ds with
      | nil => cases hi
      | cons d ds =>
          cases i with
          | zero => exact fun h => hsign ⟨rfl, Option.some.inj h⟩
          | succ i => exact fun h => hplain List.mem_cons_self (Option.some.inj h)
    rw [unsigned_of_head? hhead, List.map_set, hlower]
    constructor
    · intro h
      have hget : (ds.set i c.toLower)[i]? = ds[i]? := congrArg (·[i]?) h
      rw [List.getElem?_set_self hi, List.getElem?_eq_getElem hi] at hget
      exact Or.inl (Option.some.inj hget)
    · rintro (h | ⟨rfl, rfl, -⟩)
      · rw [h, List.set_getElem_self]
      · exact absurd ⟨rfl, rfl⟩ hsign

end Digits

/-- An octet of a mark writes a digit in another way: the capital of a letter, or a plus sign in
place of a zero in front. -/
def Respells (i : Nat) (old new : UInt8) : Prop :=
  i < 8 ∧ (0x61 ≤ old.toNat ∧ new.toNat + 0x20 = old.toNat ∨ i = 0 ∧ old = 0x30 ∧ new = 0x2B)

instance (i : Nat) (old new : UInt8) : Decidable (Respells i old new) :=
  inferInstanceAs (Decidable (_ ∧ _))

section Octets

variable {mark : List Char} {r : UInt32} {i : Nat} {old new : UInt8}

theorem Spells.encode_eq (h : Spells mark r) : Utf8.encode mark = mark.map octet :=
  Utf8.encode_of_ascii fun _ hc => (h.of_mem hc).1

theorem Spells.map_ofOctet (h : Spells mark r) : (Utf8.encode mark).map ofOctet = mark := by
  rw [h.encode_eq, List.map_map]
  exact (List.map_congr_left fun c hc => ofOctet_octet (h.of_mem hc).1).trans (List.map_id mark)

/-- An octet of a checksum that is written down is that of a digit. -/
theorem exists_digit_of_octet (hold : (Utf8.encode (hexDigits 8 r.toNat))[i]? = some old) :
    ∃ (hi : i < (hexDigits 8 r.toNat).length) (v : Nat), v < 16 ∧
      (hexDigits 8 r.toNat)[i] = hexDigit v ∧ old = octet (hexDigit v) := by
  rw [(spells_hexDigits r).encode_eq, List.getElem?_map] at hold
  obtain ⟨c, hc, rfl⟩ := Option.map_eq_some_iff.mp hold
  obtain ⟨hi, rfl⟩ := List.getElem?_eq_some_iff.mp hc
  obtain ⟨v, hv, hdigit⟩ := mem_hexDigits (List.getElem_mem hi)
  exact ⟨hi, v, hv, hdigit, congrArg octet hdigit⟩

/-- An octet that writes a digit in another way makes another mark for the same number. -/
theorem exists_spells_of_respells (hold : (Utf8.encode (hexDigits 8 r.toNat))[i]? = some old)
    (h : Respells i old new) : ∃ mark, Spells mark r ∧
      Utf8.encode mark = (Utf8.encode (hexDigits 8 r.toNat)).set i new := by
  have hcapitals := forall_octet (P := fun b => ∀ v : Fin 16,
    0x61 ≤ (octet (hexDigit v.val)).toNat → b.toNat + 0x20 = (octet (hexDigit v.val)).toNat →
      (ofOctet b).toLower = hexDigit v.val) (by decide +kernel) new
  have hzeros : ∀ v : Fin 16, octet (hexDigit v.val) = 0x30 → hexDigit v.val = '0' := by decide
  obtain ⟨hi, v, hv, hdigit, rfl⟩ := exists_digit_of_octet hold
  have hmark : Spells ((hexDigits 8 r.toNat).set i (ofOctet new)) r := by
    rw [spells_set_iff hi, hdigit]
    rcases h.2 with ⟨hletter, hcapital⟩ | ⟨hfirst, hzero, rfl⟩
    · exact Or.inl (hcapitals ⟨v, hv⟩ hletter hcapital)
    · exact Or.inr ⟨hfirst, rfl, hzeros ⟨v, hv⟩ hzero⟩
  refine ⟨_, hmark, ?_⟩
  rw [hmark.encode_eq, (spells_hexDigits r).encode_eq, List.map_set, octet_ofOctet]

/-- **No other octet** makes one. -/
theorem respells_of_spells (hold : (Utf8.encode (hexDigits 8 r.toNat))[i]? = some old)
    (hne : new ≠ old) (hmark : Spells mark r)
    (h : Utf8.encode mark = (Utf8.encode (hexDigits 8 r.toNat)).set i new) :
    Respells i old new := by
  have hcapitals := forall_octet (P := fun b => ∀ v : Fin 16,
    (ofOctet b).toLower = hexDigit v.val → b ≠ octet (hexDigit v.val) →
      0x61 ≤ (octet (hexDigit v.val)).toNat ∧ b.toNat + 0x20 = (octet (hexDigit v.val)).toNat)
    (by decide +kernel) new
  obtain ⟨hi, v, hv, hdigit, rfl⟩ := exists_digit_of_octet hold
  have hset : mark = (hexDigits 8 r.toNat).set i (ofOctet new) := by
    rw [← hmark.map_ofOctet, h, List.map_set, (spells_hexDigits r).map_ofOctet]
  rw [hset, spells_set_iff hi, hdigit] at hmark
  refine ⟨by simpa using hi, ?_⟩
  rcases hmark with hlower | ⟨hfirst, hsign, hzero⟩
  · exact Or.inl (hcapitals ⟨v, hv⟩ hlower hne)
  · have hoctet : octet (ofOctet new) = 0x2B := by rw [hsign]; rfl
    rw [octet_ofOctet] at hoctet
    exact Or.inr ⟨hfirst, by rw [hzero]; rfl, hoctet⟩

end Octets

end IndexAdvisor.Store
