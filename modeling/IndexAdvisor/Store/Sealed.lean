import IndexAdvisor.Store.Checksum
import IndexAdvisor.Text.Hex
import IndexAdvisor.Text.Split
import IndexAdvisor.Text.Utf8

/-!
# Sealed lines

A stored line is a payload behind the checksum of its octets: eight lower-case hexadecimal digits
and a space. A line is opened only if the number in front is the checksum of the rest; that number
may also be written with upper-case digits or with a plus sign and seven digits.
-/

set_option autoImplicit false

namespace IndexAdvisor.Store

open IndexAdvisor.Text

/-- The sealed line of a payload. -/
def sealed (payload : List Char) : List Char :=
  hexDigits 8 (checksum (Utf8.encode payload)).toNat ++ ' ' :: payload

/-- The number in front of a sealed line. -/
def sealNumber? (mark : List Char) : Option Nat :=
  if mark.length = 8 then
    ofHexDigits? (match mark with
      | '+' :: ds => ds
      | ds => ds)
  else none

/-- The payload of a sealed line whose checksum is right. -/
def opened? (line : List Char) : Option (List Char) := do
  let (mark, payload) ← splitAtFirst? ' ' line
  let n ← sealNumber? mark
  if n = (checksum (Utf8.encode payload)).toNat then some payload else none

/-- A character that is no digit does not stand among digits. -/
theorem notMem_hexDigits {c : Char} (hc : ∀ n : Fin 16, c ≠ hexDigit n.val) (n k : Nat) :
    c ∉ hexDigits n k := by
  intro h
  obtain ⟨d, hd, he⟩ := mem_hexDigits h
  exact hc ⟨d, hd⟩ he

/-- The mark of a sealed line is read as the checksum that it writes. -/
theorem sealNumber?_hexDigits (r : UInt32) : sealNumber? (hexDigits 8 r.toNat) = some r.toNat := by
  have hplus : '+' ∉ hexDigits 8 r.toNat := notMem_hexDigits (by decide) 8 _
  have hread : ofHexDigits? (hexDigits 8 r.toNat) = some r.toNat := by
    rw [ofHexDigits?_hexDigits, Nat.mod_eq_of_lt]
    exact r.toNat_lt
  rw [sealNumber?, if_pos (length_hexDigits 8 _)]
  · exact hread
  · intro ds h
    exact hplus (h ▸ List.mem_cons_self)

/-- A sealed line gives its payload back. -/
theorem opened?_sealed (payload : List Char) : opened? (sealed payload) = some payload := by
  have hspace : ' ' ∉ hexDigits 8 (checksum (Utf8.encode payload)).toNat :=
    notMem_hexDigits (by decide) 8 _
  simp [opened?, sealed, splitAtFirst?_append hspace, sealNumber?_hexDigits]

end IndexAdvisor.Store
