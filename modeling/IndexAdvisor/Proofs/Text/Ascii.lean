import IndexAdvisor.Text.Blank

/-!
# ASCII characters

What is said of all ASCII characters is decided by looking at each of them. Lower case is a matter
of ASCII letters alone: every other character stays as it is.
-/

set_option autoImplicit false

namespace IndexAdvisor.Text

variable {c : Char}

/-- What holds of each of the first characters holds of all ASCII characters. -/
theorem forall_ascii {P : Char → Prop} (h : ∀ n : Fin 128, P (Char.ofNat n.val))
    (hc : c.toNat < 128) : P c := by
  have hP := h ⟨c.toNat, hc⟩
  simp only [Char.ofNat_toNat] at hP
  exact hP

theorem toLower_of_not_ascii (h : 128 ≤ c.toNat) : c.toLower = c := by
  refine dif_neg ?_
  rintro ⟨-, hz⟩
  have hle : c.toNat ≤ 90 := hz
  omega

/-- A character is ASCII if its lower-case letter is. -/
theorem ascii_of_toLower (h : c.toLower.toNat < 128) : c.toNat < 128 := by
  by_cases hc : c.toNat < 128
  · exact hc
  · rwa [toLower_of_not_ascii (by omega)] at h

/-- What lower-casing changes are letters, which are neither blanks nor semicolons. -/
theorem isBlank_toLower (c : Char) :
    isBlank c.toLower = isBlank c ∧ (c.toLower == ';') = (c == ';') := by
  by_cases hc : c.toNat < 128
  · exact forall_ascii (P := fun c => isBlank c.toLower = isBlank c ∧
      (c.toLower == ';') = (c == ';')) (by decide) hc
  · rw [toLower_of_not_ascii (by omega)]
    exact ⟨rfl, rfl⟩

/-! ## Octets -/

/-- The octet of an ASCII character. -/
def octet (c : Char) : UInt8 := UInt8.ofNat c.toNat

/-- The character of an ASCII octet. -/
def ofOctet (b : UInt8) : Char := Char.ofNat b.toNat

/-- What holds of each octet holds of all. -/
theorem forall_octet {P : UInt8 → Prop} (h : ∀ n : Fin 256, P (UInt8.ofNat n.val)) (b : UInt8) :
    P b := by
  have hP := h ⟨b.toNat, b.toNat_lt⟩
  rwa [UInt8.ofNat_toNat] at hP

theorem octet_ofOctet (b : UInt8) : octet (ofOctet b) = b :=
  forall_octet (P := fun b => octet (ofOctet b) = b) (by decide +kernel) b

theorem ofOctet_octet (h : c.toNat < 128) : ofOctet (octet c) = c :=
  forall_ascii (P := fun c => ofOctet (octet c) = c) (by decide +kernel) h

end IndexAdvisor.Text
