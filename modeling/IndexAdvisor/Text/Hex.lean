/-!
# Hexadecimal numbers

Digits are written in lower case and read in either case.
-/

set_option autoImplicit false

namespace IndexAdvisor.Text

/-- The digit of a number below 16. -/
def hexDigit (n : Nat) : Char := Char.ofNat (if n < 10 then 0x30 + n else 0x57 + n)

/-- The last `n` digits of a number. -/
def hexDigits : Nat → Nat → List Char
  | 0, _ => []
  | n + 1, k => hexDigits n (k / 16) ++ [hexDigit (k % 16)]

/-- The value of a digit. -/
def hexValue? (c : Char) : Option Nat :=
  if '0' ≤ c ∧ c ≤ '9' then some (c.toNat - 0x30)
  else if 'a' ≤ c ∧ c ≤ 'f' then some (c.toNat - 0x57)
  else if 'A' ≤ c ∧ c ≤ 'F' then some (c.toNat - 0x37)
  else none

/-- The number that some digits write. -/
def ofHexDigits? (cs : List Char) : Option Nat :=
  cs.foldlM (fun n c => (hexValue? c).map fun v => 16 * n + v) 0

theorem hexValue?_hexDigit {n : Nat} (h : n < 16) : hexValue? (hexDigit n) = some n := by
  have : ∀ n : Fin 16, hexValue? (hexDigit n.val) = some n.val := by decide
  exact this ⟨n, h⟩

@[simp] theorem length_hexDigits (n k : Nat) : (hexDigits n k).length = n := by
  induction n generalizing k with
  | zero => rfl
  | succ n ih => simp [hexDigits, ih]

theorem mem_hexDigits {n k : Nat} {c : Char} (h : c ∈ hexDigits n k) :
    ∃ d, d < 16 ∧ c = hexDigit d := by
  induction n generalizing k with
  | zero => simp [hexDigits] at h
  | succ n ih =>
      rw [hexDigits, List.mem_append, List.mem_singleton] at h
      rcases h with h | rfl
      · exact ih h
      · exact ⟨k % 16, Nat.mod_lt _ (by decide), rfl⟩

/-- Digits written read back, up to the digits that were dropped. -/
theorem ofHexDigits?_hexDigits (n k : Nat) :
    ofHexDigits? (hexDigits n k) = some (k % Nat.pow 16 n) := by
  induction n generalizing k with
  | zero => simp [ofHexDigits?, hexDigits, Nat.mod_one]
  | succ n ih =>
      have hd : hexValue? (hexDigit (k % 16)) = some (k % 16) :=
        hexValue?_hexDigit (Nat.mod_lt _ (by decide))
      have hk : 16 * (k / 16 % Nat.pow 16 n) + k % 16 = k % Nat.pow 16 (n + 1) := by
        have hpow : Nat.pow 16 (n + 1) = 16 * Nat.pow 16 n := Nat.mul_comm _ _
        rw [hpow, Nat.mod_mul]
        omega
      unfold ofHexDigits? at ih ⊢
      rw [hexDigits, List.foldlM_append, ih, ← hk]
      simp [hd]

end IndexAdvisor.Text
