/-!
# UTF-8

Texts as octets. A character of several octets is read octet by octet: `Partial` holds what the
octets so far say and which octets may come next, so that overlong forms, surrogates and numbers
beyond U+10FFFF are refused as early as they can be told. Where an octet does not fit, what was
read of the character is one damaged place, and reading starts again at that octet.
-/

set_option autoImplicit false

namespace IndexAdvisor.Text.Utf8

/-- The octets of a text. -/
def encode (cs : List Char) : List UInt8 := cs.flatMap String.utf8EncodeChar

/-- A character of which some octets have been read. -/
structure Partial where
  /-- The bits so far. -/
  value : Nat
  /-- How many octets are missing after the next one. -/
  later : Nat
  /-- The least octet that may come next. -/
  low : Nat
  /-- The greatest octet that may come next. -/
  high : Nat
  deriving DecidableEq, Repr

/-- What the first octet of a character says: the character, the start of one, or nothing. -/
def start (b : Nat) : List (Option Char) × Option Partial :=
  if b < 0x80 then ([some (Char.ofNat b)], none)
  else if 0xC2 ≤ b ∧ b < 0xE0 then ([], some ⟨b - 0xC0, 0, 0x80, 0xBF⟩)
  else if b = 0xE0 then ([], some ⟨0, 1, 0xA0, 0xBF⟩)
  else if b = 0xED then ([], some ⟨0xD, 1, 0x80, 0x9F⟩)
  else if 0xE1 ≤ b ∧ b < 0xF0 then ([], some ⟨b - 0xE0, 1, 0x80, 0xBF⟩)
  else if b = 0xF0 then ([], some ⟨0, 2, 0x90, 0xBF⟩)
  else if 0xF1 ≤ b ∧ b < 0xF4 then ([], some ⟨b - 0xF0, 2, 0x80, 0xBF⟩)
  else if b = 0xF4 then ([], some ⟨4, 2, 0x80, 0x8F⟩)
  else ([none], none)

/-- Reads one octet: what is known to stand in the text now, and what is still open. -/
def advance (pending : Option Partial) (b : Nat) : List (Option Char) × Option Partial :=
  match pending with
  | none => start b
  | some p =>
    if p.low ≤ b ∧ b ≤ p.high then
      let value := p.value * 64 + (b - 0x80)
      match p.later with
      | 0 => ([some (Char.ofNat value)], none)
      | later + 1 => ([], some ⟨value, later, 0x80, 0xBF⟩)
    else
      let r := start b
      (none :: r.1, r.2)

/-- Reads octets after what is still open. -/
def decodeFrom : Option Partial → List UInt8 → List (Option Char)
  | none, [] => []
  | some _, [] => [none]
  | pending, b :: bs =>
    let r := advance pending b.toNat
    r.1 ++ decodeFrom r.2 bs

/-- The characters of some octets in order, `none` for each damaged place. -/
def decode (bs : List UInt8) : List (Option Char) := decodeFrom none bs

/-- The text of some octets, if no place is damaged. -/
def decode? (bs : List UInt8) : Option (List Char) := (decode bs).mapM id

/-- The text of some octets, with U+FFFD for each damaged place. -/
def decodeLossy (bs : List UInt8) : List Char :=
  (decode bs).map fun c => c.getD (Char.ofNat 0xFFFD)

/-! ## Reading what was written -/

theorem decodeFrom_none_cons (n : Nat) (h : n < 256) (bs : List UInt8) :
    decodeFrom none (UInt8.ofNat n :: bs) = (start n).1 ++ decodeFrom (start n).2 bs := by
  simp [decodeFrom, advance, Nat.mod_eq_of_lt h]

theorem decodeFrom_some_cons (p : Partial) (n : Nat) (h : n < 256) (hp : p.low ≤ n ∧ n ≤ p.high)
    (bs : List UInt8) :
    decodeFrom (some p) (UInt8.ofNat n :: bs) =
      match p.later with
      | 0 => some (Char.ofNat (p.value * 64 + (n - 0x80))) :: decodeFrom none bs
      | later + 1 => decodeFrom (some ⟨p.value * 64 + (n - 0x80), later, 0x80, 0xBF⟩) bs := by
  rw [decodeFrom, advance]
  simp only [UInt8.toNat_ofNat', Nat.mod_eq_of_lt h, if_pos hp]
  cases p.later <;> rfl

/-- The first octet of a character of three octets, and the range that it leaves for the second. -/
theorem start_of_three {v : Nat} (hlow : 0x800 ≤ v) (hhigh : v < 0x10000)
    (hv : v < 0xD800 ∨ 0xDFFF < v) : ∃ low high,
      start (v / 4096 + 0xE0) = ([], some ⟨v / 4096, 1, low, high⟩) ∧
        low ≤ v / 64 % 64 + 0x80 ∧ v / 64 % 64 + 0x80 ≤ high := by
  by_cases h0 : v / 4096 = 0
  · exact ⟨0xA0, 0xBF, by rw [h0]; rfl, by omega, by omega⟩
  by_cases hD : v / 4096 = 0xD
  · exact ⟨0x80, 0x9F, by rw [hD]; rfl, by omega, by omega⟩
  refine ⟨0x80, 0xBF, ?_, by omega, by omega⟩
  rw [start, if_neg (by omega), if_neg (by omega), if_neg (by omega), if_neg (by omega),
    if_pos (by omega), Nat.add_sub_cancel]

/-- The first octet of a character of four octets, and the range that it leaves for the second. -/
theorem start_of_four {v : Nat} (hlow : 0x10000 ≤ v) (hhigh : v < 0x110000) : ∃ low high,
    start (v / 262144 + 0xF0) = ([], some ⟨v / 262144, 2, low, high⟩) ∧
      low ≤ v / 4096 % 64 + 0x80 ∧ v / 4096 % 64 + 0x80 ≤ high := by
  by_cases h0 : v / 262144 = 0
  · exact ⟨0x90, 0xBF, by rw [h0]; rfl, by omega, by omega⟩
  by_cases h4 : v / 262144 = 4
  · exact ⟨0x80, 0x8F, by rw [h4]; rfl, by omega, by omega⟩
  refine ⟨0x80, 0xBF, ?_, by omega, by omega⟩
  rw [start, if_neg (by omega), if_neg (by omega), if_neg (by omega), if_neg (by omega),
    if_neg (by omega), if_neg (by omega), if_pos (by omega), Nat.add_sub_cancel]

/-- The octets of one character are read as that character. -/
theorem decodeFrom_utf8EncodeChar (c : Char) (bs : List UInt8) :
    decodeFrom none (String.utf8EncodeChar c ++ bs) = some c :: decodeFrom none bs := by
  have hc : Char.ofNat c.val.toNat = c := Char.ofNat_toNat c
  have hv : c.val.toNat < 0xD800 ∨ 0xDFFF < c.val.toNat ∧ c.val.toNat < 0x110000 := c.valid
  generalize hn : c.val.toNat = v at hc hv
  unfold String.utf8EncodeChar
  simp only [hn]
  split
  · rw [List.cons_append, decodeFrom_none_cons v (by omega), start, if_pos (by omega), hc]
    simp only [List.nil_append, List.cons_append]
  split
  · have hvalue : (v / 64 % 32 + 192 - 0xC0) * 64 + (v % 64 + 128 - 0x80) = v := by omega
    rw [List.cons_append, decodeFrom_none_cons _ (by omega), start, if_neg (by omega),
      if_pos (by omega), List.nil_append, List.cons_append,
      decodeFrom_some_cons _ _ (by omega) (by simp only; omega)]
    simp only [List.nil_append, hvalue, hc]
  split
  · have hlead : v / 4096 % 16 = v / 4096 := by omega
    have hvalue : (v / 4096 * 64 + (v / 64 % 64 + 128 - 0x80)) * 64 + (v % 64 + 128 - 0x80) = v :=
      by omega
    obtain ⟨low, high, hstart, hl, hh⟩ := start_of_three (v := v) (by omega) (by omega) (by omega)
    rw [List.cons_append, hlead, decodeFrom_none_cons _ (by omega), hstart, List.nil_append,
      List.cons_append, decodeFrom_some_cons _ _ (by omega) ⟨hl, hh⟩]
    simp only
    rw [List.cons_append, decodeFrom_some_cons _ _ (by omega) (by simp only; omega)]
    simp only [List.nil_append, hvalue, hc]
  · have hlead : v / 262144 % 8 = v / 262144 := by omega
    have hvalue : ((v / 262144 * 64 + (v / 4096 % 64 + 128 - 0x80)) * 64 +
        (v / 64 % 64 + 128 - 0x80)) * 64 + (v % 64 + 128 - 0x80) = v := by
      omega
    obtain ⟨low, high, hstart, hl, hh⟩ := start_of_four (v := v) (by omega) (by omega)
    rw [List.cons_append, hlead, decodeFrom_none_cons _ (by omega), hstart, List.nil_append,
      List.cons_append, decodeFrom_some_cons _ _ (by omega) ⟨hl, hh⟩]
    simp only
    rw [List.cons_append, decodeFrom_some_cons _ _ (by omega) (by simp only; omega)]
    simp only
    rw [List.cons_append, decodeFrom_some_cons _ _ (by omega) (by simp only; omega)]
    simp only [List.nil_append, hvalue, hc]

/-- The octets of a text are read as that text. -/
theorem decode_encode (cs : List Char) : decode (encode cs) = cs.map some := by
  induction cs with
  | nil => rfl
  | cons c cs ih =>
      rw [encode, List.flatMap_cons, decode, decodeFrom_utf8EncodeChar, List.map_cons]
      exact congrArg (some c :: ·) ih

/-- The octets of a text make that text. -/
theorem decode?_encode (cs : List Char) : decode? (encode cs) = some cs := by
  rw [decode?, decode_encode]
  induction cs with
  | nil => rfl
  | cons c cs ih => simp [List.mapM_cons, ih]

end IndexAdvisor.Text.Utf8
