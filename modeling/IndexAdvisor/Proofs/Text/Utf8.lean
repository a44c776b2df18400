import IndexAdvisor.Text.Utf8

/-!
# Octets that are read are the octets that are written

A text that is read without damage is written again as the very octets that it was read from: no
character is read from two different runs of octets.
-/

set_option autoImplicit false

namespace IndexAdvisor.Text.Utf8

/-! ## Octets of a character -/

theorem ofNat_eq_of_toNat {n : Nat} {b : UInt8} (h : n = b.toNat) : UInt8.ofNat n = b := by
  rw [h, UInt8.ofNat_toNat]

/-- The number of a character. -/
theorem toNat_val_ofNat {v : Nat} (h : v.isValidChar) : (Char.ofNat v).val.toNat = v := by
  rw [Char.ofNat, dif_pos h]
  rfl

/-- The octets of the character with a number. -/
theorem utf8EncodeChar_ofNat {v : Nat} (h : v.isValidChar) : String.utf8EncodeChar (Char.ofNat v) =
    if v ≤ 0x7F then [UInt8.ofNat v]
    else if v ≤ 0x7FF then [UInt8.ofNat (v / 64 % 32 + 0xC0), UInt8.ofNat (v % 64 + 0x80)]
    else if v ≤ 0xFFFF then
      [UInt8.ofNat (v / 4096 % 16 + 0xE0), UInt8.ofNat (v / 64 % 64 + 0x80),
        UInt8.ofNat (v % 64 + 0x80)]
    else
      [UInt8.ofNat (v / 262144 % 8 + 0xF0), UInt8.ofNat (v / 4096 % 64 + 0x80),
        UInt8.ofNat (v / 64 % 64 + 0x80), UInt8.ofNat (v % 64 + 0x80)] := by
  unfold String.utf8EncodeChar
  simp only [toNat_val_ofNat h]

/-- The octets of a character of one octet. -/
theorem utf8EncodeChar_one {a : UInt8} (ha : a.toNat < 0x80) :
    String.utf8EncodeChar (Char.ofNat a.toNat) = [a] := by
  have hvalid : a.toNat.isValidChar := by
    unfold Nat.isValidChar
    omega
  rw [utf8EncodeChar_ofNat hvalid, if_pos (by omega), UInt8.ofNat_toNat]

/-- The octets of a character of two octets. -/
theorem utf8EncodeChar_two {a b : UInt8} (ha : 0xC2 ≤ a.toNat ∧ a.toNat < 0xE0)
    (hb : 0x80 ≤ b.toNat ∧ b.toNat ≤ 0xBF) :
    String.utf8EncodeChar (Char.ofNat ((a.toNat - 0xC0) * 64 + (b.toNat - 0x80))) = [a, b] := by
  have hvalid : ((a.toNat - 0xC0) * 64 + (b.toNat - 0x80)).isValidChar := by
    unfold Nat.isValidChar
    omega
  rw [utf8EncodeChar_ofNat hvalid, if_neg (by omega), if_pos (by omega),
    ofNat_eq_of_toNat (b := a) (by omega), ofNat_eq_of_toNat (b := b) (by omega)]

/-- The octets of a character of three octets. -/
theorem utf8EncodeChar_three {a b c : UInt8} (ha : 0xE0 ≤ a.toNat ∧ a.toNat < 0xF0)
    (hb : 0x80 ≤ b.toNat ∧ b.toNat ≤ 0xBF) (hlong : a.toNat = 0xE0 → 0xA0 ≤ b.toNat)
    (hsurrogate : a.toNat = 0xED → b.toNat ≤ 0x9F) (hc : 0x80 ≤ c.toNat ∧ c.toNat ≤ 0xBF) :
    String.utf8EncodeChar (Char.ofNat
      (((a.toNat - 0xE0) * 64 + (b.toNat - 0x80)) * 64 + (c.toNat - 0x80))) = [a, b, c] := by
  have hvalid : (((a.toNat - 0xE0) * 64 + (b.toNat - 0x80)) * 64 +
      (c.toNat - 0x80)).isValidChar := by
    unfold Nat.isValidChar
    omega
  rw [utf8EncodeChar_ofNat hvalid, if_neg (by omega), if_neg (by omega), if_pos (by omega),
    ofNat_eq_of_toNat (b := a) (by omega), ofNat_eq_of_toNat (b := b) (by omega),
    ofNat_eq_of_toNat (b := c) (by omega)]

/-- The octets of a character of four octets. -/
theorem utf8EncodeChar_four {a b c d : UInt8} (ha : 0xF0 ≤ a.toNat ∧ a.toNat < 0xF5)
    (hb : 0x80 ≤ b.toNat ∧ b.toNat ≤ 0xBF) (hlong : a.toNat = 0xF0 → 0x90 ≤ b.toNat)
    (hgreat : a.toNat = 0xF4 → b.toNat ≤ 0x8F) (hc : 0x80 ≤ c.toNat ∧ c.toNat ≤ 0xBF)
    (hd : 0x80 ≤ d.toNat ∧ d.toNat ≤ 0xBF) :
    String.utf8EncodeChar (Char.ofNat
      ((((a.toNat - 0xF0) * 64 + (b.toNat - 0x80)) * 64 + (c.toNat - 0x80)) * 64 +
        (d.toNat - 0x80))) = [a, b, c, d] := by
  have hvalid : ((((a.toNat - 0xF0) * 64 + (b.toNat - 0x80)) * 64 + (c.toNat - 0x80)) * 64 +
      (d.toNat - 0x80)).isValidChar := by
    unfold Nat.isValidChar
    omega
  rw [utf8EncodeChar_ofNat hvalid, if_neg (by omega), if_neg (by omega), if_neg (by omega),
    ofNat_eq_of_toNat (b := a) (by omega), ofNat_eq_of_toNat (b := b) (by omega),
    ofNat_eq_of_toNat (b := c) (by omega), ofNat_eq_of_toNat (b := d) (by omega)]

/-! ## Octet by octet -/

/-- A text is read exactly if all its characters are, in order. -/
theorem mapM_id_eq_some_iff {α : Type} {os : List (Option α)} {as : List α} :
    os.mapM id = some as ↔ os = as.map some := by
  induction os generalizing as with
  | nil => cases as <;> simp
  | cons o os ih =>
      rw [List.mapM_cons]
      cases o with
      | none => cases as <;> simp
      | some b =>
          cases hos : os.mapM id with
          | none =>
              refine ⟨fun h => by simp at h, fun h => ?_⟩
              cases as with
              | nil => simp at h
              | cons a as =>
                  rw [ih.mpr (List.cons.inj h).2] at hos
                  cases hos
          | some bs =>
              have hbs := ih.mp hos
              cases as with
              | nil => simp
              | cons a as =>
                  simp only [id, bind, Option.bind, pure, hbs, List.map_cons, Option.some.injEq,
                    List.cons.injEq]
                  exact and_congr_right fun _ =>
                    (List.map_inj_right fun _ _ hab => Option.some.inj hab).symm

/-- What a first octet can say. The bounds for the second octet keep out overlong forms,
surrogates and numbers that are too great. -/
inductive First (b : Nat) : List (Option Char) × Option Partial → Prop
  | damaged : First b ([none], none)
  | one (h : b < 0x80) : First b ([some (Char.ofNat b)], none)
  | two (hb : 0xC2 ≤ b ∧ b < 0xE0) : First b ([], some ⟨b - 0xC0, 0, 0x80, 0xBF⟩)
  | three {low high : Nat} (hb : 0xE0 ≤ b ∧ b < 0xF0) (hrange : 0x80 ≤ low ∧ high ≤ 0xBF)
      (hlong : b = 0xE0 → 0xA0 ≤ low) (hsurrogate : b = 0xED → high ≤ 0x9F) :
      First b ([], some ⟨b - 0xE0, 1, low, high⟩)
  | four {low high : Nat} (hb : 0xF0 ≤ b ∧ b < 0xF5) (hrange : 0x80 ≤ low ∧ high ≤ 0xBF)
      (hlong : b = 0xF0 → 0x90 ≤ low) (hgreat : b = 0xF4 → high ≤ 0x8F) :
      First b ([], some ⟨b - 0xF0, 2, low, high⟩)

theorem first_start (b : Nat) : First b (start b) := by
  unfold start
  split
  · exact .one ‹_›
  split
  · exact .two ‹_›
  split
  · subst b
    exact .three (by decide) (by decide) (by decide) (by decide)
  split
  · subst b
    exact .three (by decide) (by decide) (by decide) (by decide)
  split
  · exact .three (by omega) (by decide) (by omega) (by omega)
  split
  · subst b
    exact .four (by decide) (by decide) (by decide) (by decide)
  split
  · exact .four (by omega) (by decide) (by omega) (by omega)
  split
  · subst b
    exact .four (by decide) (by decide) (by decide) (by decide)
  · exact .damaged

/-- Where a character is open and no place is damaged, an octet follows that fits. -/
theorem exists_of_decodeFrom_some {p : Partial} {bs : List UInt8} {cs : List Char}
    (h : decodeFrom (some p) bs = cs.map some) : ∃ b rest, bs = b :: rest ∧
      p.low ≤ b.toNat ∧ b.toNat ≤ p.high ∧
      match p.later with
      | 0 => ∃ ds, cs = Char.ofNat (p.value * 64 + (b.toNat - 0x80)) :: ds ∧
          decodeFrom none rest = ds.map some
      | later + 1 =>
        decodeFrom (some ⟨p.value * 64 + (b.toNat - 0x80), later, 0x80, 0xBF⟩) rest =
          cs.map some := by
  cases bs with
  | nil =>
      rw [decodeFrom] at h
      cases cs <;> simp at h
  | cons b rest =>
      rw [decodeFrom, advance] at h
      by_cases hfit : p.low ≤ b.toNat ∧ b.toNat ≤ p.high
      · refine ⟨b, rest, rfl, hfit.1, hfit.2, ?_⟩
        simp only [if_pos hfit] at h
        cases hlater : p.later with
        | zero =>
            rw [hlater] at h
            cases cs with
            | nil => simp at h
            | cons c ds =>
                simp only [List.cons_append, List.nil_append, List.map_cons, List.cons.injEq,
                  Option.some.injEq] at h
                exact ⟨ds, by rw [h.1], h.2⟩
        | succ later =>
            rw [hlater] at h
            exact h
      · simp only [if_neg hfit] at h
        cases cs <;> simp at h

/-- Octets that are read without damage begin with the octets of the first character. -/
theorem exists_char_of_decodeFrom {b : UInt8} {rest : List UInt8} {cs : List Char}
    (h : decodeFrom none (b :: rest) = cs.map some) : ∃ c ds front more, cs = c :: ds ∧
      String.utf8EncodeChar c = b :: front ∧ rest = front ++ more ∧
      decodeFrom none more = ds.map some := by
  have hb := b.toNat_lt
  rw [decodeFrom, advance] at h
  cases hfirst : start b.toNat with
  | mk out pending =>
      have hspec := first_start b.toNat
      rw [hfirst] at hspec h
      -- the first octet tells how many are to follow, and what the next one may be
      cases hspec with
      | damaged => cases cs <;> simp at h
      | one hlt =>
          cases cs with
          | nil => simp at h
          | cons c ds =>
              simp only [List.cons_append, List.nil_append, List.map_cons, List.cons.injEq,
                Option.some.injEq] at h
              exact ⟨c, ds, [], rest, rfl, h.1 ▸ utf8EncodeChar_one hlt, rfl, h.2⟩
      | two hb =>
          obtain ⟨b₂, more, rfl, hlow, hhigh, ds, rfl, hds⟩ := exists_of_decodeFrom_some h
          exact ⟨_, ds, [b₂], more, rfl, utf8EncodeChar_two hb ⟨hlow, hhigh⟩, rfl, hds⟩
      | three hb hrange hlong hsurrogate =>
          obtain ⟨b₂, rest₂, rfl, hlow₂, hhigh₂, h₂⟩ := exists_of_decodeFrom_some h
          obtain ⟨b₃, more, rfl, hlow₃, hhigh₃, ds, rfl, hds⟩ := exists_of_decodeFrom_some h₂
          have hchar := utf8EncodeChar_three hb
            ⟨Nat.le_trans hrange.1 hlow₂, Nat.le_trans hhigh₂ hrange.2⟩
            (fun hfirst => Nat.le_trans (hlong hfirst) hlow₂)
            (fun hfirst => Nat.le_trans hhigh₂ (hsurrogate hfirst)) ⟨hlow₃, hhigh₃⟩
          exact ⟨_, ds, [b₂, b₃], more, rfl, hchar, rfl, hds⟩
      | four hb hrange hlong hgreat =>
          obtain ⟨b₂, rest₂, rfl, hlow₂, hhigh₂, h₂⟩ := exists_of_decodeFrom_some h
          obtain ⟨b₃, rest₃, rfl, hlow₃, hhigh₃, h₃⟩ := exists_of_decodeFrom_some h₂
          obtain ⟨b₄, more, rfl, hlow₄, hhigh₄, ds, rfl, hds⟩ := exists_of_decodeFrom_some h₃
          have hchar := utf8EncodeChar_four hb
            ⟨Nat.le_trans hrange.1 hlow₂, Nat.le_trans hhigh₂ hrange.2⟩
            (fun hfirst => Nat.le_trans (hlong hfirst) hlow₂)
            (fun hfirst => Nat.le_trans hhigh₂ (hgreat hfirst)) ⟨hlow₃, hhigh₃⟩ ⟨hlow₄, hhigh₄⟩
          exact ⟨_, ds, [b₂, b₃, b₄], more, rfl, hchar, rfl, hds⟩

/-- **What is read without damage is what was written.** The induction is on how many octets there
are at most, since a character takes several. -/
theorem encode_of_decodeFrom (n : Nat) {bs : List UInt8} {cs : List Char} (hn : bs.length ≤ n)
    (h : decodeFrom none bs = cs.map some) : encode cs = bs := by
  induction n generalizing bs cs with
  | zero =>
      rw [Nat.le_zero, List.length_eq_zero_iff] at hn
      subst hn
      cases cs with
      | nil => rfl
      | cons c cs => simp [decodeFrom] at h
  | succ n ih =>
      cases bs with
      | nil =>
          cases cs with
          | nil => rfl
          | cons c cs => simp [decodeFrom] at h
      | cons b rest =>
          obtain ⟨c, ds, front, more, rfl, hfront, rfl, hds⟩ := exists_char_of_decodeFrom h
          have hmore : more.length ≤ n := by
            rw [List.length_cons, List.length_append] at hn
            omega
          rw [encode, List.flatMap_cons, hfront, ← encode, ih hmore hds]
          rfl

theorem encode_of_decode? {bs : List UInt8} {cs : List Char} (h : decode? bs = some cs) :
    encode cs = bs := encode_of_decodeFrom bs.length (Nat.le_refl _) (mapM_id_eq_some_iff.mp h)

end IndexAdvisor.Text.Utf8
