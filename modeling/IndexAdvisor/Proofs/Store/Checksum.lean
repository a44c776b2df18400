import IndexAdvisor.Store.Checksum
import Mathlib.Data.Nat.Bitwise
import Mathlib.Tactic.ByContra

/-!
# What a checksum tells

A remainder is moved linearly with regard to exclusive or, and no two remainders are moved to the
same one. So two texts that differ keep different remainders while they go on alike, and four octets
in a row, which take up all bits of the remainder, lead to different ones if they differ at all.
Damage within four octets is therefore always seen, however long the text is.
-/

set_option autoImplicit false

namespace IndexAdvisor.Store

/-! ## Moving a remainder -/

theorem shift_eq (r : UInt32) :
    shift r = (r >>> 1) ^^^ if r.toNat % 2 = 1 then polynomial else 0 := by
  have hbit : r &&& 1 = 1 ↔ r.toNat % 2 = 1 := by
    rw [← UInt32.toNat_inj, UInt32.toNat_and]
    exact iff_of_eq (congrArg (· = 1) (Nat.and_one_is_mod r.toNat))
  simp only [shift, hbit]
  split
  · rfl
  · rw [UInt32.xor_zero]

theorem toNat_shiftRight_one (r : UInt32) : (r >>> 1).toNat = r.toNat / 2 := by
  rw [UInt32.toNat_shiftRight]
  exact Nat.shiftRight_eq_div_pow _ 1

/-- **A remainder is moved linearly.** -/
theorem shift_xor (a b : UInt32) : shift (a ^^^ b) = shift a ^^^ shift b := by
  have hcarry : (if (a ^^^ b).toNat % 2 = 1 then polynomial else 0) =
      (if a.toNat % 2 = 1 then polynomial else 0) ^^^
        if b.toNat % 2 = 1 then polynomial else 0 := by
    rw [UInt32.toNat_xor, Nat.xor_mod_two_eq]
    rcases Nat.mod_two_eq_zero_or_one a.toNat with ha | ha <;>
      rcases Nat.mod_two_eq_zero_or_one b.toNat with hb | hb <;>
        simp [Nat.add_mod, ha, hb]
  rw [shift_eq, shift_eq, shift_eq, UInt32.shiftRight_xor, hcarry]
  ac_rfl

/-- Only nothing is moved to nothing: the polynomial sets the highest bit. -/
theorem eq_zero_of_shift {r : UInt32} (h : shift r = 0) : r = 0 := by
  have hhalf := toNat_shiftRight_one r
  have hr := r.toNat_lt
  rw [shift_eq, UInt32.xor_eq_zero_iff] at h
  rw [h] at hhalf
  rw [← UInt32.toNat_inj]
  split at hhalf
  · have hpolynomial : polynomial.toNat = 0xEDB88320 := rfl
    omega
  · have hzero : (0 : UInt32).toNat = 0 := rfl
    omega

/-- **No two remainders are moved to the same one.** -/
theorem shift_injective : Function.Injective shift := by
  intro a b h
  refine UInt32.xor_eq_zero_iff.mp (eq_zero_of_shift ?_)
  rw [shift_xor, h, UInt32.xor_self]

theorem repeat_shift_xor (n : Nat) (a b : UInt32) :
    Nat.repeat shift n (a ^^^ b) = Nat.repeat shift n a ^^^ Nat.repeat shift n b := by
  induction n with
  | zero => rfl
  | succ n ih =>
      show shift (Nat.repeat shift n (a ^^^ b)) = _
      rw [ih, shift_xor]
      rfl

theorem repeat_shift_injective (n : Nat) : Function.Injective (Nat.repeat shift n) := by
  induction n with
  | zero => exact fun _ _ h => h
  | succ n ih => exact fun _ _ h => ih (shift_injective h)

/-- An even remainder is moved to its half. -/
theorem shift_two_mul {x : UInt32} (h : x.toNat < 2 ^ 31) : shift (2 * x) = x := by
  have hdouble : (2 * x).toNat = 2 * x.toNat := by
    rw [UInt32.toNat_mul]
    exact Nat.mod_eq_of_lt (show 2 * x.toNat < 2 ^ 32 by omega)
  have heven : ¬(2 * x).toNat % 2 = 1 := by omega
  rw [shift_eq, if_neg heven, UInt32.xor_zero, ← UInt32.toNat_inj, toNat_shiftRight_one, hdouble]
  omega

theorem repeat_shift_mul (n : Nat) {x : UInt32} (h : x.toNat * 2 ^ n < 2 ^ 32) :
    Nat.repeat shift n (2 ^ n * x) = x := by
  induction n generalizing x with
  | zero => exact UInt32.one_mul x
  | succ n ih =>
      have hpos : 0 < 2 ^ n := Nat.two_pow_pos n
      have hlt : x.toNat * 2 * 2 ^ n < 2 ^ 32 := by
        rw [Nat.mul_assoc, Nat.mul_comm 2, ← Nat.pow_succ]
        exact h
      have htwice : x.toNat * 2 < 2 ^ 32 := Nat.lt_of_le_of_lt (Nat.le_mul_of_pos_right _ hpos) hlt
      have hdouble : (2 * x).toNat = x.toNat * 2 := by
        rw [UInt32.toNat_mul, Nat.mul_comm]
        exact Nat.mod_eq_of_lt htwice
      show shift (Nat.repeat shift n (2 ^ (n + 1) * x)) = x
      rw [UInt32.pow_succ, UInt32.mul_assoc, ih (by rw [hdouble]; exact hlt)]
      exact shift_two_mul (by omega)

/-! ## Octets -/

/-- The remainders after one more octet differ by what the remainders and the octets differ. -/
theorem remainder_xor (r r' : UInt32) (b b' : UInt8) : remainder r b ^^^ remainder r' b' =
    Nat.repeat shift 8 ((r ^^^ r') ^^^ (b.toUInt32 ^^^ b'.toUInt32)) := by
  rw [remainder, remainder, ← repeat_shift_xor]
  exact congrArg (Nat.repeat shift 8) (by ac_rfl)

theorem remainder_injective (b : UInt8) : Function.Injective fun r => remainder r b := by
  intro r r' h
  have hzero := repeat_shift_injective 8 h
  exact (UInt32.xor_left_inj b.toUInt32).mp hzero

/-- **Different remainders stay different** while the texts go on alike. -/
theorem foldl_remainder_injective (bs : List UInt8) :
    Function.Injective fun r => bs.foldl remainder r := by
  induction bs with
  | nil => exact fun _ _ h => h
  | cons b bs ih => exact fun _ _ h => remainder_injective b (ih h)

theorem toNat_xor_octets_lt (b b' : UInt8) : (b.toUInt32 ^^^ b'.toUInt32).toNat < 2 ^ 8 := by
  rw [UInt32.toNat_xor, UInt8.toNat_toUInt32, UInt8.toNat_toUInt32]
  exact Nat.xor_lt_two_pow b.toNat_lt b'.toNat_lt

/-- What two remainders differed by before an octet each, if they hardly differ after. -/
theorem xor_eq_of_remainder {r r' : UInt32} {b b' : UInt8}
    (h : (remainder r b ^^^ remainder r' b').toNat < 2 ^ 24) :
    (r ^^^ r') ^^^ (b.toUInt32 ^^^ b'.toUInt32) = 256 * (remainder r b ^^^ remainder r' b') ∧
      (256 * (remainder r b ^^^ remainder r' b')).toNat =
        256 * (remainder r b ^^^ remainder r' b').toNat := by
  constructor
  · refine repeat_shift_injective 8 ?_
    rw [← remainder_xor]
    exact (repeat_shift_mul 8 (by omega)).symm
  · rw [UInt32.toNat_mul]
    exact Nat.mod_eq_of_lt (show 256 * _ < 2 ^ 32 by omega)

/-- Remainders that a few octets bring together differ in as many octets at most. -/
theorem toNat_xor_lt_of_foldl {bs bs' : List UInt8} (hlength : bs.length = bs'.length)
    (hfew : bs.length ≤ 4) {r r' : UInt32}
    (h : bs.foldl remainder r = bs'.foldl remainder r') :
    (r ^^^ r').toNat < 2 ^ (8 * bs.length) := by
  induction bs generalizing bs' r r' with
  | nil =>
      obtain rfl := List.length_eq_zero_iff.mp hlength.symm
      have hsame : r = r' := h
      rw [hsame, UInt32.xor_self]
      decide
  | cons b bs ih =>
      obtain ⟨b', bs', rfl⟩ := List.exists_cons_of_length_eq_add_one hlength.symm
      rw [List.length_cons] at hfew
      have hafter := ih (Nat.succ.inj hlength) (by omega) h
      have hthree : 2 ^ (8 * bs.length) ≤ 2 ^ 24 := Nat.pow_le_pow_right (by decide) (by omega)
      -- behind this octet the difference has three octets at most, so none of it was lost in the
      -- step
      obtain ⟨hbefore, hvalue⟩ := xor_eq_of_remainder (Nat.lt_of_lt_of_le hafter hthree)
      have hdiffer : r ^^^ r' = 256 * (remainder r b ^^^ remainder r' b') ^^^
          (b.toUInt32 ^^^ b'.toUInt32) := by
        rw [← hbefore, UInt32.xor_assoc, UInt32.xor_self, UInt32.xor_zero]
      have hpow : 2 ^ (8 * (b :: bs).length) = 256 * 2 ^ (8 * bs.length) := by
        rw [List.length_cons, Nat.mul_succ, Nat.add_comm, Nat.pow_add]
      rw [hdiffer, UInt32.toNat_xor]
      refine Nat.xor_lt_two_pow ?_ ?_
      · rw [hvalue, hpow]
        omega
      · refine Nat.lt_of_lt_of_le (toNat_xor_octets_lt b b') ?_
        exact Nat.pow_le_pow_right (by decide) (by rw [List.length_cons]; omega)

/-- **Four octets are told by the remainder** that they lead to. -/
theorem eq_of_foldl_remainder {bs bs' : List UInt8} (hlength : bs.length = bs'.length)
    (hfew : bs.length ≤ 4) {r : UInt32} (h : bs.foldl remainder r = bs'.foldl remainder r) :
    bs = bs' := by
  induction bs generalizing bs' r with
  | nil => exact (List.length_eq_zero_iff.mp hlength.symm).symm
  | cons b bs ih =>
      obtain ⟨b', bs', rfl⟩ := List.exists_cons_of_length_eq_add_one hlength.symm
      rw [List.length_cons] at hfew
      have hafter := toNat_xor_lt_of_foldl (Nat.succ.inj hlength) (by omega) h
      have hthree : 2 ^ (8 * bs.length) ≤ 2 ^ 24 := Nat.pow_le_pow_right (by decide) (by omega)
      obtain ⟨hbefore, hvalue⟩ := xor_eq_of_remainder (Nat.lt_of_lt_of_le hafter hthree)
      -- what the octets differ by is below `2 ^ 8` and divided by it
      rw [UInt32.xor_self, UInt32.zero_xor] at hbefore
      have hbelow := toNat_xor_octets_lt b b'
      rw [hbefore, hvalue] at hbelow
      have hnone : (256 * (remainder r b ^^^ remainder r b')).toNat = (0 : UInt32).toNat := by
        rw [hvalue]
        show _ = 0
        omega
      rw [UInt32.toNat_inj, ← hbefore, UInt32.xor_eq_zero_iff] at hnone
      have hb : b = b' := by
        rw [← UInt8.toNat_inj, ← UInt8.toNat_toUInt32 b, hnone, UInt8.toNat_toUInt32]
      subst hb
      rw [ih (Nat.succ.inj hlength) (by omega) h]

/-! ## Texts -/

/-- **Damage within four octets changes the checksum.** -/
theorem checksum_append_ne {bs bs' : List UInt8} (hlength : bs.length = bs'.length)
    (hfew : bs.length ≤ 4) (hne : bs ≠ bs') (front back : List UInt8) :
    checksum (front ++ bs ++ back) ≠ checksum (front ++ bs' ++ back) := by
  intro h
  have hremainder := UInt32.not_inj.mp h
  simp only [List.foldl_append] at hremainder
  exact hne (eq_of_foldl_remainder hlength hfew (foldl_remainder_injective back hremainder))

/-- Texts that differ at most within four places are alike before and behind them. -/
theorem take_eq_and_drop_eq_of_window {bs bs' : List UInt8} {k : Nat}
    (h : ∀ i, bs'[i]? ≠ bs[i]? → k ≤ i ∧ i < k + 4) :
    bs'.take k = bs.take k ∧ bs'.drop (k + 4) = bs.drop (k + 4) := by
  constructor
  · refine List.ext_getElem? fun i => ?_
    rw [List.getElem?_take, List.getElem?_take]
    split
    · rename_i hi
      by_contra hne
      exact absurd (h i hne).1 (by omega)
    · rfl
  · refine List.ext_getElem? fun i => ?_
    rw [List.getElem?_drop, List.getElem?_drop]
    by_contra hne
    exact absurd (h _ hne).2 (by omega)

/-- **Damage within four octets is seen**, wherever it is. -/
theorem checksum_ne_of_window {bs bs' : List UInt8} {k : Nat} (hlength : bs'.length = bs.length)
    (hne : bs' ≠ bs) (h : ∀ i, bs'[i]? ≠ bs[i]? → k ≤ i ∧ i < k + 4) :
    checksum bs' ≠ checksum bs := by
  obtain ⟨hfront, hback⟩ := take_eq_and_drop_eq_of_window h
  have hcut (cs : List UInt8) : cs = cs.take k ++ (cs.drop k).take 4 ++ cs.drop (k + 4) := by
    rw [List.append_assoc, ← List.drop_drop, List.take_append_drop, List.take_append_drop]
  rw [hcut bs', hcut bs, hfront, hback]
  refine checksum_append_ne ?_ (List.length_take_le 4 _) ?_ _ _
  · rw [List.length_take, List.length_take, List.length_drop, List.length_drop, hlength]
  · intro hmiddle
    rw [hcut bs', hcut bs, hfront, hback, hmiddle] at hne
    exact hne rfl

end IndexAdvisor.Store
