import IndexAdvisor.Proofs.Json.Shape

/-!
# Layouts read back

What a layout writes it reads back if its shape fits, and a reader that does not know the shape
reads it as well. No control character stands in what is written, whatever the layout is, so that it
takes a single line.
-/

set_option autoImplicit false

namespace IndexAdvisor.Json

/-! ## Written values of any form -/

mutual

/-- What a shape makes of its values fits as well. -/
theorem Shape.fits_toJson : (s : Shape) → ∀ {room : Nat}, s.fits room = true → ∀ v : s.Carrier,
    Json.fits room (s.toJson v) = true
  | .text, room, _, _ => by cases room <;> rfl
  | .count bits, room, h, v => by
      have hbits : bits ≤ 64 := by
        cases room <;> exact of_decide_eq_true h
      have hv : v.val < UInt64.size :=
        Nat.lt_of_lt_of_le v.isLt (Nat.pow_le_pow_right (by decide) hbits)
      cases room <;> exact decide_eq_true hv
  | .choice _, room, _, _ => by cases room <;> rfl
  | .list _, 0, h, _ => by cases h
  | .list s, room + 1, h, vs => by
      refine fitsItems_iff.mpr fun j hj => ?_
      obtain ⟨v, -, rfl⟩ := List.mem_map.mp hj
      exact Shape.fits_toJson s h v
  | .record _ _, 0, h, _ => by cases h
  | .record _ fs, room + 1, h, v => fitsMembers_iff.mpr (Fields.fits_toMembers fs h v)
  | .any, room, h, _ => by cases room <;> cases h

/-- So do the members of a record. -/
theorem Fields.fits_toMembers : (fs : Fields) → ∀ {room : Nat}, fs.fits room = true →
    ∀ v : fs.Carrier, ∀ m ∈ fs.toMembers v, Json.fits room m.2 = true
  | .nil, _, _, _, m, hm => by cases hm
  | .cons n others p s rest, room, h, v, m, hm => by
      simp only [Fields.fits, Bool.and_eq_true] at h
      rw [Fields.toMembers_cons, List.mem_append, Option.mem_toList, Option.map_eq_some_iff] at hm
      rcases hm with ⟨j, hj, rfl⟩ | hm
      · have hs := Shape.fits_toJson s h.1.1
        cases p with
        | required =>
            cases hj
            exact hs v.1
        | nullable =>
            rcases hv : v.1 with _ | x
            · rw [hv] at hj
              cases hj
              cases room <;> rfl
            · rw [hv] at hj
              cases hj
              exact hs x
        | optional =>
            obtain ⟨x, -, rfl⟩ := Option.map_eq_some_iff.mp hj
            exact hs x
        | defaulted =>
            obtain ⟨x, -, rfl⟩ := Option.map_eq_some_iff.mp hj
            exact hs x
      · exact Fields.fits_toMembers rest h.2 v.2 m hm

end

/-! ## No control characters -/

/-- No control character below U+0020 stands among digits. -/
theorem toNat_ge_of_mem_toDigits {n : Nat} {c : Char} (h : c ∈ Nat.toDigits 10 n) :
    0x20 ≤ c.toNat := by
  have hc := isDigit_of_mem_toDigits h
  simp only [Char.isDigit, Bool.and_eq_true, decide_eq_true_eq] at hc
  exact Nat.le_trans (by decide) (UInt32.le_iff_toNat_le.mp hc.1)

/-- A number in double precision is written with digits and a few signs. -/
theorem Double.mem_layout {a : Nat} {k : Int} {c : Char} (h : c ∈ Double.layout a k) :
    (∃ n, c ∈ Nat.toDigits 10 n) ∨ c ∈ ['0', '.', 'e', '-', '+'] := by
  have hreplicate {n : Nat} (h : c ∈ List.replicate n '0') : c ∈ ['0', '.', 'e', '-', '+'] := by
    rw [(List.mem_replicate.mp h).2]
    decide
  unfold Double.layout at h
  dsimp only at h
  split at h
  · rw [List.mem_append, List.mem_append] at h
    rcases h with (h | h) | h
    · exact Or.inl ⟨a, h⟩
    · exact Or.inr (hreplicate h)
    · simp only [List.mem_cons, List.not_mem_nil, or_false] at h
      rcases h with rfl | rfl <;> exact Or.inr (by decide)
  split at h
  · rw [List.mem_append, List.mem_cons] at h
    rcases h with h | rfl | h
    · exact Or.inl ⟨a, List.mem_of_mem_take h⟩
    · exact Or.inr (by decide)
    · exact Or.inl ⟨a, List.mem_of_mem_drop h⟩
  split at h
  · rw [List.mem_cons, List.mem_cons, List.mem_append] at h
    rcases h with rfl | rfl | h | h
    · exact Or.inr (by decide)
    · exact Or.inr (by decide)
    · exact Or.inr (hreplicate h)
    · exact Or.inl ⟨a, h⟩
  · rw [List.mem_append, List.mem_append, List.mem_cons, List.mem_cons] at h
    rcases h with (h | h) | rfl | h | h
    · exact Or.inl ⟨a, List.mem_of_mem_take h⟩
    · split at h
      · cases h
      · rcases List.mem_cons.mp h with rfl | h
        · exact Or.inr (by decide)
        · exact Or.inl ⟨a, List.mem_of_mem_drop h⟩
    · exact Or.inr (by decide)
    · refine Or.inr ?_
      rw [h]
      split <;> decide
    · exact Or.inl ⟨_, h⟩

theorem toNat_ge_of_mem_text {d : Double} {c : Char} (h : c ∈ d.text) : 0x20 ≤ c.toNat := by
  unfold Double.text at h
  split at h
  · exact toNat_ge_of_all (by decide) h
  · rcases Double.mem_layout h with ⟨n, h⟩ | h
    · exact toNat_ge_of_mem_toDigits h
    · exact toNat_ge_of_all (by decide) h

/-- No control character below U+0020 stands in what is written for a number. -/
theorem Number.toNat_ge_of_mem_render {n : Number} {c : Char} (h : c ∈ n.render) :
    0x20 ≤ c.toNat := by
  cases n with
  | natural n => exact toNat_ge_of_mem_toDigits h
  | negative n =>
      rcases List.mem_cons.mp h with rfl | h
      · decide
      · exact toNat_ge_of_mem_toDigits h
  | double isNegative size =>
      rcases List.mem_append.mp h with h | h
      · cases isNegative with
        | false => cases h
        | true =>
            rw [List.mem_singleton.mp h]
            decide
      · exact toNat_ge_of_mem_text h

/-- **No control character** below U+0020 stands in what is written for a value. -/
theorem toNat_ge_of_mem_render (v : Json) {c : Char} (h : c ∈ render v) : 0x20 ≤ c.toNat := by
  match v with
  | .null => exact toNat_ge_of_all (by decide) h
  | .bool true => exact toNat_ge_of_all (by decide) h
  | .bool false => exact toNat_ge_of_all (by decide) h
  | .number n => exact Number.toNat_ge_of_mem_render h
  | .string s => exact toNat_ge_of_mem_quote h
  | .array items =>
      rw [render, renderItems_eq, List.mem_cons, List.mem_append, List.mem_singleton] at h
      rcases h with rfl | h | rfl
      · decide
      · rcases mem_commaSeparated h with rfl | ⟨v, hv, h⟩
        · decide
        · exact toNat_ge_of_mem_render v h
      · decide
  | .object members =>
      rw [render, renderMembers_eq, List.mem_cons, List.mem_append, List.mem_singleton] at h
      rcases h with rfl | h | rfl
      · decide
      · rcases mem_commaSeparated h with rfl | ⟨m, hm, h⟩
        · decide
        · rw [renderMember, List.mem_append, List.mem_cons] at h
          rcases h with h | rfl | h
          · exact toNat_ge_of_mem_quote h
          · decide
          · exact toNat_ge_of_mem_render m.2 h
      · decide
termination_by v
decreasing_by
  · have hsize := List.sizeOf_lt_of_mem hv
    simp only [array.sizeOf_spec]
    omega
  · have hsize := List.sizeOf_lt_of_mem hm
    obtain ⟨k, v⟩ := m
    simp only [Prod.mk.sizeOf_spec, object.sizeOf_spec] at hsize ⊢
    omega

/-! ## Whole texts -/

/-- A whole text is read as the value that it writes. -/
theorem readWhole_of_readsBack {α : Type} {read : List Char → Except Stop (α × List Char)}
    {write : α → List Char} {v : α} (h : ReadsBack read write v) :
    readWhole read (write v) = .ok v := by
  have hread := h.2 [] rfl
  rw [List.append_nil] at hread
  simp only [readWhole, hread, bind, Except.bind]
  rfl

namespace Layout

variable {α : Type} {L : Layout α}

/-- **What a layout writes it reads back**, if its shape fits. -/
theorem read_write (h : L.shape.fits maxNesting = true) (a : α) : L.read (L.write a) = .ok a := by
  have hread := readWhole_of_readsBack (Shape.readsBack L.shape h (L.toCarrier a))
  show (readWhole (L.shape.read maxNesting) (render (L.shape.toJson (L.toCarrier a)))).map _ = _
  rw [hread]
  exact congrArg Except.ok (L.ofCarrier_toCarrier a)

/-- Different values have different JSON forms. -/
theorem toJson_injective (h : L.shape.fits maxNesting = true) : Function.Injective L.toJson := by
  intro a b heq
  have hwrite : L.write a = L.write b := congrArg render heq
  have hread := (read_write h a).symm.trans (hwrite ▸ read_write h b)
  exact Except.ok.inj hread

/-- The items of a list have their own forms. -/
theorem list_toJson (as : List α) : L.list.toJson as = .array (as.map L.toJson) := by
  show Json.array ((as.map L.toCarrier).map L.shape.toJson) = _
  rw [List.map_map]
  rfl

theorem list_toJson_injective (h : Function.Injective L.toJson) :
    Function.Injective L.list.toJson := by
  intro as bs heq
  rw [list_toJson, list_toJson] at heq
  exact (List.map_inj_right fun _ _ hab => h hab).mp (Json.array.inj heq)

end Layout

end IndexAdvisor.Json
