import IndexAdvisor.Json.Untyped
import IndexAdvisor.Proofs.Fallible
import IndexAdvisor.Proofs.Json.Parts

/-!
# Values of any form read back

A value without fractions and not nested too deeply is read back from its written form, whatever
follows it. The members of an object come back in the order in which they were written.
-/

set_option autoImplicit false

namespace IndexAdvisor.Json

mutual

/-- The value is nested at most `room` deep and holds no numbers but natural ones below 2^64. -/
def fits : Nat → Json → Bool
  | _, .null => true
  | _, .bool _ => true
  | _, .number (.natural n) => decide (n < UInt64.size)
  | _, .number _ => false
  | _, .string _ => true
  | 0, .array _ => false
  | room + 1, .array items => fitsItems room items
  | 0, .object _ => false
  | room + 1, .object members => fitsMembers room members

/-- So are all items. -/
def fitsItems : Nat → List Json → Bool
  | _, [] => true
  | room, v :: vs => fits room v && fitsItems room vs

/-- So are all members. -/
def fitsMembers : Nat → List (String × Json) → Bool
  | _, [] => true
  | room, (_, v) :: ms => fits room v && fitsMembers room ms

end

theorem fitsItems_iff {room : Nat} {vs : List Json} :
    fitsItems room vs = true ↔ ∀ v ∈ vs, fits room v = true := by
  induction vs with
  | nil => simp [fitsItems]
  | cons v vs ih => simp [fitsItems, ih]

theorem fitsMembers_iff {room : Nat} {ms : List (String × Json)} :
    fitsMembers room ms = true ↔ ∀ m ∈ ms, fits room m.2 = true := by
  induction ms with
  | nil => simp [fitsMembers]
  | cons m ms ih => simp [fitsMembers, ih]

/-! ## How values begin -/

/-- A digit is no space and no bracket. -/
theorem startsValue_of_isDigit {c : Char} (h : c.isDigit = true) (cs : List Char) :
    startsValue (c :: cs) = true := by
  simp only [startsValue, isSpace, Bool.and_eq_true, Bool.not_eq_true', Bool.or_eq_false_iff,
    beq_eq_false_iff_ne, bne_iff_ne, ne_eq]
  refine ⟨⟨⟨⟨?_, ?_⟩, ?_⟩, ?_⟩, ?_⟩ <;>
  · rintro rfl
    exact absurd h (by decide)

theorem startsValue_toDigits (n : Nat) : startsValue (Nat.toDigits 10 n) = true := by
  cases hn : Nat.toDigits 10 n with
  | nil => exact absurd hn Nat.toDigits_ne_nil
  | cons c ds =>
      exact startsValue_of_isDigit (isDigit_of_mem_toDigits (n := n) (by simp [hn])) ds

/-- What is written begins as a value. -/
theorem startsValue_render {room : Nat} {v : Json} (h : fits room v = true) :
    startsValue (render v) = true := by
  cases v with
  | null => rfl
  | bool b => cases b <;> rfl
  | string s => rfl
  | array items => rfl
  | object members => rfl
  | number n =>
      cases n with
      | natural n => exact startsValue_toDigits n
      | negative n => cases room <;> cases h
      | double b d => cases room <;> cases h

/-! ## Scalars -/

/-- A number is read as a scalar. -/
theorem readScalar_toDigits {n : Nat} (hn : n < UInt64.size) {rest : List Char}
    (hrest : endsNumber rest = true) :
    readScalar (Nat.toDigits 10 n ++ rest) = .ok (.number (.natural n), rest) := by
  have hread := readNumber_toDigits hn hrest
  have hahead := isNumberAhead_toDigits n rest
  cases hd : Nat.toDigits 10 n with
  | nil => exact absurd hd Nat.toDigits_ne_nil
  | cons c ds =>
      have hc : c.isDigit = true := isDigit_of_mem_toDigits (n := n) (by simp [hd])
      -- a digit begins no word and no string
      have hne : c ≠ 'n' ∧ c ≠ 't' ∧ c ≠ 'f' ∧ c ≠ '"' := by
        refine ⟨?_, ?_, ?_, ?_⟩ <;>
        · rintro rfl
          exact absurd hc (by decide)
      rw [hd] at hread hahead
      rw [List.cons_append] at hread hahead ⊢
      unfold readScalar
      split
      · rename_i heq
        cases heq
      · rename_i heq
        exact absurd (List.cons.inj heq).1 hne.1
      · rename_i heq
        exact absurd (List.cons.inj heq).1 hne.2.1
      · rename_i heq
        exact absurd (List.cons.inj heq).1 hne.2.2.1
      · rename_i heq
        exact absurd (List.cons.inj heq).1 hne.2.2.2
      · rw [if_pos hahead, hread]
        rfl

/-- A digit opens no array and no object. -/
theorem readValue_toDigits (room : Nat) {n : Nat} (hn : n < UInt64.size) {rest : List Char}
    (hrest : endsNumber rest = true) :
    readValue room (Nat.toDigits 10 n ++ rest) = .ok (.number (.natural n), rest) := by
  have hread := readScalar_toDigits hn hrest
  cases hd : Nat.toDigits 10 n with
  | nil => exact absurd hd Nat.toDigits_ne_nil
  | cons c ds =>
      have hc : c.isDigit = true := isDigit_of_mem_toDigits (n := n) (by simp [hd])
      have hne : c ≠ '[' ∧ c ≠ '{' := by
        refine ⟨?_, ?_⟩ <;>
        · rintro rfl
          exact absurd hc (by decide)
      rw [hd] at hread
      rw [readValue, skipSpace_of_startsValue (startsValue_of_isDigit hc ds)]
      rw [List.cons_append] at hread ⊢
      split
      · rename_i heq
        exact absurd (List.cons.inj heq).1 hne.1
      · rename_i heq
        exact absurd (List.cons.inj heq).1 hne.2
      · rw [hread]
        rfl

/-- What is read up to a closing quote is the value behind the opening one. -/
theorem readValue_of_readQuoted (room : Nat) {cs text rest : List Char}
    (h : readQuoted cs = .ok (text, rest)) :
    readValue room ('"' :: cs) = .ok (.string (String.ofList text), rest) := by
  have hscalar : readScalar ('"' :: cs) =
      (readQuoted cs).map fun r => (.string (String.ofList r.1), r.2) := rfl
  have hvalue : readValue room ('"' :: cs) =
      (readScalar ('"' :: cs)).map fun r => (r.1.toJson, r.2) := by
    cases room <;> rfl
  rw [hvalue, hscalar, h]
  rfl

/-- A quoted text is read as a text. -/
theorem readValue_string (room : Nat) (s : String) (rest : List Char) :
    readValue room (render (.string s) ++ rest) = .ok (.string s, rest) := by
  have htext : render (.string s) ++ rest = '"' :: (escape s.toList ++ '"' :: rest) := by
    simp [render, quote]
  rw [htext, readValue_of_readQuoted room (readQuoted_escape s.toList rest), String.ofList_toList]

/-- A value that is not nested reads back, however much room there is. -/
theorem readValue_of_fits_zero {v : Json} (h : fits 0 v = true) (room : Nat) {rest : List Char}
    (hrest : endsNumber rest = true) : readValue room (render v ++ rest) = .ok (v, rest) := by
  cases v with
  | null => cases room <;> rfl
  | bool b => cases b <;> cases room <;> rfl
  | number n =>
      cases n with
      | natural n => exact readValue_toDigits room (of_decide_eq_true h) hrest
      | negative n => cases h
      | double b d => cases h
  | string s => exact readValue_string room s rest
  | array items => cases h
  | object members => cases h

/-! ## Objects -/

section Objects

variable {β : Type} (name : β → String) {value : β → Json} {text : β → List Char} {room : Nat}

/-- Members whose values read back are put in front of those before them. -/
theorem reads_members {ms : List β}
    (h : ∀ m ∈ ms, ∀ rest, endsNumber rest = true →
      readValue room (text m ++ rest) = .ok (value m, rest))
    (before : List (String × Json)) :
    Reads (fun name members cs => do
        let (v, cs) ← readValue room (← readColon cs)
        .ok ((String.ofList name, v) :: members, cs))
      before (ms.map fun m => ((name m).toList, text m))
      ((ms.map fun m => (name m, value m)).reverse ++ before) := by
  induction ms generalizing before with
  | nil => rfl
  | cons m ms ih =>
      refine ⟨(name m, value m) :: before, fun rest hrest => ?_, ?_⟩
      · have hcolon : readColon (':' :: (text m ++ rest)) = .ok (text m ++ rest) := rfl
        simp only [hcolon, bind, Except.bind, h m List.mem_cons_self rest hrest,
          String.ofList_toList]
      · have hms := ih (fun n hn => h n (List.mem_cons_of_mem _ hn)) ((name m, value m) :: before)
        rwa [List.map_cons, List.reverse_cons, List.append_assoc]

/-- **An object reads back** from members with commas between them, if the names and values do. -/
theorem readValue_commaSeparated {written : List Char × List Char → List Char}
    (hwritten : NamesMembers written) {ms : List β}
    (h : ∀ m ∈ ms, ∀ rest, endsNumber rest = true →
      readValue room (text m ++ rest) = .ok (value m, rest)) (rest : List Char) :
    readValue (room + 1)
      ('{' :: (commaSeparated (fun m => written ((name m).toList, text m)) ms ++
        '}' :: rest)) = .ok (.object (ms.map fun m => (name m, value m)), rest) := by
  have hread := readInto_commaSeparated hwritten (reads_members name h []) rest
  have hspace (cs : List Char) : skipSpace ('{' :: cs) = '{' :: cs := rfl
  rw [commaSeparated_map, List.append_nil] at hread
  rw [readValue, hspace]
  refine bind_eq_ok_iff.mpr ⟨_, hread, ?_⟩
  dsimp only
  rw [List.reverse_reverse]

end Objects

/-! ## All values -/

/-- **A value reads back**, whatever follows it. -/
theorem readValue_render {room : Nat} {v : Json} (h : fits room v = true) :
    ReadsBack (readValue room) render v := by
  refine ⟨startsValue_render h, ?_⟩
  induction room generalizing v with
  | zero => exact fun rest hrest => readValue_of_fits_zero h 0 hrest
  | succ room ih =>
      intro rest hrest
      cases v with
      | null => exact readValue_of_fits_zero (v := .null) rfl _ hrest
      | bool b => exact readValue_of_fits_zero (v := .bool b) rfl _ hrest
      | number n => exact readValue_of_fits_zero (by cases n <;> exact h) _ hrest
      | string s => exact readValue_of_fits_zero (v := .string s) rfl _ hrest
      | array items =>
          have hitems : ∀ v ∈ items, ReadsBack (readValue room) render v := fun v hv =>
            have hfits := fitsItems_iff.mp h v hv
            ⟨startsValue_render hfits, ih hfits⟩
          have hread := readAll_commaSeparated items hitems rest
          show readValue (room + 1) ('[' :: (renderItems items ++ [']']) ++ rest) = _
          have hspace (cs : List Char) : skipSpace ('[' :: cs) = '[' :: cs := rfl
          rw [List.cons_append, List.append_assoc, renderItems_eq, List.singleton_append, readValue,
            hspace]
          exact bind_eq_ok_iff.mpr ⟨_, hread, rfl⟩
      | object members =>
          have hmembers : ∀ m ∈ members, ∀ rest, endsNumber rest = true →
              readValue room (render m.2 ++ rest) = .ok (m.2, rest) := fun m hm =>
            ih (fitsMembers_iff.mp h m hm)
          have hread := readValue_commaSeparated Prod.fst namesMembers_memberText hmembers rest
          show readValue (room + 1) ('{' :: (renderMembers members ++ ['}']) ++ rest) = _
          rw [List.cons_append, List.append_assoc, renderMembers_eq, List.singleton_append]
          rwa [List.map_id'] at hread

end IndexAdvisor.Json
