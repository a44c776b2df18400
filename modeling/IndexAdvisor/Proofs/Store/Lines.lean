import IndexAdvisor.Proofs.Json.Layout
import IndexAdvisor.Store.File

/-!
# Stored lines read back

The octets of sealed lines are cut into the same lines, each of which gives its payload back. A
payload that holds no control character is meant throughout: a written entry is one.
-/

set_option autoImplicit false

namespace IndexAdvisor.Text

/-! ## Lines of octets -/

section Lines

variable {α : Type} [DecidableEq α] {ret feed : α}

/-- Without carriage returns nothing is dropped. -/
theorem dropReturns_of_notMem {cs : List α} (h : ret ∉ cs) : dropReturns ret feed cs = cs := by
  induction cs with
  | nil => rfl
  | cons c cs ih =>
      rw [List.mem_cons, not_or] at h
      cases cs with
      | nil => rfl
      | cons d cs =>
          rw [dropReturns, if_neg fun hc => h.1 hc.1.symm, ih h.2]

/-- The first line is what stands before the first line feed. -/
theorem splitLines_append {l : List α} (h : feed ∉ l) (cs : List α) :
    splitLines feed (l ++ feed :: cs) = l :: splitLines feed cs := by
  induction l with
  | nil => simp [splitLines]
  | cons c l ih =>
      rw [List.mem_cons, not_or] at h
      rw [List.cons_append, splitLines, if_neg (Ne.symm h.1), ih h.2]

/-- Lines that are ended are cut at their ends. -/
theorem splitLines_flatMap {ls : List (List α)} (h : ∀ l ∈ ls, feed ∉ l) :
    splitLines feed (ls.flatMap fun l => l ++ [feed]) = ls := by
  induction ls with
  | nil => rfl
  | cons l ls ih =>
      have hl := h l List.mem_cons_self
      have hls := ih fun k hk => h k (List.mem_cons_of_mem l hk)
      rw [List.flatMap_cons, List.append_assoc, List.singleton_append, splitLines_append hl, hls]

end Lines

namespace Utf8

theorem encode_append (cs ds : List Char) : encode (cs ++ ds) = encode cs ++ encode ds :=
  List.flatMap_append

/-- The octets of a character that is no control character are none either. -/
theorem toNat_ge_of_mem_utf8EncodeChar {c : Char} (hc : 0x20 ≤ c.toNat) {b : UInt8}
    (hb : b ∈ String.utf8EncodeChar c) : 0x20 ≤ b.toNat := by
  change 0x20 ≤ c.val.toNat at hc
  unfold String.utf8EncodeChar at hb
  dsimp only at hb
  split at hb
  · rw [List.mem_singleton.mp hb, UInt8.toNat_ofNat']
    omega
  split at hb
  · simp only [List.mem_cons, List.not_mem_nil, or_false] at hb
    rcases hb with rfl | rfl <;>
    · rw [UInt8.toNat_ofNat']
      omega
  split at hb
  · simp only [List.mem_cons, List.not_mem_nil, or_false] at hb
    rcases hb with rfl | rfl | rfl <;>
    · rw [UInt8.toNat_ofNat']
      omega
  · simp only [List.mem_cons, List.not_mem_nil, or_false] at hb
    rcases hb with rfl | rfl | rfl | rfl <;>
    · rw [UInt8.toNat_ofNat']
      omega

/-- A text without control characters has no octets that are. -/
theorem toNat_ge_of_mem_encode {cs : List Char} (h : ∀ c ∈ cs, 0x20 ≤ c.toNat) {b : UInt8}
    (hb : b ∈ encode cs) : 0x20 ≤ b.toNat := by
  obtain ⟨c, hc, hb⟩ := List.mem_flatMap.mp hb
  exact toNat_ge_of_mem_utf8EncodeChar (h c hc) hb

end Utf8

end IndexAdvisor.Text

namespace IndexAdvisor.Store

open IndexAdvisor.Text

/-! ## Sealed lines -/

/-- A payload takes a single line: no control character stands in it. -/
def Plain (payload : List Char) : Prop := ∀ c ∈ payload, 0x20 ≤ c.toNat

/-- A sealed line holds no control character if its payload does not. -/
theorem plain_sealed {payload : List Char} (h : Plain payload) : Plain (sealed payload) := by
  intro c hc
  rw [sealed, List.mem_append, List.mem_cons] at hc
  rcases hc with hc | rfl | hc
  · obtain ⟨d, hd, rfl⟩ := mem_hexDigits hc
    have hdigits : ∀ d : Fin 16, 0x20 ≤ (hexDigit d.val).toNat := by decide
    exact hdigits ⟨d, hd⟩
  · decide
  · exact h c hc

/-- A sealed line is not blank: it begins with a digit. -/
theorem isBlankText_sealed (payload : List Char) : isBlankText (sealed payload) = false := by
  have hdigits : ∀ d : Fin 16, isBlank (hexDigit d.val) = false := by decide
  rw [isBlankText, List.all_eq_false]
  generalize hn : (checksum (Utf8.encode payload)).toNat = n
  refine ⟨hexDigit (n % 16), ?_, ?_⟩
  · rw [sealed, hn]
    exact List.mem_append_left _ (by simp [hexDigits])
  · rw [hdigits ⟨n % 16, Nat.mod_lt n (by decide)⟩]
    exact Bool.false_ne_true

/-- The octets of a line, and the line feed that ends it. -/
theorem sealedLine_eq (payload : List Char) :
    sealedLine payload = Utf8.encode (sealed payload) ++ [10] := Utf8.encode_append _ _

/-! ## Payloads -/

/-- The payloads of sealed lines read back, and each comes with the number of its line. -/
theorem payloadsFrom_sealed (n : Nat) (ps : List (List Char)) :
    payloadsFrom n (ps.map fun p => Utf8.encode (sealed p)) =
      .ok ((ps.zipIdx n).map Prod.swap) := by
  induction ps generalizing n with
  | nil => rfl
  | cons p ps ih =>
      rw [List.map_cons, payloadsFrom]
      simp only [Utf8.decode?_encode, isBlankText_sealed, opened?_sealed, ih, bind, Except.bind]
      rfl

/-- **A file of sealed lines holds their payloads.** -/
theorem payloads_sealedLines {ps : List (List Char)} (h : ∀ p ∈ ps, Plain p) :
    payloads (ps.flatMap sealedLine) = .ok ((ps.zipIdx 1).map Prod.swap) := by
  have hbytes : ∀ l ∈ ps.map (fun p => Utf8.encode (sealed p)), ∀ b ∈ l, 0x20 ≤ b.toNat := by
    intro l hl b hb
    obtain ⟨p, hp, rfl⟩ := List.mem_map.mp hl
    exact Utf8.toNat_ge_of_mem_encode (plain_sealed (h p hp)) hb
  have hlines : ps.flatMap sealedLine =
      (ps.map fun p => Utf8.encode (sealed p)).flatMap fun l => l ++ [10] := by
    rw [List.flatMap_map]
    exact congrArg (List.flatMap · ps) (funext sealedLine_eq)
  rw [payloads, byteLines, hlines, dropReturns_of_notMem, splitLines_flatMap, payloadsFrom_sealed]
  · intro l hl hfeed
    exact absurd (hbytes l hl 10 hfeed) (by decide)
  · intro hret
    obtain ⟨l, hl, hret⟩ := List.mem_flatMap.mp hret
    rcases List.mem_append.mp hret with hret | hret
    · exact absurd (hbytes l hl 13 hret) (by decide)
    · exact absurd hret (by decide)

end IndexAdvisor.Store
