import IndexAdvisor.Log.Entry
import IndexAdvisor.Proofs.Json.Value
import Mathlib.Data.List.Nodup
import Mathlib.Data.List.Pairwise

/-!
# Entries of the log read back

Whatever stands in an entry, its line is one line and holds the entry: no control character gets
into it, and a reader of JSON finds the event, the severity and the fields in it as they were
given. Fields of different names are in the same order however they were given.
-/

set_option autoImplicit false

namespace IndexAdvisor.Log

open IndexAdvisor.Text

/-! ## Characters -/

/-- The control characters that have no letter of their own fit in two digits. -/
theorem toNat_lt_of_isControl {c : Char} (h : isControl c = true) : c.toNat < 256 := by
  simp only [isControl, Bool.or_eq_true, Bool.and_eq_true, decide_eq_true_eq] at h
  omega

/-- The written form of one character is read as that character. -/
theorem readsCharacters_escapeChar : Json.ReadsCharacters escapeChar := by
  intro c rest
  rw [escapeChar]
  split
  case isTrue h => rw [h]; rfl
  split
  case isTrue h => rw [h]; rfl
  split
  case isTrue h => rw [h]; rfl
  split
  case isTrue h => rw [h]; rfl
  split
  case isTrue h => rw [h]; rfl
  split
  case isTrue h =>
    rw [Json.readCharacter_hexDigits (toNat_lt_of_isControl h), Char.ofNat_toNat]
  rename_i hquote hslash _ _ _ hcontrol
  have hlow : ¬ c.toNat < 0x20 := fun hlow => hcontrol (by simp [isControl, hlow])
  simp [Json.readCharacter, hquote, hslash, hlow]

theorem isControl_hexDigit (n : Nat) : isControl (hexDigit (n % 16)) = false := by
  have h : ∀ d : Fin 16, isControl (hexDigit d.val) = false := by decide
  exact h ⟨n % 16, Nat.mod_lt _ (by decide)⟩

/-- No control character stands in what is written for a character. -/
theorem isControl_of_mem_escapeChar {c d : Char} (h : d ∈ escapeChar c) : isControl d = false := by
  have hletters {cs : List Char} (hcs : cs.all (fun c => !isControl c) = true) (hd : d ∈ cs) :
      isControl d = false := by
    simpa using List.all_eq_true.mp hcs d hd
  rw [escapeChar] at h
  split at h
  · exact hletters (by decide) h
  split at h
  · exact hletters (by decide) h
  split at h
  · exact hletters (by decide) h
  split at h
  · exact hletters (by decide) h
  split at h
  · exact hletters (by decide) h
  split at h
  case isTrue hcontrol =>
    -- control characters have two hexadecimal digits
    have hhigh : c.toNat / 16 = c.toNat / 16 % 16 := by
      have := toNat_lt_of_isControl hcontrol
      omega
    rw [hhigh] at h
    rcases List.mem_append.mp (show d ∈ ['\\', 'u', '0', '0'] ++ _ from h) with h | h
    · exact hletters (by decide) h
    · rcases List.mem_cons.mp h with rfl | h
      · exact isControl_hexDigit _
      · rw [List.mem_singleton.mp h]
        exact isControl_hexDigit _
  case isFalse hcontrol =>
    rw [List.mem_singleton.mp h]
    exact Bool.eq_false_iff.mpr hcontrol

/-! ## Quoted texts -/

theorem quote_append (s : String) (rest : List Char) :
    quote s ++ rest = '"' :: (s.toList.flatMap escapeChar ++ '"' :: rest) := by
  rw [quote, List.cons_append, List.append_assoc]
  rfl

/-- **A quoted text is read as that text**, whatever follows it. -/
theorem readValue_quote (room : Nat) (s : String) (rest : List Char) :
    Json.readValue room (quote s ++ rest) = .ok (.string s, rest) := by
  rw [quote_append, Json.readValue_of_readQuoted room
    (readsCharacters_escapeChar.readQuoted s.toList rest), String.ofList_toList]

theorem isControl_of_mem_quote {s : String} {c : Char} (h : c ∈ quote s) : isControl c = false := by
  rw [quote, List.mem_cons, List.mem_append, List.mem_flatMap, List.mem_singleton] at h
  rcases h with rfl | ⟨d, -, h⟩ | rfl
  · decide
  · exact isControl_of_mem_escapeChar h
  · decide

/-! ## Members -/

namespace Entry

/-- The text of a member whose value is written already. -/
def memberText (m : List Char × List Char) : List Char := quote (String.ofList m.1) ++ ':' :: m.2

theorem member_eq : member = fun m => memberText (m.1.toList, quote m.2) := by
  funext m
  rw [member, memberText, String.ofList_toList]

theorem namesMembers_memberText : Json.NamesMembers memberText := by
  intro m rest
  refine ⟨_, ?_, readsCharacters_escapeChar.readQuoted m.1 (':' :: (m.2 ++ rest))⟩
  rw [memberText, List.append_assoc, List.cons_append, quote_append, String.toList_ofList]

/-- The members of a line have commas between them. -/
theorem text_eq (e : Entry) : e.text =
    '{' :: (Json.commaSeparated (fun m => memberText (m.1.toList, quote m.2)) e.members ++
      ['}']) := by
  rw [text, Json.intercalate_comma_map, member_eq]

/-- **The line of an entry is read as its members.** -/
theorem ofText?_line (e : Entry) :
    Json.ofText? e.line = some (.object (e.members.map fun m => (m.1, .string m.2))) := by
  have hread := Json.readValue_commaSeparated Prod.fst namesMembers_memberText
    (fun m (_ : m ∈ e.members) rest _ => readValue_quote 126 m.2 rest) ['\n']
  have hline : e.line = '{' :: (Json.commaSeparated
      (fun m => memberText (m.1.toList, quote m.2)) e.members ++ ['}', '\n']) := by
    rw [line, text_eq, List.cons_append, List.append_assoc]
    rfl
  rw [hline, Json.ofText?, Json.readWhole, Json.maxNesting, hread]
  rfl

/-- Entries with one line have the same members. -/
theorem members_eq_of_text_eq {e e' : Entry} (h : e.text = e'.text) : e.members = e'.members := by
  have hread : Json.ofText? e.line = Json.ofText? e'.line := by rw [line, line, h]
  rw [ofText?_line, ofText?_line] at hread
  refine (List.map_inj_right fun a b hab => ?_).mp (Json.object.inj (Option.some.inj hread))
  exact Prod.ext (Prod.mk.inj hab).1 (Json.string.inj (Prod.mk.inj hab).2)

/-- No control character stands in the line of an entry but the one that ends it. -/
theorem isControl_of_mem_text {e : Entry} {c : Char} (h : c ∈ e.text) : isControl c = false := by
  rw [text, Json.intercalate_comma_map, List.mem_cons, List.mem_append, List.mem_singleton] at h
  rcases h with rfl | h | rfl
  · decide
  · obtain rfl | ⟨m, -, h⟩ := Json.mem_commaSeparated h
    · decide
    · rw [member, List.mem_append, List.mem_cons] at h
      rcases h with h | rfl | h
      · exact isControl_of_mem_quote h
      · decide
      · exact isControl_of_mem_quote h
  · decide

/-! ## Order of the fields -/

/-- The order of the fields of a line. -/
def fieldLE (a b : String × String) : Bool := decide (a.1 ≤ b.1)

theorem fieldLE_trans (a b c : String × String) (hab : fieldLE a b = true)
    (hbc : fieldLE b c = true) : fieldLE a c = true :=
  decide_eq_true (String.le_trans (of_decide_eq_true hab) (of_decide_eq_true hbc))

theorem fieldLE_total (a b : String × String) : (fieldLE a b || fieldLE b a) = true := by
  rw [Bool.or_eq_true, fieldLE, fieldLE, decide_eq_true_eq, decide_eq_true_eq]
  exact String.le_total a.1 b.1

theorem sortedFields_perm (e : Entry) : e.sortedFields.Perm e.fields := List.mergeSort_perm _ _

theorem pairwise_sortedFields (e : Entry) : e.sortedFields.Pairwise fun a b => a.1 ≤ b.1 :=
  (List.pairwise_mergeSort fieldLE_trans fieldLE_total e.fields).imp of_decide_eq_true

/-- **Fields of one name stay in the order given.** -/
theorem filter_sortedFields (e : Entry) (k : String) :
    e.sortedFields.filter (·.1 == k) = e.fields.filter (·.1 == k) := by
  have hkeys : (e.fields.filter (·.1 == k)).Pairwise fun a b => fieldLE a b = true := by
    refine List.pairwise_of_forall_mem_list fun a ha b hb => ?_
    have hak : a.1 = k := by simpa using (List.mem_filter.mp ha).2
    have hbk : b.1 = k := by simpa using (List.mem_filter.mp hb).2
    rw [fieldLE, hak, hbk]
    exact decide_eq_true (String.le_refl k)
  have hsublist := List.sublist_mergeSort fieldLE_trans fieldLE_total hkeys List.filter_sublist
  have hfilter := hsublist.filter (·.1 == k)
  rw [List.filter_filter] at hfilter
  simp only [Bool.and_self] at hfilter
  exact (hfilter.eq_of_length ((e.sortedFields_perm.filter _).length_eq).symm).symm

/-- Fields of different names are sorted alike, in whatever order they are given. -/
theorem sortedFields_eq_of_perm {e e' : Entry} (h : e'.fields.Perm e.fields)
    (hnames : (e.fields.map Prod.fst).Nodup) : e'.sortedFields = e.sortedFields := by
  have hperm := e'.sortedFields_perm.trans (h.trans e.sortedFields_perm.symm)
  refine hperm.eq_of_pairwise (fun a b ha hb hab hba => ?_) e'.pairwise_sortedFields
    e.pairwise_sortedFields
  have hmem : a ∈ e.fields := e.sortedFields_perm.mem_iff.mp (hperm.mem_iff.mp ha)
  exact List.inj_on_of_nodup_map hnames hmem (e.sortedFields_perm.mem_iff.mp hb)
    (String.le_antisymm hab hba)

/-- **Lines of the log can be neither forged nor broken.** For every severity, event and fields the
line is one line, for its only control character ends it; a reader of JSON finds in it the event,
the severity and the fields as they were given, in the order of their names, those of one name in
the order given. Fields of different names give one line in whatever order they are given. -/
theorem line_holds_entry (e : Entry) :
    (e.line = e.text ++ ['\n'] ∧ e.text.all (fun c => !isControl c) = true) ∧
    Json.ofText? e.line = some (.object (("event", .string e.event) ::
      ("severity", .string e.severity.text) :: e.sortedFields.map fun m => (m.1, .string m.2))) ∧
    (e.sortedFields.Perm e.fields ∧ e.sortedFields.Pairwise (fun a b => a.1 ≤ b.1) ∧
      ∀ k, e.sortedFields.filter (·.1 == k) = e.fields.filter (·.1 == k)) ∧
    ∀ fields : List (String × String), fields.Perm e.fields → (e.fields.map Prod.fst).Nodup →
      line ⟨e.severity, e.event, fields⟩ = e.line := by
  refine ⟨⟨rfl, List.all_eq_true.mpr fun c hc => ?_⟩, e.ofText?_line,
    ⟨e.sortedFields_perm, e.pairwise_sortedFields, e.filter_sortedFields⟩,
    fun fields hperm hnames => ?_⟩
  · rw [isControl_of_mem_text hc]
    rfl
  · have hsorted : sortedFields ⟨e.severity, e.event, fields⟩ = e.sortedFields :=
      sortedFields_eq_of_perm hperm hnames
    rw [line, line, text, text, members, members, hsorted]

/-- Quotes, a line end, a control character of two bytes and a character beyond 16 bits: the fields
give one line in both orders. -/
theorem line_holds_entry_escapes :
    line ⟨.error, "A\"B", [("path", "C:\\x\n\u0085"), ("line", "𝄞")]⟩ =
      line ⟨.error, "A\"B", [("line", "𝄞"), ("path", "C:\\x\n\u0085")]⟩ :=
  (line_holds_entry ⟨.error, "A\"B", [("line", "𝄞"), ("path", "C:\\x\n\u0085")]⟩).2.2.2 _
    (List.Perm.swap _ _ _) (by decide)

end Entry

end IndexAdvisor.Log
