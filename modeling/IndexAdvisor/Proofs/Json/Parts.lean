import IndexAdvisor.Json.Basic
import IndexAdvisor.Json.Parts
import IndexAdvisor.Proofs.Json.Number
import IndexAdvisor.Proofs.Json.Quoted

/-!
# Items and members read back

The parts of an array or object are read back one after the other if each part is, whatever
follows it. What a reader of members makes of them is followed as a run over the members.
-/

set_option autoImplicit false

namespace IndexAdvisor.Json

/-! ## Written parts -/

/-- A text that begins as a value may: with no space, and not with the end of an array. -/
def startsValue : List Char → Bool
  | [] => false
  | c :: _ => !isSpace c && c != ']'

theorem startsValue_cons {c : Char} {cs : List Char} (h : startsValue (c :: cs) = true) :
    isSpace c = false ∧ c ≠ ']' := by
  simpa [startsValue] using h

/-- Space in front of a value is none. -/
theorem skipSpace_of_startsValue {cs : List Char} (h : startsValue cs = true) (rest : List Char) :
    skipSpace (cs ++ rest) = cs ++ rest := by
  cases cs with
  | nil => cases h
  | cons c cs =>
      have hc := (startsValue_cons h).1
      simp [skipSpace, hc]

/-- Parts with commas between them. -/
def commaSeparated {β : Type} (f : β → List Char) : List β → List Char
  | [] => []
  | b :: bs => f b ++ bs.flatMap fun d => ',' :: f d

theorem commaSeparated_map {β γ : Type} (f : γ → List Char) (g : β → γ) (bs : List β) :
    commaSeparated f (bs.map g) = commaSeparated (fun b => f (g b)) bs := by
  cases bs with
  | nil => rfl
  | cons b bs => rw [List.map_cons, commaSeparated, commaSeparated, List.flatMap_map]

theorem intercalate_comma_map {β : Type} (f : β → List Char) (bs : List β) :
    List.intercalate [','] (bs.map f) = commaSeparated f bs := by
  induction bs with
  | nil => rfl
  | cons b bs ih =>
      cases bs with
      | nil => simp [commaSeparated]
      | cons c bs =>
          rw [List.map_cons, List.map_cons, List.intercalate_cons_cons, ← List.map_cons, ih]
          simp [commaSeparated]

/-- A character among written parts is a comma or stands in one of them. -/
theorem mem_commaSeparated {β : Type} {f : β → List Char} {bs : List β} {c : Char}
    (h : c ∈ commaSeparated f bs) : c = ',' ∨ ∃ b ∈ bs, c ∈ f b := by
  cases bs with
  | nil => cases h
  | cons b bs =>
      rw [commaSeparated, List.mem_append, List.mem_flatMap] at h
      rcases h with h | ⟨d, hd, h⟩
      · exact Or.inr ⟨b, List.mem_cons_self, h⟩
      · rcases List.mem_cons.mp h with rfl | h
        · exact Or.inl rfl
        · exact Or.inr ⟨d, List.mem_cons_of_mem b hd, h⟩

/-- The written items of an array. -/
theorem renderItems_eq (vs : List Json) : renderItems vs = commaSeparated render vs := by
  induction vs with
  | nil => rfl
  | cons v vs ih =>
      cases vs with
      | nil => simp [renderItems, commaSeparated]
      | cons w vs =>
          rw [renderItems, ih, commaSeparated, commaSeparated, List.flatMap_cons, List.cons_append]

/-- The written form of a member. -/
def renderMember (m : String × Json) : List Char := quote m.1.toList ++ ':' :: render m.2

/-- The written members of an object. -/
theorem renderMembers_eq (ms : List (String × Json)) :
    renderMembers ms = commaSeparated renderMember ms := by
  induction ms with
  | nil => rfl
  | cons m ms ih =>
      cases ms with
      | nil => simp [renderMembers, renderMember, commaSeparated]
      | cons n ms =>
          show quote m.1.toList ++ ':' :: (render m.2 ++ ',' :: renderMembers (n :: ms)) = _
          rw [ih]
          simp [commaSeparated, renderMember]

/-! ## Items -/

section Items

variable {α : Type} {read : List Char → Except Stop (α × List Char)} {write : α → List Char}

/-- Each value is read from what is written for it, whatever follows that does not go on with
it. -/
def ReadsBack (read : List Char → Except Stop (α × List Char)) (write : α → List Char) (v : α) :
    Prop :=
  startsValue (write v) = true ∧
    ∀ rest, endsNumber rest = true → read (write v ++ rest) = .ok (v, rest)

/-- What follows an item inside an array does not go on with a number. -/
theorem endsNumber_flatMap_comma {β : Type} (f : β → List Char) (vs : List β) {c : Char}
    (hc : endsNumber [c] = true) (rest : List Char) :
    endsNumber ((vs.flatMap fun w => ',' :: f w) ++ c :: rest) = true := by
  cases vs with
  | nil => exact hc
  | cons v vs => rfl

/-- Parts that are not empty are at least as long together as they are many. -/
theorem length_le_length_flatMap {β γ : Type} (f : β → List γ) (hf : ∀ b, 0 < (f b).length)
    (bs : List β) : bs.length ≤ (bs.flatMap f).length := by
  induction bs with
  | nil => simp
  | cons b bs ih =>
      have hb := hf b
      rw [List.flatMap_cons, List.length_append, List.length_cons]
      omega

/-- The items behind the first one. -/
theorem readItemsWithin_tail (vs : List α) (h : ∀ v ∈ vs, ReadsBack read write v)
    (bound : List Char) (hbound : vs.length < bound.length) (rest : List Char) :
    readItemsWithin read bound false ((vs.flatMap fun w => ',' :: write w) ++ ']' :: rest) =
      .ok (vs, rest) := by
  induction vs generalizing bound with
  | nil =>
      cases bound with
      | nil => simp at hbound
      | cons b bound => rfl
  | cons v vs ih =>
      cases bound with
      | nil => simp at hbound
      | cons b bound =>
          obtain ⟨hstart, hread⟩ := h v List.mem_cons_self
          have hrest := ih (fun w hw => h w (List.mem_cons_of_mem v hw)) bound
            (by simpa using hbound)
          -- A number has no end of its own: it ends at the comma or the bracket behind it.
          have hends := endsNumber_flatMap_comma write vs (c := ']') rfl rest
          have hitem : nextItem false
              (',' :: (write v ++ ((vs.flatMap fun w => ',' :: write w) ++ ']' :: rest))) =
              .ok (true, write v ++ ((vs.flatMap fun w => ',' :: write w) ++ ']' :: rest)) := by
            have hspace := skipSpace_of_startsValue hstart
              ((vs.flatMap fun w => ',' :: write w) ++ ']' :: rest)
            have hcomma : ∀ cs, skipSpace (',' :: cs) = ',' :: cs := fun _ => rfl
            cases hv : write v with
            | nil =>
                rw [hv] at hstart
                cases hstart
            | cons c cs =>
                rw [hv] at hstart hspace
                have hclose := (startsValue_cons hstart).2
                rw [nextItem, hcomma]
                simp only [List.cons_append] at hspace ⊢
                simp [hspace, hclose]
          rw [List.flatMap_cons, List.cons_append, List.cons_append, List.append_assoc,
            readItemsWithin, hitem]
          simp only [bind, Except.bind, hread _ hends, hrest]

/-- **The items of an array read back**, behind its opening bracket. -/
theorem readAll_commaSeparated (vs : List α) (h : ∀ v ∈ vs, ReadsBack read write v)
    (rest : List Char) :
    readAll read (commaSeparated write vs ++ ']' :: rest) = .ok (vs, rest) := by
  cases vs with
  | nil => rfl
  | cons v vs =>
      obtain ⟨hstart, hread⟩ := h v List.mem_cons_self
      -- what follows the first item, a comma or the bracket, does not go on with it
      have hends := endsNumber_flatMap_comma write vs (c := ']') rfl rest
      have hlength := length_le_length_flatMap (fun w => ',' :: write w) (fun _ => by simp) vs
      have hspace := skipSpace_of_startsValue hstart
        ((vs.flatMap fun w => ',' :: write w) ++ ']' :: rest)
      have hvalue := hread _ hends
      rw [commaSeparated, List.append_assoc, readAll]
      cases hv : write v with
      | nil =>
          rw [hv] at hstart
          cases hstart
      | cons c cs =>
          rw [hv] at hstart
          have hclose := (startsValue_cons hstart).2
          rw [hv, List.cons_append] at hspace hvalue
          have htail := readItemsWithin_tail vs (fun w hw => h w (List.mem_cons_of_mem v hw))
            (cs ++ ((vs.flatMap fun w => ',' :: write w) ++ ']' :: rest))
            (by simp only [List.length_append, List.length_cons]; omega) rest
          rw [List.cons_append, readItemsWithin, nextItem, hspace]
          simp only [hclose, if_false, if_true, bind, Except.bind, hvalue, htail]

end Items

/-! ## Members -/

section Members

variable {σ : Type} {read : List Char → σ → List Char → Except Stop (σ × List Char)}
  {text : List Char × List Char → List Char}

/-- `read` makes one state of another by reading the members in turn: each is given by its name
and the text of its value. -/
def Reads (read : List Char → σ → List Char → Except Stop (σ × List Char)) :
    σ → List (List Char × List Char) → σ → Prop
  | s, [], t => s = t
  | s, (name, value) :: ms, t => ∃ r,
      (∀ rest, endsNumber rest = true → read name s (':' :: (value ++ rest)) = .ok (r, rest)) ∧
        Reads read r ms t

/-- Members read one part after the other are read as a whole. -/
theorem Reads.append {s r t : σ} {ms ns : List (List Char × List Char)} (hms : Reads read s ms r)
    (hns : Reads read r ns t) : Reads read s (ms ++ ns) t := by
  induction ms generalizing s with
  | nil =>
      cases hms
      exact hns
  | cons m ms ih =>
      obtain ⟨q, hq, hrest⟩ := hms
      exact ⟨q, hq, ih hrest⟩

/-- Of each member, given by its name and the text of its value, the name is read and the value is
what stands behind it. -/
def NamesMembers (text : List Char × List Char → List Char) : Prop :=
  ∀ m rest, ∃ cs, text m ++ rest = '"' :: cs ∧ readQuoted cs = .ok (m.1, ':' :: (m.2 ++ rest))

/-- The text of a member whose value is written already. -/
def memberText (m : List Char × List Char) : List Char := quote m.1 ++ ':' :: m.2

theorem namesMembers_memberText : NamesMembers memberText := by
  intro m rest
  refine ⟨escape m.1 ++ '"' :: (':' :: (m.2 ++ rest)), ?_, readQuoted_escape _ _⟩
  simp [memberText, quote]

/-- The members behind the first one. -/
theorem readMembersWithin_tail (htext : NamesMembers text) {s t : σ}
    {ms : List (List Char × List Char)} (h : Reads read s ms t) (bound : List Char)
    (hbound : ms.length < bound.length) (rest : List Char) :
    readMembersWithin read bound false s
      ((ms.flatMap fun m => ',' :: text m) ++ '}' :: rest) = .ok (t, rest) := by
  induction ms generalizing s bound with
  | nil =>
      cases h
      cases bound with
      | nil => simp at hbound
      | cons b bound => rfl
  | cons m ms ih =>
      obtain ⟨r, hread, hms⟩ := h
      cases bound with
      | nil => simp at hbound
      | cons b bound =>
          have hrest := ih hms bound (by simpa using hbound)
          have hends := endsNumber_flatMap_comma text ms (c := '}') rfl rest
          obtain ⟨cs, hcs, hname⟩ := htext m ((ms.flatMap fun m => ',' :: text m) ++ '}' :: rest)
          have hmember : nextMember false (',' :: '"' :: cs) =
              .ok (some m.1, ':' :: (m.2 ++
                ((ms.flatMap fun m => ',' :: text m) ++ '}' :: rest))) := by
            show (readQuoted cs).map (fun r => (some r.1, r.2)) = _
            rw [hname]
            rfl
          rw [List.flatMap_cons, List.cons_append, List.cons_append, List.append_assoc, hcs,
            readMembersWithin, hmember]
          simp only [bind, Except.bind, hread _ hends, hrest]

/-- **The members of an object read back**, behind its opening brace. -/
theorem readInto_commaSeparated (htext : NamesMembers text) {s t : σ}
    {ms : List (List Char × List Char)} (h : Reads read s ms t) (rest : List Char) :
    readInto read s (commaSeparated text ms ++ '}' :: rest) = .ok (t, rest) := by
  cases ms with
  | nil =>
      cases h
      rfl
  | cons m ms =>
      obtain ⟨r, hread, hms⟩ := h
      have hends := endsNumber_flatMap_comma text ms (c := '}') rfl rest
      have hlength := length_le_length_flatMap (fun m => ',' :: text m) (fun _ => by simp) ms
      obtain ⟨cs, hcs, hname⟩ := htext m ((ms.flatMap fun m => ',' :: text m) ++ '}' :: rest)
      have hmember : nextMember true ('"' :: cs) =
          .ok (some m.1, ':' :: (m.2 ++
            ((ms.flatMap fun m => ',' :: text m) ++ '}' :: rest))) := by
        show (readQuoted cs).map (fun r => (some r.1, r.2)) = _
        rw [hname]
        rfl
      -- no more members are to come than the text that bounds them has characters
      have hsize : ms.length < cs.length := by
        have hpos : 0 < (text m).length := by
          obtain ⟨ds, hds, -⟩ := htext m []
          rw [List.append_nil] at hds
          rw [hds]
          exact Nat.succ_pos _
        have := congrArg List.length hcs
        simp only [List.length_append, List.length_cons] at this
        omega
      rw [commaSeparated, List.append_assoc, hcs, readInto, readMembersWithin, hmember]
      simp only [bind, Except.bind, hread _ hends, readMembersWithin_tail htext hms cs hsize]

end Members

end IndexAdvisor.Json
