import IndexAdvisor.Proofs.Sql.Extraction
import IndexAdvisor.Proofs.Sql.Fragments
import IndexAdvisor.Proofs.Sql.Reading
import Mathlib.Data.List.Induction

/-!
# What an alias is bound to

An alias stands for the table of its last binding. A FROM entry binds its alias to its first word as
it stands, while the table that is listed for the entry is this word without the characters at its
ends that cannot end a name. So the two are the same only where nothing is cut off.
-/

set_option autoImplicit false

namespace IndexAdvisor.Sql

open IndexAdvisor.Text

/-! ## The last binding -/

/-- The table that a name is bound to last. -/
def lastBound (n : List Char) (bs : List (List Char × List Char)) : Option (List Char) :=
  bs.reverse.lookup n

section Last

variable {bs more : List (List Char × List Char)} {n t : List Char}

theorem lastBound_append (n : List Char) (bs more : List (List Char × List Char)) :
    lastBound n (bs ++ more) = (lastBound n more).or (lastBound n bs) := by
  rw [lastBound, List.reverse_append, List.lookup_append]
  rfl

theorem lastBound_cons (n : List Char) (b : List Char × List Char)
    (bs : List (List Char × List Char)) :
    lastBound n (b :: bs) = (lastBound n bs).or (if n = b.1 then some b.2 else none) := by
  rw [← List.singleton_append, lastBound_append]
  obtain ⟨a, t⟩ := b
  have hone : lastBound n [(a, t)] = if n = a then some t else none := by
    rw [lastBound, List.reverse_singleton, List.lookup_cons]
    split
    · rename_i heq
      rw [if_pos (beq_iff_eq.mp heq)]
    · rename_i hne
      rw [if_neg (beq_eq_false_iff_ne.mp hne)]
      rfl
  rw [hone]

theorem lastBound_concat (n : List Char) (bs : List (List Char × List Char))
    (b : List Char × List Char) :
    lastBound n (bs ++ [b]) = if n = b.1 then some b.2 else lastBound n bs := by
  rw [lastBound_append, lastBound_cons]
  split <;> rfl

/-- Bindings of other names do not matter. -/
theorem lastBound_map_filter {γ : Type} {g : γ → List Char × List Char} {p : γ → Bool}
    {l : List γ} (h : ∀ x ∈ l, p x = false → (g x).1 ≠ n) :
    lastBound n (l.map g) = lastBound n ((l.filter p).map g) := by
  induction l with
  | nil => rfl
  | cons x l ih =>
      have hmore := ih fun y hy => h y (List.mem_cons_of_mem x hy)
      cases hx : p x with
      | true => rw [List.filter_cons_of_pos hx, List.map_cons, List.map_cons, lastBound_cons,
          lastBound_cons, hmore]
      | false =>
          have hne : n ≠ (g x).1 := (h x List.mem_cons_self hx).symm
          rw [List.filter_cons_of_neg (by rw [hx]; decide), List.map_cons, lastBound_cons, hmore,
            if_neg hne, Option.or_none]

theorem mem_of_lastBound (h : lastBound n bs = some t) : (n, t) ∈ bs := by
  obtain ⟨before, behind, hbs, -⟩ := List.lookup_eq_some_iff.mp h
  exact List.mem_reverse.mp (hbs ▸ List.mem_append_right before List.mem_cons_self)

theorem exists_lastBound_of_mem (h : (n, t) ∈ bs) : ∃ last, lastBound n bs = some last := by
  rw [← Option.ne_none_iff_exists', lastBound, ne_eq, List.lookup_eq_none_iff]
  intro hnone
  exact absurd (hnone (n, t) (List.mem_reverse.mpr h)) (by simp)

/-- **A name stands for the table it is bound to last**, or for what it stood for. -/
theorem resolve_bind (n : List Char) (bs : List (List Char × List Char)) (m : Aliases) :
    (m.bind bs).resolve (String.ofList n) =
      ((lastBound n bs).map String.ofList).getD (m.resolve (String.ofList n)) := by
  -- from the end, since a later binding hides an earlier one
  induction bs using List.reverseRecOn with
  | nil => rfl
  | append_singleton bs b ih =>
      have hbind : m.bind (bs ++ [b]) =
          (m.bind bs).insert (String.ofList b.1) (String.ofList b.2) := by
        rw [Aliases.bind, List.foldl_append]
        rfl
      rw [hbind, lastBound_concat]
      split
      · rename_i heq
        rw [heq, Aliases.resolve_insert_self]
        rfl
      · rename_i hne
        have hne' : String.ofList n ≠ String.ofList b.1 := fun h => hne (String.ofList_inj.mp h)
        rw [Aliases.resolve_insert_of_ne _ _ hne', ih]

/-- The bindings of the FROM entries of a statement. -/
def fromBindings (q : List Char) : List (List Char × List Char) :=
  match fromClause q with
  | some t => (t.splitOn ',').filterMap fun entry => entryBinding? (words entry)
  | none => []

/-- The bindings of a statement, those of its FROM entries before those of its joins. -/
def bindingsOf (q : List Char) : List (List Char × List Char) :=
  fromBindings q ++ (joinTargets q).map targetBinding

theorem resolveTable_eq (sql : String) (n : List Char) :
    (features sql).resolveTable (String.ofList n) =
      ((lastBound n (bindingsOf (normalize sql.toList))).map String.ofList).getD
        (String.ofList n) :=
  resolve_bind n _ Aliases.empty

end Last

/-! ## Table names with nothing to cut off -/

/-- The word begins and ends with characters that can end a table name. -/
def Trimmed (w : List Char) : Prop :=
  (∀ c ∈ w.head?, isTableChar c = true) ∧ ∀ c ∈ w.getLast?, isTableChar c = true

instance (w : List Char) : Decidable (Trimmed w) :=
  inferInstanceAs (Decidable ((∀ c ∈ w.head?, _) ∧ ∀ c ∈ w.getLast?, _))

section Trimmed

variable {w t entry : List Char} {more : List (List Char)}

theorem trimmed_of_forall (h : ∀ c ∈ w, isTableChar c = true) : Trimmed w :=
  ⟨fun c hc => h c (List.mem_of_head? hc), fun c hc => h c (List.mem_of_getLast? hc)⟩

theorem head?_dropEndWhile {p : Char → Bool} {cs : List Char} {c : Char}
    (h : c ∈ (dropEndWhile p cs).head?) : c ∈ cs.head? := by
  cases cs with
  | nil => exact h
  | cons d cs =>
      rw [dropEndWhile_cons] at h
      split at h
      · cases h
      · exact h

/-- Nothing is cut off the ends of a word that is trimmed. -/
theorem dropEndWhile_of_getLast? {p : Char → Bool} {cs : List Char}
    (h : ∀ c ∈ cs.getLast?, p c = false) : dropEndWhile p cs = cs := by
  induction cs with
  | nil => rfl
  | cons c cs ih =>
      cases cs with
      | nil =>
          rw [dropEndWhile_cons, h c rfl]
          rfl
      | cons d cs =>
          rw [dropEndWhile_cons, ih fun e he => h e (by rwa [List.getLast?_cons_cons]),
            List.isEmpty_cons, Bool.and_false, if_neg Bool.false_ne_true]

theorem ne_nil_of_mem_words (h : w ∈ words entry) : w ≠ [] := by
  have hkept := (List.mem_filter.mp h).2
  rintro rfl
  cases hkept

theorem entryTable?_of_trimmed (hwords : words entry = w :: more) (hw : Trimmed w) :
    entryTable? entry = some w := by
  have hne : w ≠ [] := ne_nil_of_mem_words (hwords ▸ List.mem_cons_self)
  obtain ⟨c, cs, rfl⟩ := List.exists_cons_of_ne_nil hne
  have hkept : dropEndWhile (fun c => !isTableChar c)
      ((c :: cs).dropWhile fun c => !isTableChar c) = c :: cs := by
    rw [List.dropWhile_cons_of_neg (by rw [hw.1 c rfl]; decide)]
    exact dropEndWhile_of_getLast? fun d hd => by rw [hw.2 d hd]; rfl
  rw [entryTable?, hwords]
  simp only [hkept]

theorem trimmed_of_entryTable? (h : entryTable? entry = some t) : Trimmed t := by
  rw [entryTable?] at h
  split at h
  · cases h
  · rename_i w more hwords
    have htrim : dropEndWhile (fun c => !isTableChar c) (w.dropWhile fun c => !isTableChar c) =
        t := by
      split at h
      · cases h
      · exact Option.some.inj h
    constructor
    · intro c hc
      have hhead := List.head?_dropWhile_not (fun c => !isTableChar c) w
      rw [Option.mem_def.mp (head?_dropEndWhile (htrim ▸ hc))] at hhead
      simpa using hhead
    · intro c hc
      rw [← htrim] at hc
      simpa using getLast?_dropEndWhile hc

end Trimmed

/-! ## Tables that are reported -/

/-- The table is listed for a FROM entry, or a join names it. -/
def Reported (sql t : String) : Prop :=
  t ∈ (features sql).tables ∨
    t ∈ (joinTargets (normalize sql.toList)).map fun target => String.ofList target.1

instance (sql t : String) : Decidable (Reported sql t) := inferInstanceAs (Decidable (_ ∨ _))

section Reported

variable {sql : String} {t table : List Char}

/-- The name of a joined table has nothing to cut off. -/
theorem trimmed_of_mem_joinTargets {cs : List Char} {target : List Char × Option (List Char)}
    (h : target ∈ joinTargets cs) : Trimmed target.1 := by
  -- lower-casing leaves nothing in a name that a table name could not end with
  have hname (n : List Char) (hn : ∀ c ∈ n, isNameChar (foldCase c) = true) (before : List Char) :
      ∀ c ∈ lowerAfter before n, isTableChar c = true := by
    induction n generalizing before with
    | nil => exact nofun
    | cons c n ih =>
        obtain ⟨d, hat, hd⟩ := lowerAt_name (hn c List.mem_cons_self) before n
        rw [lowerAfter, hat, List.singleton_append, List.forall_mem_cons]
        refine ⟨?_, ih (fun e he => hn e (List.mem_cons_of_mem c he)) (c :: before)⟩
        rcases hd with hd | rfl
        · exact isTableChar_of_isNameChar hd
        · decide +kernel
  obtain ⟨ds, rest, hread⟩ := mem_everyAt h
  rw [joinTarget?_eq] at hread
  obtain ⟨r, htable, hword⟩ := Option.bind_eq_some_iff.mp hread
  obtain ⟨es, -, htable⟩ := Option.bind_eq_some_iff.mp htable
  obtain ⟨fs, -, htable⟩ := Option.bind_eq_some_iff.mp htable
  have htarget : target.1 = lower r.1 := by
    rw [targetWord] at hword
    split at hword <;> rw [← (Prod.mk.inj (Option.some.inj hword)).1]
  rw [htarget]
  exact trimmed_of_forall (hname r.1 (name_eq_some_iff.mp htable).2.2.1 [])

/-- What is reported has nothing to cut off. -/
theorem trimmed_of_reported (h : Reported sql (String.ofList table)) : Trimmed table := by
  have hunknown : Trimmed unknownTable.toList := by decide
  rcases h with h | h
  · cases hfrom : fromClause (normalize sql.toList) with
    | none =>
        rw [tables_of_none hfrom, List.mem_singleton] at h
        rw [← String.toList_ofList (l := table), h]
        exact hunknown
    | some t =>
        rw [tables_of_some hfrom] at h
        split at h
        · rw [← String.toList_ofList (l := table), List.mem_singleton.mp h]
          exact hunknown
        · obtain ⟨name, hname, heq⟩ := List.mem_map.mp h
          rw [String.ofList_inj] at heq
          subst heq
          obtain ⟨entry, -, hentry⟩ := List.mem_filterMap.mp hname
          exact trimmed_of_entryTable? hentry
  · obtain ⟨target, htarget, heq⟩ := List.mem_map.mp h
    rw [String.ofList_inj] at heq
    exact heq ▸ trimmed_of_mem_joinTargets htarget

theorem mem_tables_of_trimmed (hfrom : fromClause (normalize sql.toList) = some t)
    {entry : List Char} (hentry : entry ∈ t.splitOn ',') {more : List (List Char)}
    (hwords : words entry = table :: more) (htable : Trimmed table) :
    String.ofList table ∈ (features sql).tables := by
  have hmem : table ∈ entryTables t :=
    List.mem_filterMap.mpr ⟨entry, hentry, entryTable?_of_trimmed hwords htable⟩
  rw [tables_of_some hfrom, if_neg (List.ne_nil_of_mem hmem)]
  exact List.mem_map_of_mem hmem

/-- **A table that is bound is reported** exactly if nothing is cut off its name. -/
theorem reported_iff_of_mem_bindings {b : List Char × List Char}
    (hb : b ∈ bindingsOf (normalize sql.toList)) :
    Reported sql (String.ofList b.2) ↔ Trimmed b.2 := by
  refine ⟨trimmed_of_reported, fun htrimmed => ?_⟩
  rw [bindingsOf, List.mem_append] at hb
  rcases hb with hb | hb
  · rw [fromBindings] at hb
    split at hb
    · rename_i t hfrom
      obtain ⟨entry, hentry, hbinding⟩ := List.mem_filterMap.mp hb
      obtain ⟨more, hwords⟩ := exists_words_of_entryBinding? hbinding
      exact Or.inl (mem_tables_of_trimmed hfrom hentry hwords htrimmed)
    · exact absurd hb List.not_mem_nil
  · obtain ⟨target, htarget, rfl⟩ := List.mem_map.mp hb
    rw [targetBinding_snd]
    exact Or.inr (List.mem_map_of_mem htarget)

end Reported

/-! ## Aliases of FROM entries -/

/-- The entry is `table n` or `table as n`, whatever stands behind. -/
def Introduces (entry n : List Char) : Prop :=
  ∃ table more,
    words entry = table :: n :: more ∧ n ≠ "as".toList ∧ mayBeAlias n = true ∨
    words entry = table :: "as".toList :: n :: more

section Introduces

variable {q t entry n : List Char}

theorem Introduces.exists_entryBinding (h : Introduces entry n) :
    ∃ table, entryBinding? (words entry) = some (n, table) := by
  obtain ⟨table, more, ⟨hwords, hne, hmay⟩ | hwords⟩ := h
  · exact ⟨table, by rw [hwords, entryBinding?, if_neg hne, if_pos hmay]⟩
  · exact ⟨table, by rw [hwords, entryBinding?, if_pos rfl]; rfl⟩

/-- An alias that a FROM entry introduces is bound. -/
theorem Introduces.exists_lastBound (hfrom : fromClause q = some t)
    (hentry : entry ∈ t.splitOn ',') (h : Introduces entry n) :
    ∃ table, lastBound n (bindingsOf q) = some table := by
  obtain ⟨table, hbinding⟩ := h.exists_entryBinding
  refine exists_lastBound_of_mem (t := table) ?_
  rw [bindingsOf, fromBindings, hfrom]
  exact List.mem_append_left _ (List.mem_filterMap.mpr ⟨entry, hentry, hbinding⟩)

end Introduces

end IndexAdvisor.Sql
