import IndexAdvisor.Json.Shape
import IndexAdvisor.Proofs.Json.Value

/-!
# Records read back

What a shape writes it reads back, under conditions on the shape alone: no field is read under the
name of another one, numbers have at most 64 bits, and the nesting is within bounds. What it writes
is also a value of any form, so that a reader that does not know the shape reads it as well.
-/

set_option autoImplicit false

namespace IndexAdvisor.Json

/-- The names under which fields are written. -/
def Fields.names : Fields → List String
  | .nil => []
  | .cons name _ _ _ rest => name :: rest.names

mutual

/-- The values of the shape are nested at most `room` deep, and each is written in a way of its
own. -/
def Shape.fits : Nat → Shape → Bool
  | _, .text => true
  | _, .count bits => decide (bits ≤ 64)
  | _, .choice names => decide names.Nodup
  | 0, .list _ => false
  | room + 1, .list s => s.fits room
  | 0, .record _ _ => false
  | room + 1, .record _ fs => fs.fits room
  | _, .any => false

/-- So are the values of the fields, and none of them is read as another one. -/
def Fields.fits : Nat → Fields → Bool
  | _, .nil => true
  | room, .cons name others _ s rest =>
    s.fits room && rest.names.all (fun n => !(name :: others).contains n) && rest.fits room

end

/-! ## What is kept of a field -/

section Held

variable {α : Type}

/-- The slot of a field once its record has been read. -/
def Presence.slot : (p : Presence) → p.Held α → Option (p.Held α)
  | .required, v => some v
  | .nullable, v => some v
  | .optional, v => v.map some
  | .defaulted, v => v.map some

/-- The value that is written for a field, if one is. -/
def Presence.shown? (f : α → Json) : (p : Presence) → p.Held α → Option Json
  | .required, v => some (f v)
  | .nullable, none => some .null
  | .nullable, some x => some (f x)
  | .optional, v => v.map f
  | .defaulted, v => v.map f

/-- The slot and what stands for a lacking field make what is kept. -/
theorem Presence.slot_or_lacking? (p : Presence) (v : p.Held α) :
    (p.slot v).or p.lacking? = some v := by
  cases p with
  | required => rfl
  | nullable => rfl
  | optional => cases v <;> rfl
  | defaulted => cases v <;> rfl

/-- Nothing is kept in the slot of a field that is not written. -/
theorem Presence.slot_eq_none {f : α → Json} {p : Presence} {v : p.Held α}
    (h : p.shown? f v = none) : p.slot v = none := by
  cases p with
  | required => cases h
  | nullable => cases v <;> cases h
  | optional => cases v with
    | none => rfl
    | some x => cases h
  | defaulted => cases v with
    | none => rfl
    | some x => cases h

/-- A value that is there is not taken for null, if it is not written like null. -/
theorem Presence.readHeld_optional {f : α → Json} {read : List Char → Except Stop (α × List Char)}
    {x : α} (hx : ReadsBack read (fun x => render (f x)) x)
    (hhead : (render (f x)).head? ≠ some 'n') {rest : List Char} (hrest : endsNumber rest = true) :
    Presence.optional.readHeld read (render (f x) ++ rest) = .ok (some x, rest) := by
  have hstart : startsValue (render (f x)) = true := hx.1
  have hread : read (render (f x) ++ rest) = .ok (x, rest) := hx.2 rest hrest
  simp only [Presence.readHeld, skipSpace_of_startsValue hstart]
  cases hf : render (f x) with
  | nil =>
      rw [hf] at hstart
      cases hstart
  | cons c cs =>
      rw [hf, List.head?_cons] at hhead
      rw [hf, List.cons_append] at hread
      rw [List.cons_append]
      split
      · rename_i heq
        exact absurd (congrArg some (List.cons.inj heq).1) hhead
      · rw [hread]
        rfl

/-- What is written for a field reads back, if its value does and, where null means that there is
none, is not written like null. -/
theorem Presence.readHeld_render {f : α → Json}
    {read : List Char → Except Stop (α × List Char)} {p : Presence} {v : p.Held α} {j : Json}
    (hj : p.shown? f v = some j)
    (hread : ∀ x, j = f x → ReadsBack read (fun x => render (f x)) x)
    (hnull : p = .required ∨ ∀ x, (render (f x)).head? ≠ some 'n') {rest : List Char}
    (hrest : endsNumber rest = true) :
    p.slot v = some v ∧ p.readHeld read (render j ++ rest) = .ok (v, rest) := by
  cases p with
  | required =>
      cases hj
      exact ⟨rfl, (hread v rfl).2 rest hrest⟩
  | nullable =>
      cases v with
      | none =>
          cases hj
          exact ⟨rfl, rfl⟩
      | some x =>
          cases hj
          exact ⟨rfl, Presence.readHeld_optional (hread x rfl)
            (hnull.resolve_left Presence.noConfusion x) hrest⟩
  | optional =>
      cases v with
      | none => cases hj
      | some x =>
          cases hj
          exact ⟨rfl, Presence.readHeld_optional (hread x rfl)
            (hnull.resolve_left Presence.noConfusion x) hrest⟩
  | defaulted =>
      cases v with
      | none => cases hj
      | some x =>
          cases hj
          refine ⟨rfl, ?_⟩
          show (read (render (f x) ++ rest)).map (fun r => (some r.1, r.2)) = _
          rw [(hread x rfl).2 rest hrest]
          rfl

end Held

/-! ## Fields -/

/-- The slots of a record whose members have all been read. -/
def Fields.slots : (fs : Fields) → fs.Carrier → fs.Slots
  | .nil, _ => ()
  | .cons _ _ p _ rest, v => (p.slot v.1, rest.slots v.2)

/-- The slots make the record. -/
theorem Fields.finish_slots : (fs : Fields) → (v : fs.Carrier) → fs.finish (fs.slots v) = .ok v
  | .nil, _ => rfl
  | .cons _ _ p _ rest, v => by
      rw [Fields.finish, Fields.slots]
      simp only [Presence.slot_or_lacking?, Fields.finish_slots rest v.2, Except.map]
      rfl

/-- The members of a record: the one of its first field, if it is written, and the others. -/
theorem Fields.toMembers_cons (n : String) (others : List String) (p : Presence) (s : Shape)
    (rest : Fields) (v : (Fields.cons n others p s rest).Carrier) :
    (Fields.cons n others p s rest).toMembers v =
      ((p.shown? s.toJson v.1).map fun j => (n, j)).toList ++ rest.toMembers v.2 := by
  obtain ⟨x, vs⟩ := v
  cases p with
  | required => rfl
  | nullable => cases x <;> rfl
  | optional => cases x <;> rfl
  | defaulted => cases x <;> rfl

/-- A record writes members under the names of its fields only. -/
theorem Fields.mem_names_of_mem_toMembers : (fs : Fields) → (v : fs.Carrier) →
    ∀ {m : String × Json}, m ∈ fs.toMembers v → m.1 ∈ fs.names
  | .nil, _, _, h => by cases h
  | .cons n others p s rest, v, m, h => by
      rw [Fields.toMembers_cons, List.mem_append, Option.mem_toList, Option.map_eq_some_iff] at h
      rcases h with ⟨j, -, rfl⟩ | h
      · exact List.mem_cons_self
      · exact List.mem_cons_of_mem n (Fields.mem_names_of_mem_toMembers rest v.2 h)

/-- The names and texts of the members that a record writes. -/
def Fields.texts (fs : Fields) (v : fs.Carrier) : List (List Char × List Char) :=
  (fs.toMembers v).map fun m => (m.1.toList, render m.2)

/-- Members that are none of the first field are read past it. -/
theorem Fields.reads_past {n : String} {others : List String} {p : Presence} {s : Shape}
    {rest : Fields} {room : Nat} (x : Option (p.Held s.Carrier)) {slots slots' : rest.Slots}
    {ms : List (List Char × List Char)}
    (hnames : ∀ m ∈ ms, ∀ k ∈ n :: others, k.toList ≠ m.1)
    (h : Reads (rest.readMember room) slots ms slots') :
    Reads ((Fields.cons n others p s rest).readMember room) (x, slots) ms (x, slots') := by
  induction ms generalizing slots with
  | nil => exact congrArg (x, ·) h
  | cons m ms ih =>
      obtain ⟨r, hr, hms⟩ := h
      refine ⟨(x, r), fun cs hcs => ?_, ih (fun m hm => hnames m (List.mem_cons_of_mem _ hm)) hms⟩
      have hother : ((n :: others).any fun k => k.toList == m.1) = false := by
        rw [List.any_eq_false]
        intro k hk
        simpa using hnames m List.mem_cons_self k hk
      have hpast : (Fields.cons n others p s rest).readMember room m.1 (x, slots)
          (':' :: (m.2 ++ cs)) =
          (rest.readMember room m.1 slots (':' :: (m.2 ++ cs))).map fun r => ((x, r.1), r.2) :=
        if_neg (by rw [hother]; exact Bool.false_ne_true)
      exact hpast.trans (congrArg (Except.map _) (hr cs hcs))

/-! ## Shapes -/

/-- No value of a shape is written as null is. -/
theorem Shape.head?_render_ne {s : Shape} {room : Nat} (h : s.fits room = true) (v : s.Carrier) :
    (render (s.toJson v)).head? ≠ some 'n' := by
  cases s with
  | text => exact (by decide : some '"' ≠ some 'n')
  | count bits =>
      show (Nat.toDigits 10 v.val).head? ≠ some 'n'
      intro hn
      have hdigit := isDigit_of_mem_toDigits (List.mem_of_mem_head? hn)
      exact absurd hdigit (by decide)
  | choice names => exact (by decide : some '"' ≠ some 'n')
  | list s => exact (by decide : some '[' ≠ some 'n')
  | record kind fs => exact (by decide : some '{' ≠ some 'n')
  | any => cases room <;> cases h

/-- One of some different names is found where it stands. -/
theorem finIdxOf?_get {names : List String} (h : names.Nodup) (i : Fin names.length) :
    names.finIdxOf? (names.get i) = some i := by
  rw [List.finIdxOf?_eq_some_iff]
  refine ⟨rfl, fun j hj heq => ?_⟩
  have hget : names[j.val]? = names[i.val]? := by
    rw [List.getElem?_eq_getElem j.isLt, List.getElem?_eq_getElem i.isLt]
    exact congrArg some heq
  exact absurd (Fin.ext ((List.getElem?_inj j.isLt h).mp hget)) (Fin.ne_of_lt hj)

/-- So it is read where it is written. -/
theorem readName_get {names : List String} (h : names.Nodup) (i : Fin names.length)
    (rest : List Char) :
    readName names (escape (names.get i).toList ++ '"' :: rest) = .ok (i, rest) := by
  simp only [readName, readQuoted_escape, bind, Except.bind, String.ofList_toList,
    finIdxOf?_get h]

/-- A number of some bits is read where it is written. -/
theorem readCount_toDigits {bits : Nat} (hbits : bits ≤ 64) (n : Fin (Nat.pow 2 bits))
    {rest : List Char} (hrest : endsNumber rest = true) :
    readCount bits (Nat.toDigits 10 n.val ++ rest) = .ok (n, rest) := by
  have hn : n.val < UInt64.size :=
    Nat.lt_of_lt_of_le n.isLt (Nat.pow_le_pow_right (by decide) hbits)
  rw [readCount, skipSpace_of_startsValue (startsValue_toDigits n.val)]
  simp only [isNumberAhead_toDigits, if_true, readNumber_toDigits hn hrest, bind, Except.bind,
    n.isLt, dif_pos]

/-- A text is read where it is written. -/
theorem readText_render (expected : String) (s : String) (rest : List Char) :
    (readText expected (render (.string s) ++ rest)).map (fun r => (String.ofList r.1, r.2)) =
      .ok (s, rest) := by
  have htext : render (.string s) ++ rest = '"' :: (escape s.toList ++ '"' :: rest) := by
    simp [render, quote]
  rw [htext]
  show (readQuoted (escape s.toList ++ '"' :: rest)).map _ = _
  rw [readQuoted_escape]
  exact congrArg (fun t => Except.ok (t, rest)) (String.ofList_toList (s := s))

/-- One of some different names is read where it is written. -/
theorem readChoice_render {names : List String} (h : names.Nodup) (room : Nat)
    (i : Fin names.length) (rest : List Char) :
    readChoice room names (render (.string (names.get i)) ++ rest) = .ok (i, rest) := by
  have htext : render (.string (names.get i)) ++ rest =
      '"' :: (escape (names.get i).toList ++ '"' :: rest) := by
    simp [render, quote]
  rw [htext]
  exact readName_get h i rest

/-- A list is read where it is written if its items are. -/
theorem Shape.read_list {s : Shape} {room : Nat} {vs : List s.Carrier}
    (h : ∀ v ∈ vs, ReadsBack (s.read room) (fun v => render (s.toJson v)) v) (rest : List Char) :
    (Shape.list s).read (room + 1) (render (.array (vs.map s.toJson)) ++ rest) =
      .ok (vs, rest) := by
  have htext : render (.array (vs.map s.toJson)) ++ rest =
      '[' :: (commaSeparated (fun v => render (s.toJson v)) vs ++ ']' :: rest) := by
    show '[' :: (renderItems _ ++ [']']) ++ rest = _
    rw [renderItems_eq, List.cons_append, List.append_assoc]
    exact congrArg (fun t => '[' :: (t ++ ']' :: rest)) (commaSeparated_map render _ _)
  exact (congrArg ((Shape.list s).read (room + 1)) htext).trans (readAll_commaSeparated vs h rest)

/-- A record is read where it is written if its members fill its slots. -/
theorem Shape.read_record {kind : String} {fs : Fields} {room : Nat} {v : fs.Carrier}
    (h : Reads (fs.readMember room) fs.noSlots (fs.texts v) (fs.slots v)) (rest : List Char) :
    (Shape.record kind fs).read (room + 1) (render (.object (fs.toMembers v)) ++ rest) =
      .ok (v, rest) := by
  have htext : render (.object (fs.toMembers v)) ++ rest =
      '{' :: (commaSeparated memberText (fs.texts v) ++ '}' :: rest) := by
    show '{' :: (renderMembers (fs.toMembers v) ++ ['}']) ++ rest = _
    rw [renderMembers_eq, List.cons_append, List.append_assoc, Fields.texts, commaSeparated_map]
    rfl
  have hread := readInto_commaSeparated namesMembers_memberText h rest
  have hfinish := fs.finish_slots v
  have hspace (cs : List Char) : skipSpace ('{' :: cs) = '{' :: cs := rfl
  rw [htext, Shape.read]
  simp only [hspace, hread, bind, Except.bind, hfinish]

/-- The first field reads its own member into its slot. -/
theorem Fields.readMember_own {n : String} {others : List String} {p : Presence} {s : Shape}
    {rest : Fields} {room : Nat} (slots : rest.Slots) {text cs : List Char} {x : p.Held s.Carrier}
    (h : p.readHeld (s.read room) (text ++ cs) = .ok (x, cs)) :
    (Fields.cons n others p s rest).readMember room n.toList (none, slots) (':' :: (text ++ cs)) =
      .ok ((some x, slots), cs) := by
  have hown : ((n :: others).any fun k => k.toList == n.toList) = true := by simp
  have hread : (Fields.cons n others p s rest).readMember room n.toList (none, slots)
      (':' :: (text ++ cs)) = ((p.readHeld (s.read room) (text ++ cs)).bind fun r =>
        .ok ((some r.1, slots), r.2) : Except Stop ((Option (p.Held s.Carrier) × rest.Slots) × _)) :=
    if_pos hown
  rw [hread, h]
  rfl

/-- The texts of the members of a record: that of its first field, if it is written, and the
others. -/
theorem Fields.texts_cons (n : String) (others : List String) (p : Presence) (s : Shape)
    (rest : Fields) (v : (Fields.cons n others p s rest).Carrier) :
    (Fields.cons n others p s rest).texts v =
      ((p.shown? s.toJson v.1).map fun j => (n.toList, render j)).toList ++ rest.texts v.2 := by
  rw [Fields.texts, Fields.toMembers_cons, List.map_append]
  cases p.shown? s.toJson v.1 <;> rfl

/-- The members that a record writes fill its slots if the value of its first field reads back, the
other fields are not read as that one, and their members fill their slots. -/
theorem Fields.reads_cons {n : String} {others : List String} {p : Presence} {s : Shape}
    {rest : Fields} {room : Nat} {v : (Fields.cons n others p s rest).Carrier}
    (hread : ∀ x, p.shown? s.toJson v.1 = some (s.toJson x) →
      ReadsBack (s.read room) (fun x => render (s.toJson x)) x)
    (hnull : p = .required ∨ ∀ x, (render (s.toJson x)).head? ≠ some 'n')
    (hnames : rest.names.all (fun k => !(n :: others).contains k) = true)
    (hrest : Reads (rest.readMember room) rest.noSlots (rest.texts v.2) (rest.slots v.2)) :
    Reads ((Fields.cons n others p s rest).readMember room)
      (Fields.cons n others p s rest).noSlots ((Fields.cons n others p s rest).texts v)
      ((Fields.cons n others p s rest).slots v) := by
  -- the members behind the first one are none of the first field
  have hother : ∀ m ∈ rest.texts v.2, ∀ k ∈ n :: others, k.toList ≠ m.1 := by
    intro m hm k hk heq
    obtain ⟨m', hm', rfl⟩ := List.mem_map.mp hm
    have hname := Fields.mem_names_of_mem_toMembers rest v.2 hm'
    have hne := List.all_eq_true.mp hnames _ hname
    rw [String.toList_inj.mp heq] at hk
    rw [List.contains_iff_mem.mpr hk] at hne
    cases hne
  have htail := Fields.reads_past (s := s) (p.slot v.1) hother hrest
  rw [Fields.texts_cons]
  cases hj : p.shown? s.toJson v.1 with
  | none =>
      rw [Presence.slot_eq_none hj] at htail
      have hslots : (Fields.cons n others p s rest).slots v = (none, rest.slots v.2) :=
        congrArg (fun q => (q, rest.slots v.2)) (Presence.slot_eq_none hj)
      rw [hslots]
      exact htail
  | some j =>
      refine Reads.append (r := (p.slot v.1, rest.noSlots)) ⟨_, fun cs hcs => ?_, rfl⟩ htail
      obtain ⟨hslot, hheld⟩ :=
        Presence.readHeld_render hj (fun x hx => hread x (hj.trans (congrArg some hx))) hnull hcs
      rw [hslot]
      exact Fields.readMember_own rest.noSlots hheld

mutual

/-- **What a shape writes reads back.** -/
theorem Shape.readsBack : (s : Shape) → ∀ {room : Nat}, s.fits room = true → ∀ v : s.Carrier,
    ReadsBack (s.read room) (fun v => render (s.toJson v)) v
  | .text, room, _, v => ⟨rfl, fun rest _ => readText_render "a string" v rest⟩
  | .count bits, room, h, v => by
      have hbits : bits ≤ 64 := by
        cases room <;> exact of_decide_eq_true h
      exact ⟨startsValue_toDigits v.val, fun rest hrest => readCount_toDigits hbits v hrest⟩
  | .choice names, room, h, v => by
      have hnodup : names.Nodup := by
        cases room <;> exact of_decide_eq_true h
      exact ⟨rfl, fun rest _ => readChoice_render hnodup room v rest⟩
  | .list s, 0, h, _ => by cases h
  | .list s, room + 1, h, vs =>
      ⟨rfl, fun rest _ => Shape.read_list (fun v _ => Shape.readsBack s h v) rest⟩
  | .record kind fs, 0, h, _ => by cases h
  | .record kind fs, room + 1, h, v =>
      ⟨rfl, fun rest _ => Shape.read_record (Fields.reads fs h v) rest⟩
  | .any, room, h, _ => by cases room <;> cases h

/-- The members that a record writes fill its slots. -/
theorem Fields.reads : (fs : Fields) → ∀ {room : Nat}, fs.fits room = true → ∀ v : fs.Carrier,
    Reads (fs.readMember room) fs.noSlots (fs.texts v) (fs.slots v)
  | .nil, _, _, _ => rfl
  | .cons n others p s rest, room, h, v => by
      simp only [Fields.fits, Bool.and_eq_true] at h
      obtain ⟨⟨hs, hnames⟩, hrest⟩ := h
      exact Fields.reads_cons (fun x _ => Shape.readsBack s hs x)
        (Or.inr (Shape.head?_render_ne hs)) hnames (Fields.reads rest hrest v.2)

end

end IndexAdvisor.Json
