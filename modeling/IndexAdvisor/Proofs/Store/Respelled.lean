import IndexAdvisor.Proofs.Store.Damage

/-!
# One damaged octet

An octet of a sealed line that is changed is noticed, with one exception: a digit of the mark can be
written in another way, as a capital or as a plus sign in place of a zero in front, and nothing that
is read changes. Apart from that no line with a damaged mark is opened, and none is blank: a line
feed in place of the first digit leaves a line with seven digits.
-/

set_option autoImplicit false

namespace IndexAdvisor.Store

open IndexAdvisor.Text

/-! ## Octets that are not blank -/

/-- An octet of a text that is not blank. -/
def Inked (b : UInt8) : Prop := b.toNat < 0x80 ∧ isBlank (ofOctet b) = false

theorem Inked.ne {b : UInt8} (h : Inked b) : b ≠ 10 ∧ b ≠ 13 := by
  constructor <;>
  · rintro rfl
    exact absurd h.2 (by decide)

/-- A text with such an octet is not blank. -/
theorem Inked.isBlankText_eq {b : UInt8} (h : Inked b) {cs : List Char}
    (hb : b ∈ Utf8.encode cs) : isBlankText cs = false := by
  rw [isBlankText, List.all_eq_false]
  exact ⟨ofOctet b, Utf8.mem_of_mem_encode hb h.1, by simp [h.2]⟩

/-- The digits of a mark are such octets. -/
theorem inked_of_mem {r : UInt32} {b : UInt8} (hb : b ∈ Utf8.encode (hexDigits 8 r.toNat)) :
    Inked b := by
  rw [(spells_hexDigits r).encode_eq] at hb
  obtain ⟨c, hc, rfl⟩ := List.mem_map.mp hb
  obtain ⟨hascii, -, hblank⟩ := (spells_hexDigits r).of_mem hc
  have hoctet : ofOctet (octet c) = c := ofOctet_octet hascii
  have hsmall := forall_ascii (P := fun c => (octet c).toNat < 0x80) (by decide +kernel) hascii
  exact ⟨hsmall, by rw [hoctet, hblank]⟩

/-! ## Damaged marks -/

section Mark

variable {before after : List UInt8} {mark payload : List Char} {r : UInt32} {i : Nat}
  {old new : UInt8} {ps : List (Nat × List Char)}

theorem markOctets_eq (r : UInt32) :
    markOctets r = Utf8.encode (hexDigits 8 r.toNat) ++ [32] := Utf8.encode_append _ _

theorem length_markOctets (r : UInt32) : (markOctets r).length = 9 := by
  rw [markOctets_eq, List.length_append, Utf8.length_encode_hexDigits, List.length_singleton]

theorem encode_spelled (mark payload : List Char) :
    Utf8.encode (mark ++ ' ' :: payload) = Utf8.encode mark ++ 32 :: Utf8.encode payload := by
  rw [Utf8.encode_append, Utf8.encode_cons]
  rfl

/-- A mark with one octet damaged that is a mark of the same number has a digit respelled. -/
theorem respells_of_markOctets {mark : List Char} (hmark : Spells mark r)
    (hold : (markOctets r)[i]? = some old) (hne : new ≠ old)
    (h : Utf8.encode mark ++ [32] = (markOctets r).set i new) : Respells i old new := by
  rw [markOctets_eq] at hold h
  have hlength := Utf8.length_encode_hexDigits 8 r.toNat
  by_cases hi : i < 8
  · rw [List.getElem?_append_left (by omega)] at hold
    rw [List.set_append_left i new (by omega)] at h
    exact respells_of_spells hold hne hmark (List.append_inj_left' h rfl)
  · -- the space behind the digits is still there
    have hi : i = 8 := by
      have hbound := (List.getElem?_eq_some_iff.mp hold).1
      rw [List.length_append, hlength, List.length_singleton] at hbound
      omega
    subst hi
    rw [List.getElem?_append_right (by omega), hlength] at hold
    rw [List.set_append_right 8 new (by omega), hlength] at h
    have hspace := List.append_inj_right' h rfl
    exact absurd (Option.some.inj hold ▸ (List.cons.inj hspace).1.symm) hne

/-- A line with a damaged mark is opened only if a digit of the mark is respelled. -/
theorem respells_of_opened? {cs more : List Char} (hwhole : Unbroken (Utf8.encode payload) after)
    (hold : (markOctets (checksum (Utf8.encode payload)))[i]? = some old) (hne : new ≠ old)
    (hopened : opened? cs = some more)
    (hline : Utf8.encode cs =
        (markOctets (checksum (Utf8.encode payload))).set i new ++ Utf8.encode payload ∨
      BreaksOff (Utf8.encode cs)
        ((markOctets (checksum (Utf8.encode payload))).set i new ++ Utf8.encode payload) after) :
    Respells i old new := by
  obtain ⟨mark, hmark, rfl⟩ := opened?_eq_some_iff.mp hopened
  have hlength : (Utf8.encode mark ++ [32]).length =
      ((markOctets (checksum (Utf8.encode payload))).set i new).length := by
    rw [List.length_append, hmark.encode_eq, List.length_map, hmark.length_eq, List.length_set,
      length_markOctets, List.length_singleton]
  have hcs : Utf8.encode (mark ++ ' ' :: more) = Utf8.encode mark ++ [32] ++ Utf8.encode more := by
    rw [encode_spelled, List.append_assoc, List.singleton_append]
  rw [hcs] at hline
  rcases hline with hline | ⟨b, rest, hline, hb⟩
  · obtain ⟨hfront, hback⟩ := List.append_inj hline hlength
    obtain rfl := Utf8.encode_injective hback
    exact respells_of_markOctets hmark hold hne hfront
  · -- the mark and the space are there, so the line breaks off within the payload
    rw [List.append_assoc] at hline
    obtain ⟨-, hback⟩ := List.append_inj hline hlength.symm
    exact absurd ⟨b, rest, hback, hb⟩ (hwhole _)

/-- A line whose first digit is missing is not opened. -/
theorem opened?_of_length {digits : List Char} (h : digits.length ≠ 8) (hspace : ' ' ∉ digits)
    (payload : List Char) : opened? (digits ++ ' ' :: payload) = none := by
  rw [Option.eq_none_iff_forall_ne_some]
  intro more hopened
  obtain ⟨mark, hmark, heq⟩ := opened?_eq_some_iff.mp hopened
  have hsplit := splitAtFirst?_append hspace payload
  rw [heq, splitAtFirst?_append hmark.space_notMem] at hsplit
  obtain ⟨rfl, -⟩ := Prod.mk.inj (Option.some.inj hsplit)
  exact h hmark.length_eq

/-- The octets of a mark one by one: two digits, and what stands behind the first is seven digits
and the space. -/
theorem exists_markOctets_eq (r : UInt32) : ∃ a b front digits, markOctets r = a :: b :: front ∧
    Inked a ∧ Inked b ∧ digits.length = 7 ∧ ' ' ∉ digits ∧
      b :: front = Utf8.encode (digits ++ [' ']) := by
  have hlength := length_hexDigits 8 r.toNat
  have hspace := (spells_hexDigits r).space_notMem
  have hmark := markOctets_eq r
  have hinked {b : UInt8} (hb : b ∈ Utf8.encode (hexDigits 8 r.toNat)) : Inked b := inked_of_mem hb
  rw [(spells_hexDigits r).encode_eq] at hmark hinked
  have hascii : ∀ c ∈ hexDigits 8 r.toNat, c.toNat < 0x80 := fun c hc =>
    ((spells_hexDigits r).of_mem hc).1
  generalize hexDigits 8 r.toNat = ds at hlength hspace hmark hinked hascii
  match ds with
  | c :: d :: ds =>
      refine ⟨octet c, octet d, ds.map octet ++ [32], d :: ds, by rw [hmark]; rfl,
        hinked (by simp), hinked (by simp), Nat.succ.inj hlength,
        fun h => hspace (List.mem_cons_of_mem c h), ?_⟩
      rw [Utf8.encode_append, Utf8.encode_of_ascii fun x hx => hascii x (List.mem_cons_of_mem c hx)]
      rfl

/-- Where a blank line is read, it ends before an octet that is not blank. -/
theorem Inked.breaksOff_of_blank {b : UInt8} (h : Inked b) {cs : List Char}
    (hblank : isBlankText cs = true) (front : List UInt8) {piece : List UInt8}
    (hline : Utf8.encode cs = front ++ b :: piece ∨
      BreaksOff (Utf8.encode cs) (front ++ b :: piece) after) :
    BreaksOff (Utf8.encode cs) front (b :: (piece ++ after)) := by
  have hnone : b ∉ Utf8.encode cs := fun hb => by
    rw [h.isBlankText_eq hb] at hblank
    cases hblank
  rcases hline with hline | ⟨c, rest, hline, hc⟩
  · exact absurd (by simp [hline]) hnone
  -- the octet stands in the line, where it ends, or behind it
  · rcases List.append_eq_append_iff.mp hline with ⟨more, hcs, hmore⟩ | ⟨more, rfl, hmore⟩
    · cases more with
      | nil =>
          obtain rfl := (List.cons.inj hmore).1
          exact absurd hc fun hc => hc.elim h.ne.1 fun hc => h.ne.2 hc.1
      | cons x more =>
          obtain rfl := (List.cons.inj hmore).1
          exact absurd (by simp [hcs]) hnone
    · cases more with
      | nil =>
          obtain rfl := (List.cons.inj hmore).1
          exact absurd hc fun hc => hc.elim h.ne.1 fun hc => h.ne.2 hc.1
      | cons x more =>
          obtain ⟨rfl, rfl⟩ := List.cons.inj hmore
          exact ⟨c, more, rfl, by simpa using hc⟩

/-- A file cannot be read if the first digit of a line is missing. -/
theorem payloads_lost_ne_ok (hwhole : Unbroken (Utf8.encode payload) after) (hbefore : Ended before)
    (hafter : EndsLine after) {a : UInt8} {rest : List UInt8} (hmark : markOctets r = a :: rest) :
    payloads (before ++ (rest ++ Utf8.encode payload ++ after)) ≠ .ok ps := by
  intro h
  obtain ⟨a', b, front, digits, hmark', -, hb, hlength, hspace, hfront⟩ := exists_markOctets_eq r
  obtain ⟨rfl, rfl⟩ := List.cons.inj (hmark.symm.trans hmark')
  obtain ⟨cs, hline, hcs⟩ := exists_of_payloads hbefore hafter (by simp) h
  have hline : Utf8.encode cs = b :: front ++ Utf8.encode payload := by
    refine hline.resolve_right fun hoff => ?_
    refine hwhole.append (fun x hx => (spells_hexDigits r).ne_of_mem_encode ?_) _ hoff
    rw [← markOctets, hmark]
    exact List.mem_cons_of_mem a hx
  rcases hcs with hblank | ⟨payload', hopened, -⟩
  · rw [hb.isBlankText_eq (by simp [hline])] at hblank
    cases hblank
  · rw [hfront, ← Utf8.encode_append] at hline
    rw [Utf8.encode_injective hline, List.append_assoc, List.singleton_append,
      opened?_of_length (by omega) hspace] at hopened
    cases hopened

/-- **A file with a damaged mark** can be read only if a digit of the mark is respelled. -/
theorem respells_of_payloads (hwhole : Unbroken (Utf8.encode payload) after)
    (hbefore : Ended before) (hafter : EndsLine after)
    (hold : (markOctets (checksum (Utf8.encode payload)))[i]? = some old) (hne : new ≠ old)
    (h : payloads (before ++ ((markOctets (checksum (Utf8.encode payload))).set i new ++
      Utf8.encode payload ++ after)) = .ok ps) : Respells i old new := by
  obtain ⟨a, b, front, digits, hmark, ha, hb, hlength, hspace, hfront⟩ :=
    exists_markOctets_eq (checksum (Utf8.encode payload))
  obtain ⟨cs, hline, hcs⟩ := exists_of_payloads hbefore hafter (by simp [hmark]) h
  rcases hcs with hblank | ⟨more, hopened, -⟩
  · exfalso
    rw [hmark] at hline h
    cases i with
    | succ i =>
        obtain ⟨c, rest, hnil, -⟩ := ha.breaksOff_of_blank hblank [] hline
        simp at hnil
    | zero =>
        obtain ⟨c, rest, hnew, hc⟩ := hb.breaksOff_of_blank hblank [new] hline
        obtain ⟨hempty, rfl, rfl⟩ : Utf8.encode cs = [] ∧ new = c ∧ rest = [] := by
          cases hcs : Utf8.encode cs <;> simp_all
        obtain rfl : new = 10 := by
          refine hc.resolve_right ?_
          rintro ⟨-, hnext⟩
          exact hb.ne.1 (Option.some.inj hnext)
        -- the line feed ends what stood before, and the next line has lost its first digit
        have hended : Ended (before ++ [10]) := fun x hx => by
          rw [List.getLast?_concat] at hx
          exact (Option.some.inj hx).symm
        have hlost : payloads (before ++ [10] ++ (b :: front ++ Utf8.encode payload ++ after)) =
            .ok ps := by
          rw [List.append_assoc]
          exact h
        exact payloads_lost_ne_ok hwhole hended hafter hmark hlost
  · exact respells_of_opened? hwhole hold hne hopened hline

/-! ## Respelled marks -/

/-- A sealed line with a respelled digit has another mark of the same number. -/
theorem exists_spelled_of_respells (hold : (Utf8.encode (sealed payload))[i]? = some old)
    (h : Respells i old new) : ∃ mark, Spells mark (checksum (Utf8.encode payload)) ∧
      (Utf8.encode (sealed payload)).set i new = Utf8.encode (mark ++ ' ' :: payload) := by
  have hi : i < (Utf8.encode (hexDigits 8 (checksum (Utf8.encode payload)).toNat)).length := by
    rw [Utf8.length_encode_hexDigits]
    exact h.1
  rw [sealed, encode_spelled, List.getElem?_append_left hi] at hold
  obtain ⟨mark, hmark, hset⟩ := exists_spells_of_respells hold h
  refine ⟨mark, hmark, ?_⟩
  rw [sealed, encode_spelled, encode_spelled, List.set_append_left i new hi, hset]

/-- A payload is read from its line, however the mark is spelled. -/
theorem payloads_spelled (hwhole : Unbroken (Utf8.encode payload) after) (hbefore : Ended before)
    (hafter : EndsLine after) (hmark : Spells mark (checksum (Utf8.encode payload))) :
    payloads (before ++ (Utf8.encode (mark ++ ' ' :: payload) ++ after)) = (do
      let ps ← payloadsFrom 1 (byteLines before)
      let more ← payloadsFrom (1 + (byteLines before).length + 1) (byteLines after).tail
      .ok (ps ++ (1 + (byteLines before).length, payload) :: more)) := by
  have hfront : Utf8.encode (mark ++ ' ' :: payload) =
      Utf8.encode (mark ++ [' ']) ++ Utf8.encode payload := by
    rw [← Utf8.encode_append, List.append_assoc, List.singleton_append]
  have hline : Unbroken (Utf8.encode (mark ++ ' ' :: payload)) after := by
    rw [hfront]
    exact hwhole.append fun _ hb => hmark.ne_of_mem_encode hb
  have hne : Utf8.encode (mark ++ ' ' :: payload) ≠ [] := by
    rw [hfront, Utf8.encode_append]
    simp [Utf8.encode]
  have hopened : opened? (mark ++ ' ' :: payload) = some payload :=
    opened?_eq_some_iff.mpr ⟨mark, hmark, rfl⟩
  rw [payloads, byteLines_append_of_ended hbefore, byteLines_append hafter hne hline,
    payloadsFrom_append]
  simp only [payloadsFrom, Utf8.decode?_encode, hmark.isBlankText_append, hopened,
    Bool.false_eq_true, if_false]
  cases payloadsFrom 1 (byteLines before) with
  | error fault => rfl
  | ok ps =>
      simp only [bind, Except.bind]
      cases payloadsFrom (1 + (byteLines before).length + 1) (byteLines after).tail <;> rfl

end Mark

/-! ## Lists -/

section Lists

variable {α : Type} {f : File α} {d e : Disk} {before after : List UInt8} {payload : List Char}
  {i : Nat} {old new : UInt8}

/-- A payload that has been damaged gives way only to what stands before a line end in it. -/
theorem exists_breaksOff_of_list {j : Nat} {p : List UInt8} (hbefore : Ended before)
    (hafter : EndsLine after) (hold : p[j]? = some old) (hne : new ≠ old)
    (hcontent : f.content d = .ok (before ++ (markOctets (checksum p) ++ p.set j new ++ after)))
    {q : String} {rs : List α} (h : f.list q d = .ok rs) : ∃ payload,
      BreaksOff (Utf8.encode payload) (p.set j new) after ∧
      checksum (Utf8.encode payload) = checksum p ∧ (entryOf? f.layout payload).isSome := by
  have hchanged : p.set j new ≠ p := by
    intro hsame
    have hj := (List.getElem?_eq_some_iff.mp hold).1
    rw [← hsame, List.getElem?_set_self hj] at hold
    exact hne (Option.some.inj hold)
  obtain ⟨ps, hps, hentries⟩ := exists_payloads_of_list hcontent h
  obtain ⟨payload, hline, hopened, hmem⟩ := exists_of_payloads_mark hbefore hafter hps
  refine ⟨payload, hline.resolve_left fun hwhole => ?_, hopened, hentries payload hmem⟩
  rw [hwhole] at hopened
  exact checksum_ne_of_window List.length_set hchanged (fun _ hi => window_of_getElem?_set hi)
    hopened

/-- A written entry ends in a brace. -/
theorem exists_payload_eq_concat (f : File α) (entry : String × α) :
    ∃ front, f.payload entry = front ++ ['}'] := ⟨_ :: _, rfl⟩

/-- What is left behind a part of a written entry is not just space. -/
theorem skipSpace_ne_nil (f : File α) (entry : String × α) {head more : List Char}
    (h : f.payload entry = head ++ more) (hne : more ≠ []) : Json.skipSpace more ≠ [] := by
  obtain ⟨front, hfront⟩ := exists_payload_eq_concat f entry
  have hlast : more.getLast? = some '}' := by
    rw [← List.getLast?_append_of_ne_nil head hne, ← h, hfront, List.getLast?_concat]
  intro hspace
  have hall : ∀ c ∈ more, Json.isSpace c = true := List.dropWhile_eq_nil_iff.mp hspace
  exact absurd (hall '}' (List.mem_of_getLast? hlast)) (by decide)

/-- **No entry stands before a line end** that one octet puts into the payload of a record. -/
theorem not_breaksOff_entry (hf : Faithful f.layout) (entry : String × α) {j : Nat}
    {head : List Char} (hentry : (entryOf? f.layout head).isSome) :
    ¬BreaksOff (Utf8.encode head) ((Utf8.encode (f.payload entry)).set j new) after := by
  rintro ⟨c, rest, hpiece, hc⟩
  have hplain {b : UInt8} (hb : b ∈ Utf8.encode (f.payload entry)) : b ≠ 10 ∧ b ≠ 13 :=
    ne_of_le (Utf8.toNat_ge_of_mem_encode (plain_payload entry.1 entry.2) hb)
  have hat : ((Utf8.encode (f.payload entry)).set j new)[(Utf8.encode head).length]? = some c := by
    rw [hpiece, List.getElem?_append_right (Nat.le_refl _), Nat.sub_self]
    rfl
  -- the entry has no line ends of its own, so the new octet is the one that breaks it off
  obtain rfl : j = (Utf8.encode head).length := by
    by_contra hj
    rw [List.getElem?_set_ne hj] at hat
    have hmem := hplain (List.mem_of_getElem? hat)
    exact hc.elim hmem.1 fun hc => hmem.2 hc.1
  have hfront := congrArg (List.take (Utf8.encode head).length) hpiece
  rw [List.take_set_of_le (Nat.le_refl _), List.take_left] at hfront
  have hcut := (List.take_append_drop (Utf8.encode head).length
    (Utf8.encode (f.payload entry))).symm
  rw [hfront] at hcut
  obtain ⟨more, hmore, hrest⟩ := Utf8.exists_of_encode_eq_append hcut
  have hne : more ≠ [] := by
    rintro rfl
    have hlength := (List.getElem?_eq_some_iff.mp hat).1
    rw [List.length_set] at hlength
    exact List.drop_eq_nil_iff.not.mpr (Nat.not_le.mpr hlength) hrest.symm
  obtain ⟨x, hx⟩ := Option.isSome_iff_exists.mp hentry
  have hnone := Json.Layout.read_append_ne_ok rfl (entryOf?_eq_some_iff.mp hx)
    (skipSpace_ne_nil f entry hmore hne)
  rw [← hmore] at hnone
  exact hnone _ (hf.read_write ⟨entry.1, entry.2⟩)

/-- **What opens, and what damage to one octet does.** A payload is opened from the lines that spell
its checksum in front of it, of which its sealed line is the one without a sign and without
capitals. So an octet of a line can be changed without being noticed if it writes a digit of the
mark in another way. In all other cases a list of the file succeeds only if the damage puts a line
end into the payload and what stands before it happens to have the same checksum; where the payload
is that of a record, no list succeeds at all. The records of the program are meant: they read back
from their entries. -/
theorem list_of_damaged_octet (hwhole : Unbroken (Utf8.encode payload) after)
    (hbefore : Ended before) (hafter : EndsLine after)
    (hold : (Utf8.encode (sealed payload))[i]? = some old) (hne : new ≠ old)
    (hcontent : f.content d = .ok (before ++ (Utf8.encode (sealed payload) ++ after)))
    (hdamaged : f.content e =
      .ok (before ++ ((Utf8.encode (sealed payload)).set i new ++ after))) :
    (∀ line p, opened? line = some p ↔
      ∃ mark, Spells mark (checksum (Utf8.encode p)) ∧ line = mark ++ ' ' :: p) ∧
    (∀ line p, line = sealed p ↔
      opened? line = some p ∧ ∀ c ∈ line.take 8, c ≠ '+' ∧ c.isUpper = false) ∧
    (Respells i old new → ∀ q, f.list q e = f.list q d) ∧
    (¬Respells i old new →
      (∀ q rs, f.list q e = .ok rs → 9 ≤ i ∧ ∃ head,
        BreaksOff head ((Utf8.encode payload).set (i - 9) new) after ∧
        checksum head = checksum (Utf8.encode payload)) ∧
      (Faithful f.layout → ∀ entry, payload = f.payload entry →
        ∀ q, ∃ fault, f.list q e = .error fault)) ∧
    (∀ now, Faithful (LoggedQuery.layout now)) ∧ Faithful AppliedIndex.layout := by
  have hmarkLength := length_markOctets (checksum (Utf8.encode payload))
  refine ⟨fun _ _ => opened?_eq_some_iff, fun _ _ => eq_sealed_iff, fun hrespells q => ?_,
    fun hnot => ?_, faithful_loggedQuery, faithful_appliedIndex⟩
  · obtain ⟨mark, hmark, hline⟩ := exists_spelled_of_respells hold hrespells
    rw [hline] at hdamaged
    refine list_congr hcontent hdamaged ?_ q
    rw [payloads_spelled hwhole hbefore hafter hmark, sealed,
      payloads_spelled hwhole hbefore hafter (spells_hexDigits _)]
  · have hlist : ∀ q rs, f.list q e = .ok rs → 9 ≤ i ∧ ∃ head,
        BreaksOff (Utf8.encode head) ((Utf8.encode payload).set (i - 9) new) after ∧
        checksum (Utf8.encode head) = checksum (Utf8.encode payload) ∧
        (entryOf? f.layout head).isSome := by
      intro q rs h
      rw [encode_sealed] at hold hdamaged
      -- the mark and its space are nine octets, the payload stands behind them
      by_cases hi : i < 9
      · rw [List.getElem?_append_left (by omega)] at hold
        rw [List.set_append_left i new (by omega)] at hdamaged
        obtain ⟨ps, hps, -⟩ := exists_payloads_of_list hdamaged h
        exact absurd (respells_of_payloads hwhole hbefore hafter hold hne hps) hnot
      · rw [List.getElem?_append_right (by omega), hmarkLength] at hold
        rw [List.set_append_right i new (by omega), hmarkLength] at hdamaged
        exact ⟨by omega, exists_breaksOff_of_list hbefore hafter hold hne hdamaged h⟩
    refine ⟨fun q rs h => ?_, ?_⟩
    · obtain ⟨hi, head, hoff, hsum, -⟩ := hlist q rs h
      exact ⟨hi, _, hoff, hsum⟩
    · rintro hf entry rfl q
      refine list_eq_error_of_ne_ok fun rs h => ?_
      obtain ⟨-, head, hoff, -, hentry⟩ := hlist q rs h
      exact not_breaksOff_entry hf entry hentry hoff

/-- The sealed line of a text of Ada. -/
def sealedText : List UInt8 := Utf8.encode (sealed (textLog.payload ("ada", "lp")))

/-- With a digit of its mark damaged a log cannot be listed. -/
theorem list_of_damaged_octet_digit : sealedText[1]? = some 0x32 ∧ ¬Respells 1 0x32 0x33 ∧
    ∀ q, ∃ fault, textLog.list q (logOf (sealedText.set 1 0x33 ++ [10])) = .error fault := by
  have hwhole : Unbroken (Utf8.encode (textLog.payload ("ada", "lp"))) [10] :=
    unbroken_of_notMem (by decide +kernel) (by decide +kernel)
  have hold : sealedText[1]? = some 0x32 := by decide +kernel
  have hdigit : ¬Respells 1 0x32 0x33 := by decide
  have hcontent : textLog.content (logOf (sealedText ++ [10])) =
      .ok ([] ++ (sealedText ++ [10])) := by decide +kernel
  have hdamaged : textLog.content (logOf (sealedText.set 1 0x33 ++ [10])) =
      .ok ([] ++ (sealedText.set 1 0x33 ++ [10])) := by decide +kernel
  have hbefore : Ended [] := nofun
  obtain ⟨-, -, -, hfails, -⟩ :=
    list_of_damaged_octet hwhole hbefore rfl hold (by decide) hcontent hdamaged
  exact ⟨hold, hdigit, (hfails hdigit).2 faithful_text ("ada", "lp") rfl⟩

/-- **A plus sign in place of the zero in front, and a capital,** go unnoticed: two other lines are
opened to the same payload. -/
theorem list_of_respelled_octets :
    (∃ line, line ≠ sealed (textLog.payload ("ada", "lp")) ∧
      opened? line = some (textLog.payload ("ada", "lp"))) ∧
    sealedText.set 0 0x2B ≠ sealedText ∧ sealedText.set 5 0x45 ≠ sealedText ∧
    textLog.list "ada" (logOf (sealedText.set 0 0x2B ++ [10])) = .ok ["lp"] ∧
    textLog.list "ada" (logOf (sealedText.set 5 0x45 ++ [10])) = .ok ["lp"] :=
  ⟨⟨"+2365e54 ".toList ++ textLog.payload ("ada", "lp"), by decide +kernel, by decide +kernel⟩,
    by decide +kernel, by decide +kernel, by decide +kernel, by decide +kernel⟩

end Lists

end IndexAdvisor.Store
