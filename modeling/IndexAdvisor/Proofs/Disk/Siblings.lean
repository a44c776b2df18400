import IndexAdvisor.Proofs.Disk.Children
import Mathlib.Data.List.Induction

/-!
# The file beside a file

The path of the file beside a file differs in the last name only, wherever the file is. It leads to
another place, unless the file has the extension already.
-/

set_option autoImplicit false

namespace IndexAdvisor

namespace Path

/-! ## Texts of paths -/

/-- What may stand in front of the last name of a path: nothing, or a text that ends in a slash. -/
def IsFront (front : List Char) : Prop := front = [] ∨ ∃ cs, front = cs ++ ['/']

/-- A path is a name without slashes behind what stands in front of it. -/
theorem exists_isFront (cs : List Char) :
    ∃ front name, IsFront front ∧ '/' ∉ name ∧ cs = front ++ name := by
  induction cs using List.reverseRecOn with
  | nil => exact ⟨[], [], Or.inl rfl, List.not_mem_nil, rfl⟩
  | append_singleton cs c ih =>
      by_cases hc : c = '/'
      · subst hc
        exact ⟨cs ++ ['/'], [], Or.inr ⟨cs, rfl⟩, List.not_mem_nil, by simp⟩
      · obtain ⟨front, name, hfront, hname, rfl⟩ := ih
        refine ⟨front, name ++ [c], hfront, ?_, by simp⟩
        simp [hname, Ne.symm hc]

variable {front name : List Char}

/-- A path has one last name. -/
theorem front_unique {front' name' : List Char} (hfront : IsFront front) (hname : '/' ∉ name)
    (hfront' : IsFront front') (hname' : '/' ∉ name') (h : front ++ name = front' ++ name') :
    front = front' ∧ name = name' := by
  have hsplit := congrArg (Text.splitAtLast? '/') h
  rcases hfront with rfl | ⟨cs, rfl⟩ <;> rcases hfront' with rfl | ⟨cs', rfl⟩
  · exact ⟨rfl, h⟩
  · rw [List.nil_append, List.append_assoc, List.singleton_append,
      Text.splitAtLast?_eq_none hname, Text.splitAtLast?_append hname'] at hsplit
    cases hsplit
  · rw [List.nil_append, List.append_assoc, List.singleton_append,
      Text.splitAtLast?_eq_none hname', Text.splitAtLast?_append hname] at hsplit
    cases hsplit
  · rw [List.append_assoc, List.append_assoc, List.singleton_append, List.singleton_append,
      Text.splitAtLast?_append hname, Text.splitAtLast?_append hname'] at hsplit
    cases hsplit
    exact ⟨rfl, rfl⟩

theorem piecesOf_front (hfront : IsFront front) (hname : '/' ∉ name) (hne : name ≠ []) :
    piecesOf (front ++ name) = piecesOf front ++ [String.ofList name] := by
  rcases hfront with rfl | ⟨cs, rfl⟩
  · rw [List.nil_append, piecesOf_nil, List.nil_append, piecesOf_singleton hne hname]
  · rw [List.append_assoc, List.singleton_append, piecesOf_append, piecesOf_append, piecesOf_nil,
      List.append_nil, piecesOf_singleton hne hname]

/-- Where a path begins does not depend on its last name. -/
theorem head?_front {other : List Char} (hfront : IsFront front) (hname : '/' ∉ name)
    (hother : '/' ∉ other) :
    ((front ++ name).head? == some '/') = ((front ++ other).head? == some '/') := by
  have hbare {cs : List Char} (hcs : '/' ∉ cs) : (cs.head? == some '/') = false := by
    refine beq_eq_false_iff_ne.mpr fun hhead => hcs ?_
    obtain ⟨more, rfl⟩ := List.head?_eq_some_iff.mp hhead
    exact List.mem_cons_self
  rcases hfront with rfl | ⟨cs, rfl⟩
  · rw [List.nil_append, List.nil_append, hbare hname, hbare hother]
  · cases cs <;> rfl

/-! ## Other extensions -/

/-- The name without its extension begins the name. -/
theorem cutExtension_prefix (name : List Char) : (cutExtension name).1 <+: name := by
  unfold cutExtension
  split
  · rename_i hsplit
    exact ⟨_, (Text.eq_of_splitAtLast?_eq_some hsplit).1.symm⟩
  · exact List.prefix_rfl

/-- A name with another extension is the step up, or the stem of the name with the extension. -/
theorem changeExtension_cases (name extension : List Char) :
    changeExtension name extension = ['.', '.'] ∨
      ∃ stem, stem <+: name ∧ changeExtension name extension = stem ++ '.' :: extension := by
  unfold changeExtension
  split
  · exact Or.inl rfl
  · rename_i stem rest _ hcut
    have hstem := cutExtension_prefix name
    rw [hcut] at hstem
    exact Or.inr ⟨stem, hstem, rfl⟩

theorem slash_notMem_changeExtension {extension : List Char} (hname : '/' ∉ name)
    (hextension : '/' ∉ extension) : '/' ∉ changeExtension name extension := by
  rcases changeExtension_cases name extension with h | ⟨stem, hstem, h⟩
  · rw [h]
    decide
  · rw [h, List.mem_append, List.mem_cons, not_or, not_or]
    exact ⟨fun hmem => hname (hstem.subset hmem), by decide, hextension⟩

/-- A name has no mark of a beginning in front of it. -/
theorem cutMark_of_isName {last : String} (h : IsName last) :
    cutMark last.toList = ([], last.toList) := by
  have hslash := h.notMem_slash
  cases hchars : last.toList with
  | nil => exact absurd (String.toList_eq_nil_iff.mp hchars) h.ne_empty
  | cons c cs =>
      rw [hchars, List.mem_cons, not_or] at hslash
      refine cutMark_of_ne (Ne.symm hslash.1) fun hc => ⟨?_, fun hhead => hslash.2 ?_⟩
      · rintro rfl
        refine h.ne_point ?_
        rw [← String.ofList_toList (s := last), hchars, hc]
      · obtain ⟨more, rfl⟩ := List.head?_eq_some_iff.mp hhead
        exact List.mem_cons_self

/-- **The path of the file beside this one**: only the last name is another one. -/
theorem withExtension_text {p : Path} {last extension : String} (hfront : IsFront front)
    (hp : p.text.toList = front ++ last.toList) (hlast : IsName last)
    (hextension : '/' ∉ extension.toList) : (p.withExtension extension).text.toList =
      front ++ changeExtension last.toList extension.toList := by
  have hpoints : last.toList ≠ ['.', '.'] := fun heq => hlast.ne_points <| by
    rw [← String.ofList_toList (s := last), heq]
  have hchange := slash_notMem_changeExtension hlast.notMem_slash hextension
  -- the front is cut into the same pieces, whatever name stands behind it
  obtain ⟨mark, segments, hcut, hsplit, htext⟩ : ∃ mark segments,
      (cutMark p.text.toList).1 = mark ∧
        (cutMark p.text.toList).2.splitOn '/' = segments ++ [last.toList] ∧
        mark ++ ['/'].intercalate (segments ++ [changeExtension last.toList extension.toList]) =
          front ++ changeExtension last.toList extension.toList := by
    rcases hfront with rfl | ⟨cs, rfl⟩
    · refine ⟨[], [], ?_⟩
      rw [hp, List.nil_append, cutMark_of_isName hlast]
      refine ⟨rfl, List.splitOn_eq_singleton hlast.notMem_slash, ?_⟩
      simp only [List.nil_append, List.intercalate_singleton]
    · obtain ⟨mark, segments, -, hcut⟩ := exists_cut cs
      obtain ⟨hmark, hsegments⟩ := hcut _ hlast.notMem_slash
      obtain ⟨hmark', hsegments'⟩ := hcut _ hchange
      rw [hp, List.append_assoc, List.singleton_append]
      refine ⟨mark, segments, hmark, hsegments, ?_⟩
      rw [List.append_assoc, List.singleton_append, ← hmark', ← hsegments', text_of_cut]
  have hway : p.way = last.toList :: segments.reverse := by
    rw [way, hsplit, List.reverse_append, List.reverse_singleton, List.singleton_append,
      List.dropWhile_cons_of_neg (by rw [hlast.isIdle]; exact Bool.false_ne_true)]
  rw [withExtension, hway]
  simp only [if_neg hpoints, ofWay, hcut, List.reverse_cons, List.reverse_reverse,
    String.toList_ofList]
  exact htext

end Path

namespace Disk

variable {d : Disk} {p : Path} {l : Place}

/-- What a path that names a place is made of. -/
theorem Names.exists_front (h : d.Names p l) : ∃ front last m, Path.IsFront front ∧
    Path.IsName last ∧ p.text.toList = front ++ last.toList ∧
      d.enter (d.origin p) (Path.piecesOf front) = .ok m ∧ l = m.below last := by
  obtain ⟨last, m, hslash, hlast, hpieces, henclosing, hfollow⟩ := h.exists_name
  obtain ⟨front, name, hfront, hname, htext⟩ := Path.exists_isFront p.text.toList
  -- the path has pieces and does not end in a slash, so there is a name behind its front
  have hne : name ≠ [] := by
    rintro rfl
    rw [List.append_nil] at htext
    rcases hfront with rfl | ⟨cs, rfl⟩
    · rw [Path.pieces_eq, htext, Path.piecesOf_nil] at hpieces
      exact absurd hpieces.symm (by simp)
    · rw [Path.endsInSlash, htext, List.getLast?_concat] at hslash
      cases hslash
  have hsplit := Path.piecesOf_front hfront hname hne
  rw [← htext, ← Path.pieces_eq, hpieces] at hsplit
  obtain ⟨hbefore, hlast'⟩ := List.append_inj' hsplit rfl
  obtain rfl : last = String.ofList name := (List.cons.inj hlast').1
  rw [Path.lastName?, Option.filter_eq_some_iff] at hlast
  have hsteps : String.ofList name ≠ "." ∧ String.ofList name ≠ ".." := by simpa using hlast.2
  obtain ⟨u, -, hm⟩ := bind_eq_ok_iff.mp henclosing
  rw [hbefore] at hm
  obtain ⟨-, -, hnext⟩ := follow_eq_ok_iff.mp hfollow
  rw [next, if_neg hsteps.1, if_neg hsteps.2] at hnext
  refine ⟨front, String.ofList name, m, hfront, ⟨?_, ?_, hsteps.1, hsteps.2⟩, ?_, hm, hnext.symm⟩
  · exact fun hempty => hne (by rw [← String.toList_ofList (l := name), hempty]; rfl)
  · rwa [String.toList_ofList]
  · rw [String.toList_ofList, htext]

/-- **The file beside a file is at another place**, unless the file has the extension already. -/
theorem Names.ne_of_withExtension {extension : String} {k : Place} (hp : d.Names p l)
    (hq : d.Names (p.withExtension extension) k) (hextension : '/' ∉ extension.toList)
    (hend : ¬('.' :: extension.toList) <:+ p.text.toList) : l ≠ k := by
  obtain ⟨front, last, m, hfront, hlast, htext, hm, rfl⟩ := hp.exists_front
  obtain ⟨front', last', m', hfront', hlast', htext', hm', rfl⟩ := hq.exists_front
  have hchange := Path.withExtension_text hfront htext hlast hextension
  have hslash := Path.slash_notMem_changeExtension hlast.notMem_slash hextension
  obtain ⟨rfl, hname⟩ := Path.front_unique hfront hslash hfront' hlast'.notMem_slash
    (hchange.symm.trans htext')
  have horigin : d.origin (p.withExtension extension) = d.origin p := by
    rw [origin, origin, Path.isAbsolute, Path.isAbsolute, htext, hchange,
      Path.head?_front hfront hslash hlast.notMem_slash]
  rw [horigin] at hm'
  obtain rfl := Except.ok.inj (hm.symm.trans hm')
  -- both are in one directory, so at one place they would have one name
  intro heq
  obtain ⟨rfl, -⟩ := List.cons.inj (congrArg Place.way heq)
  rcases Path.changeExtension_cases last.toList extension.toList with hup | ⟨stem, -, hstem⟩
  · refine hlast.ne_points ?_
    rw [← String.ofList_toList (s := last), ← hname, hup]
  · refine hend ⟨front ++ stem, ?_⟩
    rw [htext, ← hname, hstem, List.append_assoc]

end Disk

end IndexAdvisor
