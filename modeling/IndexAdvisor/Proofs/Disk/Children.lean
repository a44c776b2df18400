import IndexAdvisor.Proofs.Disk.Files

/-!
# Files in a directory

A file in a directory is found where its name leads from the directory, and so is the file beside
it whose name ends otherwise. The directory around such a file is there if the directory is: making
it changes nothing. This is so however the path of the directory is spelled.
-/

set_option autoImplicit false

namespace IndexAdvisor

namespace Path

/-! ## Pieces -/

/-- What stands between the slashes of a text, unless nothing does. -/
def piecesOf (cs : List Char) : List String :=
  ((cs.splitOn '/').filter fun w => !w.isEmpty).map String.ofList

theorem pieces_eq (p : Path) : p.pieces = piecesOf p.text.toList := rfl

theorem piecesOf_append (cs ds : List Char) :
    piecesOf (cs ++ '/' :: ds) = piecesOf cs ++ piecesOf ds := by
  rw [piecesOf, List.splitOn_append_cons_self, List.filter_append, List.map_append]
  rfl

theorem piecesOf_nil : piecesOf [] = [] := rfl

/-- A text without slashes is a piece. -/
theorem piecesOf_singleton {cs : List Char} (hne : cs ≠ []) (h : '/' ∉ cs) :
    piecesOf cs = [String.ofList cs] := by
  rw [piecesOf, List.splitOn_eq_singleton h]
  cases cs with
  | nil => exact absurd rfl hne
  | cons c cs => rfl

/-- Idle pieces stay where they are. -/
theorem eq_point_of_mem_piecesOf {ws : List (List Char)} (hws : ∀ w ∈ ws, isIdle w = true) :
    ∀ s ∈ piecesOf (['/'].intercalate ws), s = "." := by
  have hslash : ∀ w ∈ ws, '/' ∉ w := by
    intro w hw hmem
    have hidle := hws w hw
    rw [isIdle, Bool.or_eq_true, beq_iff_eq, List.isEmpty_iff] at hidle
    rcases hidle with rfl | rfl
    · exact absurd hmem List.not_mem_nil
    · exact absurd hmem (by decide)
  cases ws with
  | nil => exact fun s hs => absurd hs List.not_mem_nil
  | cons w ws =>
      rw [piecesOf, List.splitOn_intercalate '/' hslash (List.cons_ne_nil w ws)]
      intro s hs
      obtain ⟨v, hv, rfl⟩ := List.mem_map.mp hs
      obtain ⟨hv, hne⟩ := List.mem_filter.mp hv
      have hidle := hws v hv
      rw [isIdle, Bool.or_eq_true, beq_iff_eq] at hidle
      rcases hidle with hempty | rfl
      · rw [hempty] at hne
        cases hne
      · rfl

theorem intercalate_append {ws vs : List (List Char)} (hws : ws ≠ []) (hvs : vs ≠ []) :
    ['/'].intercalate (ws ++ vs) = ['/'].intercalate ws ++ '/' :: ['/'].intercalate vs := by
  induction ws with
  | nil => exact absurd rfl hws
  | cons w ws ih =>
      cases ws with
      | nil =>
          rw [List.singleton_append, List.intercalate_cons_of_ne_nil hvs,
            List.intercalate_singleton, List.append_assoc]
          rfl
      | cons v ws =>
          rw [List.cons_append, List.intercalate_cons_of_ne_nil (by simp),
            ih (List.cons_ne_nil v ws), List.intercalate_cons_cons]
          simp only [List.append_assoc]

/-! ## Names in a directory -/

/-- A name that leads to a file: no slash stands in it, and it neither stays nor leads up. -/
structure IsName (name : String) : Prop where
  ne_empty : name ≠ ""
  notMem_slash : '/' ∉ name.toList
  ne_point : name ≠ "."
  ne_points : name ≠ ".."

/-- What stands in front of the names in a directory. -/
def front (dir : Path) : String := if dir.endsInSlash then dir.text else dir.text ++ "/"

variable {dir : Path} {name : String}

/-- A path in a directory is the name behind what stands in front of it. -/
theorem child_eq (hdir : dir.text ≠ "") (h : IsName name) : dir.child name = ⟨dir.front ++ name⟩ := by
  have hrelative : (Path.mk name).isAbsolute = false := by
    rw [isAbsolute]
    cases hchars : name.toList with
    | nil => rfl
    | cons c cs =>
        have hc : c ≠ '/' := fun hc => h.notMem_slash (by rw [hchars, hc]; exact List.mem_cons_self)
        exact beq_eq_false_iff_ne.mpr fun heq => hc (Option.some.inj heq)
  rw [child, front, endsInSlash]
  cases hlast : dir.text.toList.getLast? with
  | none =>
      rw [List.getLast?_eq_none_iff] at hlast
      exact absurd (String.toList_eq_nil_iff.mp hlast) hdir
  | some c =>
      simp only [hrelative, Bool.false_eq_true, if_false]
      by_cases hc : c = '/'
      · rw [hc]
        simp
      · simp [hc]

theorem child_ne_empty (hdir : dir.text ≠ "") (h : IsName name) : (dir.child name).text ≠ "" := by
  rw [child_eq hdir h]
  exact fun hempty => h.ne_empty (String.append_eq_empty_iff.mp hempty).2

/-- A slash ends what stands in front of the names, and the pieces before it are those of the
directory. -/
theorem exists_front (dir : Path) :
    ∃ cs, dir.front.toList = cs ++ ['/'] ∧ piecesOf cs = dir.pieces := by
  rw [front, pieces_eq]
  cases hends : dir.endsInSlash with
  | true =>
      rw [endsInSlash, beq_iff_eq, List.getLast?_eq_some_iff] at hends
      obtain ⟨cs, hcs⟩ := hends
      refine ⟨cs, hcs, ?_⟩
      rw [hcs, piecesOf_append, piecesOf_nil, List.append_nil]
  | false => exact ⟨dir.text.toList, String.toList_append, rfl⟩

theorem piecesOf_name (h : IsName name) : piecesOf name.toList = [name] := by
  rw [piecesOf_singleton (fun hnil => h.ne_empty (String.toList_eq_nil_iff.mp hnil)) h.notMem_slash,
    String.ofList_toList]

/-- The name is the last piece. -/
theorem pieces_child (hdir : dir.text ≠ "") (h : IsName name) :
    (dir.child name).pieces = dir.pieces ++ [name] := by
  obtain ⟨cs, hfront, hpieces⟩ := dir.exists_front
  rw [child_eq hdir h, pieces_eq, String.toList_append, hfront, List.append_assoc,
    List.singleton_append, piecesOf_append, hpieces, piecesOf_name h]

theorem endsInSlash_child (hdir : dir.text ≠ "") (h : IsName name) :
    (dir.child name).endsInSlash = false := by
  rw [child_eq hdir h, endsInSlash, String.toList_append, List.getLast?_append]
  cases hlast : name.toList.getLast? with
  | none =>
      rw [List.getLast?_eq_none_iff] at hlast
      exact absurd (String.toList_eq_nil_iff.mp hlast) h.ne_empty
  | some c =>
      have hc : c ≠ '/' := fun hc => h.notMem_slash (hc ▸ List.mem_of_getLast? hlast)
      exact beq_eq_false_iff_ne.mpr fun heq => hc (Option.some.inj heq)

theorem lastName?_child (hdir : dir.text ≠ "") (h : IsName name) :
    (dir.child name).lastName? = some name := by
  rw [lastName?, pieces_child hdir h, List.getLast?_concat]
  simp [h.ne_point, h.ne_points]

theorem steps_child (hdir : dir.text ≠ "") (h : IsName name) :
    (dir.child name).steps = dir.pieces ++ [name] := by
  rw [steps, endsInSlash_child hdir h, pieces_child hdir h]
  exact List.append_nil _

theorem bareName?_child (hdir : dir.text ≠ "") (h : IsName name) :
    (dir.child name).bareName? = some name := by
  rw [bareName?, endsInSlash_child hdir h, if_neg Bool.false_ne_true, lastName?_child hdir h]

/-- Paths that begin alike begin at the same place. -/
theorem isAbsolute_of_append {p q : Path} {more : List Char} (hp : p.text ≠ "")
    (h : q.text.toList = p.text.toList ++ more) : q.isAbsolute = p.isAbsolute := by
  rw [isAbsolute, isAbsolute, h]
  cases hchars : p.text.toList with
  | nil => exact absurd (String.toList_eq_nil_iff.mp hchars) hp
  | cons c cs => rfl

theorem exists_child_text (hdir : dir.text ≠ "") (h : IsName name) :
    ∃ more, (dir.child name).text.toList = dir.text.toList ++ more := by
  rw [child_eq hdir h, front]
  cases dir.endsInSlash with
  | true => exact ⟨name.toList, String.toList_append⟩
  | false => exact ⟨"/".toList ++ name.toList, by simp [String.toList_append]⟩

/-! ## Cutting -/

/-- A text that begins neither with a slash nor with a single point has no mark. -/
theorem cutMark_of_ne {c : Char} {cs : List Char} (hslash : c ≠ '/')
    (hpoint : c = '.' → cs ≠ [] ∧ cs.head? ≠ some '/') : cutMark (c :: cs) = ([], c :: cs) := by
  unfold cutMark
  split
  · rename_i heq
    exact absurd (List.cons.inj heq).1 hslash
  · rename_i heq
    obtain ⟨hc, hcs⟩ := List.cons.inj heq
    exact absurd hcs (hpoint hc).1
  · rename_i heq
    obtain ⟨hc, hcs⟩ := List.cons.inj heq
    exact absurd (congrArg List.head? hcs) (hpoint hc).2
  · rfl

/-- How a path in a directory is cut does not depend on the name. -/
theorem exists_cut (cs : List Char) : ∃ mark segments, (mark = [] ∨ mark = ['/'] ∨
      mark = ['.'] ∧ ∃ more, segments = [] :: more) ∧
    ∀ name, '/' ∉ name → (cutMark (cs ++ '/' :: name)).1 = mark ∧
      (cutMark (cs ++ '/' :: name)).2.splitOn '/' = segments ++ [name] := by
  have hsplit (rest name : List Char) (hname : '/' ∉ name) :
      (rest ++ '/' :: name).splitOn '/' = rest.splitOn '/' ++ [name] := by
    rw [List.splitOn_append_cons_self, List.splitOn_eq_singleton hname]
  -- A text that begins neither with a slash nor with a lone point has no mark to cut.
  have hother (c : Char) (rest : List Char) (hslash : c ≠ '/')
      (hpoint : c = '.' → rest ≠ [] ∧ rest.head? ≠ some '/') (name : List Char)
      (hname : '/' ∉ name) : (cutMark (c :: rest ++ '/' :: name)).1 = [] ∧
        (cutMark (c :: rest ++ '/' :: name)).2.splitOn '/' = (c :: rest).splitOn '/' ++ [name] := by
    rw [List.cons_append, cutMark_of_ne hslash fun hc => ?_]
    · exact ⟨rfl, hsplit (c :: rest) name hname⟩
    · obtain ⟨hne, hhead⟩ := hpoint hc
      cases rest with
      | nil => exact absurd rfl hne
      | cons d rest => exact ⟨List.cons_ne_nil _ _, hhead⟩
  cases cs with
  | nil =>
      exact ⟨['/'], [], Or.inr (Or.inl rfl), fun name hname =>
        ⟨rfl, List.splitOn_eq_singleton hname⟩⟩
  | cons c rest =>
      by_cases hslash : c = '/'
      · subst hslash
        exact ⟨['/'], rest.splitOn '/', Or.inr (Or.inl rfl), fun name hname =>
          ⟨rfl, hsplit rest name hname⟩⟩
      by_cases hpoint : c = '.'
      · subst hpoint
        cases rest with
        | nil =>
            exact ⟨['.'], [[]], Or.inr (Or.inr ⟨rfl, [], rfl⟩), fun name hname =>
              ⟨rfl, hsplit [] name hname⟩⟩
        | cons d rest =>
            by_cases hd : d = '/'
            · subst hd
              refine ⟨['.'], ('/' :: rest).splitOn '/', Or.inr (Or.inr ⟨rfl, ?_⟩), fun name hname =>
                ⟨rfl, hsplit ('/' :: rest) name hname⟩⟩
              exact ⟨rest.splitOn '/', List.splitOn_append_cons_self_of_not_mem List.not_mem_nil _⟩
            · exact ⟨[], _, Or.inl rfl, hother '.' (d :: rest) (by decide) fun _ =>
                ⟨List.cons_ne_nil d rest, fun h => hd (Option.some.inj h)⟩⟩
      · exact ⟨[], _, Or.inl rfl, hother c rest hslash fun hc => absurd hc hpoint⟩

/-- A path is its mark and its segments. -/
theorem text_of_cut (cs : List Char) :
    (cutMark cs).1 ++ ['/'].intercalate ((cutMark cs).2.splitOn '/') = cs := by
  rw [List.intercalate_splitOn, cutMark_append]

theorem IsName.isIdle (h : IsName name) : Path.isIdle name.toList = false := by
  rw [Path.isIdle, Bool.or_eq_false_iff]
  refine ⟨?_, beq_eq_false_iff_ne.mpr fun heq => h.ne_point ?_⟩
  · cases hchars : name.toList with
    | nil => exact absurd (String.toList_eq_nil_iff.mp hchars) h.ne_empty
    | cons c cs => rfl
  · rw [← String.ofList_toList (s := name), heq]

/-- What a path in a directory is made of, whatever the name is. -/
theorem exists_way (hdir : dir.text ≠ "") : ∃ mark segments, (mark = [] ∨ mark = ['/'] ∨
      mark = ['.'] ∧ ∃ more, segments = [] :: more) ∧
    ∀ name : String, IsName name → (cutMark (dir.child name).text.toList).1 = mark ∧
      (dir.child name).way = name.toList :: segments.reverse ∧
      (dir.child name).text.toList = mark ++ ['/'].intercalate (segments ++ [name.toList]) := by
  obtain ⟨cs, hfront, -⟩ := dir.exists_front
  obtain ⟨mark, segments, hmark, hcut⟩ := exists_cut cs
  refine ⟨mark, segments, hmark, fun name h => ?_⟩
  have htext : (dir.child name).text.toList = cs ++ '/' :: name.toList := by
    rw [child_eq hdir h, String.toList_append, hfront, List.append_assoc, List.singleton_append]
  obtain ⟨hmark, hsegments⟩ := hcut name.toList h.notMem_slash
  rw [way, htext]
  refine ⟨hmark, ?_, ?_⟩
  · rw [hsegments, List.reverse_append, List.reverse_singleton, List.singleton_append,
      List.dropWhile_cons_of_neg (by rw [h.isIdle]; exact Bool.false_ne_true)]
  · rw [← hmark, ← hsegments, text_of_cut]

/-- All files in a directory have the same directory around them. -/
theorem parent_child_eq (hdir : dir.text ≠ "") {other : String} (h : IsName name)
    (hother : IsName other) : (dir.child name).parent = (dir.child other).parent := by
  obtain ⟨mark, segments, -, hway⟩ := exists_way hdir
  obtain ⟨hmark, hname, -⟩ := hway name h
  obtain ⟨hmark', hname', -⟩ := hway other hother
  simp only [parent, ofWay, hname, hname', hmark, hmark', List.drop_succ_cons, List.drop_zero]

/-- The file beside a file in a directory is in the directory. -/
theorem withExtension_child (hdir : dir.text ≠ "") {other extension : String} (h : IsName name)
    (hother : IsName other) (hname : changeExtension name.toList extension.toList = other.toList) :
    (dir.child name).withExtension extension = dir.child other := by
  obtain ⟨mark, segments, -, hway⟩ := exists_way hdir
  obtain ⟨hmark, hname', -⟩ := hway name h
  obtain ⟨-, -, htext⟩ := hway other hother
  have hpoints : name.toList ≠ ['.', '.'] := fun heq => h.ne_points <| by
    rw [← String.ofList_toList (s := name), heq]
  rw [withExtension, hname']
  simp only [if_neg hpoints, ofWay, hname, hmark, List.reverse_cons, List.reverse_reverse]
  rw [← htext, String.ofList_toList]

/-- The pieces of segments with a name behind them. -/
theorem piecesOf_intercalate_name (h : IsName name) (ws : List (List Char)) :
    piecesOf (['/'].intercalate (ws ++ [name.toList])) =
      piecesOf (['/'].intercalate ws) ++ [name] := by
  cases ws with
  | nil =>
      rw [List.nil_append, List.intercalate_singleton, piecesOf_name h]
      rfl
  | cons w ws =>
      rw [intercalate_append (List.cons_ne_nil w ws) (List.cons_ne_nil _ _), piecesOf_append,
        List.intercalate_singleton, piecesOf_name h]

/-- The pieces of a mark, some segments that are kept, some that are dropped and a name. -/
theorem piecesOf_mark_append (h : IsName name) {mark : List Char} {kept idle : List (List Char)}
    (hmark : mark = [] ∨ mark = ['/'] ∨ mark = ['.'] ∧ ∃ more, kept ++ idle = [] :: more) :
    piecesOf (mark ++ ['/'].intercalate (kept ++ idle ++ [name.toList])) =
      piecesOf (mark ++ ['/'].intercalate kept) ++ piecesOf (['/'].intercalate idle) ++ [name] := by
  by_cases hnil : kept = []
  · subst hnil
    rw [List.nil_append, List.intercalate_nil, List.append_nil, List.append_assoc,
      ← piecesOf_intercalate_name h]
    rcases hmark with rfl | rfl | ⟨rfl, more, hmore⟩
    · rfl
    · exact piecesOf_append [] _
    · -- behind a lone point the first segment is empty, which makes the slash behind the point
      have hslash : ['/'].intercalate ([] :: more ++ [name.toList]) =
          '/' :: ['/'].intercalate (more ++ [name.toList]) :=
        intercalate_append (List.cons_ne_nil [] []) (by simp)
      have hfront := piecesOf_append [] (['/'].intercalate (more ++ [name.toList]))
      rw [List.nil_append] at hmore hfront
      rw [hmore, hslash, hfront]
      exact piecesOf_append ['.'] _
  · rw [List.append_assoc, intercalate_append hnil (by simp), ← List.append_assoc, piecesOf_append,
      piecesOf_intercalate_name h, List.append_assoc]

/-- The directory around a file in a directory: its path is the beginning of the file's, and only
idle pieces of the directory are missing from it. -/
theorem exists_parent_child (hdir : dir.text ≠ "") (h : IsName name) :
    ∃ points more, (∀ s ∈ points, s = ".") ∧
      (dir.child name).text.toList = (dir.child name).parent.text.toList ++ more ∧
      dir.pieces = (dir.child name).parent.pieces ++ points := by
  obtain ⟨mark, segments, hmark, hway⟩ := exists_way hdir
  obtain ⟨hcut, hway, htext⟩ := hway name h
  have hpieces := pieces_child hdir h
  rw [pieces_eq, htext] at hpieces
  -- The parent's text drops the idle segments at the end, and those name nothing but points.
  generalize hkept : (segments.reverse.dropWhile isIdle).reverse = kept
  generalize hidle : (segments.reverse.takeWhile isIdle).reverse = idle
  have hparent : (dir.child name).parent.text.toList = mark ++ ['/'].intercalate kept := by
    rw [parent, hway, ← hkept]
    simp only [ofWay, hcut, List.drop_succ_cons, List.drop_zero, String.toList_ofList]
  have hsegments : segments = kept ++ idle := by
    rw [← hkept, ← hidle, ← List.reverse_append, List.takeWhile_append_dropWhile,
      List.reverse_reverse]
  have hpoints : ∀ s ∈ piecesOf (['/'].intercalate idle), s = "." := by
    refine eq_point_of_mem_piecesOf fun w hw => ?_
    rw [← hidle, List.mem_reverse] at hw
    exact List.all_eq_true.mp List.all_takeWhile w hw
  rw [pieces_eq (dir.child name).parent, htext, hparent]
  refine ⟨_, ?more, hpoints, ?text, ?pieces⟩
  case more =>
    exact if kept = [] then ['/'].intercalate (idle ++ [name.toList])
      else '/' :: ['/'].intercalate (idle ++ [name.toList])
  case text =>
    by_cases hnil : kept = []
    · rw [if_pos hnil, hsegments, hnil, List.nil_append, List.intercalate_nil, List.append_nil]
    · rw [if_neg hnil, hsegments, List.append_assoc, intercalate_append hnil (by simp),
        List.append_assoc]
  case pieces =>
    rw [hsegments] at hmark hpieces
    exact List.append_cancel_right (hpieces.symm.trans (piecesOf_mark_append h hmark))

end Path

namespace Disk

variable {d e : Disk} {p q dir : Path} {m l : Place} {name : String}

/-! ## Directories that are there -/

theorem accept_eq_ok_iff : accept p = .ok () ↔
    Char.ofNat 0 ∉ p.text.toList ∧ p.text ≠ "" ∧ p.text.utf8ByteSize ≤ pathLimit := by
  rw [accept]
  by_cases hnul : Char.ofNat 0 ∈ p.text.toList
  · simp [hnul]
  by_cases hempty : p.text = ""
  · simp [hempty]
  by_cases hlong : pathLimit < p.text.utf8ByteSize
  · simp [hnul, hempty, hlong, Nat.not_le_of_lt hlong]
  · simp [hnul, hempty, hlong, Nat.le_of_not_lt hlong]

/-- The beginning of a path is a path. -/
theorem accept_of_append (h : accept q = .ok ()) (hp : p.text ≠ "") {more : List Char}
    (hq : q.text.toList = p.text.toList ++ more) : accept p = .ok () := by
  obtain ⟨hnul, -, hlong⟩ := accept_eq_ok_iff.mp h
  have htext : q.text = p.text ++ String.ofList more := by
    rw [← String.ofList_toList (s := q.text), hq, String.ofList_append, String.ofList_toList]
  rw [htext, String.utf8ByteSize_append] at hlong
  refine accept_eq_ok_iff.mpr ⟨fun hmem => hnul ?_, hp, by omega⟩
  rw [hq]
  exact List.mem_append_left _ hmem

/-- A directory takes a name that is no longer than another one which it takes. -/
theorem accept_child (hdir : dir.text ≠ "") {other : String} (h : accept (dir.child other) = .ok ())
    (hother : Path.IsName other) (hname : Path.IsName name) (hnul : Char.ofNat 0 ∉ name.toList)
    (hshort : name.utf8ByteSize ≤ other.utf8ByteSize) : accept (dir.child name) = .ok () := by
  obtain ⟨hnul', -, hlong⟩ := accept_eq_ok_iff.mp h
  rw [Path.child_eq hdir hother] at hnul' hlong
  rw [String.utf8ByteSize_append] at hlong
  rw [String.toList_append, List.mem_append, not_or] at hnul'
  refine accept_eq_ok_iff.mpr ⟨?_, ?_, ?_⟩
  · rw [Path.child_eq hdir hname, String.toList_append, List.mem_append, not_or]
    exact ⟨hnul'.1, hnul⟩
  · exact Path.child_ne_empty hdir hname
  · rw [Path.child_eq hdir hname, String.utf8ByteSize_append]
    omega

/-- A directory in which a file can be is a path. -/
theorem accept_of_child (hdir : dir.text ≠ "") (hname : Path.IsName name)
    (h : accept (dir.child name) = .ok ()) : accept dir = .ok () := by
  obtain ⟨more, hmore⟩ := Path.exists_child_text hdir hname
  exact accept_of_append h hdir hmore

/-- A path in a directory begins where the directory's does. -/
theorem origin_child (hdir : dir.text ≠ "") (hname : Path.IsName name) :
    d.origin (dir.child name) = d.origin dir := by
  obtain ⟨more, hmore⟩ := Path.exists_child_text hdir hname
  rw [origin, origin, Path.isAbsolute_of_append hdir hmore]

theorem makeDirectories_of_empty (hp : p.text = "") : d.makeDirectories p = (.ok (), d) := by
  simp only [makeDirectories, if_pos hp]

/-- Where the directory of a path is, none is made. -/
theorem makeDirectories_of_enter (haccept : accept p = .ok ())
    (h : d.enter (d.origin p) p.pieces = .ok m) : d.makeDirectories p = (.ok (), d) := by
  have hp := (accept_eq_ok_iff.mp haccept).2.1
  obtain ⟨hwalk, hm⟩ := enter_eq_ok_iff.mp h
  -- without pieces the path ends where it begins; otherwise its last piece leads to a directory
  -- that is there
  cases hpieces : p.pieces with
  | nil =>
      have henclosing : d.enclosing p = .ok m := by
        refine bind_eq_ok_iff.mpr ⟨(), haccept, ?_⟩
        rw [hpieces] at h ⊢
        exact h
      rw [makeDirectories_of_enclosing hp henclosing, makeLast, hpieces]
      rfl
  | cons s ss =>
      have hne : p.pieces ≠ [] := hpieces ▸ List.cons_ne_nil s ss
      obtain ⟨before, last, hsplit⟩ : ∃ before last, p.pieces = before ++ [last] :=
        ⟨_, _, (List.dropLast_concat_getLast hne).symm⟩
      rw [hsplit, walk_append] at hwalk
      obtain ⟨k, hk, hlast⟩ := bind_eq_ok_iff.mp hwalk
      have hfollow : d.follow k last = .ok m := by
        rw [walk, List.foldlM_cons] at hlast
        obtain ⟨n, hn, hrest⟩ := bind_eq_ok_iff.mp hlast
        cases hrest
        exact hn
      have henclosing : d.enclosing p = .ok k := by
        refine bind_eq_ok_iff.mpr ⟨(), haccept, ?_⟩
        rw [hsplit, List.dropLast_concat]
        exact enter_eq_ok_iff.mpr ⟨hk, (follow_eq_ok_iff.mp hfollow).1⟩
      rw [makeDirectories_of_enclosing hp henclosing, makeLast, hsplit, List.getLast?_concat]
      simp only [makeStep_of_directory hfollow hm]
      rfl

/-- The directory of a path is there. -/
structure IsHome (d : Disk) (dir : Path) (m : Place) : Prop where
  text_ne : dir.text ≠ ""
  entered : d.enter (d.origin dir) dir.pieces = .ok m

namespace IsHome

theorem mono (h : d.IsHome dir m) (hkeeps : d.Keeps e) : e.IsHome dir m where
  text_ne := h.text_ne
  entered := by
    rw [hkeeps.origin]
    exact hkeeps.enter h.entered

theorem makeDirectories (h : d.IsHome dir m) (haccept : accept dir = .ok ()) :
    d.makeDirectories dir = (.ok (), d) := makeDirectories_of_enter haccept h.entered

/-- Idle steps stay in their directory. -/
theorem walk_points {points : List String} (hpoints : ∀ s ∈ points, s = ".")
    (h : d.walk l points = .ok m) : l = m := by
  induction points generalizing l with
  | nil =>
      cases h
      rfl
  | cons s points ih =>
      rw [walk, List.foldlM_cons] at h
      obtain ⟨k, hk, hrest⟩ := bind_eq_ok_iff.mp h
      obtain ⟨-, -, hnext⟩ := follow_eq_ok_iff.mp hk
      rw [hpoints s List.mem_cons_self, next, if_pos rfl] at hnext
      obtain rfl := hnext
      exact ih (fun t ht => hpoints t (List.mem_cons_of_mem s ht)) hrest

/-- The directory around a file in a directory that is there is not made. -/
theorem makeDirectories_parent (h : d.IsHome dir m) (hname : Path.IsName name)
    (haccept : accept (dir.child name) = .ok ()) :
    d.makeDirectories (dir.child name).parent = (.ok (), d) := by
  obtain ⟨points, more, hpoints, htext, hpieces⟩ := Path.exists_parent_child h.text_ne hname
  obtain ⟨rest, hrest⟩ := Path.exists_child_text h.text_ne hname
  generalize (dir.child name).parent = p at htext hpieces ⊢
  by_cases hempty : p.text = ""
  · exact makeDirectories_of_empty hempty
  have habsolute : dir.isAbsolute = p.isAbsolute := by
    rw [← Path.isAbsolute_of_append h.text_ne hrest, Path.isAbsolute_of_append hempty htext]
  obtain ⟨hwalk, hm⟩ := enter_eq_ok_iff.mp h.entered
  rw [hpieces, walk_append] at hwalk
  obtain ⟨k, hk, hrest⟩ := bind_eq_ok_iff.mp hwalk
  obtain rfl := walk_points hpoints hrest
  refine makeDirectories_of_enter (accept_of_append haccept hempty htext)
    (enter_eq_ok_iff.mpr ⟨?_, hm⟩)
  rwa [origin, ← habsolute]

/-- A name leads from the directory to the place below it. -/
theorem follow (h : d.IsHome dir m) (hname : Path.IsName name)
    (hshort : name.utf8ByteSize ≤ nameLimit) : d.follow m name = .ok (m.below name) := by
  have hnext : next m name = m.below name := by
    rw [next, if_neg hname.ne_point, if_neg hname.ne_points]
  exact follow_eq_ok_iff.mpr ⟨(enter_eq_ok_iff.mp h.entered).2, hshort, hnext⟩

/-- The path of a name in a directory leads to the place below it. -/
theorem locate_child (h : d.IsHome dir m) (hname : Path.IsName name)
    (haccept : accept (dir.child name) = .ok ()) (hshort : name.utf8ByteSize ≤ nameLimit) :
    d.locate (dir.child name) = .ok (m.below name) := by
  refine bind_eq_ok_iff.mpr ⟨(), haccept, ?_⟩
  rw [Path.steps_child h.text_ne hname, origin_child h.text_ne hname, walk_append,
    (enter_eq_ok_iff.mp h.entered).1]
  show d.walk m [name] = _
  rw [walk, List.foldlM_cons, h.follow hname hshort]
  rfl

/-- A file in a directory that is there is found where its name leads. -/
theorem names (h : d.IsHome dir m) (hname : Path.IsName name)
    (haccept : accept (dir.child name) = .ok ()) (hshort : name.utf8ByteSize ≤ nameLimit)
    (hnode : d.node? (m.below name) ≠ some .directory) :
    d.Names (dir.child name) (m.below name) where
  node_ne := hnode
  located := by
    have henclosing : d.enclosing (dir.child name) = .ok m := by
      refine bind_eq_ok_iff.mpr ⟨(), haccept, ?_⟩
      rw [Path.pieces_child h.text_ne hname, List.dropLast_concat, origin_child h.text_ne hname]
      exact h.entered
    refine bind_eq_ok_iff.mpr ⟨m, henclosing, ?_⟩
    rw [Path.bareName?_child h.text_ne hname]
    exact h.follow hname hshort

end IsHome

end Disk

end IndexAdvisor
