import IndexAdvisor.Proofs.Text.Lines
import IndexAdvisor.Proofs.Text.Trimming
import IndexAdvisor.QueryLog
import Mathlib.Data.List.Forall2

/-!
# Statements of query logs

A log is cut at its line feeds, and each piece that is not blank is a statement once it is trimmed.
What else belongs to a line end, a carriage return in front of a line feed or the missing line feed
of the last line, makes no difference to the statements. So they can be told line by line: logs in a
row have the statements of each of them, and what is written from the statements reads back.
-/

set_option autoImplicit false

namespace IndexAdvisor.QueryLog

open IndexAdvisor.Text

/-- The pieces that are not blank, trimmed. -/
def trimmedPieces (pieces : List (List Char)) : List (List Char) :=
  (pieces.map trim).filter fun l => !l.isEmpty

theorem trimmedPieces_append (xs ys : List (List Char)) :
    trimmedPieces (xs ++ ys) = trimmedPieces xs ++ trimmedPieces ys := by
  rw [trimmedPieces, List.map_append, List.filter_append]
  rfl

theorem trimmedPieces_cons (piece : List Char) (pieces : List (List Char)) :
    trimmedPieces (piece :: pieces) = trimmedPieces [piece] ++ trimmedPieces pieces :=
  trimmedPieces_append [piece] pieces

/-! ## Pieces of a log -/

/-- Without line feeds nothing is dropped. -/
theorem dropReturns_of_notMem_feed {l : List Char} (h : '\n' ∉ l) :
    dropReturns '\r' '\n' l = l := by
  induction l with
  | nil => rfl
  | cons c l ih =>
      rw [List.mem_cons, not_or] at h
      rw [dropReturns_cons, if_neg fun hc => h.2 (List.mem_of_head? hc.2), ih h.2]

/-- A carriage return at the end of a line is trimmed off. -/
theorem trim_unreturned (l : List Char) : trim (unreturned l) = trim l := by
  rw [unreturned]
  split
  · rename_i hlast
    have hl : l.dropLast ++ ['\r'] = l := List.dropLast_append_getLast? '\r' hlast
    have htrim := trim_append_blank (c := '\r') (by decide) l.dropLast
    rw [hl] at htrim
    exact htrim.symm
  · rfl

theorem statements_of_notMem {l : List Char} (h : '\n' ∉ l) :
    statements l = trimmedPieces [l] := by
  cases l with
  | nil => rfl
  | cons c cs =>
      have hline := splitLines_append_of_notMem h (List.cons_ne_nil c cs) []
      rw [List.append_nil] at hline
      rw [statements, lines, dropReturns_of_notMem_feed h, hline]
      rfl

/-- The first line is read on its own. -/
theorem statements_append_feed {l : List Char} (h : '\n' ∉ l) (cs : List Char) :
    statements (l ++ '\n' :: cs) = trimmedPieces [l] ++ statements cs := by
  have hkept : '\n' ∉ unreturned l := fun hmem => h (mem_of_mem_unreturned hmem)
  have hlines : lines (l ++ '\n' :: cs) = unreturned l :: lines cs := by
    rw [lines, dropReturns_append_feed h, splitLines_append hkept, lines]
  rw [statements, hlines]
  show trimmedPieces (unreturned l :: lines cs) = _
  rw [trimmedPieces_cons, trimmedPieces, List.map_singleton, trim_unreturned]
  rfl

/-- **The statements of a log** are its pieces between line feeds, trimmed and unless they are
blank. -/
theorem statements_eq (cs : List Char) : statements cs = trimmedPieces (cs.splitOn '\n') := by
  have hpieces : ∀ l ∈ cs.splitOn '\n', '\n' ∉ l := by
    intro l hl hmem
    have hother := (Sql.mem_and_not_of_mem_splitOnP hl '\n' hmem).2
    exact absurd hother (by decide)
  -- by the pieces: each one but the last is a line that is ended
  have hread (pieces : List (List Char)) (h : ∀ l ∈ pieces, '\n' ∉ l) :
      statements (['\n'].intercalate pieces) = trimmedPieces pieces := by
    induction pieces with
    | nil => rfl
    | cons l ls ih =>
        have hl := h l List.mem_cons_self
        have hls := ih fun k hk => h k (List.mem_cons_of_mem l hk)
        cases ls with
        | nil =>
            rw [List.intercalate_singleton]
            exact statements_of_notMem hl
        | cons k ks =>
            rw [List.intercalate_cons_cons, List.append_assoc, List.singleton_append,
              statements_append_feed hl, hls, ← trimmedPieces_cons]
  have hcs := hread (cs.splitOn '\n') hpieces
  rwa [List.intercalate_splitOn] at hcs

/-! ## Line ends -/

/-- The log with a carriage return in front of some of its line feeds: of those whose positions are
chosen. -/
def recoded (chosen : Nat → Bool) : List Char → List Char
  | [] => []
  | c :: cs =>
    (if c = '\n' && chosen 0 then ['\r', '\n'] else [c]) ++ recoded (fun k => chosen (k + 1)) cs

/-- The pieces stay the same but for carriage returns at their ends. -/
theorem forall₂_splitOn_recoded (chosen : Nat → Bool) (cs : List Char) :
    List.Forall₂ (fun l k => k = l ∨ k = l ++ ['\r'])
      (cs.splitOn '\n') ((recoded chosen cs).splitOn '\n') := by
  induction cs generalizing chosen with
  | nil => exact .cons (Or.inl rfl) .nil
  | cons c cs ih =>
      have hrest := ih fun k => chosen (k + 1)
      rw [recoded]
      by_cases hc : c = '\n'
      · subst hc
        have hfeed (ds : List Char) : ('\n' :: ds).splitOn '\n' = [] :: ds.splitOn '\n' :=
          List.splitOn_append_cons_self [] ds
        rw [hfeed]
        cases chosen 0 with
        | false =>
            show List.Forall₂ _ _ (('\n' :: recoded _ cs).splitOn '\n')
            rw [hfeed]
            exact .cons (Or.inl rfl) hrest
        | true =>
            have hreturn : '\n' ∉ ['\r'] := by decide
            show List.Forall₂ _ _ ((['\r'] ++ '\n' :: recoded _ cs).splitOn '\n')
            rw [List.splitOn_append_cons_self_of_not_mem hreturn]
            exact .cons (Or.inr rfl) hrest
      · have hkept (ds : List Char) :
            (c :: ds).splitOn '\n' = (ds.splitOn '\n').modifyHead (c :: ·) := by
          rw [List.splitOn_cons_eq_if_modifyHead, if_neg (by simpa using hc)]
        obtain ⟨l, ls, hls⟩ := List.exists_cons_of_ne_nil (List.splitOn_ne_nil '\n' cs)
        obtain ⟨k, ks, hks⟩ := List.exists_cons_of_ne_nil
          (List.splitOn_ne_nil '\n' (recoded (fun k => chosen (k + 1)) cs))
        rw [hls, hks] at hrest
        obtain ⟨hfirst, hmore⟩ := List.forall₂_cons.mp hrest
        rw [decide_eq_false hc, Bool.false_and, if_neg Bool.false_ne_true, List.singleton_append,
          hkept, hkept, hls, hks]
        -- the first pieces of both get the same character
        exact .cons (hfirst.imp (congrArg (c :: ·)) (congrArg (c :: ·))) hmore

/-- **Carriage returns in front of line feeds** make no difference. -/
theorem statements_recoded (chosen : Nat → Bool) (cs : List Char) :
    statements (recoded chosen cs) = statements cs := by
  have hpieces : List.Forall₂ (fun l k => trim l = trim k)
      (cs.splitOn '\n') ((recoded chosen cs).splitOn '\n') := by
    refine (forall₂_splitOn_recoded chosen cs).imp fun l k h => ?_
    rcases h with rfl | rfl
    · rfl
    · exact (trim_append_blank (by decide) l).symm
  have hmap : (cs.splitOn '\n').map trim = ((recoded chosen cs).splitOn '\n').map trim := by
    rw [← List.forall₂_eq_eq_eq, List.forall₂_map_left_iff, List.forall₂_map_right_iff]
    exact hpieces
  rw [statements_eq, statements_eq, trimmedPieces, ← hmap]
  rfl

/-! ## Texts -/

/-- The texts of the statements of a log. -/
def texts (content : List Char) : List String := (statements content).map String.ofList

/-- Neither the ids and the time nor the name of the file go into the texts. -/
theorem map_text_queries (freshId : Nat → String) (now fileName : String) (content : List Char) :
    (queries freshId now fileName content).map LoggedQuery.text = texts content := by
  refine List.ext_getElem ?_ fun k hk hk' => ?_
  · rw [List.length_map, queries, List.length_mapIdx, texts, List.length_map]
  · simp only [queries, texts, List.getElem_map, List.getElem_mapIdx]

theorem map_toList_texts (content : List Char) :
    (texts content).map String.toList = statements content := by
  rw [texts, List.map_map]
  exact List.map_id'' (fun _ => String.toList_ofList) _

theorem texts_append_feed (a b : List Char) : texts (a ++ '\n' :: b) = texts a ++ texts b := by
  rw [texts, statements_eq, List.splitOn_append_cons_self, trimmedPieces_append, List.map_append,
    ← statements_eq, ← statements_eq]
  rfl

/-- A statement is one line that begins and ends with no blank. -/
theorem of_mem_statements {cs l : List Char} (h : l ∈ statements cs) :
    l ≠ [] ∧ '\n' ∉ l ∧ trim l = l := by
  rw [statements_eq] at h
  obtain ⟨hmem, hne⟩ := List.mem_filter.mp h
  obtain ⟨piece, hpiece, rfl⟩ := List.mem_map.mp hmem
  refine ⟨fun hnil => ?_, fun hfeed => ?_, trim_trim piece⟩
  · rw [hnil] at hne
    cases hne
  · have hother := (Sql.mem_and_not_of_mem_splitOnP hpiece '\n' (mem_of_mem_trim hfeed)).2
    exact absurd hother (by decide)

/-- Statements are read back from lines of their own. -/
theorem statements_intercalate {ls : List (List Char)}
    (h : ∀ l ∈ ls, l ≠ [] ∧ '\n' ∉ l ∧ trim l = l) : statements (['\n'].intercalate ls) = ls := by
  by_cases hnil : ls = []
  · rw [hnil]
    rfl
  · have hmap : ls.map trim = ls := by
      rw [List.map_congr_left fun l hl => (h l hl).2.2, List.map_id']
    rw [statements_eq, List.splitOn_intercalate '\n' (fun l hl => (h l hl).2.1) hnil, trimmedPieces,
      hmap, List.filter_eq_self]
    intro l hl
    rw [Bool.not_eq_true', List.isEmpty_eq_false_iff]
    exact (h l hl).1

/-- **Logs are read line by line.** The texts of the queries of a log are its statements, whatever
ids they get; what stands before and behind a line feed is read on its own; carriage returns in
front of line feeds make no difference; each text is one line, not empty, and without blanks at its
ends; and the texts, on lines of their own, are read back. -/
theorem texts_linewise :
    (∀ (freshId : Nat → String) (now fileName : String) (content : List Char),
      (queries freshId now fileName content).map LoggedQuery.text = texts content) ∧
    (∀ a b : List Char, texts (a ++ '\n' :: b) = texts a ++ texts b) ∧
    (∀ (chosen : Nat → Bool) (content : List Char),
      texts (recoded chosen content) = texts content) ∧
    (∀ (content : List Char) (text : String), text ∈ texts content →
      text ≠ "" ∧ '\n' ∉ text.toList ∧ (∀ c ∈ text.toList.head?, isBlank c = false) ∧
      ∀ c ∈ text.toList.getLast?, isBlank c = false) ∧
    ∀ content : List Char, texts ("\n".intercalate (texts content)).toList = texts content := by
  refine ⟨map_text_queries, texts_append_feed, fun chosen content => ?_, ?_, fun content => ?_⟩
  · rw [texts, statements_recoded, texts]
  · intro content text htext
    obtain ⟨l, hl, rfl⟩ := List.mem_map.mp htext
    obtain ⟨hne, hfeed, htrim⟩ := of_mem_statements hl
    rw [String.toList_ofList]
    refine ⟨fun hempty => ?_, hfeed, fun c hc => ?_, fun c hc => ?_⟩
    · rw [← String.toList_inj, String.toList_ofList] at hempty
      exact hne hempty
    · exact not_blank_of_head?_trim (htrim.symm ▸ hc)
    · exact not_blank_of_getLast?_trim (htrim.symm ▸ hc)
  · have htext : ("\n".intercalate (texts content)).toList =
        ['\n'].intercalate (statements content) := by
      rw [String.toList_intercalate, map_toList_texts]
      rfl
    rw [texts, htext, statements_intercalate fun l hl => of_mem_statements hl, texts]

/-- A log with blank lines, a carriage return without a line feed, and no last line feed. -/
theorem texts_linewise_log :
    let content := "SELECT 1;\n \n\u00A0SELECT\r2 \r\nSELECT 3\r".toList
    texts content = ["SELECT 1;", "SELECT\r2", "SELECT 3"] ∧
    texts (recoded (fun k => k = 9) content) = ["SELECT 1;", "SELECT\r2", "SELECT 3"] ∧
    '\n' ∉ "SELECT\r2".toList ∧
    texts "SELECT 1;\nSELECT\r2\nSELECT 3".toList = ["SELECT 1;", "SELECT\r2", "SELECT 3"] := by
  intro content
  have htexts : texts content = ["SELECT 1;", "SELECT\r2", "SELECT 3"] := by decide +kernel
  obtain ⟨-, -, hrecoded, hmember, hback⟩ := texts_linewise
  refine ⟨htexts, (hrecoded _ content).trans htexts, ?_, ?_⟩
  · exact (hmember content "SELECT\r2" (by rw [htexts]; decide)).2.1
  · have hread := hback content
    rwa [htexts] at hread

end IndexAdvisor.QueryLog
