import IndexAdvisor.Proofs.Advice.Silence
import IndexAdvisor.Proofs.Analysis.Growth

/-!
# Accounts

The counters of an analyzer tell what has been done with it. Each call adds its own work to them:
the statements that it was asked about, the recommendations that it answered, and how many of the
statements no rule is about. So after any calls the counters are the work of all of them, in words
of 64 bits.
-/

set_option autoImplicit false

namespace IndexAdvisor.Analysis

open IndexAdvisor.Random

/-! ## Work and counters -/

/-- What has been done: how many statements and batches were analyzed, how many of the statements no
rule is about, and what was recommended. -/
structure Work where
  queries : Nat
  batches : Nat
  silent : Nat
  recommendations : List Recommendation

/-- One piece of work after another. -/
instance : Append Work where
  append x y := ⟨x.queries + y.queries, x.batches + y.batches, x.silent + y.silent,
    x.recommendations ++ y.recommendations⟩

/-- The work of answering with some lists of recommendations for some statements. -/
def Work.ofAnswers (statements : List String) (batches : Nat) (lists : List (List Recommendation)) :
    Work :=
  ⟨statements.length, batches, statements.countP fun sql => Advice.Silent (Sql.features sql),
    lists.flatten⟩

theorem Work.ofAnswers_append (xs ys : List String) (m n : Nat)
    (lists more : List (List Recommendation)) :
    Work.ofAnswers (xs ++ ys) (m + n) (lists ++ more) =
      Work.ofAnswers xs m lists ++ Work.ofAnswers ys n more := by
  unfold Work.ofAnswers
  rw [List.length_append, List.countP_append, List.flatten_append]
  rfl

namespace Counters

/-- The counter of the recommendations of a kind. -/
def ofKind (c : Counters) : Index.Kind → UInt64
  | .bTree => c.bTree
  | .hash => c.hash
  | .bitmap => c.bitmap

/-- How many of some recommendations are of a kind. -/
def countKind (kind : Index.Kind) (rs : List Recommendation) : Nat :=
  rs.countP fun r => r.kind = kind

/-- The counters after some more work. -/
def plus (c : Counters) (w : Work) : Counters where
  queries := c.queries + .ofNat w.queries
  batches := c.batches + .ofNat w.batches
  recommendations := c.recommendations + .ofNat w.recommendations.length
  bTree := c.bTree + .ofNat (countKind .bTree w.recommendations)
  hash := c.hash + .ofNat (countKind .hash w.recommendations)
  bitmap := c.bitmap + .ofNat (countKind .bitmap w.recommendations)
  fallbacks := c.fallbacks + .ofNat w.silent

theorem ofKind_plus (c : Counters) (w : Work) (kind : Index.Kind) :
    (c.plus w).ofKind kind = c.ofKind kind + .ofNat (countKind kind w.recommendations) := by
  cases kind with
  | bTree => rfl
  | hash => rfl
  | bitmap => rfl

theorem plus_append (c : Counters) (x y : Work) : c.plus (x ++ y) = (c.plus x).plus y := by
  show plus c ⟨_, _, _, _⟩ = _
  simp only [plus, countKind, List.length_append, List.countP_append, UInt64.ofNat_add,
    UInt64.add_assoc]

theorem plus_ofAnswers_nil (c : Counters) : c.plus (.ofAnswers [] 0 []) = c := by
  show plus c ⟨0, 0, 0, []⟩ = c
  simp [plus, countKind]

/-- A recommendation counts among all and among those of its kind. -/
theorem addRecommendation_eq (c : Counters) (r : Recommendation) :
    c.addRecommendation r.kind = c.plus ⟨0, 0, 0, [r]⟩ := by
  cases hkind : r.kind with
  | bTree => simp [addRecommendation, plus, countKind, hkind]
  | hash => simp [addRecommendation, plus, countKind, hkind]
  | bitmap => simp [addRecommendation, plus, countKind, hkind]

theorem foldl_addRecommendation_eq (c : Counters) (rs : List Recommendation) :
    rs.foldl (fun c r => c.addRecommendation r.kind) c = c.plus ⟨0, 0, 0, rs⟩ := by
  induction rs generalizing c with
  | nil => exact (plus_ofAnswers_nil c).symm
  | cons r rs ih =>
      rw [List.foldl_cons, ih, addRecommendation_eq, ← plus_append]
      rfl

/-- The recommendations of every kind together are all of them. -/
theorem length_eq_countKind (rs : List Recommendation) :
    rs.length = countKind .bTree rs + countKind .hash rs + countKind .bitmap rs := by
  induction rs with
  | nil => rfl
  | cons r rs ih =>
      unfold countKind at *
      rw [List.length_cons, List.countP_cons, List.countP_cons, List.countP_cons, ih]
      cases r.kind with
      | bTree => simp; omega
      | hash => simp; omega
      | bitmap => simp; omega

/-- **A statement counts as one that got the general recommendation** if no rule is about it. -/
theorem isFallback_recommend {σ : Type} [Source σ] (f : Sql.Features) (s : σ) :
    isFallback (Advice.recommend f s).1 = decide (Advice.Silent f) := by
  by_cases hsilent : Advice.Silent f
  · rw [Advice.recommend_of_silent hsilent, decide_eq_true hsilent]
    exact beq_self_eq_true _
  · rw [decide_eq_false hsilent]
    rw [← Advice.fallbackReason_mem_iff f s] at hsilent
    unfold isFallback
    split
    · rename_i r hr
      rw [hr, List.map_singleton, List.mem_singleton] at hsilent
      exact beq_eq_false_iff_ne.mpr (Ne.symm hsilent)
    · rfl

/-- A statement and its recommendations count as the work that they are. -/
theorem addQuery_recommend {σ : Type} [Source σ] (c : Counters) (sql : String) (s : σ) :
    c.addQuery (Advice.recommend (Sql.features sql) s).1 =
      c.plus (.ofAnswers [sql] 0 [(Advice.recommend (Sql.features sql) s).1]) := by
  unfold addQuery
  rw [isFallback_recommend]
  simp only [foldl_addRecommendation_eq, Work.ofAnswers, List.flatten_singleton,
    List.countP_singleton]
  by_cases hsilent : Advice.Silent (Sql.features sql)
  · simp [hsilent, plus]
  · simp [hsilent, plus]

theorem addBatch_eq (c : Counters) : c.addBatch = c.plus (.ofAnswers [] 1 []) := by
  show _ = plus c ⟨0, 1, 0, []⟩
  simp [addBatch, plus, countKind]

end Counters

/-! ## Calls -/

/-- A call of an analyzer. -/
inductive Call where
  | statement (sql : String)
  | batch (qs : List LoggedQuery)

namespace Call

/-- The statements that a call asks about. -/
def statements : Call → List String
  | statement sql => [sql]
  | batch qs => qs.map LoggedQuery.text

/-- The call is for a batch. -/
def isBatch : Call → Bool
  | statement _ => false
  | batch _ => true

end Call

namespace Analyzer

variable {σ : Type} [Source σ]

/-- Makes a call and answers the lists of recommendations that it returns. -/
def call : Call → StateM (Analyzer σ) (List (List Recommendation))
  | .statement sql => do return [(← analyze sql).recommendations]
  | .batch qs => do return (← analyzeBatch qs).bundles.map Bundle.recommendations

/-- Makes calls one after the other and answers all lists of recommendations. -/
def calls : List Call → StateM (Analyzer σ) (List (List Recommendation))
  | [] => return []
  | c :: cs => do return (← call c) ++ (← calls cs)

/-! ### What a call adds -/

theorem counters_analyze_eq_addQuery (sql : String) (a : Analyzer σ) :
    (analyze sql a).2.counters =
      a.counters.addQuery (Advice.recommend (Sql.features sql) a.source).1 := by
  -- only the count changes the counters, whatever is drawn and found
  have hcount (draw : StateM σ (List Recommendation)) (found : List Recommendation → Findings) :
      ((do
        let recommendations ← drawn draw
        count fun c => c.addQuery recommendations
        log (analyzedEntry (found recommendations))
        return found recommendations : StateM (Analyzer σ) Findings) a).2.counters =
          a.counters.addQuery (draw a.source).1 := rfl
  exact hcount (Advice.recommend (Sql.features sql)) fun recommendations =>
    ⟨Sql.features sql, Plan.ofFeatures (Sql.features sql), recommendations⟩

theorem counters_analyze (sql : String) (a : Analyzer σ) : (analyze sql a).2.counters =
    a.counters.plus (.ofAnswers [sql] 0 [(analyze sql a).1.recommendations]) := by
  rw [counters_analyze_eq_addQuery, fst_analyze]
  dsimp only
  rw [Counters.addQuery_recommend]

theorem counters_analyzeAt (position : Nat) (q : LoggedQuery) (a : Analyzer σ) :
    (analyzeAt position q a).2.counters =
      a.counters.plus (.ofAnswers [q.text] 0 [(analyzeAt position q a).1.recommendations]) := by
  have hcounters : (analyzeAt position q a).2.counters = (analyze q.text a).2.counters := by
    unfold analyzeAt
    generalize (analyze q.text : StateM (Analyzer σ) Findings) = findings
    rfl
  rw [hcounters, counters_analyze, fst_analyzeAt]

theorem counters_bundlesFrom (position : Nat) (qs : List LoggedQuery) (a : Analyzer σ) :
    (bundlesFrom position qs a).2.counters =
      a.counters.plus (.ofAnswers (qs.map LoggedQuery.text) 0
        ((bundlesFrom position qs a).1.map Bundle.recommendations)) := by
  induction qs generalizing position a with
  | nil => exact (Counters.plus_ofAnswers_nil a.counters).symm
  | cons q qs ih =>
      rw [bundlesFrom_cons, List.map_cons, List.map_cons]
      show (bundlesFrom (position + 1) qs (analyzeAt position q a).2).2.counters = _
      rw [ih, counters_analyzeAt, ← Counters.plus_append, ← Work.ofAnswers_append]
      rfl

theorem counters_analyzeBatch (qs : List LoggedQuery) (a : Analyzer σ) :
    (analyzeBatch qs a).2.counters =
      a.counters.plus (.ofAnswers (qs.map LoggedQuery.text) 1
        ((analyzeBatch qs a).1.bundles.map Bundle.recommendations)) := by
  have hcounters : (analyzeBatch qs a).2.counters = (bundlesFrom 0 qs a).2.counters.addBatch :=
    congrArg (fun r => r.2.counters.addBatch) (analyzeFrom_eq 0 .empty qs a)
  rw [hcounters, Counters.addBatch_eq, counters_bundlesFrom, bundles_analyzeBatch,
    ← Counters.plus_append, ← Work.ofAnswers_append, List.append_nil, List.append_nil]

/-- A call adds its work to the counters. -/
theorem counters_call (c : Call) (a : Analyzer σ) : (call c a).2.counters =
    a.counters.plus (.ofAnswers c.statements (if c.isBatch then 1 else 0) (call c a).1) := by
  cases c with
  | statement sql => exact counters_analyze sql a
  | batch qs => exact counters_analyzeBatch qs a

theorem length_call (c : Call) (a : Analyzer σ) : (call c a).1.length = c.statements.length := by
  cases c with
  | statement sql =>
      show [(analyze sql a).1.recommendations].length = [sql].length
      rw [List.length_singleton, List.length_singleton]
  | batch qs =>
      show ((analyzeBatch qs a).1.bundles.map Bundle.recommendations).length =
        (qs.map LoggedQuery.text).length
      rw [List.length_map, List.length_map, length_bundles]

/-! ### Runs of calls -/

theorem calls_cons (c : Call) (cs : List Call) (a : Analyzer σ) :
    calls (c :: cs) a = ((call c a).1 ++ (calls cs (call c a).2).1, (calls cs (call c a).2).2) :=
  rfl

theorem counters_calls (cs : List Call) (a : Analyzer σ) : (calls cs a).2.counters =
    a.counters.plus
      (.ofAnswers (cs.flatMap Call.statements) (cs.countP Call.isBatch) (calls cs a).1) := by
  induction cs generalizing a with
  | nil => exact (Counters.plus_ofAnswers_nil a.counters).symm
  | cons c cs ih =>
      rw [calls_cons, List.flatMap_cons, List.countP_cons, Nat.add_comm, Work.ofAnswers_append,
        Counters.plus_append, ← counters_call]
      exact ih _

theorem length_calls (cs : List Call) (a : Analyzer σ) :
    (calls cs a).1.length = (cs.flatMap Call.statements).length := by
  induction cs generalizing a with
  | nil => rfl
  | cons c cs ih =>
      rw [calls_cons, List.flatMap_cons, List.length_append, List.length_append, length_call]
      exact congrArg _ (ih _)

/-- **The counters account for all that was produced.** Whatever calls have been made of a new
analyzer, on any source: a list of recommendations was returned for each statement; the counters
tell the numbers of statements, of batches, of recommendations, of those of each kind, which add up
to all of them, and of the statements that no rule is about; and these are the statements for which
the rules draft nothing, however the draws fall. -/
theorem counters_calls_start (source : σ) (journal : Log.Journal) (cs : List Call) :
    let lists := (calls cs (start source journal)).1
    let counters := (calls cs (start source journal)).2.counters
    let statements := cs.flatMap Call.statements
    lists.length = statements.length ∧
    counters.queries = .ofNat statements.length ∧
    counters.batches = .ofNat (cs.countP Call.isBatch) ∧
    counters.recommendations = .ofNat (lists.map List.length).sum ∧
    counters.recommendations = counters.bTree + counters.hash + counters.bitmap ∧
    (∀ kind, counters.ofKind kind = .ofNat (lists.flatten.countP fun r => r.kind = kind)) ∧
    counters.fallbacks = .ofNat (statements.countP fun sql => Advice.Silent (Sql.features sql)) ∧
    (∀ (sql : String) (s : σ),
      Advice.Silent (Sql.features sql) ↔ (Advice.ruleDrafts (Sql.features sql) s).1 = []) := by
  intro lists counters statements
  have hcounters : counters =
      Counters.zero.plus (.ofAnswers statements (cs.countP Call.isBatch) lists) :=
    counters_calls cs (start source journal)
  refine ⟨length_calls cs (start source journal), ?_, ?_, ?_, ?_, fun kind => ?_, ?_, fun sql s =>
    (Advice.ruleDrafts_eq_nil_iff (Sql.features sql) s).symm⟩
  · rw [hcounters]
    exact UInt64.zero_add _
  · rw [hcounters]
    exact UInt64.zero_add _
  · rw [hcounters, ← List.length_flatten]
    exact UInt64.zero_add _
  · rw [hcounters]
    show 0 + UInt64.ofNat lists.flatten.length = 0 + _ + (0 + _) + (0 + _)
    rw [Counters.length_eq_countKind lists.flatten, UInt64.ofNat_add, UInt64.ofNat_add]
    simp only [UInt64.zero_add]
    rfl
  · rw [hcounters, Counters.ofKind_plus]
    cases kind with
    | bTree => exact UInt64.zero_add _
    | hash => exact UInt64.zero_add _
    | bitmap => exact UInt64.zero_add _
  · rw [hcounters]
    exact UInt64.zero_add _

end Analyzer

end IndexAdvisor.Analysis
