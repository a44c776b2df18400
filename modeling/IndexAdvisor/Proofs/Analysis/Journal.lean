import IndexAdvisor.Analysis.Analyzer

/-!
# The journal of an analyzer

An analyzer writes its journal and never reads it: what it finds out, draws and counts is the same
whatever stands there already.
-/

set_option autoImplicit false

namespace IndexAdvisor.Analysis.Analyzer

variable {σ α β : Type}

/-- The analyzers differ in their journals only. -/
def SameFigures (a b : Analyzer σ) : Prop := a.source = b.source ∧ a.counters = b.counters

/-- The journal plays no part in what is done, nor in the figures behind it. -/
def Blind (x : StateM (Analyzer σ) α) : Prop :=
  ∀ a b, SameFigures a b → (x a).1 = (x b).1 ∧ SameFigures (x a).2 (x b).2

theorem blind_pure (v : α) : Blind (pure v : StateM (Analyzer σ) α) := fun _ _ h => ⟨rfl, h⟩

theorem Blind.bind {x : StateM (Analyzer σ) α} {f : α → StateM (Analyzer σ) β} (hx : Blind x)
    (hf : ∀ v, Blind (f v)) : Blind (x >>= f) := by
  intro a b h
  obtain ⟨hv, hsame⟩ := hx a b h
  show (f (x a).1 (x a).2).1 = (f (x b).1 (x b).2).1 ∧
    SameFigures (f (x a).1 (x a).2).2 (f (x b).1 (x b).2).2
  rw [hv]
  exact hf _ _ _ hsame

theorem blind_drawn (draw : StateM σ α) : Blind (drawn draw) := by
  rintro a b ⟨hsource, hcounters⟩
  rw [drawn, drawn, hsource]
  exact ⟨rfl, rfl, hcounters⟩

theorem blind_count (f : Counters → Counters) : Blind (count (σ := σ) f) := fun _ _ h =>
  ⟨rfl, h.1, congrArg f h.2⟩

theorem blind_log (e : Log.Entry) : Blind (log (σ := σ) e) := fun _ _ h => ⟨rfl, h⟩

variable [Random.Source σ]

theorem blind_analyze (sql : String) : Blind (analyze (σ := σ) sql) :=
  (blind_drawn _).bind fun _ => (blind_count _).bind fun _ => (blind_log _).bind fun _ =>
    blind_pure _

theorem blind_analyzeAt (position : Nat) (q : LoggedQuery) :
    Blind (analyzeAt (σ := σ) position q) :=
  (blind_analyze q.text).bind fun _ => (blind_drawn _).bind fun _ => blind_pure _

theorem blind_analyzeFrom (position : Nat) (batch : Batch) (qs : List LoggedQuery) :
    Blind (analyzeFrom (σ := σ) position batch qs) := by
  induction qs generalizing position batch with
  | nil => exact blind_pure batch
  | cons q qs ih => exact (blind_analyzeAt position q).bind fun bundle => ih _ (batch.put bundle)

/-- **The journal plays no part in an analysis.** -/
theorem blind_analyzeBatch (qs : List LoggedQuery) : Blind (analyzeBatch (σ := σ) qs) :=
  (blind_analyzeFrom 0 .empty qs).bind fun _ => (blind_count _).bind fun _ =>
    (blind_log _).bind fun _ => blind_pure _

end IndexAdvisor.Analysis.Analyzer
