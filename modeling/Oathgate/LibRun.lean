import Mathlib.Data.List.Induction
/-!
# LibRun — runs of a labelled step relation

A run is a list of labels and the states it passes through.  `Run.invariant` carries an invariant of the labels so far
and the state along every run, `Run.split` cuts a run in two, `Run.project` leaves of it what one side sees, and
`Run.linearize` turns a run of concurrent calls into a sequence of calls that leaves the same abstract state.
-/
namespace Lib

variable {S L A : Type}

/-- **The runs of `step` from a state**, the last step outermost. -/
inductive Run (step : S → L → S → Prop) (s : S) : List L → S → Prop where
  | nil : Run step s [] s
  | snoc {ls : List L} {t u : S} {l : L} : Run step s ls t → step t l u → Run step s (ls ++ [l]) u

namespace Run

variable {step : S → L → S → Prop} {s t u : S} {ls ms : List L}

theorem single {l : L} (h : step s l t) : Run step s [l] t := snoc nil h

theorem eq_of_nil (h : Run step s [] t) : t = s := by
  generalize hn : ([] : List L) = ns at h
  cases h with
  | nil => rfl
  | snoc => simp at hn

theorem unsnoc {l : L} (h : Run step s (ls ++ [l]) u) : ∃ t, Run step s ls t ∧ step t l u := by
  generalize hn : ls ++ [l] = ns at h
  cases h with
  | nil => simp at hn
  | @snoc ks v _ k hr hs =>
    obtain ⟨hks, hk⟩ := List.append_inj' hn rfl
    simp only [List.cons.injEq, and_true] at hk
    subst hks hk
    exact ⟨v, hr, hs⟩

theorem append (h₁ : Run step s ls t) (h₂ : Run step t ms u) : Run step s (ls ++ ms) u := by
  induction h₂ with
  | nil => rwa [List.append_nil]
  | snoc _ hstep ih => rw [← List.append_assoc]; exact snoc ih hstep

theorem cons {l : L} (h : step s l t) (h' : Run step t ls u) : Run step s (l :: ls) u := (single h).append h'

/-- **An invariant of the labels and the state** that holds at the start and that every step keeps holds along every
run. -/
theorem invariant {I : List L → S → Prop} (h0 : I [] s)
    (hstep : ∀ ls t l u, Run step s ls t → I ls t → step t l u → I (ls ++ [l]) u) (h : Run step s ls t) : I ls t := by
  induction h with
  | nil => exact h0
  | snoc hr hs ih => exact hstep _ _ _ _ hr ih hs

theorem split (ls : List L) : ∀ {ms : List L} {u : S}, Run step s (ls ++ ms) u →
    ∃ t, Run step s ls t ∧ Run step t ms u := by
  intro ms
  induction ms using List.reverseRecOn with
  | nil => intro u h; exact ⟨u, by rwa [List.append_nil] at h, nil⟩
  | append_singleton ms l ih =>
    intro u h
    rw [← List.append_assoc] at h
    obtain ⟨v, hr, hs⟩ := h.unsnoc
    obtain ⟨t, h₁, h₂⟩ := ih hr
    exact ⟨t, h₁, snoc h₂ hs⟩

theorem uncons {l : L} (h : Run step s (l :: ls) u) : ∃ t, step s l t ∧ Run step t ls u := by
  obtain ⟨t, hfirst, hrest⟩ := split [l] h
  have hsnoc : Run step s ([] ++ [l]) t := hfirst
  obtain ⟨t₀, hnil, hstep⟩ := hsnoc.unsnoc
  rw [hnil.eq_of_nil] at hstep
  exact ⟨t, hstep, hrest⟩

theorem mono {step' : S → L → S → Prop} (hsub : ∀ s l t, step s l t → step' s l t) (h : Run step s ls t) :
    Run step' s ls t := by
  induction h with
  | nil => exact nil
  | snoc _ hs ih => exact snoc ih (hsub _ _ _ hs)

theorem deterministic (hdet : ∀ s l t t', step s l t → step s l t' → t = t') :
    ∀ {ls : List L} {t t' : S}, Run step s ls t → Run step s ls t' → t = t' := by
  intro ls
  induction ls using List.reverseRecOn with
  | nil => intro t t' h h'; rw [h.eq_of_nil, h'.eq_of_nil]
  | append_singleton ls l ih =>
    intro t t' h h'
    obtain ⟨u, h₁, h₂⟩ := h.unsnoc
    obtain ⟨u', h₁', h₂'⟩ := h'.unsnoc
    have hsame := ih h₁ h₁'
    subst hsame
    exact hdet u l t t' h₂ h₂'

/-- **A run seen from one side**: where every step is one of `step'` on what is seen of the state, or has no part in it,
a run is a run of `step'`. -/
theorem project {V M : Type} {step' : V → M → V → Prop} (view : S → V) (seen : L → Option M)
    (hstep : ∀ s l t, step s l t →
      (∃ m, seen l = some m ∧ step' (view s) m (view t)) ∨ (seen l = none ∧ view t = view s))
    (h : Run step s ls t) : Run step' (view s) (ls.filterMap seen) (view t) := by
  induction h with
  | nil => exact nil
  | @snoc ls t u l _ hs ih =>
    rw [List.filterMap_append]
    rcases hstep t l u hs with ⟨m, hm, hs'⟩ | ⟨hnone, hsame⟩
    · have hlast : [l].filterMap seen = [m] := by simp [hm]
      rw [hlast]
      exact ih.snoc hs'
    · have hlast : [l].filterMap seen = [] := by simp [hnone]
      rw [hlast, List.append_nil, hsame]
      exact ih

/-- **A property that a step can only lose** holds at the end of a run exactly when no step lost it. -/
theorem iff_all {I : S → Prop} {C : S → L → Prop} (hdet : ∀ s l t t', step s l t → step s l t' → t = t') (h0 : I s)
    (hstep : ∀ ls t l u, Run step s ls t → step t l u → (I u ↔ I t ∧ C t l)) (h : Run step s ls t) :
    I t ↔ ∀ ls₁ l ls₂ v, ls = ls₁ ++ l :: ls₂ → Run step s ls₁ v → C v l := by
  induction h with
  | nil =>
    refine iff_of_true h0 ?_
    intro ls₁ l ls₂ v hnil
    simp at hnil
  | @snoc ls t u l hr hs ih =>
    rw [hstep ls t l u hr hs, ih]
    constructor
    · rintro ⟨hall, hlast⟩ ls₁ k ls₂ v hsplit hv
      rcases List.eq_nil_or_concat ls₂ with rfl | ⟨ls₂', x, rfl⟩
      · obtain ⟨rfl, hk⟩ := List.append_inj' hsplit rfl
        simp only [List.cons.injEq, and_true] at hk
        rw [hr.deterministic hdet hv] at hlast
        exact hk ▸ hlast
      · rw [List.concat_eq_append, ← List.cons_append, ← List.append_assoc] at hsplit
        exact hall ls₁ k ls₂' v (List.append_inj' hsplit rfl).1 hv
    · intro hall
      exact ⟨fun ls₁ k ls₂ v hsplit hv => hall ls₁ k (ls₂ ++ [l]) v (by rw [hsplit]; simp) hv,
        hall ls l [] t rfl hr⟩

/-! ## Linearization -/

variable {T C : Type} [DecidableEq T]

def callsOf (p : T) (cs : List (T × C)) : List C := (cs.filter (fun c => decide (c.1 = p))).map Prod.snd

@[simp] theorem callsOf_nil (p : T) : callsOf p ([] : List (T × C)) = [] := rfl

@[simp] theorem callsOf_append (p : T) (cs ds : List (T × C)) :
    callsOf p (cs ++ ds) = callsOf p cs ++ callsOf p ds := by
  simp [callsOf]

theorem callsOf_map (p q : T) (cs : List C) : callsOf p (cs.map fun c => (q, c)) = if q = p then cs else [] := by
  by_cases h : q = p <;> simp [callsOf, List.filter_map, Function.comp_def, h]

theorem callsOf_singleton (p q : T) (c : C) : callsOf p [(q, c)] = if q = p then [c] else [] := callsOf_map p q [c]

theorem mem_callsOf {p : T} {c : C} {cs : List (T × C)} : c ∈ callsOf p cs ↔ (p, c) ∈ cs := by
  simp [callsOf]

/-- **Linearization.**  Each step takes in the calls of its label and lets some calls take effect (`done`), on the
abstract state one after another; for every thread, what was pending and came in is what took effect and is pending
now.  Then at the end of a run the abstract state is that of a sequence of calls which, for every thread, is the calls
it made without those still pending. -/
theorem linearize (calls : L → List (T × C)) (pending : S → T → List C) (abs : S → A) (seq : A → T × C → A)
    (h0 : ∀ p, pending s p = [])
    (hstep : ∀ t l u, step t l u → ∃ done, abs u = done.foldl seq (abs t) ∧
      ∀ p, pending t p ++ callsOf p (calls l) = callsOf p done ++ pending u p)
    (h : Run step s ls t) :
    ∃ lin, abs t = lin.foldl seq (abs s) ∧ ∀ p, callsOf p (ls.flatMap calls) = callsOf p lin ++ pending t p := by
  refine invariant (I := fun ls t => ∃ lin, abs t = lin.foldl seq (abs s) ∧
    ∀ p, callsOf p (ls.flatMap calls) = callsOf p lin ++ pending t p) ⟨[], rfl, by simp [h0]⟩ ?_ h
  rintro ls t l u - ⟨lin, habs, hcalls⟩ hs
  obtain ⟨done, hdone, hpending⟩ := hstep t l u hs
  refine ⟨lin ++ done, by rw [hdone, habs, List.foldl_append], ?_⟩
  intro p
  rw [List.flatMap_append, callsOf_append, hcalls p, List.flatMap_singleton, List.append_assoc, hpending p,
    callsOf_append, List.append_assoc]

end Run
end Lib
