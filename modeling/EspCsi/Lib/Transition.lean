import Mathlib.Data.List.Infix

/-!
# Runs of a deterministic machine

A machine is a step function from a state and an event to a state. `Always` speaks of the states a
run goes through and `Along` of its steps, each taken in the state it is taken from.
-/

namespace Transition

variable {σ ε : Type*} {step : σ → ε → σ}

def run (step : σ → ε → σ) (s : σ) (es : List ε) : σ := es.foldl step s

/-- `Q` holds in every state of the run, the first and the last included. -/
def Always (step : σ → ε → σ) (Q : σ → Prop) (s : σ) (es : List ε) : Prop :=
  ∀ pre, pre <+: es → Q (run step s pre)

/-- `P` holds of every step of the run. -/
def Along (step : σ → ε → σ) (P : σ → ε → Prop) (s : σ) (es : List ε) : Prop :=
  ∀ pre e, pre ++ [e] <+: es → P (run step s pre) e

@[simp] theorem run_nil (s : σ) : run step s [] = s := rfl

@[simp] theorem run_cons (s : σ) (e : ε) (es : List ε) :
    run step s (e :: es) = run step (step s e) es := rfl

theorem run_append (s : σ) (es fs : List ε) :
    run step s (es ++ fs) = run step (run step s es) fs := by
  simp [run]

theorem run_concat (s : σ) (es : List ε) (e : ε) :
    run step s (es ++ [e]) = step (run step s es) e := by
  simp [run]

theorem run_flatten_replicate (s : σ) (n : ℕ) (round : List ε) :
    run step s (List.replicate n round).flatten = (fun s => run step s round)^[n] s := by
  induction n generalizing s with
  | zero => rfl
  | succ n ih =>
    rw [List.replicate_succ, List.flatten_cons, run_append, ih, Function.iterate_succ_apply]

@[simp] theorem always_nil {Q : σ → Prop} {s : σ} : Always step Q s [] ↔ Q s := by
  simp [Always]

theorem always_cons {Q : σ → Prop} {s : σ} {e : ε} {es : List ε} :
    Always step Q s (e :: es) ↔ Q s ∧ Always step Q (step s e) es := by
  constructor
  · intro h
    exact ⟨h [] List.nil_prefix, fun pre hpre => h (e :: pre) (List.cons_prefix_cons.mpr ⟨rfl, hpre⟩)⟩
  · rintro ⟨hs, h⟩ pre hpre
    cases pre with
    | nil => exact hs
    | cons e' pre =>
      obtain ⟨rfl, hrest⟩ := List.cons_prefix_cons.mp hpre
      exact h pre hrest

theorem always_concat {Q : σ → Prop} {s : σ} {es : List ε} {e : ε} :
    Always step Q s (es ++ [e]) ↔ Always step Q s es ∧ Q (run step s (es ++ [e])) := by
  constructor
  · intro h
    exact ⟨fun pre hpre => h pre (hpre.trans (List.prefix_append es [e])), h _ List.prefix_rfl⟩
  · rintro ⟨h, hlast⟩ pre hpre
    rcases List.prefix_concat_iff.mp hpre with rfl | hpre
    · exact hlast
    · exact h pre hpre

@[simp] theorem along_nil {P : σ → ε → Prop} {s : σ} : Along step P s [] := by
  intro pre e h
  simp at h

theorem along_cons {P : σ → ε → Prop} {s : σ} {e : ε} {es : List ε} :
    Along step P s (e :: es) ↔ P s e ∧ Along step P (step s e) es := by
  constructor
  · intro h
    refine ⟨h [] e (List.cons_prefix_cons.mpr ⟨rfl, List.nil_prefix⟩), fun pre e' hpre => ?_⟩
    exact h (e :: pre) e' (List.cons_prefix_cons.mpr ⟨rfl, hpre⟩)
  · rintro ⟨hs, h⟩ pre e' hpre
    cases pre with
    | nil =>
      obtain ⟨rfl, -⟩ := List.cons_prefix_cons.mp hpre
      exact hs
    | cons e'' pre =>
      obtain ⟨rfl, hrest⟩ := List.cons_prefix_cons.mp hpre
      exact h pre e' hrest

instance decidableAlong {P : σ → ε → Prop} [∀ s e, Decidable (P s e)] :
    (s : σ) → (es : List ε) → Decidable (Along step P s es)
  | _, [] => isTrue along_nil
  | s, e :: es =>
    have : Decidable (Along step P (step s e) es) := decidableAlong (step s e) es
    decidable_of_iff _ along_cons.symm

theorem along_concat {P : σ → ε → Prop} {s : σ} {es : List ε} {e : ε} :
    Along step P s (es ++ [e]) ↔ Along step P s es ∧ P (run step s es) e := by
  constructor
  · intro h
    exact ⟨fun pre e' hpre => h pre e' (hpre.trans (List.prefix_append es [e])),
      h es e List.prefix_rfl⟩
  · rintro ⟨h, he⟩ pre e' hpre
    rcases List.prefix_concat_iff.mp hpre with heq | hpre
    · obtain ⟨rfl, hlast⟩ := List.append_inj' heq rfl
      obtain rfl : e' = e := by simpa using hlast
      exact he
    · exact h pre e' hpre

theorem Along.mono {P P' : σ → ε → Prop} {s : σ} {es : List ε} (h : Along step P s es)
    (hP : ∀ s e, P s e → P' s e) : Along step P' s es :=
  fun pre e hpre => hP _ _ (h pre e hpre)

/-- An invariant of every step that satisfies `P` is one of every run that does. -/
theorem Along.always {P : σ → ε → Prop} {Q : σ → Prop} {s : σ} {es : List ε}
    (h : Along step P s es) (hs : Q s) (hstep : ∀ s e, Q s → P s e → Q (step s e)) :
    Always step Q s es := by
  induction es generalizing s with
  | nil => exact always_nil.mpr hs
  | cons e es ih =>
    obtain ⟨he, hes⟩ := along_cons.mp h
    exact always_cons.mpr ⟨hs, ih hes (hstep s e hs he)⟩

theorem always_of_step {Q : σ → Prop} {s : σ} {es : List ε} (hs : Q s)
    (hstep : ∀ s e, Q s → Q (step s e)) : Always step Q s es :=
  Along.always (P := fun _ _ => True) (fun _ _ _ => trivial) hs fun s e hq _ => hstep s e hq

theorem Always.last {Q : σ → Prop} {s : σ} {es : List ε} (h : Always step Q s es) :
    Q (run step s es) :=
  h es (List.prefix_refl es)

/-- A property that no step restores held throughout when it holds at the end. -/
theorem always_of_last {Q I : σ → Prop} {s : σ} {es : List ε} (hs : I s)
    (hkeep : ∀ s e, I s → I (step s e)) (hback : ∀ s e, I s → Q (step s e) → Q s)
    (h : Q (run step s es)) : Always step Q s es := by
  induction es generalizing s with
  | nil => exact always_nil.mpr h
  | cons e es ih =>
    have htail : Always step Q (step s e) es := ih (hkeep s e hs) h
    exact always_cons.mpr ⟨hback s e hs (htail [] List.nil_prefix), htail⟩

/-- A property that each step of the class `H` keeps exactly under the condition `C` holds
throughout a run of that class exactly when every step meets the condition. `I` is what the
step rule may assume besides. -/
theorem always_iff_along {Q I : σ → Prop} {H C : σ → ε → Prop} {s : σ} {es : List ε}
    (hH : Along step H s es) (hInv : I s) (hQ : Q s)
    (hiff : ∀ s e, I s → Q s → H s e → (Q (step s e) ↔ C s e))
    (hkeep : ∀ s e, I s → Q s → H s e → C s e → I (step s e)) :
    Always step Q s es ↔ Along step C s es := by
  induction es generalizing s with
  | nil => simp [hQ]
  | cons e es ih =>
    obtain ⟨he, hes⟩ := along_cons.mp hH
    rw [always_cons, along_cons]
    constructor
    · rintro ⟨-, h⟩
      have hstep : Q (step s e) := h [] List.nil_prefix
      have hC := (hiff s e hInv hQ he).mp hstep
      exact ⟨hC, (ih hes (hkeep s e hInv hQ he hC) hstep).mp h⟩
    · rintro ⟨hC, h⟩
      have hstep := (hiff s e hInv hQ he).mpr hC
      exact ⟨hQ, (ih hes (hkeep s e hInv hQ he hC) hstep).mpr h⟩

/-! ## Projections -/

theorem run_map {τ : Type*} {step' : τ → ε → τ} {f : σ → τ}
    (h : ∀ s e, f (step s e) = step' (f s) e) (s : σ) (es : List ε) :
    f (run step s es) = run step' (f s) es := by
  induction es generalizing s with
  | nil => rfl
  | cons e es ih => rw [run_cons, run_cons, ih, h]

theorem run_filterMap {τ δ : Type*} {step' : τ → δ → τ} {f : σ → τ} {g : ε → Option δ}
    (h : ∀ s e, f (step s e) = (g e).elim (f s) (step' (f s))) (s : σ) (es : List ε) :
    f (run step s es) = run step' (f s) (es.filterMap g) := by
  induction es generalizing s with
  | nil => rfl
  | cons e es ih =>
    rw [run_cons, ih, h, List.filterMap_cons]
    cases g e <;> rfl

/-! ## What the steps put out -/

/-- What each step of a run puts out, in order. -/
def gather {α : Type*} (step : σ → ε → σ) (g : σ → ε → List α) : σ → List ε → List α
  | _, [] => []
  | s, e :: es => g s e ++ gather step g (step s e) es

theorem gather_filterMap {τ δ α : Type*} {step' : τ → δ → τ} {f : σ → τ} {g : ε → Option δ}
    {put : τ → δ → List α} (h : ∀ s e, f (step s e) = (g e).elim (f s) (step' (f s))) (s : σ)
    (es : List ε) :
    gather step (fun s e => (g e).elim [] (put (f s))) s es =
      gather step' put (f s) (es.filterMap g) := by
  induction es generalizing s with
  | nil => rfl
  | cons e es ih =>
    rw [gather, ih, h, List.filterMap_cons]
    cases g e <;> rfl

/-- A list that each step extends by what it puts out. -/
theorem run_eq_gather {α : Type*} {g : σ → ε → List α} {f : σ → List α}
    (h : ∀ s e, f (step s e) = f s ++ g s e) (s : σ) (es : List ε) :
    f (run step s es) = f s ++ gather step g s es := by
  induction es generalizing s with
  | nil => exact (List.append_nil _).symm
  | cons e es ih => rw [run_cons, ih, h, gather, List.append_assoc]

/-- States that look alike, and go on to, put out the same. -/
theorem gather_congr {α : Type*} {R : σ → σ → Prop} {g : σ → ε → List α}
    (hstep : ∀ s s' e, R s s' → R (step s e) (step s' e)) (hput : ∀ s s' e, R s s' → g s e = g s' e)
    {s s' : σ} (h : R s s') (es : List ε) :
    gather step g s es = gather step g s' es ∧ R (run step s es) (run step s' es) := by
  induction es generalizing s s' with
  | nil => exact ⟨rfl, h⟩
  | cons e es ih =>
    obtain ⟨hgather, hend⟩ := ih (hstep s s' e h)
    exact ⟨by rw [gather, gather, hput s s' e h, hgather], hend⟩

/-! ## Flags -/

theorem concat_eq_split {α : Type*} {xs pre post : List α} {x y : α}
    (h : xs ++ [x] = pre ++ y :: post) :
    (pre = xs ∧ y = x ∧ post = []) ∨ ∃ post', post = post' ++ [x] ∧ xs = pre ++ y :: post' := by
  rcases List.eq_nil_or_concat post with rfl | ⟨post', z, rfl⟩
  · obtain ⟨rfl, hlast⟩ := List.append_inj' h rfl
    obtain rfl : x = y := by simpa using hlast
    exact .inl ⟨rfl, rfl, rfl⟩
  · have hsplit : xs ++ [x] = (pre ++ y :: post') ++ [z] := by simpa using h
    obtain ⟨rfl, hlast⟩ := List.append_inj' hsplit rfl
    obtain rfl : x = z := by simpa using hlast
    exact .inr ⟨post', by simp, rfl⟩

/-- Some step of the run set the flag, and none after it cleared it. -/
def Since (step : σ → ε → σ) (sets clears : σ → ε → Prop) (s : σ) (es : List ε) : Prop :=
  ∃ pre e post, es = pre ++ e :: post ∧ sets (run step s pre) e ∧
    Along step (fun s e => ¬ clears s e) (run step s (pre ++ [e])) post

theorem since_concat {sets clears : σ → ε → Prop} {s : σ} {es : List ε} {e : ε} :
    Since step sets clears s (es ++ [e]) ↔
      sets (run step s es) e ∨ Since step sets clears s es ∧ ¬ clears (run step s es) e := by
  constructor
  · rintro ⟨pre, e', post, hes, hset, hkeep⟩
    rcases concat_eq_split hes with ⟨rfl, rfl, rfl⟩ | ⟨post, rfl, rfl⟩
    · exact .inl hset
    · obtain ⟨hpost, hclear⟩ := along_concat.mp hkeep
      rw [← run_append, List.append_assoc, List.singleton_append] at hclear
      exact .inr ⟨⟨pre, e', post, rfl, hset, hpost⟩, hclear⟩
  · rintro (hset | ⟨⟨pre, e', post, rfl, hset, hpost⟩, hclear⟩)
    · exact ⟨es, e, [], rfl, hset, along_nil⟩
    · refine ⟨pre, e', post ++ [e], by simp, hset, along_concat.mpr ⟨hpost, ?_⟩⟩
      rwa [← run_append, List.append_assoc, List.singleton_append]

/-- A flag down at the start is up after a run exactly when some step set it and none after it
cleared it. -/
theorem flag_iff_since {F : σ → Prop} {sets clears : σ → ε → Prop} {s : σ} (hs : ¬ F s)
    (hstep : ∀ s e, F (step s e) ↔ sets s e ∨ F s ∧ ¬ clears s e) (es : List ε) :
    F (run step s es) ↔ Since step sets clears s es := by
  induction es using List.reverseRecOn with
  | nil => simp [Since, hs]
  | append_singleton es e ih => rw [run_concat, hstep, since_concat, ih]

end Transition
