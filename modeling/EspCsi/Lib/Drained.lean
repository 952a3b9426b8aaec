import EspCsi.Lib.Transition
import Mathlib.Data.Sum.Basic

/-!
# A server of two queues

One server for two bounded queues. It prefers the first, and after each item of the first it empties
the second before it looks at the first again. What waits in the second queue is overtaken once at
most; what waits in the first may wait for ever.
-/

namespace Drained

open Transition

variable {α β : Type*}

/-- What waits in either queue, whether the second is being emptied, and what was served, oldest
first. -/
structure Server (α β : Type*) where
  first : List α
  second : List β
  draining : Bool
  served : List (α ⊕ β)

inductive Event (α β : Type*) where
  | offer (a : α)
  | post (b : β)
  | turn

namespace Server

def fresh : Server α β := ⟨[], [], false, []⟩

def turn (s : Server α β) : Server α β :=
  if s.draining then
    match s.second with
    | b :: second => { s with second, served := s.served ++ [.inr b] }
    | [] => { s with draining := false }
  else
    match s.first, s.second with
    | a :: first, _ => { s with first, draining := true, served := s.served ++ [.inl a] }
    | [], b :: second => { s with second, served := s.served ++ [.inr b] }
    | [], [] => s

/-- A full queue takes nothing. -/
def step (m n : ℕ) (s : Server α β) : Event α β → Server α β
  | .offer a => if s.first.length < m then { s with first := s.first ++ [a] } else s
  | .post b => if s.second.length < n then { s with second := s.second ++ [b] } else s
  | .turn => s.turn

def takenFirst (m : ℕ) (s : Server α β) : Event α β → List α
  | .offer a => if s.first.length < m then [a] else []
  | _ => []

def takenSecond (n : ℕ) (s : Server α β) : Event α β → List β
  | .post b => if s.second.length < n then [b] else []
  | _ => []

end Server

def lefts (served : List (α ⊕ β)) : List α := served.filterMap Sum.getLeft?

def rights (served : List (α ⊕ β)) : List β := served.filterMap Sum.getRight?

@[simp] theorem lefts_append (u v : List (α ⊕ β)) : lefts (u ++ v) = lefts u ++ lefts v :=
  List.filterMap_append

@[simp] theorem rights_append (u v : List (α ⊕ β)) : rights (u ++ v) = rights u ++ rights v :=
  List.filterMap_append

@[simp] theorem lefts_inl (a : α) : lefts [(.inl a : α ⊕ β)] = [a] := rfl

@[simp] theorem lefts_inr (b : β) : lefts [(.inr b : α ⊕ β)] = [] := rfl

@[simp] theorem rights_inl (a : α) : rights [(.inl a : α ⊕ β)] = [] := rfl

@[simp] theorem rights_inr (b : β) : rights [(.inr b : α ⊕ β)] = [b] := rfl

/-! ## What a turn can do -/

inductive Turns (s : Server α β) : List (α ⊕ β) → Server α β → Prop
  | drain (b : β) (second : List β) (h : s.second = b :: second)
      (hempty : s.draining = true ∨ s.first = []) :
      Turns s [.inr b] { s with second, served := s.served ++ [.inr b] }
  | drained (hdrain : s.draining = true) (h : s.second = []) : Turns s [] { s with draining := false }
  | prefer (a : α) (first : List α) (hdrain : s.draining = false) (h : s.first = a :: first) :
      Turns s [.inl a] { s with first, draining := true, served := s.served ++ [.inl a] }
  | idle (hdrain : s.draining = false) (hfirst : s.first = []) (hsecond : s.second = []) :
      Turns s [] s

theorem exists_turns (s : Server α β) : ∃ w, Turns s w s.turn := by
  obtain ⟨first, second, draining, served⟩ := s
  cases draining with
  | true =>
    cases second with
    | nil => exact ⟨_, .drained rfl rfl⟩
    | cons b second => exact ⟨_, .drain b second rfl (.inl rfl)⟩
  | false =>
    cases first with
    | cons a first => exact ⟨_, .prefer a first rfl rfl⟩
    | nil =>
      cases second with
      | nil => exact ⟨_, .idle rfl rfl rfl⟩
      | cons b second => exact ⟨_, .drain b second rfl (.inr rfl)⟩

namespace Turns

variable {s t : Server α β} {w : List (α ⊕ β)}

theorem served (h : Turns s w t) : t.served = s.served ++ w := by
  cases h <;> simp

theorem first (h : Turns s w t) : lefts w ++ t.first = s.first := by
  cases h <;> simp_all [lefts]

theorem second (h : Turns s w t) : rights w ++ t.second = s.second := by
  cases h <;> simp_all [rights]

end Turns

/-! ## First in, first out -/

namespace Server

variable (m n : ℕ) (s : Server α β) (es : List (Event α β))

theorem exists_step (e : Event α β) :
    ∃ w, (s.step m n e).served = s.served ++ w ∧
      lefts w ++ (s.step m n e).first = s.first ++ s.takenFirst m e ∧
      rights w ++ (s.step m n e).second = s.second ++ s.takenSecond n e := by
  cases e with
  | offer a =>
    refine ⟨[], ?_, ?_, ?_⟩ <;> simp only [step, takenFirst, takenSecond] <;> split_ifs <;>
      simp [lefts, rights]
  | post b =>
    refine ⟨[], ?_, ?_, ?_⟩ <;> simp only [step, takenFirst, takenSecond] <;> split_ifs <;>
      simp [lefts, rights]
  | turn =>
    obtain ⟨w, hw⟩ := exists_turns s
    exact ⟨w, hw.served, hw.first.trans (List.append_nil _).symm,
      hw.second.trans (List.append_nil _).symm⟩

/-- What was served of the first queue and what waits in it are what it has taken, in order. -/
theorem run_first :
    lefts (run (step m n) s es).served ++ (run (step m n) s es).first =
      lefts s.served ++ s.first ++ gather (step m n) (takenFirst m) s es := by
  refine run_eq_gather (f := fun s : Server α β => lefts s.served ++ s.first) ?_ s es
  intro s e
  obtain ⟨w, hserved, hfirst, -⟩ := s.exists_step m n e
  rw [hserved, lefts_append, List.append_assoc, hfirst, List.append_assoc]

theorem run_second :
    rights (run (step m n) s es).served ++ (run (step m n) s es).second =
      rights s.served ++ s.second ++ gather (step m n) (takenSecond n) s es := by
  refine run_eq_gather (f := fun s : Server α β => rights s.served ++ s.second) ?_ s es
  intro s e
  obtain ⟨w, hserved, -, hsecond⟩ := s.exists_step m n e
  rw [hserved, rights_append, List.append_assoc, hsecond, List.append_assoc]

/-! ## Waiting -/

theorem step_offer (a : α) :
    (s.step m n (.offer a)).served = s.served ∧ (s.step m n (.offer a)).second = s.second ∧
      (s.step m n (.offer a)).draining = s.draining := by
  simp only [step]
  split_ifs <;> exact ⟨rfl, rfl, rfl⟩

theorem step_post (b : β) :
    (s.step m n (.post b)).served = s.served ∧ s.second <+: (s.step m n (.post b)).second ∧
      (s.step m n (.post b)).draining = s.draining := by
  simp only [step]
  split_ifs
  · exact ⟨rfl, List.prefix_append _ _, rfl⟩
  · exact ⟨rfl, List.prefix_rfl, rfl⟩

/-- Since `s`, the server has served `w`: either all that waited in the second queue of `s` is served,
or what is left of it is at the head of the queue and one item of the first was served at most. -/
def Overtaken (t : Server α β) (w : List (α ⊕ β)) : Prop :=
  s.second <+: rights w ∨
    ∃ rest, rights w ++ rest = s.second ∧ rest ≠ [] ∧ rest <+: t.second ∧
      (lefts w = [] ∨ (lefts w).length = 1 ∧ t.draining = true)

variable {s} {t t' : Server α β} {w w' : List (α ⊕ β)}

theorem Overtaken.turns (h : s.Overtaken t w) (hturns : Turns t w' t') :
    s.Overtaken t' (w ++ w') := by
  rcases h with hdone | ⟨rest, hw, hrest, hwait, hover⟩
  · left
    rw [rights_append]
    exact hdone.trans (List.prefix_append _ _)
  cases hturns with
  | drain b second hsecond =>
    -- what is served is the head of what is left
    cases rest with
    | nil => exact absurd rfl hrest
    | cons b' rest =>
      obtain ⟨rfl, hwait⟩ := List.cons_prefix_cons.mp (hsecond ▸ hwait)
      cases rest with
      | nil => exact .inl ⟨[], by simpa using hw.symm⟩
      | cons b'' rest =>
        exact .inr ⟨b'' :: rest, by simpa using hw, List.cons_ne_nil _ _, hwait, by simpa using hover⟩
  | drained hdrain hsecond => exact absurd (List.prefix_nil.mp (hsecond ▸ hwait)) hrest
  | prefer a first hdrain hfirst =>
    have hnone : lefts w = [] := hover.resolve_right fun hone => by simp [hdrain] at hone
    exact .inr ⟨rest, by simpa using hw, hrest, hwait, .inr ⟨by simp [hnone], rfl⟩⟩
  | idle => exact .inr ⟨rest, by simpa using hw, hrest, hwait, by simpa using hover⟩

theorem Overtaken.step (h : s.Overtaken t w) (e : Event α β) :
    ∃ w', (t.step m n e).served = t.served ++ w' ∧ s.Overtaken (t.step m n e) (w ++ w') := by
  cases e with
  | offer a =>
    obtain ⟨hserved, hsecond, hdraining⟩ := t.step_offer m n a
    refine ⟨[], by rw [hserved, List.append_nil], ?_⟩
    rw [List.append_nil, Overtaken, hsecond, hdraining]
    exact h
  | post b =>
    obtain ⟨hserved, hsecond, hdraining⟩ := t.step_post m n b
    refine ⟨[], by rw [hserved, List.append_nil], ?_⟩
    rw [List.append_nil, Overtaken, hdraining]
    exact h.imp_right fun ⟨rest, hw, hrest, hwait, hover⟩ =>
      ⟨rest, hw, hrest, hwait.trans hsecond, hover⟩
  | turn =>
    obtain ⟨w', hturns⟩ := exists_turns t
    exact ⟨w', hturns.served, h.turns hturns⟩

variable (s)

theorem overtaken_self : s.Overtaken s [] := by
  cases hsecond : s.second with
  | nil => exact .inl (hsecond ▸ List.nil_prefix)
  | cons b rest =>
    exact .inr ⟨s.second, rfl, hsecond ▸ List.cons_ne_nil b rest, List.prefix_rfl, .inl rfl⟩

theorem exists_run : ∃ w, (run (Server.step m n) s es).served = s.served ++ w ∧
    s.Overtaken (run (Server.step m n) s es) w := by
  induction es using List.reverseRecOn with
  | nil => exact ⟨[], (List.append_nil _).symm, s.overtaken_self⟩
  | append_singleton es e ih =>
    obtain ⟨w, hserved, hover⟩ := ih
    obtain ⟨w', hserved', hover'⟩ := hover.step m n e
    refine ⟨w ++ w', ?_, ?_⟩
    · rw [run_concat, hserved', hserved, List.append_assoc]
    · rw [run_concat]
      exact hover'

/-- Whatever waits in the second queue is served before the second item of the first that is served
from now on. -/
theorem second_waits_for_one : ∃ w, (run (Server.step m n) s es).served = s.served ++ w ∧
    ((lefts w).length ≤ 1 ∨ s.second <+: rights w) := by
  obtain ⟨w, hserved, hover⟩ := s.exists_run m n es
  refine ⟨w, hserved, ?_⟩
  rcases hover with hdone | ⟨rest, -, -, -, hnone | ⟨hone, -⟩⟩
  · exact .inr hdone
  · exact .inl (by simp [hnone])
  · exact .inl hone.le

end Server

end Drained
