import Mathlib.Data.Nat.Notation
import Mathlib.Tactic.SplitIfs

/-!
# A take-once token on a line

Producers build items in rounds; the first item built in a round takes that round's token. Each item
then goes from its producer to the outlet, through a queue and a channel or past them. What comes
out first in a round is the item with the token, as long as no item is handed past it and it is not
dropped.
-/

namespace TokenLine

/-- Items held by their producers, and those at each place of the line, oldest first. `pending` says
that the round's token is still to be taken. -/
structure Line (α : Type*) where
  round : ℕ
  pending : Bool
  held : List α
  queue : List α
  channel : List α
  out : List α

inductive Place where
  | queue
  | channel
  | out

inductive Label (α : Type*) where
  | idle
  | begin
  | build (x : α)
  | hand (k : Place) (x : α)
  | drop (x : α)

namespace Line

variable {α : Type*}

def put (l : Line α) (k : Place) (x : α) : Line α :=
  match k with
  | .queue => { l with queue := l.queue ++ [x] }
  | .channel => { l with channel := l.channel ++ [x] }
  | .out => { l with out := l.out ++ [x] }

/-- What is at a place or past it, in the order in which it comes out. -/
def ahead (l : Line α) : Place → List α
  | .out => l.out
  | .channel => l.out ++ l.channel
  | .queue => l.out ++ l.channel ++ l.queue

/-- What is not there yet. -/
def behind (l : Line α) : Place → List α
  | .out => l.held ++ l.queue ++ l.channel
  | .channel => l.held ++ l.queue
  | .queue => l.held

end Line

section Rounds

variable {α : Type*} (round : α → ℕ) (token : α → Bool)

/-- One step of the line. Items leave the queue and the channel from the front, and their producers
in any order. -/
inductive Moves : Line α → Label α → Line α → Prop
  | idle (l) : Moves l .idle l
  | begin (l) : Moves l .begin { l with round := l.round + 1, pending := true }
  | build (l x) : round x = l.round → token x = l.pending →
      Moves l (.build x) { l with held := l.held ++ [x], pending := false }
  | handHeld (l k x before after) : l.held = before ++ x :: after →
      Moves l (.hand k x) ({ l with held := before ++ after }.put k x)
  | logQueue (l x rest) : l.queue = x :: rest →
      Moves l (.hand .channel x) ({ l with queue := rest }.put .channel x)
  | outQueue (l x rest) : l.queue = x :: rest →
      Moves l (.hand .out x) ({ l with queue := rest }.put .out x)
  | outChannel (l x rest) : l.channel = x :: rest →
      Moves l (.hand .out x) ({ l with channel := rest }.put .out x)
  | dropHeld (l x before after) : l.held = before ++ x :: after →
      Moves l (.drop x) { l with held := before ++ after }
  | dropQueue (l x rest) : l.queue = x :: rest → Moves l (.drop x) { l with queue := rest }

/-- Nothing is handed past the token of its round, and no item with a token is dropped. -/
def Orderly (l : Line α) : Label α → Prop
  | .hand k x => token x = false → ∀ y ∈ l.behind k, round y = round x → token y = false
  | .drop x => token x = false
  | _ => True

instance (l : Line α) (lab : Label α) : Decidable (Orderly round token l lab) := by
  cases lab <;> unfold Orderly <;> infer_instance

/-- The first item of a round. -/
def first (r : ℕ) (xs : List α) : Option α := xs.find? fun x => round x == r

variable {round token}

theorem first_append (r : ℕ) (xs ys : List α) :
    first round r (xs ++ ys) = (first round r xs).or (first round r ys) :=
  List.find?_append

theorem first_cons (r : ℕ) (x : α) (xs : List α) :
    first round r (x :: xs) = if round x = r then some x else first round r xs := by
  by_cases h : round x = r <;> simp [first, h]

theorem first_eq_none {r : ℕ} {xs : List α} :
    first round r xs = none ↔ ∀ x ∈ xs, round x ≠ r := by
  simp [first]

theorem mem_of_first {r : ℕ} {xs : List α} {x : α} (h : first round r xs = some x) :
    x ∈ xs ∧ round x = r :=
  ⟨List.mem_of_find?_eq_some h, by simpa using List.find?_some h⟩

variable (round token)

/-- Of a round's items on the line the token is in front, or none is on the line and the token is
with a producer, or the round has no items and its token was not taken. -/
inductive Led (r : ℕ) (l : Line α) : Prop
  | leads (x : α) : first round r (l.ahead .queue) = some x → token x = true → Led r l
  | waits (x : α) : first round r (l.ahead .queue) = none → x ∈ l.held → round x = r →
      token x = true → Led r l
  | silent : first round r (l.ahead .queue) = none → first round r l.held = none →
      (l.round = r → l.pending = true) → Led r l

variable {round token}

/-! ## Steps -/

theorem ahead_eq (l : Line α) (k : Place) :
    ∃ rest, l.ahead .queue = l.ahead k ++ rest ∧ ∀ x ∈ rest, x ∈ l.behind k := by
  cases k with
  | queue => exact ⟨[], by simp, by simp⟩
  | channel => exact ⟨l.queue, rfl, fun x hx => by simp [Line.behind, hx]⟩
  | out =>
    refine ⟨l.channel ++ l.queue, by simp [Line.ahead], fun x hx => ?_⟩
    rcases List.mem_append.mp hx with hx | hx <;> simp [Line.behind, hx]

theorem first_ahead {l : Line α} {r : ℕ} {x : α} (h : first round r (l.ahead .queue) = some x)
    (k : Place) : first round r (l.ahead k) = some x ∨ x ∈ l.behind k := by
  obtain ⟨rest, hrest, hbehind⟩ := ahead_eq l k
  rw [hrest, first_append, Option.or_eq_some_iff] at h
  rcases h with h | ⟨-, h⟩
  · exact .inl h
  · exact .inr (hbehind x (mem_of_first h).1)

/-- At every place, the first item of a round to have got there has the round's token. -/
theorem Led.token_of_first {r : ℕ} {l : Line α} (h : Led round token r l) {k : Place} {x : α}
    (hx : first round r (l.ahead k) = some x) : token x = true := by
  obtain ⟨rest, hrest, -⟩ := ahead_eq l k
  have hahead : first round r (l.ahead .queue) = some x := by
    rw [hrest, first_append, hx, Option.some_or]
  cases h with
  | leads y hy htoken =>
    obtain rfl : y = x := Option.some_inj.mp (hy.symm.trans hahead)
    exact htoken
  | waits y hy => simp [hy] at hahead
  | silent hy => simp [hy] at hahead

theorem Moves.first_hand {l l' : Line α} {k : Place} {x : α}
    (h : Moves round token l (.hand k x) l') (r : ℕ) :
    first round r (l'.ahead .queue) =
      if round x = r then (first round r (l.ahead k)).or (some x)
      else first round r (l.ahead .queue) := by
  cases h with
  | handHeld _ _ before after hheld =>
    cases k <;> by_cases hr : round x = r <;> simp [Line.put, Line.ahead, first, hr]
  | logQueue _ rest hq | outQueue _ rest hq | outChannel _ rest hq =>
    by_cases hr : round x = r <;> simp [Line.put, Line.ahead, first_append, first_cons, hr, hq]

theorem Moves.mem_of_hand {l l' : Line α} {k : Place} {x : α}
    (h : Moves round token l (.hand k x) l') : x ∈ l.held ∨ x ∈ l.ahead .queue := by
  cases h with
  | handHeld _ _ before after hheld => exact .inl (by simp [hheld])
  | logQueue _ rest hq | outQueue _ rest hq | outChannel _ rest hq =>
    exact .inr (by simp [Line.ahead, hq])

theorem held_of_erase {held before after : List α} {x : α} (h : held = before ++ x :: after) :
    (∀ y ∈ held, y ≠ x → y ∈ before ++ after) ∧ ∀ y ∈ before ++ after, y ∈ held := by
  subst h
  constructor
  · intro y hy hne
    simpa [hne] using hy
  · intro y hy
    rcases List.mem_append.mp hy with hy | hy <;> simp [hy]

theorem Moves.held_of_hand {l l' : Line α} {k : Place} {x : α}
    (h : Moves round token l (.hand k x) l') :
    (∀ y ∈ l.held, y ≠ x → y ∈ l'.held) ∧ ∀ y ∈ l'.held, y ∈ l.held := by
  cases h with
  | handHeld _ _ before after hheld =>
    have hput : (Line.put { l with held := before ++ after } k x).held = before ++ after := by
      cases k <;> rfl
    rw [hput]
    exact held_of_erase hheld
  | logQueue | outQueue | outChannel => exact ⟨fun y hy _ => hy, fun y hy => hy⟩

theorem Moves.round_of_hand {l l' : Line α} {k : Place} {x : α}
    (h : Moves round token l (.hand k x) l') : l'.round = l.round ∧ l'.pending = l.pending := by
  cases h with
  | handHeld => cases k <;> exact ⟨rfl, rfl⟩
  | logQueue | outQueue | outChannel => exact ⟨rfl, rfl⟩

/-- Handing an item over keeps the token in front, unless it is handed past the token. -/
theorem Led.hand {r : ℕ} {l l' : Line α} {k : Place} {x : α} (h : Led round token r l)
    (hmove : Moves round token l (.hand k x) l') (horder : Orderly round token l (.hand k x)) :
    Led round token r l' := by
  have hfirst := hmove.first_hand r
  obtain ⟨hkept, hheld⟩ := hmove.held_of_hand
  obtain ⟨hround, hpending⟩ := hmove.round_of_hand
  by_cases hr : round x = r
  · rw [if_pos hr] at hfirst
    cases htoken : token x with
    | true =>
      cases hahead : first round r (l.ahead k) with
      | some y => exact .leads y (by rw [hfirst, hahead, Option.some_or]) (h.token_of_first hahead)
      | none => exact .leads x (by rw [hfirst, hahead, Option.none_or]) htoken
    | false =>
      -- the token is not behind, so it is ahead and stays in front
      have hpass (y : α) (hy : y ∈ l.behind k) (hyr : round y = r) : token y = false :=
        horder htoken y hy (hyr.trans hr.symm)
      cases h with
      | leads y hy hyt =>
        rcases first_ahead hy k with hahead | hbehind
        · exact .leads y (by rw [hfirst, hahead, Option.some_or]) hyt
        · simp [hpass y hbehind (mem_of_first hy).2] at hyt
      | waits y hnone hy hyr hyt =>
        have hbehind : y ∈ l.behind k := by cases k <;> simp [Line.behind, hy]
        simp [hpass y hbehind hyr] at hyt
      | silent hnone hnoneHeld hpend =>
        rcases hmove.mem_of_hand with hmem | hmem
        · exact absurd hr (first_eq_none.mp hnoneHeld x hmem)
        · exact absurd hr (first_eq_none.mp hnone x hmem)
  · rw [if_neg hr] at hfirst
    cases h with
    | leads y hy hyt => exact .leads y (hfirst.trans hy) hyt
    | waits y hnone hy hyr hyt =>
      have hne : y ≠ x := fun heq => hr (heq ▸ hyr)
      exact .waits y (hfirst.trans hnone) (hkept y hy hne) hyr hyt
    | silent hnone hnoneHeld hpend =>
      refine .silent (hfirst.trans hnone) (first_eq_none.mpr fun y hy => ?_) ?_
      · exact first_eq_none.mp hnoneHeld y (hheld y hy)
      · rwa [hround, hpending]

theorem Led.build {r : ℕ} {l : Line α} {x : α} (h : Led round token r l)
    (hround : round x = l.round) (htoken : token x = l.pending) :
    Led round token r { l with held := l.held ++ [x], pending := false } := by
  cases h with
  | leads y hy hyt => exact .leads y hy hyt
  | waits y hnone hy hyr hyt => exact .waits y hnone (List.mem_append_left _ hy) hyr hyt
  | silent hnone hnoneHeld hpend =>
    by_cases hr : l.round = r
    · -- the first item of the round takes the token
      have hx : x ∈ l.held ++ [x] := by simp
      exact .waits x hnone hx (hround.trans hr) (htoken.trans (hpend hr))
    · refine .silent hnone ?_ (fun heq => absurd heq hr)
      rw [first_append, hnoneHeld, Option.none_or, first_cons, hround, if_neg hr]
      rfl

theorem Led.drop {r : ℕ} {l l' : Line α} {x : α} (h : Led round token r l)
    (hmove : Moves round token l (.drop x) l') (htoken : token x = false) :
    Led round token r l' := by
  have hne (y : α) (hy : token y = true) : y ≠ x := by
    rintro rfl
    simp [htoken] at hy
  cases hmove with
  | dropHeld _ before after hheld =>
    obtain ⟨hkept, hsub⟩ := held_of_erase hheld
    cases h with
    | leads y hy hyt => exact .leads y hy hyt
    | waits y hnone hy hyr hyt => exact .waits y hnone (hkept y hy (hne y hyt)) hyr hyt
    | silent hnone hnoneHeld hpend =>
      exact .silent hnone
        (first_eq_none.mpr fun y hy => first_eq_none.mp hnoneHeld y (hsub y hy)) hpend
  -- the item that leaves the queue has no token, so the one that leads is still there
  | dropQueue _ rest hq =>
    have hahead : first round r (l.ahead .queue) =
        (first round r (l.out ++ l.channel)).or
          (if round x = r then some x else first round r rest) := by
      rw [Line.ahead, hq, first_append, first_cons]
    have hnone (hempty : first round r (l.ahead .queue) = none) :
        first round r (l.out ++ l.channel ++ rest) = none := by
      rw [hahead, Option.or_eq_none_iff] at hempty
      split_ifs at hempty
      · simp at hempty
      · rw [first_append, hempty.1, hempty.2, Option.none_or]
    cases h with
    | leads y hy hyt =>
      refine .leads y ?_ hyt
      rw [hahead, Option.or_eq_some_iff] at hy
      change first round r (l.out ++ l.channel ++ rest) = some y
      rw [first_append, Option.or_eq_some_iff]
      split_ifs at hy
      · exact .inl (hy.resolve_right fun hxy => hne y hyt (Option.some_inj.mp hxy.2).symm)
      · exact hy
    | waits y hempty hy hyr hyt => exact .waits y (hnone hempty) hy hyr hyt
    | silent hempty hnoneHeld hpend => exact .silent (hnone hempty) hnoneHeld hpend

/-- Every orderly step keeps the token of every round in front. -/
theorem Led.step {r : ℕ} {l l' : Line α} {lab : Label α} (h : Led round token r l)
    (hmove : Moves round token l lab l') (horder : Orderly round token l lab) :
    Led round token r l' := by
  cases lab with
  | idle =>
    cases hmove
    exact h
  | begin =>
    cases hmove
    cases h with
    | leads y hy hyt => exact .leads y hy hyt
    | waits y hnone hy hyr hyt => exact .waits y hnone hy hyr hyt
    | silent hnone hnoneHeld hpend => exact .silent hnone hnoneHeld fun _ => rfl
  | build x =>
    cases hmove with
    | build _ hround htoken => exact h.build hround htoken
  | hand k x => exact h.hand hmove horder
  | drop x => exact h.drop hmove horder

end Rounds

end TokenLine
