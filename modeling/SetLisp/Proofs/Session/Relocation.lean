import Mathlib.Logic.Function.Basic
import Mathlib.Tactic.SplitIfs

/-!
# Relocating identities

Two ways of handing out the same identities. Either those that a text needs for its literals are set
aside for all its terms at once, and what the terms draw while they run comes behind them; or each
term sets its own aside when its turn comes. One renaming takes the first way to the second.
-/

namespace SetLisp

open Function

/-- The renaming takes identities handed out in the first way to those handed out in the second. A
block has the number of identities a term sets aside and the number it draws; in the first way they
start at `aside` and at `drawn`, in the second both start at `place`. -/
def Relocates (ρ : Nat → Nat) : Nat → Nat → Nat → List (Nat × Nat) → Prop
  | _, _, _, [] => True
  | aside, drawn, place, block :: rest =>
      (∀ i < block.1, ρ (aside + i) = place + i) ∧
        (∀ i < block.2, ρ (drawn + i) = place + block.1 + i) ∧
        Relocates ρ (aside + block.1) (drawn + block.2) (place + block.1 + block.2) rest

/-- The identities a list of blocks sets aside. -/
def asideCount : List (Nat × Nat) → Nat
  | [] => 0
  | block :: rest => block.1 + asideCount rest

/-- Renaming first by what moves the blocks does not matter to what is behind them. -/
theorem Relocates.comp {ρ σ : Nat → Nat} {aside aside' drawn place : Nat}
    {blocks : List (Nat × Nat)} (h : Relocates ρ aside' drawn place blocks)
    (haside : ∀ i < asideCount blocks, σ (aside + i) = aside' + i)
    (hdrawn : ∀ i, σ (drawn + i) = drawn + i) :
    Relocates (ρ ∘ σ) aside drawn place blocks := by
  induction blocks generalizing aside aside' drawn place with
  | nil => trivial
  | cons block rest ih =>
      rw [asideCount] at haside
      obtain ⟨hfirst, hsecond, hrest⟩ := h
      refine ⟨fun i hi => ?_, fun i hi => ?_, ih hrest (fun i hi => ?_) fun i => ?_⟩
      · rw [comp_apply, haside i (by omega)]
        exact hfirst i hi
      · rw [comp_apply, hdrawn i]
        exact hsecond i hi
      · rw [Nat.add_assoc, haside (block.1 + i) (by omega), Nat.add_assoc]
      · rw [Nat.add_assoc, hdrawn]

/-- Moves `count` identities at `drawn` in front of those from `aside` to there. -/
def movedInFront (aside drawn count id : Nat) : Nat :=
  if id < aside then id
  else if id < drawn then id + count
  else if id < drawn + count then id - (drawn - aside)
  else id

theorem movedInFront_injective {aside drawn : Nat} (h : aside ≤ drawn) (count : Nat) :
    Injective (movedInFront aside drawn count) := by
  intro first second heq
  simp only [movedInFront] at heq
  split_ifs at heq <;> omega

/-- There is a renaming that does so and keeps all that was there before. -/
theorem exists_relocates (blocks : List (Nat × Nat)) (start : Nat) :
    ∃ ρ, Injective ρ ∧ (∀ id < start, ρ id = id) ∧
      Relocates ρ start (start + asideCount blocks) start blocks := by
  induction blocks generalizing start with
  | nil => exact ⟨id, injective_id, fun _ _ => rfl, trivial⟩
  | cons block rest ih =>
      -- what the first block draws goes in front of what the others have set aside
      obtain ⟨ρ, hinjective, hfixed, hrest⟩ := ih (start + block.1 + block.2)
      have hcount : asideCount (block :: rest) = block.1 + asideCount rest := rfl
      have hmoved : Injective
          (movedInFront (start + block.1) (start + asideCount (block :: rest)) block.2) :=
        movedInFront_injective (by omega) block.2
      refine ⟨_, hinjective.comp hmoved, fun id hid => ?_, fun i hi => ?_, fun i hi => ?_, ?_⟩
      · rw [comp_apply, movedInFront, if_pos (by omega)]
        exact hfixed id (by omega)
      · rw [comp_apply, movedInFront, if_pos (by omega)]
        exact hfixed _ (by omega)
      · rw [comp_apply, movedInFront, if_neg (by omega), if_neg (by omega), if_pos (by omega),
          hfixed _ (by omega)]
        omega
      · have hdrawn : start + asideCount (block :: rest) + block.2 =
            start + block.1 + block.2 + asideCount rest := by omega
        rw [hdrawn]
        refine hrest.comp (fun i hi => ?_) fun i => ?_
        · rw [movedInFront, if_neg (by omega), if_pos (by omega)]
          omega
        · rw [movedInFront, if_neg (by omega), if_neg (by omega), if_neg (by omega)]

end SetLisp
