import InefficiencyEngine.Lib.Durable

namespace InefficiencyEngine

/-!
# Programs on a part of a store

A view makes a store out of a part of a larger one: every write to the part is a write to
the whole that does to the part what it should.  A program on the part is then a program on
the whole (`Prog.within`), and a triple about it holds there, with a frame for what the
writes to the part leave alone (`Prog.spec_within`).
-/

open Durable

variable {S W S' W' ε α : Type} [Durable S W] [Durable S' W']

/-- A store as a part of a larger one. -/
structure StoreView (S W S' W' : Type) [Durable S W] [Durable S' W'] where
  part : S' → S
  inject : W → W'
  part_commit : ∀ s w, part (commit s (inject w)) = commit (part s) w

namespace StoreView

variable (v : StoreView S W S' W')

/-- The part after a list of its writes. -/
theorem part_commitAll (s : S') (ws : List W) :
    v.part (commitAll s (ws.map v.inject)) = commitAll (v.part s) ws := by
  induction ws generalizing s with
  | nil => rfl
  | cons w ws ih => rw [List.map_cons, commitAll_cons, commitAll_cons, ih, v.part_commit]

/-- A fact about the whole that writes to the part keep. -/
def Frames (F : S' → Prop) : Prop := ∀ s w, F s → F (commit s (v.inject w))

variable {v} {F : S' → Prop}

theorem Frames.commitAll (hF : v.Frames F) {s : S'} (hs : F s) (ws : List W) :
    F (commitAll s (ws.map v.inject)) := by
  induction ws generalizing s with
  | nil => exact hs
  | cons w ws ih => exact ih (hF s w hs)

/-- Blocks of writes to the part are blocks of writes to the whole. -/
theorem along {G : S → List W → Prop} {G' : S' → List W' → Prop} (hF : v.Frames F)
    (hG : ∀ s block, F s → G (v.part s) block → G' s (block.map v.inject)) {t : S} {ws : List W}
    (h : Along G t ws) {s : S'} (ht : v.part s = t) (hs : F s) :
    Along G' s (ws.map v.inject) := by
  induction h generalizing s with
  | nil t => exact Along.nil s
  | @cons t block rest hblock _ ih =>
    subst ht
    rw [List.map_append]
    exact Along.cons (hG s block hs hblock) (ih (v.part_commitAll s block) (hF.commitAll hs block))

end StoreView

namespace Prog

variable {v : StoreView S W S' W'}

/-- A program on the part, run on the whole. -/
def within (v : StoreView S W S' W') (m : Prog S W ε α) : Prog S' W' ε α :=
  fun s => ((m (v.part s)).1.map v.inject, (m (v.part s)).2)

/-- **Frame rule.** A triple about the part holds of the whole. -/
theorem spec_within {P : S → Prop} {m : Prog S W ε α} {G : S → List W → Prop}
    {Q : α → S → Prop} {F : S' → Prop} {G' : S' → List W' → Prop} (h : Spec P m G Q)
    (hF : v.Frames F)
    (hG : ∀ s block, F s → G (v.part s) block → G' s (block.map v.inject)) :
    Spec (fun s => P (v.part s) ∧ F s) (m.within v) G' (fun a s => Q a (v.part s) ∧ F s) where
  guarantee s hs := v.along hF hG (h.guarantee (v.part s) hs.1) rfl hs.2
  post s a hs ha := by
    refine ⟨?_, hF.commitAll hs.2 _⟩
    show Q a (v.part (commitAll s ((m (v.part s)).1.map v.inject)))
    rw [v.part_commitAll]
    exact h.post (v.part s) a hs.1 ha

/-- The frame rule for programs that may raise. -/
theorem exits_within {P : S → Prop} {m : Prog S W ε α} {G : S → List W → Prop}
    {Q : α → S → Prop} {E : ε → S → Prop} {F : S' → Prop} {G' : S' → List W' → Prop}
    (h : Exits P m G Q E) (hF : v.Frames F)
    (hG : ∀ s block, F s → G (v.part s) block → G' s (block.map v.inject)) :
    Exits (fun s => P (v.part s) ∧ F s) (m.within v) G' (fun a s => Q a (v.part s) ∧ F s)
      (fun e s => E e (v.part s) ∧ F s) where
  toSpec := spec_within h.toSpec hF hG
  raised s e hs he := by
    refine ⟨?_, hF.commitAll hs.2 _⟩
    show E e (v.part (commitAll s ((m (v.part s)).1.map v.inject)))
    rw [v.part_commitAll]
    exact h.raised (v.part s) e hs.1 he

end Prog

end InefficiencyEngine
