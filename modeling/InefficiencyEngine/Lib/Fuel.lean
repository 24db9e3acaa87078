import InefficiencyEngine.Lib.Durable

namespace InefficiencyEngine

/-!
# Loops with fuel

A `while` loop is a program that takes the number of iterations it may make, and ends with
an exception of its own, `stuck`, when it needs another one.  What such a program does is
what it does with enough fuel: it *settles* on a run when every large enough amount gives
that run, and *ends* when that run is not stuck.
-/

open Durable

namespace Prog

variable {S W ε α β : Type} [Durable S W]

/-- With enough fuel, the run from `s` is `r`. -/
def Settles (m : ℕ → Prog S W ε α) (s : S) (r : List W × Except ε α) : Prop :=
  ∃ n, ∀ fuel, n ≤ fuel → m fuel s = r

/-- With enough fuel, the run from `s` is the same for every amount, and not stuck. -/
def Ends (stuck : ε) (m : ℕ → Prog S W ε α) (s : S) : Prop :=
  ∃ r, Settles m s r ∧ r.2 ≠ .error stuck

variable {m : ℕ → Prog S W ε α} {f : ℕ → α → Prog S W ε β} {s : S} {stuck : ε}

omit [Durable S W] in
theorem settles_const (m : Prog S W ε α) (s : S) : Settles (fun _ => m) s (m s) :=
  ⟨0, fun _ _ => rfl⟩

omit [Durable S W] in
theorem ends_const {m : Prog S W ε α} (h : (m s).2 ≠ .error stuck) : Ends stuck (fun _ => m) s :=
  ⟨m s, settles_const m s, h⟩

omit [Durable S W] in
/-- The fuel a loop spends on an iteration does not matter. -/
theorem Settles.of_succ {r : List W × Except ε α} (h : Settles (fun fuel => m (fuel + 1)) s r) :
    Settles m s r := by
  obtain ⟨n, hn⟩ := h
  refine ⟨n + 1, fun fuel hfuel => ?_⟩
  obtain ⟨fuel, rfl⟩ := Nat.exists_eq_succ_of_ne_zero (Nat.ne_zero_of_lt hfuel)
  exact hn fuel (Nat.le_of_succ_le_succ hfuel)

omit [Durable S W] in
theorem Ends.of_succ (h : Ends stuck (fun fuel => m (fuel + 1)) s) : Ends stuck m s := by
  obtain ⟨r, hr, hne⟩ := h
  exact ⟨r, hr.of_succ, hne⟩

/-- A program that ended normally hands over to the next one. -/
theorem Settles.bind_ok {ws : List W} {a : α} {r : List W × Except ε β}
    (hm : Settles m s (ws, .ok a)) (hf : Settles (fun fuel => f fuel a) (commitAll s ws) r) :
    Settles (fun fuel => m fuel >>= f fuel) s (ws ++ r.1, r.2) := by
  obtain ⟨n, hn⟩ := hm
  obtain ⟨n', hn'⟩ := hf
  refine ⟨max n n', fun fuel hfuel => ?_⟩
  have hrest := hn' fuel (Nat.le_trans (Nat.le_max_right _ _) hfuel)
  dsimp only at hrest
  show (m fuel >>= f fuel) s = _
  rw [run_bind_of_ok (hn fuel (Nat.le_trans (Nat.le_max_left _ _) hfuel)), hrest]

/-- What holds after a normal end for every amount of fuel holds of the run. -/
theorem Settles.post {P : S → Prop} {G : S → List W → Prop} {Q : α → S → Prop} {ws : List W} {a : α}
    (h : Settles m s (ws, .ok a)) (hm : ∀ fuel, Spec P (m fuel) G Q) (hs : P s) :
    Q a (commitAll s ws) := by
  obtain ⟨n, hn⟩ := h
  have hrun := hn n (Nat.le_refl n)
  have hpost := (hm n).post s a hs (congrArg Prod.snd hrun)
  rwa [final, hrun] at hpost

/-- A program that takes no fuel and ended normally hands over to the next one. -/
theorem settles_bind_of_ok {m : Prog S W ε α} {ws : List W} {a : α} {r : List W × Except ε β}
    (hm : m s = (ws, .ok a)) (hf : Settles (fun fuel => f fuel a) (commitAll s ws) r) :
    Settles (fun fuel => m >>= f fuel) s (ws ++ r.1, r.2) :=
  Settles.bind_ok (hm ▸ settles_const m s) hf

omit [Durable S W] in
/-- A program settles on one run. -/
theorem Settles.unique {r r' : List W × Except ε α} (h : Settles m s r) (h' : Settles m s r') :
    r = r' := by
  obtain ⟨n, hn⟩ := h
  obtain ⟨n', hn'⟩ := h'
  rw [← hn (max n n') (Nat.le_max_left _ _), hn' (max n n') (Nat.le_max_right _ _)]

/-- An exception ends a sequence. -/
theorem Settles.bind_error {ws : List W} {e : ε} (hm : Settles m s (ws, .error e)) :
    Settles (fun fuel => m fuel >>= f fuel) s (ws, .error e) := by
  obtain ⟨n, hn⟩ := hm
  refine ⟨n, fun fuel hfuel => ?_⟩
  show Prog.bind (m fuel) (f fuel) s = _
  rw [Prog.bind, hn fuel hfuel]

/-- **Sequencing.** A sequence ends if its first program does, and its second one from what
    the first one leaves. -/
theorem Ends.bind (hm : Ends stuck m s)
    (hf : ∀ ws a, Settles m s (ws, .ok a) → Ends stuck (fun fuel => f fuel a) (commitAll s ws)) :
    Ends stuck (fun fuel => m fuel >>= f fuel) s := by
  obtain ⟨⟨ws, result⟩, hsettles, hne⟩ := hm
  cases result with
  | error e => exact ⟨_, hsettles.bind_error, fun h => hne (congrArg Except.error (Except.error.inj h))⟩
  | ok a =>
    obtain ⟨r, hr, hne'⟩ := hf ws a hsettles
    exact ⟨_, hsettles.bind_ok hr, hne'⟩

/-- A sequence whose first program takes no fuel. -/
theorem ends_bind_of_ok {m : Prog S W ε α} {ws : List W} {a : α} (hm : m s = (ws, .ok a))
    (hf : Ends stuck (fun fuel => f fuel a) (commitAll s ws)) :
    Ends stuck (fun fuel => m >>= f fuel) s := by
  refine Ends.bind ⟨m s, settles_const m s, ?_⟩ (fun ws' a' h => ?_)
  · rw [hm]
    exact fun h => by cases h
  · obtain ⟨n, hn⟩ := h
    have heq := (hn n (Nat.le_refl n)).symm.trans hm
    rw [Prod.mk.injEq, Except.ok.injEq] at heq
    rw [heq.1, heq.2]
    exact hf

/-- A pure computation that does not get stuck hands over to the rest or ends the sequence. -/
theorem ends_bind_lift {x : Except ε α} (hx : x ≠ .error stuck)
    (hf : ∀ a, x = .ok a → Ends stuck (fun fuel => f fuel a) s) :
    Ends stuck (fun fuel => lift x >>= f fuel) s := by
  cases x with
  | error e =>
    refine Ends.bind (ends_const hx) (fun ws a h => ?_)
    obtain ⟨n, hn⟩ := h
    cases (Prod.mk.inj (hn n (Nat.le_refl n))).2
  | ok a => exact ends_bind_of_ok rfl (hf a rfl)

/-! ### Programs that cannot get stuck -/

/-- No run of the program ends with this exception. -/
def Avoids (stuck : ε) (m : Prog S W ε α) : Prop := ∀ s, (m s).2 ≠ .error stuck

section Avoids

variable {m : Prog S W ε α} {f : α → Prog S W ε β}

omit [Durable S W] in
theorem Avoids.ends (h : Avoids stuck m) (s : S) : Ends stuck (fun _ => m) s := ends_const (h s)

theorem avoids_pure (a : α) : Avoids stuck (pure a : Prog S W ε α) := fun _ h => by cases h

omit [Durable S W] in
theorem avoids_get : Avoids stuck (get : Prog S W ε S) := fun _ h => by cases h

omit [Durable S W] in
theorem avoids_write (w : W) : Avoids stuck (write w : Prog S W ε Unit) := fun _ h => by cases h

omit [Durable S W] in
theorem avoids_lift {x : Except ε α} (h : x ≠ .error stuck) :
    Avoids stuck (lift x : Prog S W ε α) := fun _ => h

theorem avoids_bind (hm : Avoids stuck m) (hf : ∀ a, Avoids stuck (f a)) :
    Avoids stuck (m >>= f) := by
  intro s
  show (Prog.bind m f s).2 ≠ _
  unfold Prog.bind
  cases hres : (m s).2 with
  | error e =>
    intro h
    injection h with h
    exact hm s (by rw [hres, h])
  | ok a => exact hf a _

/-- A clean-up does not change the exception. -/
theorem avoids_onError {cleanup : Prog S W ε Unit} (hm : Avoids stuck m) :
    Avoids stuck (onError m cleanup) := by
  intro s
  rw [onError]
  cases hres : (m s).2 with
  | ok a =>
    simp only [hres]
    exact fun h => by cases h
  | error e =>
    simp only
    intro h
    injection h with h
    exact hm s (by rw [hres, h])

end Avoids

end Prog

end InefficiencyEngine
